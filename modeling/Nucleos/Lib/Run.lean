import Mathlib

/-!
# Runs of a machine whose steps may fail

A step yields a successor or a reason for which there is none. A trace is a finite
run with its states kept by position, so that a statement can speak about what held
earlier in the run. The rules below reduce a property of runs to one of steps.
-/

namespace Nucleos.Run

universe u v w
variable {ε : Type u} {α β : Type v} {x : Except ε α} {b a : α} {e : ε} {P : α → Prop}

lemma bind_eq_ok {f : α → Except ε β} {b : β} : (x >>= f) = .ok b ↔ ∃ a, x = .ok a ∧ f a = .ok b := by
  cases x with
  | error e | ok a => simp [bind, Except.bind]

lemma map_eq_ok {f : α → β} {b : β} : x.map f = .ok b ↔ ∃ a, x = .ok a ∧ f a = b := by
  cases x with
  | error e | ok a => simp [Except.map]

@[simp] lemma pure_eq_ok : (pure a : Except ε α) = .ok b ↔ a = b := by
  simp [pure, Except.pure]

lemma ok_pair_inj {c : α} {b d : β} (h : (.ok (a, b) : Except ε (α × β)) = .ok (c, d)) : a = c ∧ b = d :=
  Prod.mk.inj (Except.ok.inj h)

def failure : Except ε α → Option ε
  | .ok _ => none
  | .error e => some e

lemma failure_eq_some : failure x = some e ↔ x = .error e := by
  cases x with
  | ok a => simp [failure]
  | error e' => simp [failure]

lemma foldlM_ok {γ : Type w} {f : α → γ → Except ε α} {P : List γ → α → Prop} {l : List γ}
    (hstep : ∀ done x rest a b, l = done ++ x :: rest → P done a → f a x = .ok b → P (done ++ [x]) b)
    (h0 : P [] a) (h : l.foldlM f a = .ok b) : P l b := by
  have go : ∀ (rest done : List γ) (a : α), l = done ++ rest → P done a → rest.foldlM f a = .ok b →
      P l b := by
    intro rest
    induction rest with
    | nil =>
      intro done a hl hP h
      have hab : a = b := by simpa [List.foldlM] using h
      rw [List.append_nil] at hl
      rw [hl, ← hab]
      exact hP
    | cons x rest ih =>
      intro done a hl hP h
      rw [List.foldlM_cons, bind_eq_ok] at h
      obtain ⟨c, hc, h⟩ := h
      exact ih (done ++ [x]) c (by simpa using hl) (hstep done x rest a c hl hP hc) h
  exact go l [] a rfl h0 h

/-- A loop over distinct indexes whose body handles the part of the state that belongs to its
index. -/
theorem foldlM_each {γ ρ : Type w} {f : α → γ → Except ε α} {g : α → γ → ρ} {Q : γ → ρ → ρ → Prop}
    {F : α → Prop} {l : List γ}
    (hnodup : l.Nodup) (hstep : ∀ {a b x}, F a → f a x = .ok b → F b ∧ Q x (g a x) (g b x) ∧
      ∀ y, y ≠ x → g b y = g a y)
    (h0 : F a) (h : l.foldlM f a = .ok b) :
    F b ∧ (∀ x ∈ l, Q x (g a x) (g b x)) ∧ ∀ x ∉ l, g b x = g a x := by
  have hloop := foldlM_ok (P := fun done c => F c ∧ (∀ x ∈ done, Q x (g a x) (g c x)) ∧ ∀ x ∉ done,
    g c x = g a x)
    (fun done x rest c d hl hc hd => ?_) ⟨h0, nofun, fun _ _ => rfl⟩ h
  · exact hloop
  obtain ⟨hframe, hdone, hrest⟩ := hc
  obtain ⟨hframe', hQ, hother⟩ := hstep hframe hd
  have hx : x ∉ done := by
    rw [hl] at hnodup
    exact fun hx => (List.nodup_append.mp hnodup).2.2 x hx x (.head _) rfl
  refine ⟨hframe', fun y hy => ?_, fun y hy => ?_⟩
  · rcases List.mem_append.mp hy with hy | hy
    · have hyx : y ≠ x := fun heq => hx (heq ▸ hy)
      rw [hother y hyx]
      exact hdone y hy
    · obtain rfl := List.mem_singleton.mp hy
      rw [← hrest y hx]
      exact hQ
  · rw [List.mem_append, List.mem_singleton, not_or] at hy
    rw [hother y hy.2, hrest y hy.1]

def Avoids (e : ε) (x : Except ε α) : Prop := x ≠ .error e

@[simp] lemma avoids_ok : Avoids e (.ok a) := nofun

@[simp] lemma avoids_error {e' : ε} : Avoids e (.error e' : Except ε α) ↔ e' ≠ e := by simp [Avoids]

@[simp] lemma avoids_bind {f : α → Except ε β} :
    Avoids e (x >>= f) ↔ Avoids e x ∧ ∀ a, x = .ok a → Avoids e (f a) := by
  cases x with
  | error e' | ok a => simp [Avoids, bind, Except.bind]

@[simp] lemma avoids_ite {c : Prop} [Decidable c] {y : Except ε α} :
    Avoids e (if c then x else y) ↔ (c → Avoids e x) ∧ (¬ c → Avoids e y) := by
  split <;> simp [*]

lemma avoids_foldlM {γ : Type w} {f : α → γ → Except ε α} (hf : ∀ a x, Avoids e (f a x))
    (l : List γ) (a : α) : Avoids e (l.foldlM f a) := by
  induction l generalizing a with
  | nil => exact avoids_ok
  | cons x l ih =>
    rw [List.foldlM_cons, avoids_bind]
    exact ⟨hf a x, fun b _ => ih b⟩

/-- The computation ends with a result like this, or fails for another reason than this one. -/
structure Yields (e : ε) (P : α → Prop) (x : Except ε α) : Prop where
  ok : ∀ a, x = .ok a → P a
  avoids : Avoids e x

lemma yields_ok (h : P a) : Yields e P (.ok a) :=
  ⟨fun _ heq => Except.ok.inj heq ▸ h, avoids_ok⟩

lemma yields_error {e' : ε} (h : e' ≠ e) : Yields e P (.error e') :=
  ⟨nofun, avoids_error.mpr h⟩

lemma Yields.bind {Q : β → Prop} {f : α → Except ε β} (hx : Yields e P x)
    (hf : ∀ a, x = .ok a → P a → Yields e Q (f a)) : Yields e Q (x >>= f) := by
  refine ⟨fun b h => ?_, avoids_bind.mpr ⟨hx.avoids, fun a ha => (hf a ha (hx.ok a ha)).avoids⟩⟩
  obtain ⟨a, ha, hb⟩ := bind_eq_ok.mp h
  exact (hf a ha (hx.ok a ha)).ok b hb

lemma Yields.guard {c : Prop} [Decidable c] (hx : c → Yields e P x) (ha : P a) :
    Yields e P (if c then x else .ok a) := by
  split
  · exact hx ‹c›
  · exact yields_ok ha

lemma yields_foldlM {γ : Type w} {f : α → γ → Except ε α} (hf : ∀ a x, P a → Yields e P (f a x))
    (l : List γ) (a : α) (ha : P a) : Yields e P (l.foldlM f a) := by
  induction l generalizing a with
  | nil => exact yields_ok ha
  | cons x l ih =>
    rw [List.foldlM_cons]
    exact (hf a x ha).bind fun b _ hb => ih b hb

variable {σ : Type v} {act : Type w}

/-- A run of `n` steps; the states and actions beyond its end are irrelevant. -/
structure Trace (step : σ → act → Except ε σ) (n : Nat) where
  state : Nat → σ
  act : Nat → act
  ok : ∀ i < n, step (state i) (act i) = .ok (state (i + 1))

namespace Trace
variable {step : σ → act → Except ε σ} {n : Nat}

/-- A property preserved by every step that meets a side condition holds all along a run
whose steps meet it. -/
theorem invariant_of (t : Trace step n) (Inv : σ → Prop) (Cond : σ → act → Prop)
    (hinit : Inv (t.state 0)) (hcond : ∀ i < n, Cond (t.state i) (t.act i))
    (hstep : ∀ {s a s'}, Inv s → Cond s a → step s a = .ok s' → Inv s') : ∀ i ≤ n, Inv (t.state i) := by
  intro i
  induction i with
  | zero => exact fun _ => hinit
  | succ i ih =>
    intro hi
    exact hstep (ih (by omega)) (hcond i (by omega)) (t.ok i (by omega))

lemma invariant (t : Trace step n) (Inv : σ → Prop) (hinit : Inv (t.state 0))
    (hstep : ∀ {s a s'}, Inv s → step s a = .ok s' → Inv s') : ∀ i ≤ n, Inv (t.state i) :=
  t.invariant_of Inv (fun _ _ => True) hinit (fun _ _ => trivial)
    (fun h _ hs => hstep h hs)

/-- The state after the first `n` actions; an action that fails is skipped. -/
def after (step : σ → act → Except ε σ) (s : σ) (acts : Nat → act) : Nat → σ
  | 0 => s
  | n + 1 =>
    match step (after step s acts n) (acts n) with
    | .ok t => t
    | .error _ => after step s acts n

def run (step : σ → act → Except ε σ) (s : σ) (acts : Nat → act) (n : Nat)
    (h : ∀ i < n, (step (after step s acts i) (acts i)).isOk = true) : Trace step n where
  state := after step s acts
  act := acts
  ok i hi := by
    have hok := h i hi
    rw [after]
    cases hs : step (after step s acts i) (acts i) with
    | ok t => rfl
    | error e => simp [hs, Except.isOk, Except.toBool] at hok

end Trace

end Nucleos.Run
