import Nucleos.Timers.Queue

/-!
# Running the expired timers

A program calls the three functions in any order. While `tmrs_exptimers` is at work, the calls are
those of the watchdog it has just started, and `returns` is the return of that watchdog to the loop.
The history of a run says which armings of timers are still in force, and the queue agrees with it.
-/

namespace Nucleos.Timers

open IntrusiveList Run

/-- What a step of a program does that its caller can see. -/
inductive Event (N : Nat) (W : Type) where
  | changed (heads : Queue.Heads)
  | ran (now : Int) (tp : Fin N) (watchdog : W)
  | ended (now newHead : Int)
deriving DecidableEq, Repr

def Event.isRan {N : Nat} {W : Type} : Event N W → Bool
  | .ran _ _ _ => true
  | _ => false

inductive Call (N : Nat) (W : Type) where
  | settimer (tp : Fin N) (expTime : Int) (watchdog : W)
  | clrtimer (tp : Fin N)
  | exptimers (now : Int)
  | returns
deriving DecidableEq, Repr

def Call.isSet {N : Nat} {W : Type} : Call N W → Bool
  | .settimer _ _ _ => true
  | _ => false

/-- A program with one queue; `running` is the time given to the `tmrs_exptimers` that is at
work. -/
structure Program (N : Nat) (W : Type) where
  queue : Queue N W
  running : Option Int
  last : Event N W

namespace Program
variable {N : Nat} {W : Type}

def turn (now : Int) (q : Queue N W) : Program N W :=
  match q.takeDue now with
  | some (tp, q') => ⟨q', some now, .ran now tp (q'.func tp)⟩
  | none => ⟨q, none, .ended now q.headTime⟩

def step (p : Program N W) : Call N W → Except Stop (Program N W)
  | .settimer tp expTime watchdog => do
    let (heads, q) ← p.queue.tmrsSettimer tp expTime watchdog
    return { p with queue := q, last := .changed heads }
  | .clrtimer tp => do
    let (heads, q) ← p.queue.tmrsClrtimer tp
    return { p with queue := q, last := .changed heads }
  | .exptimers now => if p.running = none then .ok (turn now p.queue) else .error .misuse
  | .returns =>
    match p.running with
    | some now => .ok (turn now p.queue)
    | none => .error .misuse

def Loops (p : Program N W) (now : Int) : Call N W → Prop
  | .exptimers t => p.running = none ∧ t = now
  | .returns => p.running = some now
  | _ => False

def Disarms (last : Event N W) (tp : Fin N) : Call N W → Prop
  | .settimer t _ _ => t = tp
  | .clrtimer t => t = tp
  | _ => ∃ now w, last = .ran now tp w

variable {p p' : Program N W} {l : List (Fin N)} {a : Call N W}

inductive Turns (p : Program N W) (l : List (Fin N)) (p' : Program N W) : List (Fin N) → Call N W → Prop where
  | set {l' : List (Fin N)} {tp : Fin N} {e : Int} {w : W} {heads : Queue.Heads} : l'.Perm (tp ::
      l.erase tp) →
      p'.queue.expTime tp = e → p'.queue.func tp = w →
      (∀ b, b ≠ tp → p'.queue.expTime b = p.queue.expTime b ∧ p'.queue.func b = p.queue.func b) →
      p'.last = .changed heads → Turns p l p' l' (.settimer tp e w)
  | clear {tp : Fin N} {heads : Queue.Heads} : p'.queue.func = p.queue.func →
      (∀ b, b ≠ tp → p'.queue.expTime b = p.queue.expTime b) →
      p'.last = .changed heads → Turns p l p' (l.erase tp) (.clrtimer tp)
  | run {l' : List (Fin N)} {tp : Fin N} {now : Int} {a : Call N W} : p.Loops now a → l = tp :: l' →
      p.queue.expTime tp ≤ now →
      p'.queue.func = p.queue.func → (∀ b, b ≠ tp → p'.queue.expTime b = p.queue.expTime b) →
      p'.last = .ran now tp (p.queue.func tp) → Turns p l p' l' a
  | finish {now : Int} {a : Call N W} : p.Loops now a → p'.queue = p.queue →
      (∀ b ∈ l, now < p.queue.expTime b) →
      p'.last = .ended now p.queue.headTime → Turns p l p' l a

variable {now : Int}

lemma turn_spec (h : p.queue.Holds l) (hloop : p.Loops now a) :
    ∃ l', (turn now p.queue).queue.Holds l' ∧ Turns p l (turn now p.queue) l' a := by
  cases ht : p.queue.takeDue now with
  | none =>
    have hturn : turn now p.queue = ⟨p.queue, none, .ended now p.queue.headTime⟩ := by rw [turn, ht]
    rw [hturn]
    exact ⟨l, h, .finish hloop rfl (Queue.takeDue_none h ht) rfl⟩
  | some r =>
    obtain ⟨tp, q'⟩ := r
    have hturn : turn now p.queue = ⟨q', some now, .ran now tp (q'.func tp)⟩ := by rw [turn, ht]
    obtain ⟨l', hl, hdue, h', hfunc, hexp⟩ := Queue.takeDue_some h ht
    rw [hturn, hfunc]
    exact ⟨l', h', .run hloop hl hdue hfunc hexp rfl⟩

lemma step_spec (h : p.queue.Holds l) (hs : step p a = .ok p') :
    ∃ l', p'.queue.Holds l' ∧ Turns p l p' l' a := by
  cases a with
  | settimer tp e w =>
    obtain ⟨q', l', hset, h', hperm, hexp, hfunc, hother⟩ := Queue.tmrsSettimer_spec h tp e w
    obtain rfl : _ = p' := by simpa [step, hset, bind, Except.bind, pure, Except.pure] using hs
    exact ⟨l', h', .set hperm hexp hfunc hother rfl⟩
  | clrtimer tp =>
    obtain ⟨q', hclr, h', hfunc, hother⟩ := Queue.tmrsClrtimer_spec h tp
    obtain rfl : _ = p' := by simpa [step, hclr, bind, Except.bind, pure, Except.pure] using hs
    exact ⟨_, h', .clear hfunc hother rfl⟩
  | exptimers now =>
    rcases ite_eq_iff.mp hs with ⟨hidle, hs⟩ | ⟨_, hs⟩
    · cases hs
      exact turn_spec h ⟨hidle, rfl⟩
    · nomatch hs
  | returns =>
    cases hrun : p.running with
    | none => simp [step, hrun] at hs
    | some now =>
      obtain rfl : turn now p.queue = p' := by simpa [step, hrun] using hs
      exact turn_spec h hrun

lemma step_avoids_endless (h : p.queue.Holds l) (a : Call N W) : Avoids .endless (step p a) := by
  cases a with
  | settimer tp e w =>
    obtain ⟨q', l', hset, -⟩ := Queue.tmrsSettimer_spec h tp e w
    rw [step, hset]
    exact avoids_ok
  | clrtimer tp =>
    obtain ⟨q', hclr, -⟩ := Queue.tmrsClrtimer_spec h tp
    rw [step, hclr]
    exact avoids_ok
  | exptimers now => simp [step]
  | returns =>
    cases hrun : p.running with
    | none | some now => simp [step, hrun]

section History
variable {n : Nat} (tr : Trace (step (N := N) (W := W)) n)

def Armed (i j : Nat) (tp : Fin N) (e : Int) (w : W) : Prop :=
  i < j ∧ tr.act i = .settimer tp e w ∧ ∀ k, i < k → k < j → ¬ Disarms (tr.state (k + 1)).last tp (tr.act k)

variable {tr} {j : Nat} {e : Int}

lemma armed_succ {i : Nat} {tp : Fin N} {w : W} : Armed tr i (j + 1) tp e w ↔
    (i = j ∧ tr.act j = .settimer tp e w) ∨
      (Armed tr i j tp e w ∧ ¬ Disarms (tr.state (j + 1)).last tp (tr.act j)) := by
  constructor
  · rintro ⟨hij, hact, hlater⟩
    rcases Nat.lt_succ_iff_lt_or_eq.mp hij with hij | rfl
    · exact .inr ⟨⟨hij, hact, fun k hik hkj => hlater k hik (by omega)⟩, hlater j hij (by omega)⟩
    · exact .inl ⟨rfl, hact⟩
  rintro (⟨rfl, hact⟩ | ⟨⟨hij, hact, hlater⟩, hj⟩)
  · exact ⟨Nat.lt_succ_self i, hact, fun k hik hki => by omega⟩
  · refine ⟨by omega, hact, fun k hik hkj => ?_⟩
    rcases Nat.lt_succ_iff_lt_or_eq.mp hkj with hkj | rfl
    · exact hlater k hik hkj
    · exact hj

/-- The active timers are those with an arming in force, and carry what it set. -/
structure Tracks (tr : Trace (step (N := N) (W := W)) n) (j : Nat) (l : List (Fin N)) : Prop where
  holds : (tr.state j).queue.Holds l
  armed : ∀ tp ∈ l, ∃ i, Armed tr i j tp ((tr.state j).queue.expTime tp) ((tr.state j).queue.func tp)
  active : ∀ {i tp e w}, Armed tr i j tp e w →
    tp ∈ l ∧ (tr.state j).queue.expTime tp = e ∧ (tr.state j).queue.func tp = w

/-- A step keeps the queue in agreement with the history when it changes only timers that it
disarms, and keeps of these the one that it sets. -/
theorem Tracks.extend {l' : List (Fin N)} (h : Tracks tr j l) (hl' : (tr.state (j + 1)).queue.Holds l')
    (hset : ∀ tp e w, tr.act j = .settimer tp e w →
      tp ∈ l' ∧ (tr.state (j + 1)).queue.expTime tp = e ∧ (tr.state (j + 1)).queue.func tp = w)
    (hgone : ∀ b ∈ l', Disarms (tr.state (j + 1)).last b (tr.act j) → ∃ e w, tr.act j = .settimer b e w)
    (hkeep : ∀ b, ¬ Disarms (tr.state (j + 1)).last b (tr.act j) → (b ∈ l' ↔ b ∈ l) ∧
      (tr.state (j + 1)).queue.expTime b = (tr.state j).queue.expTime b ∧
      (tr.state (j + 1)).queue.func b = (tr.state j).queue.func b) : Tracks tr (j + 1) l' := by
  refine ⟨hl', fun b hb => ?_, fun {i b e w} harmed => ?_⟩
  · by_cases hdis : Disarms (tr.state (j + 1)).last b (tr.act j)
    · obtain ⟨e, w, hact⟩ := hgone b hb hdis
      obtain ⟨-, he, hw⟩ := hset b e w hact
      exact ⟨j, armed_succ.mpr (.inl ⟨rfl, by rw [hact, he, hw]⟩)⟩
    · obtain ⟨hmem, he, hw⟩ := hkeep b hdis
      obtain ⟨i, hi⟩ := h.armed b (hmem.mp hb)
      exact ⟨i, armed_succ.mpr (.inr ⟨by rw [he, hw]; exact hi, hdis⟩)⟩
  · rcases armed_succ.mp harmed with ⟨rfl, hact⟩ | ⟨harmed, hdis⟩
    · exact hset b e w hact
    · obtain ⟨hmem, he, hw⟩ := hkeep b hdis
      obtain ⟨hbl, hbe, hbw⟩ := h.active harmed
      exact ⟨hmem.mpr hbl, he.trans hbe, hw.trans hbw⟩

lemma Loops.not_set {tp : Fin N} {w : W} : ¬ p.Loops now (.settimer tp e w) := id

lemma Loops.unique {now' : Int} (h : p.Loops now a) (h' : p.Loops now' a) : now = now' := by
  cases a with
  | settimer tp e w => exact h.elim
  | clrtimer tp => exact h.elim
  | exptimers t => exact h.2.symm.trans h'.2
  | returns => exact Option.some.inj (h.symm.trans h')

lemma Loops.disarms {last : Event N W} {tp : Fin N} (h : p.Loops now a) :
    Disarms last tp a ↔ ∃ now w, last = .ran now tp w := by
  cases a with
  | settimer tp e w => exact h.elim
  | clrtimer tp => exact h.elim
  | exptimers t => exact Iff.rfl
  | returns => exact Iff.rfl

lemma Tracks.succ (hj : j < n) (h : Tracks tr j l) : ∃ l', Tracks tr (j + 1) l' ∧
    Turns (tr.state j) l (tr.state (j + 1)) l' (tr.act j) := by
  obtain ⟨l', hl', hturns⟩ := step_spec h.holds (tr.ok j hj)
  refine ⟨l', ?_, hturns⟩
  have hnodup := h.holds.nodup
  generalize hact : tr.act j = a at hturns
  cases hturns with
  | @set l' tp e w heads hperm hexp hfunc hother hlast =>
    apply h.extend hl' <;> rw [hact]
    · intro tp' e' w' heq
      obtain ⟨rfl, rfl, rfl⟩ := Call.settimer.inj heq
      exact ⟨hperm.mem_iff.mpr (.head _), hexp, hfunc⟩
    · rintro b - rfl
      exact ⟨e, w, rfl⟩
    · intro b hb
      have hne : b ≠ tp := fun heq => hb heq.symm
      refine ⟨?_, hother b hne⟩
      rw [hperm.mem_iff, List.mem_cons, List.mem_erase_of_ne hne]
      exact or_iff_right hne
  | @clear tp heads hfunc hother hlast =>
    apply h.extend hl' <;> rw [hact]
    · intro tp' e' w' heq
      nomatch heq
    · rintro b hb rfl
      exact absurd hb (List.Nodup.not_mem_erase hnodup)
    · intro b hb
      have hne : b ≠ tp := fun heq => hb heq.symm
      exact ⟨List.mem_erase_of_ne hne, hother b hne, by rw [hfunc]⟩
  | @run l' tp now _ hloop hl hdue hfunc hother hlast =>
    have hnot := (List.nodup_cons.mp (hl ▸ hnodup)).1
    apply h.extend hl' <;> rw [hact]
    · rintro tp' e' w' rfl
      exact hloop.not_set.elim
    · intro b hb hdis
      obtain ⟨_, _, heq⟩ := hloop.disarms.mp hdis
      obtain ⟨-, rfl, -⟩ := Event.ran.inj (hlast.symm.trans heq)
      exact absurd hb hnot
    · intro b hb
      have hne : b ≠ tp := fun heq => hb (hloop.disarms.mpr ⟨now, _, heq ▸ hlast⟩)
      refine ⟨?_, hother b hne, by rw [hfunc]⟩
      rw [hl, List.mem_cons]
      exact (or_iff_right hne).symm
  | @finish now _ hloop hqueue hnone hlast =>
    apply h.extend hl' <;> rw [hact]
    · rintro tp' e' w' rfl
      exact hloop.not_set.elim
    · intro b hb hdis
      obtain ⟨_, _, heq⟩ := hloop.disarms.mp hdis
      nomatch hlast.symm.trans heq
    · intro b _
      rw [hqueue]
      exact ⟨Iff.rfl, rfl, rfl⟩

lemma tracks (h0 : (tr.state 0).queue.front = none) : ∀ j ≤ n, ∃ l, Tracks tr j l := by
  intro j
  induction j with
  | zero =>
    refine fun _ => ⟨[], ⟨?_, List.Pairwise.nil⟩, nofun, fun harmed => ?_⟩
    · rw [h0]
      exact .nil
    · exact absurd harmed.1 (Nat.not_lt_zero _)
  | succ j ih =>
    intro hj
    obtain ⟨l, h⟩ := ih (by omega)
    obtain ⟨l', h', -⟩ := h.succ (by omega)
    exact ⟨l', h'⟩

lemma ran_le_set (h0 : (tr.state 0).queue.front = none) : ∀ j ≤ n, ∀ l, Tracks tr j l →
    Nat.count (fun k => (tr.state (k + 1)).last.isRan) j + l.length ≤
      Nat.count (fun k => (tr.act k).isSet) j := by
  intro j
  induction j with
  | zero =>
    intro _ l h
    have hnil : Links (tr.state 0).queue.tmrs.next none l := h0 ▸ h.holds.links
    simp [hnil.unique .nil]
  | succ j ih =>
    intro hj l' h'
    obtain ⟨l, h⟩ := tracks h0 j (by omega)
    obtain ⟨l'', h'', hturns⟩ := h.succ (by omega)
    obtain rfl := h'.holds.unique h''.holds
    have hcount := ih (by omega) l h
    rw [Nat.count_succ, Nat.count_succ]
    generalize hact : tr.act j = a at hturns
    cases hturns with
    | @set _ tp e w _ hperm _ _ _ hlast =>
      have hran : (tr.state (j + 1)).last.isRan = false := by rw [hlast]; rfl
      have hset : (Call.settimer tp e w).isSet = true := rfl
      have hlen : l'.length = (l.erase tp).length + 1 := hperm.length_eq
      have herase : (l.erase tp).length ≤ l.length := List.length_erase_le
      simp only [hran, hset, Bool.false_eq_true, if_false, if_true]
      omega
    | @clear tp _ _ _ hlast =>
      have hran : (tr.state (j + 1)).last.isRan = false := by rw [hlast]; rfl
      have hlen : (l.erase tp).length ≤ l.length := List.length_erase_le
      simp only [hran, Bool.false_eq_true, if_false]
      omega
    | run _ hl _ _ _ hlast =>
      have hran : (tr.state (j + 1)).last.isRan = true := by rw [hlast]; rfl
      have hlen : l.length = l'.length + 1 := congrArg List.length hl
      simp only [hran, if_true]
      omega
    | finish _ _ _ hlast =>
      have hran : (tr.state (j + 1)).last.isRan = false := by rw [hlast]; rfl
      simp only [hran, Bool.false_eq_true, if_false]
      omega

lemma Tracks.headTime (h : Tracks tr j l) : (∃ i tp w, Armed tr i j tp (tr.state j).queue.headTime w) ∧
      (∀ i tp e w, Armed tr i j tp e w → (tr.state j).queue.headTime ≤ e) ∨
    (tr.state j).queue.headTime = 0 ∧ ∀ i tp e w, ¬ Armed tr i j tp e w := by
  cases l with
  | nil => exact .inr ⟨h.holds.headTime_eq, fun i tp e w harmed => nomatch (h.active harmed).1⟩
  | cons a l =>
    have hhead : (tr.state j).queue.headTime = (tr.state j).queue.expTime a := h.holds.headTime_eq
    rw [hhead]
    obtain ⟨i, hi⟩ := h.armed a (.head _)
    refine .inl ⟨⟨i, a, _, hi⟩, fun i tp e w harmed => ?_⟩
    obtain ⟨hmem, rfl, -⟩ := h.active harmed
    rcases List.mem_cons.mp hmem with rfl | hmem
    · exact le_rfl
    · exact (List.pairwise_cons.mp h.holds.sorted).1 tp hmem

end History

/-- However the watchdogs set and clear timers, the queue is in order and holds each armed timer
once; a `tmrs_exptimers` runs the timers that are due, earliest first and once for every arming, and
ends when none is left. It reports the earliest time still set, or 0. -/
theorem exptimers_runs_due {n : Nat} (tr : Trace (step (N := N) (W := W)) n)
    (h0 : (tr.state 0).queue.front = none) :
    (∀ j ≤ n, ∃ l, (tr.state j).queue.Holds l ∧ l.Nodup ∧ (∀ tp, tp ∈ l ↔ ∃ i e w, Armed tr i j tp e w) ∧
      Nat.count (fun k => (tr.state (k + 1)).last.isRan) j + l.length ≤
        Nat.count (fun k => (tr.act k).isSet) j) ∧
    (∀ j ≤ n, ∀ a, Avoids .endless (step (tr.state j) a)) ∧
    (∀ j < n, ∀ now, (tr.state j).Loops now (tr.act j) →
      ((∃ i tp e w, Armed tr i j tp e w ∧ e ≤ now) ∧ ∃ tp w, (tr.state (j + 1)).last = .ran now tp w) ∨
      ((∀ i tp e w, Armed tr i j tp e w → now < e) ∧ ∃ t, (tr.state (j + 1)).last = .ended now t)) ∧
    (∀ j < n, ∀ now tp w, (tr.state (j + 1)).last = .ran now tp w → (tr.state j).Loops now (tr.act j) ∧
      ∃ i e, Armed tr i j tp e w ∧ e ≤ now ∧ (∀ i' tp' e' w', Armed tr i' j tp' e' w' → e ≤ e') ∧
        ∀ k, j < k → ¬ Armed tr i k tp e w) ∧
    (∀ j < n, ∀ now t, (tr.state (j + 1)).last = .ended now t → (tr.state j).Loops now (tr.act j) ∧
      ((∃ i tp w, Armed tr i (j + 1) tp t w) ∧ (∀ i tp e w, Armed tr i (j + 1) tp e w → t ≤ e) ∨
        t = 0 ∧ ∀ i tp e w, ¬ Armed tr i (j + 1) tp e w)) := by
  refine ⟨fun j hj => ?_, fun j hj a => ?_, fun j hj now hloop => ?_, fun j hj now tp w hlast => ?_,
    fun j hj now t hlast => ?_⟩
  · obtain ⟨l, h⟩ := tracks h0 j hj
    refine ⟨l, h.holds, h.holds.nodup, fun tp => ⟨fun htp => ?_, fun ⟨i, e, w, harmed⟩ =>
      (h.active harmed).1⟩, ran_le_set h0 j hj l h⟩
    obtain ⟨i, hi⟩ := h.armed tp htp
    exact ⟨i, _, _, hi⟩
  · obtain ⟨l, h⟩ := tracks h0 j hj
    exact step_avoids_endless h.holds a
  · obtain ⟨l, h⟩ := tracks h0 j hj.le
    obtain ⟨l', -, hturns⟩ := h.succ hj
    generalize tr.act j = a at hturns hloop
    cases hturns with
    | set | clear => exact hloop.elim
    | run hloop' hl hdue _ _ hlast =>
      obtain rfl := hloop.unique hloop'
      obtain ⟨i, hi⟩ := h.armed _ (hl ▸ List.mem_cons_self)
      exact .inl ⟨⟨i, _, _, _, hi, hdue⟩, _, _, hlast⟩
    | finish hloop' _ hnone hlast =>
      obtain rfl := hloop.unique hloop'
      refine .inr ⟨fun i tp e w harmed => ?_, _, hlast⟩
      obtain ⟨hmem, rfl, -⟩ := h.active harmed
      exact hnone tp hmem
  · obtain ⟨l, h⟩ := tracks h0 j hj.le
    obtain ⟨l', -, hturns⟩ := h.succ hj
    generalize hact : tr.act j = a at hturns
    cases hturns with
    | set _ _ _ _ hlast' | clear _ _ hlast' => nomatch hlast.symm.trans hlast'
    | @run l' tp' now' _ hloop hl hdue _ _ hlast' =>
      obtain ⟨rfl, rfl, rfl⟩ := Event.ran.inj (hlast.symm.trans hlast')
      obtain ⟨i, hi⟩ := h.armed tp (hl ▸ List.mem_cons_self)
      refine ⟨hloop, i, _, hi, hdue, fun i' tp' e' w' harmed => ?_, fun k hjk harmed => ?_⟩
      · obtain ⟨hmem, rfl, -⟩ := h.active harmed
        have hsorted := List.pairwise_cons.mp (hl ▸ h.holds.sorted)
        rcases List.mem_cons.mp (hl ▸ hmem) with rfl | hmem
        · exact le_rfl
        · exact hsorted.1 tp' hmem
      · refine harmed.2.2 j hi.1 hjk ?_
        rw [hact]
        exact hloop.disarms.mpr ⟨now, _, hlast⟩
    | finish _ _ _ hlast' => nomatch hlast.symm.trans hlast'
  · obtain ⟨l, h⟩ := tracks h0 j hj.le
    obtain ⟨l', h', hturns⟩ := h.succ hj
    generalize hact : tr.act j = a at hturns
    cases hturns with
    | set _ _ _ _ hlast' | clear _ _ hlast' | run _ _ _ _ _ hlast' => nomatch hlast.symm.trans hlast'
    | finish hloop hqueue _ hlast' =>
      obtain ⟨rfl, rfl⟩ := Event.ended.inj (hlast.symm.trans hlast')
      exact ⟨hloop, hqueue ▸ h'.headTime⟩

def idle (N : Nat) (w : W) : Program N W where
  queue := ⟨⟨fun _ => none, fun _ => none⟩, fun _ => tmrNever, fun _ => w⟩
  running := none
  last := .ended 0 0

/-- Two timers are set and the earlier one is due; its watchdog sets it once more, for a time that
is past. -/
def rearming : Nat → Call 2 Bool
  | 0 => .settimer 0 5 false
  | 1 => .settimer 1 3 false
  | 2 => .exptimers 4
  | 3 => .settimer 1 2 true
  | _ => .returns

theorem rearmed_watchdog_runs_again : ∃ tr : Trace (step (N := 2) (W := Bool)) 6, tr.act = rearming ∧
    (tr.state 3).last = .ran 4 1 false ∧ (tr.state 5).last = .ran 4 1 true ∧ (tr.state 6).last = .ended 4 5 ∧
    (∃ i e, Armed tr i 4 1 e true ∧ e ≤ 4 ∧ (∀ i' tp' e' w', Armed tr i' 4 tp' e' w' → e ≤ e') ∧
      ∀ k, 4 < k → ¬ Armed tr i k 1 e true) := by
  let tr := Trace.run step (idle 2 false) rearming 6 (by decide +kernel)
  have hran : (tr.state 5).last = .ran 4 1 true := by decide +kernel
  have h := exptimers_runs_due tr rfl
  exact ⟨tr, rfl, by decide +kernel, hran, by decide +kernel, (h.2.2.2.1 4 (by decide) 4 1 true hran).2⟩

end Program

end Nucleos.Timers
