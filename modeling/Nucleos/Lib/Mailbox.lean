import Mathlib

/-!
# Mailboxes that merge what is posted

A key has one word of pending bits. A post adds bits to the word, a drain hands over the
whole word and clears it. The log of posts and drains, newest first, is enough to say what
every drain has to hand over: the bits posted since the drain before it.
-/

namespace Nucleos.Mailbox

universe u

inductive Op (κ : Type u) (w : Nat) where
  | post (key : κ) (bits : BitVec w)
  | drain (key : κ) (bits : BitVec w)

variable {κ : Type u} {w : Nat} {k : κ} {h : List (Op κ w)}

def Op.Drains (k : κ) (o : Op κ w) : Prop := ∃ bits, o = .drain k bits

lemma first_drain (k : κ) (pre : List (Op κ w)) : (∀ o ∈ pre, ¬ o.Drains k) ∨
    ∃ new bits mid, pre = new ++ .drain k bits :: mid ∧ ∀ o ∈ mid, ¬ o.Drains k := by
  induction pre with
  | nil => exact .inl nofun
  | cons o pre ih =>
    rcases ih with hno | ⟨new, bits, mid, rfl, hmid⟩
    · by_cases hd : o.Drains k
      · obtain ⟨bits, rfl⟩ := hd
        exact .inr ⟨[], bits, pre, rfl, hno⟩
      exact .inl (List.forall_mem_cons.mpr ⟨hd, hno⟩)
    · exact .inr ⟨o :: new, bits, mid, rfl, hmid⟩

variable [DecidableEq κ]

def due (k : κ) : List (Op κ w) → BitVec w
  | [] => 0
  | .post k' bits :: h => if k' = k then due k h ||| bits else due k h
  | .drain k' _ :: h => if k' = k then 0 else due k h

def Exact : List (Op κ w) → Prop
  | [] => True
  | .post _ _ :: h => Exact h
  | .drain k bits :: h => bits = due k h ∧ Exact h

lemma Exact.of_append {h' : List (Op κ w)} (he : Exact (h' ++ h)) : Exact h := by
  induction h' with
  | nil => exact he
  | cons o h' ih =>
    cases o with
    | post k bits => exact ih he
    | drain k bits => exact ih he.2

lemma due_append {pre old : List (Op κ w)} {b : Nat} (hno : ∀ o ∈ pre, ¬ o.Drains k)
    (hb : (due k old).getLsbD b = true) : (due k (pre ++ old)).getLsbD b = true := by
  induction pre with
  | nil => exact hb
  | cons o pre ih =>
    have hrest := ih fun o ho => hno o (.tail _ ho)
    rw [List.cons_append]
    cases o with
    | post k' bits =>
      rw [due]
      split
      · rw [BitVec.getLsbD_or, hrest, Bool.true_or]
      · exact hrest
    | drain k' bits =>
      have hne : k' ≠ k := fun he => hno _ List.mem_cons_self ⟨bits, by rw [he]⟩
      rw [due, if_neg hne]
      exact hrest

lemma due_posted {new old : List (Op κ w)} {bits : BitVec w} {b : Nat}
    (hb : (due k (new ++ .drain k bits :: old)).getLsbD b = true) :
    ∃ bits', .post k bits' ∈ new ∧ bits'.getLsbD b = true := by
  induction new with
  | nil => simp [due] at hb
  | cons o new ih =>
    have hrest : (due k (new ++ .drain k bits :: old)).getLsbD b = true →
        ∃ bits', .post k bits' ∈ o :: new ∧ bits'.getLsbD b = true := by
      intro hb
      obtain ⟨bits', hm, hbit⟩ := ih hb
      exact ⟨bits', .tail _ hm, hbit⟩
    rw [List.cons_append] at hb
    cases o with
    | post k' bits' =>
      rw [due] at hb
      split at hb
      · rename_i hk
        rw [BitVec.getLsbD_or, Bool.or_eq_true] at hb
        rcases hb with hb | hb
        · exact hrest hb
        · exact ⟨bits', hk ▸ .head _, hb⟩
      · exact hrest hb
    | drain k' bits' =>
      rw [due] at hb
      split at hb
      · simp at hb
      · exact hrest hb

/-- A posted bit is still due, or the first drain after it handed it over; a later drain hands over
the same bit only when it was posted again. -/
theorem Exact.once {pre old : List (Op κ w)} {bits : BitVec w} {b : Nat}
    (he : Exact (pre ++ .post k bits :: old)) (hb : bits.getLsbD b = true) :
    ((∀ o ∈ pre, ¬ o.Drains k) ∧ (due k (pre ++ .post k bits :: old)).getLsbD b = true) ∨
    ∃ new arg mid, pre = new ++ .drain k arg :: mid ∧ (∀ o ∈ mid, ¬ o.Drains k) ∧ arg.getLsbD b = true ∧
      ∀ new₁ arg' new₂, new = new₁ ++ .drain k arg' :: new₂ → arg'.getLsbD b = true →
        ∃ bits', .post k bits' ∈ new₂ ∧ bits'.getLsbD b = true := by
  have hpost : (due k (.post k bits :: old)).getLsbD b = true := by
    rw [due, if_pos rfl, BitVec.getLsbD_or, hb, Bool.or_true]
  rcases first_drain k pre with hno | ⟨new, arg, mid, rfl, hmid⟩
  · exact .inl ⟨hno, due_append hno hpost⟩
  refine .inr ⟨new, arg, mid, rfl, hmid, ?_, fun new₁ arg' new₂ hnew hbit => ?_⟩
  · rw [List.append_assoc] at he
    have hdrain : arg = due k (mid ++ .post k bits :: old) := (Exact.of_append he).1
    rw [hdrain]
    exact due_append hmid hpost
  · rw [hnew, List.append_assoc, List.append_assoc] at he
    have hdrain := (Exact.of_append he).1
    rw [hdrain, List.cons_append] at hbit
    exact due_posted hbit

end Nucleos.Mailbox
