import Mathlib

/-!
# Counts of references

Finitely many places may each refer to an object. The counts are exact when the count of every
object is the number of places that refer to it. While references are moved about, some are in no
place but in hand.
-/

namespace Nucleos.RefCount

open Function

universe u v
variable {α : Type u} {ι : Type v} [Fintype α] [DecidableEq ι]
variable {target : α → Option ι} {count : ι → Nat} {a : α} {i j : ι}

def refs (target : α → Option ι) (i : ι) : Nat := (Finset.univ.filter fun a => target a = some i).card

/-- The counts are those of the places and of the references that are in hand. -/
def Held (count : ι → Nat) (target : α → Option ι) (l : List ι) : Prop :=
  ∀ i, count i = refs target i + l.count i

abbrev Exact (count : ι → Nat) (target : α → Option ι) : Prop := Held count target []

lemma refs_pos (h : target a = some i) : 0 < refs target i :=
  Finset.card_pos.mpr ⟨a, by simp [h]⟩

lemma Held.take {l : List ι} (h : Held count target l) (i : ι) :
    Held (update count i (count i + 1)) target (i :: l) := by
  intro j
  rw [update_apply, List.count_cons]
  simp only [beq_iff_eq, eq_comm (a := i)]
  split_ifs with hj
  · rw [hj, h i]
    omega
  · rw [h j, Nat.add_zero]

lemma Held.drop {l : List ι} (h : Held count target (i :: l)) :
    Held (update count i (count i - 1)) target l := by
  intro j
  have hj := h j
  rw [List.count_cons] at hj
  simp only [beq_iff_eq, eq_comm (a := i)] at hj
  rw [update_apply]
  split_ifs at hj ⊢ with heq
  · rw [← heq]
    omega
  · omega

lemma Held.pos {l : List ι} (h : Held count target (i :: l)) : 0 < count i := by
  rw [h i, List.count_cons_self]
  omega

lemma Held.pos_of_target {l : List ι} (h : Held count target l) (ha : target a = some i) : 0 < count i := by
  rw [h i]
  exact Nat.lt_of_lt_of_le (refs_pos ha) (Nat.le_add_right _ _)

lemma exact_of_none (hcount : ∀ i, count i = 0) (htarget : ∀ a, target a = none) : Exact count target := by
  intro i
  have hnone : Finset.univ.filter (fun a => target a = some i) = ∅ := by
    refine Finset.filter_eq_empty_iff.mpr fun a _ => ?_
    rw [htarget a]
    exact (Option.some_ne_none i).symm
  rw [hcount i, refs, hnone]
  rfl

variable [DecidableEq α]

lemma refs_fill (ha : target a = none) (j : ι) :
    refs (update target a (some i)) j = refs target j + if j = i then 1 else 0 := by
  unfold refs
  split_ifs with hj
  · have hnot : a ∉ Finset.univ.filter fun b => target b = some j := by simp [ha]
    rw [← Finset.card_insert_of_notMem hnot]
    congr 1
    ext b
    by_cases hb : b = a <;> simp [hb, hj]
  · congr 1
    ext b
    by_cases hb : b = a
    · simp [hb, ha, Ne.symm hj]
    · simp [hb]

lemma refs_clear (ha : target a = some i) (j : ι) :
    refs (update target a none) j + (if j = i then 1 else 0) = refs target j := by
  have h := @refs_fill _ _ _ _ (update target a none) a i _ (by simp) j
  rw [update_idem] at h
  rw [← h, ← ha, update_eq_self]

lemma Held.place {l : List ι} (h : Held count target (i :: l)) (ha : target a = none) :
    Held count (update target a (some i)) l := by
  intro j
  rw [refs_fill ha j, h j, List.count_cons]
  simp only [beq_iff_eq, eq_comm (a := i)]
  omega

lemma Held.lift {l : List ι} (h : Held count target l) (ha : target a = some i) :
    Held count (update target a none) (i :: l) := by
  intro j
  have hc := refs_clear ha j
  rw [h j, List.count_cons]
  simp only [beq_iff_eq, eq_comm (a := i)]
  omega

lemma Exact.fill (h : Exact count target) (ha : target a = none) (i : ι) :
    Exact (update count i (count i + 1)) (update target a (some i)) :=
  (h.take i).place ha

lemma Exact.clear (h : Exact count target) (ha : target a = some i) :
    Exact (update count i (count i - 1)) (update target a none) :=
  (h.lift ha).drop

end Nucleos.RefCount
