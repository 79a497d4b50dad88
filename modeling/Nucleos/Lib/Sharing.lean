import Nucleos.Lib.Buckets

/-!
# Counted references threaded on intrusive lists

An object is shared by the nodes that point to it. It counts them in a word of `w` bits and
threads them on a list that starts at the object. The count and the list are exact for a set
of nodes when the list of every object holds those nodes of the set that point to it, and
nothing else. Nodes outside the set may point anywhere.
-/

namespace Nucleos.Sharing

open Function IntrusiveList

universe u v
variable {ι : Type u} {α : Type v} {w : Nat} {Ref : α → Prop} {a : α}

structure Store (ι : Type u) (α : Type v) (w : Nat) where
  lists : Lists ι α
  target : α → ι
  count : ι → BitVec w

variable {S : Store ι α w}

def Exact (S : Store ι α w) (Ref : α → Prop) : Prop :=
  ∀ i, ∃ k, Links S.lists.next (S.lists.head i) k ∧ (∀ a, a ∈ k ↔ Ref a ∧ S.target a = i) ∧
    (S.count i).toNat = k.length

lemma Exact.congr {Ref' : α → Prop} (h : Exact S Ref) (heq : ∀ a, Ref' a ↔ Ref a) : Exact S Ref' := by
  intro i
  obtain ⟨k, hk, hmem, hcount⟩ := h i
  refine ⟨k, hk, fun a => ?_, hcount⟩
  rw [heq a]
  exact hmem a

lemma Exact.retarget {S' : Store ι α w} (h : Exact S Ref) (hhead : S'.lists.head = S.lists.head)
    (hcount : S'.count = S.count) (hnext : ∀ a, Ref a → S'.lists.next a = S.lists.next a)
    (htarget : ∀ a, Ref a → S'.target a = S.target a) : Exact S' Ref := by
  intro i
  obtain ⟨k, hk, hmem, hlen⟩ := h i
  refine ⟨k, ?_, fun a => ?_, by rw [hcount, hlen]⟩
  · rw [hhead]
    exact hk.frame fun a ha => hnext a ((hmem a).mp ha).1
  rw [hmem a]
  constructor
  · rintro ⟨ha, ht⟩
    exact ⟨ha, (htarget a ha).trans ht⟩
  · rintro ⟨ha, ht⟩
    exact ⟨ha, (htarget a ha).symm.trans ht⟩

lemma Exact.eq_of_one (h : Exact S Ref) {b : α} (ha : Ref a) (hb : Ref b)
    (heq : S.target a = S.target b) (hone : (S.count (S.target a)).toNat = 1) : a = b := by
  obtain ⟨k, _, hmem, hlen⟩ := h (S.target a)
  have hak := (hmem a).mpr ⟨ha, rfl⟩
  have hbk := (hmem b).mpr ⟨hb, heq.symm⟩
  rw [hone] at hlen
  obtain ⟨c, rfl⟩ := List.length_eq_one_iff.mp hlen.symm
  rw [List.mem_singleton] at hak hbk
  exact hak.trans hbk.symm

lemma Exact.one_of_alone (h : Exact S Ref) (ha : Ref a)
    (halone : ∀ b, Ref b → S.target b = S.target a → b = a) : (S.count (S.target a)).toNat = 1 := by
  obtain ⟨k, hlinks, hmem, hlen⟩ := h (S.target a)
  have hk : k = [a] := by
    refine List.perm_singleton.mp
      ((List.perm_ext_iff_of_nodup hlinks.nodup (List.nodup_singleton a)).mpr fun b => ?_)
    rw [hmem b, List.mem_singleton]
    constructor
    · rintro ⟨hb, ht⟩
      exact halone b hb ht
    · rintro rfl
      exact ⟨ha, rfl⟩
  rw [hlen, hk]
  rfl

lemma Exact.pos (h : Exact S Ref) (ha : Ref a) : 0 < (S.count (S.target a)).toNat := by
  obtain ⟨k, _, hmem, hlen⟩ := h (S.target a)
  rw [hlen]
  exact List.length_pos_of_mem ((hmem a).mpr ⟨ha, rfl⟩)

lemma Exact.some_ref (h : Exact S Ref) {i : ι} (hcount : S.count i ≠ 0) : ∃ a, Ref a ∧ S.target a = i := by
  obtain ⟨k, _, hmem, hlen⟩ := h i
  cases k with
  | nil => exact absurd (BitVec.eq_of_toNat_eq (by simpa using hlen)) hcount
  | cons a k => exact ⟨a, (hmem a).mp (.head _)⟩

lemma toNat_one (hw : 0 < w) : (1 : BitVec w).toNat = 1 := by
  simp [hw]

lemma Exact.found [DecidableEq α] (h : Exact S Ref) (ha : Ref a) {n : Nat} {c : Cell ι α}
    (hwalk : S.lists.walk (· == a) n (.head (S.target a)) = some c) :
    ∃ l₁ l₂, Links S.lists.next (S.lists.head (S.target a)) (l₁ ++ a :: l₂) ∧
      c = Lists.lastCell (.head (S.target a)) l₁ ∧
      (∀ x, x ∈ l₁ ++ a :: l₂ ↔ Ref x ∧ S.target x = S.target a) ∧
      (S.count (S.target a)).toNat = (l₁ ++ a :: l₂).length := by
  obtain ⟨k, hk, hmem, hlen⟩ := h (S.target a)
  obtain ⟨l₁, l₂, rfl, hc, hstop, hnext⟩ := S.lists.walk_split (· == a) (c := .head (S.target a)) hk hwalk
  have hin : a ∈ l₁ ++ l₂ := (hmem a).mpr ⟨ha, rfl⟩
  have hnot : a ∉ l₁ := fun hl => by simpa using hstop a hl
  cases l₂ with
  | nil =>
    rw [List.append_nil] at hin
    exact absurd hin hnot
  | cons b l₂ =>
    obtain rfl : b = a := by simpa using hnext b l₂ rfl
    exact ⟨l₁, l₂, hk, hc, hmem, hlen⟩

section Update
variable [DecidableEq ι] [DecidableEq α] {S : Store ι α w} {Ref : α → Prop} {a : α}

def Store.push (S : Store ι α w) (a : α) (i : ι) : Store ι α w where
  lists := (S.lists.write (.next a) (S.lists.head i)).write (.head i) (some a)
  target := S.target
  count := update S.count i (S.count i + 1)

lemma Exact.push (h : Exact S Ref) (ha : ¬ Ref a)
    (hroom : (S.count (S.target a)).toNat + 1 < 2 ^ w) :
    Exact (S.push a (S.target a)) fun x => x = a ∨ Ref x := by
  intro i
  obtain ⟨k, hk, hmem, hlen⟩ := h i
  have hak : a ∉ k := fun hin => ha ((hmem a).mp hin).1
  refine ⟨_, Lists.links_push (i := S.target a) hk hak, fun b => ?_, ?_⟩
  · by_cases hb : b = a
    · subst hb
      by_cases hi : i = S.target b
      · simp [Store.push, hi]
      · simp [Store.push, hi, hak, Ne.symm hi]
    · by_cases hi : i = S.target a
      · simp [Store.push, hi, hb, hmem b]
      · simp [Store.push, hi, hb, hmem b]
  · have hw : 0 < w := by
      refine Nat.pos_of_ne_zero ?_
      rintro rfl
      omega
    simp only [Store.push, update_apply]
    split_ifs with hi
    · subst hi
      rw [BitVec.toNat_add, toNat_one hw, Nat.mod_eq_of_lt hroom, hlen, List.length_cons]
    · exact hlen

def Store.fresh (S : Store ι α w) (a : α) (i : ι) : Store ι α w where
  lists := (S.lists.write (.head i) (some a)).write (.next a) none
  target := update S.target a i
  count := update S.count i 1

lemma Store.fresh_target (S : Store ι α w) (a x : α) (i : ι) :
    (S.fresh a i).target x = if x = a then i else S.target x := by
  simp [fresh, update_apply]

lemma Exact.fresh (h : Exact S Ref) (hw : 0 < w) {i : ι} (ha : ¬ Ref a)
    (hi : ∀ x, Ref x → S.target x ≠ i) : Exact (S.fresh a i) fun x => x = a ∨ Ref x := by
  intro j
  obtain ⟨e, he, hemem, -⟩ := h i
  obtain rfl : e = [] := List.eq_nil_iff_forall_not_mem.mpr fun x hx =>
    hi x ((hemem x).mp hx).1 ((hemem x).mp hx).2
  obtain ⟨k, hk, hmem, hlen⟩ := h j
  have hak : a ∉ k := fun hin => ha ((hmem a).mp hin).1
  refine ⟨_, Lists.links_append_chain he hk ⟨List.not_mem_nil, hak⟩ fun _ => nofun, fun x => ?_, ?_⟩
  · by_cases hx : x = a
    · subst hx
      by_cases hj : j = i
      · simp [S.fresh_target, hj]
      · simp [S.fresh_target, hj, hak, Ne.symm hj]
    · by_cases hj : j = i
      · simp [S.fresh_target, hj, hx, hmem x]
      · simp [S.fresh_target, hj, hx, hmem x]
  · simp only [Store.fresh, update_apply]
    split_ifs with hj
    · subst hj
      rw [hk.unique he]
      exact toNat_one hw
    · exact hlen

def Store.drop (S : Store ι α w) (c : Cell ι α) (a : α) (i : ι) : Store ι α w where
  lists := S.lists.unlink c a
  target := S.target
  count := update S.count i (S.count i - 1)

lemma Exact.drop (h : Exact S Ref) (ha : Ref a) {n : Nat} {c : Cell ι α}
    (hwalk : S.lists.walk (· == a) n (.head (S.target a)) = some c) :
    Exact (S.drop c a (S.target a)) fun x => x ≠ a ∧ Ref x := by
  obtain ⟨l₁, l₂, hk, rfl, hmem, hlen⟩ := h.found ha hwalk
  intro i
  obtain ⟨k, hk', hmem', hlen'⟩ := h i
  refine ⟨k.erase a, Lists.links_unlink_chain hk hk' fun hi b hb hbk => ?_, fun x => ?_, ?_⟩
  · exact hi (((hmem' b).mp hbk).2.symm.trans ((hmem b).mp hb).2)
  · rw [hk'.nodup.mem_erase_iff, hmem' x, and_assoc]
    rfl
  simp only [Store.drop, update_apply]
  split_ifs with hi
  · have hpos := h.pos ha
    have hw : 0 < w := by
      refine Nat.pos_of_ne_zero ?_
      rintro rfl
      have hlt := (S.count (S.target a)).isLt
      omega
    have hle : (1 : BitVec w) ≤ S.count (S.target a) := by
      rw [BitVec.le_def, toNat_one hw]
      exact hpos
    rw [List.length_erase_of_mem ((hmem' a).mpr ⟨ha, hi.symm⟩), ← hlen', hi,
      BitVec.toNat_sub_of_le hle, toNat_one hw]
  · rw [List.erase_of_not_mem fun hin => hi ((hmem' a).mp hin).2.symm, hlen']

end Update

end Nucleos.Sharing
