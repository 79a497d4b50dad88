import Nucleos.Lib.IntrusiveList

/-!
# Hash chains

The nodes of a table hang on chains, each on the chain of its key and on no other. A node is found
by walking one chain, and gets a new key by being taken off its chain and put on another. -/

namespace Nucleos.IntrusiveList

open Function

universe u v
variable {ι : Type u} {α : Type v}

namespace Lists

/-- The nodes with the property hang on the chains of their keys, and nothing else hangs there. -/
def Buckets (L : Lists ι α) (key : α → ι) (P : α → Prop) : Prop :=
  ∀ i, ∃ l, Links L.next (L.head i) l ∧ ∀ a, a ∈ l ↔ P a ∧ key a = i

variable {L : Lists ι α} {key : α → ι} {P : α → Prop} {x : α} {i : ι} {stop : α → Bool} {n : Nat}
    {e : Cell ι α}

lemma Buckets.walk (h : L.Buckets key P) (hw : L.walk stop n (.head i) = some e) :
    (L.read e = none ∧ ∀ a, P a → key a = i → stop a = false) ∨
      ∃ a, L.read e = some a ∧ stop a = true ∧ P a ∧ key a = i := by
  obtain ⟨l, hl, hmem⟩ := h i
  obtain ⟨l₁, l₂, rfl, rfl, hpassed, hstop⟩ := L.walk_split stop (c := .head i) hl hw
  have hrest := L.read_lastCell (c := .head i) hl
  cases l₂ with
  | nil =>
    left
    refine ⟨hrest.eq_none, fun a hP hk => hpassed a ?_⟩
    have ha := (hmem a).mpr ⟨hP, hk⟩
    rwa [List.append_nil] at ha
  | cons a l₂ =>
    right
    have ha := (hmem a).mp (List.mem_append_right l₁ (.head _))
    exact ⟨a, hrest.eq_some, hstop a l₂ rfl, ha.1, ha.2⟩

lemma Buckets.walk_ends [Fintype α] (h : L.Buckets key P) (stop : α → Bool) (i : ι)
    (hn : Fintype.card α < n) : ∃ e, L.walk stop n (.head i) = some e := by
  obtain ⟨l, hl, -⟩ := h i
  refine L.walk_ends stop (c := .head i) hl ?_
  have hlen := hl.nodup.length_le_card
  omega

lemma Buckets.nonempty (h : L.Buckets key P) (hx : P x) : L.head (key x) ≠ none := by
  intro hnone
  obtain ⟨l, hl, hmem⟩ := h (key x)
  rw [hnone] at hl
  cases hl
  exact absurd ((hmem x).mpr ⟨hx, rfl⟩) List.not_mem_nil

variable [DecidableEq ι] [DecidableEq α]

def push (L : Lists ι α) (i : ι) (x : α) : Lists ι α :=
  (L.write (.next x) (L.head i)).write (.head i) (some x)

lemma push_next (L : Lists ι α) (i : ι) (x a : α) :
    (L.push i x).next a = if a = x then L.head i else L.next a := by
  simp [push, write, update_apply]

lemma push_head (L : Lists ι α) (i j : ι) (x : α) :
    (L.push i x).head j = if j = i then some x else L.head j := by
  simp [push, write, update_apply]

lemma links_push {j : ι} {l : List α} (h : Links L.next (L.head j) l) (hx : x ∉ l) :
    Links (L.push i x).next ((L.push i x).head j) (if j = i then x :: l else l) := by
  have hold : Links (L.push i x).next (L.head j) l := by
    refine h.frame fun a ha => ?_
    rw [push_next, if_neg (ne_of_mem_of_not_mem ha hx)]
  rw [push_head]
  split
  · next hj =>
    subst hj
    refine .cons ?_
    rw [push_next, if_pos rfl]
    exact hold
  · exact hold

lemma Buckets.push (h : L.Buckets key P) (hx : ¬ P x) (i : ι) :
    (L.push i x).Buckets (update key x i) (fun a => P a ∨ a = x) := by
  intro j
  obtain ⟨l, hl, hmem⟩ := h j
  have hxl : x ∉ l := fun hm => hx ((hmem x).mp hm).1
  refine ⟨_, links_push hl hxl, fun a => ?_⟩
  by_cases hax : a = x
  · subst hax
    by_cases hj : j = i
    · simp [hj]
    · simp [hj, hxl, Ne.symm hj]
  have hkeep : (P a ∨ a = x) ∧ update key x i a = j ↔ a ∈ l := by
    rw [update_of_ne hax, or_iff_left hax, hmem a]
  rw [hkeep]
  by_cases hj : j = i
  · simp [hj, hax]
  · simp [hj]

lemma Buckets.unlink (h : L.Buckets key P) (hw : L.walk (fun a => a = x) n (.head (key x)) = some e)
    (he : L.read e = some x) : (L.unlink e x).Buckets key (fun a => P a ∧ a ≠ x) := by
  obtain ⟨l, hl, hmem⟩ := h (key x)
  obtain ⟨l₁, l₂, rfl, rfl, hpassed, -⟩ := L.walk_split _ (c := .head (key x)) hl hw
  obtain ⟨l₃, rfl⟩ : ∃ l₃, l₂ = x :: l₃ := by
    have hrest := L.read_lastCell (c := .head (key x)) hl
    cases l₂ with
    | nil => exact absurd (hrest.eq_none.symm.trans he) nofun
    | cons a l₂ =>
      obtain rfl := Option.some.inj (hrest.eq_some.symm.trans he)
      exact ⟨l₂, rfl⟩
  intro j
  obtain ⟨k, hk, hkmem⟩ := h j
  refine ⟨k.erase x, links_unlink_chain hl hk fun hj b hb hbk => ?_, fun a => ?_⟩
  · exact hj (((hkmem b).mp hbk).2.symm.trans ((hmem b).mp hb).2)
  · rw [hk.nodup.mem_erase_iff, hkmem a]
    tauto

end Lists

end Nucleos.IntrusiveList
