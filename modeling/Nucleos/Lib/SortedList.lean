import Nucleos.Lib.IntrusiveList

/-!
# Linked lists kept in the order of a key

A node is put in front of the first node whose key is greater, so that nodes of one key stay in
the order in which they came.
-/

namespace Nucleos.IntrusiveList.Lists

universe u v w
variable {ι : Type u} {α : Type v} {κ : Type w} [DecidableEq ι] [DecidableEq α]
variable {L : Lists ι α} {c : Cell ι α} {l l₁ l₂ : List α} {x : α}

def insert (L : Lists ι α) (c : Cell ι α) (x : α) : Lists ι α :=
  (L.write (.next x) (L.read c)).write c (some x)

lemma read_insert (L : Lists ι α) (e d : Cell ι α) (x : α) :
    (L.insert e x).read d = if d = e then some x else if d = .next x then L.read e else L.read d := by
  simp only [insert, read_write]

lemma links_insert (h : Links L.next (L.read c) (l₁ ++ l₂)) (hx : x ∉ l₁ ++ l₂) (hc : c ≠ .next x)
    (hroot : ∀ a ∈ l₁ ++ l₂, c ≠ .next a) :
    Links (L.insert (lastCell c l₁) x).next ((L.insert (lastCell c l₁) x).read c) (l₁ ++ x :: l₂) := by
  have hnx : ∀ k₁ k₂ : List α, l₁ = k₁ ++ k₂ → lastCell c k₁ ≠ .next x := fun k₁ k₂ hk =>
    lastCell_ne hc fun a ha heq => hx (by simp [hk, Cell.next.inj heq ▸ ha])
  refine links_splice h (fun k₁ k₂ hk hne => ?_) ?_
  · rw [read_insert, if_neg hne, if_neg (hnx k₁ k₂ hk)]
  rw [read_insert, if_pos rfl]
  refine .cons ?_
  rw [← read_next, read_insert, if_neg (hnx l₁ [] (List.append_nil l₁).symm).symm, if_pos rfl]
  -- the nodes behind the cell keep their links
  apply (L.read_lastCell h).frame
  intro a ha
  have hax : Cell.next a ≠ (Cell.next x : Cell ι α) :=
    fun heq => hx (List.mem_append_right _ (Cell.next.inj heq ▸ ha))
  have hal : lastCell c l₁ ≠ .next a := lastCell_ne (hroot a (List.mem_append_right _ ha)) fun b hb heq =>
    (List.nodup_append.mp h.nodup).2.2 b hb a ha (Cell.next.inj heq)
  rw [← read_next, read_insert, if_neg hal.symm, if_neg hax, read_next]

variable [LinearOrder κ] {key : α → κ}

omit [DecidableEq α] in
/-- The walk for the place of a new node stops where the order wants the node. -/
theorem pairwise_insert (h : (l₁ ++ l₂).Pairwise fun a b => key a ≤ key b)
    (hbefore : ∀ b ∈ l₁, key b ≤ key x) (hafter : ∀ a l₃, l₂ = a :: l₃ → key x < key a) :
    (l₁ ++ x :: l₂).Pairwise fun a b => key a ≤ key b := by
  obtain ⟨h₁, h₂, h₁₂⟩ := List.pairwise_append.mp h
  refine List.pairwise_append.mpr ⟨h₁, List.pairwise_cons.mpr ⟨?_, h₂⟩, fun a ha =>
    List.forall_mem_cons.mpr ⟨hbefore a ha, h₁₂ a ha⟩⟩
  cases l₂ with
  | nil => exact nofun
  | cons a l₃ =>
    have hxa := (hafter a l₃ rfl).le
    exact List.forall_mem_cons.mpr ⟨hxa, fun b hb => hxa.trans ((List.pairwise_cons.mp h₂).1 b hb)⟩

end Nucleos.IntrusiveList.Lists
