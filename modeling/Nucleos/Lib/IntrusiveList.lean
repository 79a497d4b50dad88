import Mathlib

/-!
# Singly linked lists threaded through their own nodes

A heap of lists has one head pointer for every owner and one link field in every
node. C code that walks such a list with a pointer to a pointer is at a `Cell`:
the head field of an owner or the link field of a node. Nothing here forbids two
owners to share a suffix; separation is a fact about particular lists.
-/

namespace Nucleos.IntrusiveList

universe u v
variable {ι : Type u} {α : Type v}

structure Lists (ι : Type u) (α : Type v) where
  head : ι → Option α
  next : α → Option α

inductive Cell (ι : Type u) (α : Type v) where
  | head (owner : ι)
  | next (node : α)
  deriving DecidableEq

/-- Following `next` from the pointer visits exactly the nodes of the list and then the null
pointer. -/
inductive Links (next : α → Option α) : Option α → List α → Prop where
  | nil : Links next none []
  | cons {a : α} {l : List α} : Links next (next a) l → Links next (some a) (a :: l)

namespace Links
variable {next next' : α → Option α} {p : Option α} {l l' : List α} {a : α}

lemma unique (h : Links next p l) (h' : Links next p l') : l = l' := by
  induction h generalizing l' with
  | nil => cases h'; rfl
  | cons _ ih =>
    cases h' with
    | cons ht => exact congrArg _ (ih ht)

lemma drop {l₁ l₂ : List α} (h : Links next p (l₁ ++ a :: l₂)) : Links next (some a) (a :: l₂) := by
  induction l₁ generalizing p with
  | nil => cases h with | cons ht => exact .cons ht
  | cons b l₁ ih => cases h with | cons ht => exact ih ht

lemma rest {l₁ l₂ : List α} (h : Links next p (l₁ ++ a :: l₂)) : Links next (next a) l₂ := by
  cases h.drop with
  | cons ht => exact ht

lemma nodup (h : Links next p l) : l.Nodup := by
  induction h with
  | nil => exact List.nodup_nil
  | @cons a l ht ih =>
    refine List.nodup_cons.mpr ⟨?_, ih⟩
    intro ha
    obtain ⟨l₁, l₂, rfl⟩ := List.append_of_mem ha
    have hlen := congrArg List.length (ht.unique ht.rest)
    simp at hlen
    omega

lemma frame (h : Links next p l) (heq : ∀ a ∈ l, next' a = next a) : Links next' p l := by
  induction h with
  | nil => exact .nil
  | @cons a l _ ih =>
    refine .cons ?_
    rw [heq a List.mem_cons_self]
    exact ih (fun b hb => heq b (.tail a hb))

lemma eq_none (h : Links next p []) : p = none := by
  cases h
  rfl

lemma eq_some (h : Links next p (a :: l)) : p = some a := by
  cases h
  rfl

lemma tail (h : Links next p (a :: l)) : Links next (next a) l := by
  cases h with
  | cons ht => exact ht

end Links

namespace Lists

variable {c : Cell ι α}

def read (L : Lists ι α) : Cell ι α → Option α
  | .head i => L.head i
  | .next a => L.next a

@[simp] lemma read_head (L : Lists ι α) (i : ι) : L.read (.head i) = L.head i := rfl

@[simp] lemma read_next (L : Lists ι α) (a : α) : L.read (.next a) = L.next a := rfl

/-- Walk from a cell until it holds the null pointer or a node accepted by `stop`.
`none` says that the fuel ran out first. -/
def walk (L : Lists ι α) (stop : α → Bool) : Nat → Cell ι α → Option (Cell ι α)
  | 0, _ => none
  | n + 1, c =>
    match L.read c with
    | none => some c
    | some a => if stop a then some c else walk L stop n (.next a)

def lastCell (c : Cell ι α) : List α → Cell ι α
  | [] => c
  | a :: l => lastCell (.next a) l

@[simp] lemma lastCell_nil (c : Cell ι α) : lastCell c ([] : List α) = c := rfl

@[simp] lemma lastCell_cons (c : Cell ι α) (a : α) (l : List α) :
    lastCell c (a :: l) = lastCell (.next a) l := rfl

lemma lastCell_append (c : Cell ι α) (l₁ l₂ : List α) :
    lastCell c (l₁ ++ l₂) = lastCell (lastCell c l₁) l₂ := by
  induction l₁ generalizing c with
  | nil => rfl
  | cons a l₁ ih => exact ih (.next a)

lemma lastCell_eq_or_mem (c : Cell ι α) (l : List α) :
    lastCell c l = c ∨ ∃ a ∈ l, lastCell c l = .next a := by
  induction l generalizing c with
  | nil => exact .inl rfl
  | cons a l ih =>
    rcases ih (.next a) with h | ⟨b, hb, h⟩
    · exact .inr ⟨a, .head _, h⟩
    · exact .inr ⟨b, .tail a hb, h⟩

lemma lastCell_ne {d : Cell ι α} {l : List α} (hc : c ≠ d) (hl : ∀ a ∈ l, Cell.next a ≠ d) :
    lastCell c l ≠ d := by
  rcases lastCell_eq_or_mem c l with he | ⟨a, ha, he⟩
  · rwa [he]
  · rw [he]
    exact hl a ha

lemma apart_lastCell {i j : ι} {l k : List α} (hij : j ≠ i) (hl : ∀ a ∈ l, a ∉ k) :
    Cell.head j ≠ lastCell (.head i) l ∧ ∀ a ∈ k, Cell.next a ≠ lastCell (.head i) l := by
  refine ⟨(lastCell_ne (fun heq => hij (Cell.head.inj heq).symm) nofun).symm, fun a ha => ?_⟩
  apply Ne.symm
  refine lastCell_ne nofun fun b hb heq => ?_
  exact hl b hb (Cell.next.inj heq ▸ ha)

lemma read_lastCell (L : Lists ι α) {l₁ l₂ : List α}
    (h : Links L.next (L.read c) (l₁ ++ l₂)) : Links L.next (L.read (lastCell c l₁)) l₂ := by
  induction l₁ generalizing c with
  | nil => exact h
  | cons a l₁ ih =>
    exact ih (c := .next a) h.tail

lemma links_splice {L L' : Lists ι α} {l₁ l₂ m : List α} (h : Links L.next (L.read c) (l₁ ++ l₂))
    (hsame : ∀ k₁ k₂, l₁ = k₁ ++ k₂ → lastCell c k₁ ≠ lastCell c l₁ →
      L'.read (lastCell c k₁) = L.read (lastCell c k₁))
    (hm : Links L'.next (L'.read (lastCell c l₁)) m) : Links L'.next (L'.read c) (l₁ ++ m) := by
  induction l₁ generalizing c with
  | nil => exact hm
  | cons a l₁ ih =>
    have hne : c ≠ lastCell c (a :: l₁) := by
      intro heq
      have hrest := L.read_lastCell h
      rw [← heq] at hrest
      have hlen := congrArg List.length (hrest.unique h)
      simp at hlen
      omega
    have ha : L'.read c = some a := (hsame [] _ rfl hne).trans h.eq_some
    rw [ha]
    refine .cons (ih (c := .next a) h.tail (fun k₁ k₂ hk => ?_) hm)
    exact hsame (a :: k₁) k₂ (congrArg (a :: ·) hk)

lemma walk_ends (L : Lists ι α) (stop : α → Bool) {n : Nat} {l : List α}
    (h : Links L.next (L.read c) l) (hn : l.length < n) : ∃ e, L.walk stop n c = some e := by
  induction l generalizing c n with
  | nil =>
    obtain ⟨n, rfl⟩ := Nat.exists_eq_succ_of_ne_zero (by omega : n ≠ 0)
    exact ⟨c, by simp [walk, h.eq_none]⟩
  | cons b l ih =>
    obtain ⟨n, rfl⟩ := Nat.exists_eq_succ_of_ne_zero (by omega : n ≠ 0)
    simp only [walk, h.eq_some]
    split
    · exact ⟨c, rfl⟩
    · exact ih (c := .next b) h.tail (by simp only [List.length_cons] at hn; omega)

lemma walk_split (L : Lists ι α) (stop : α → Bool) {n : Nat} {e : Cell ι α} {l : List α}
    (hl : Links L.next (L.read c) l) (h : L.walk stop n c = some e) :
    ∃ l₁ l₂, l = l₁ ++ l₂ ∧ e = lastCell c l₁ ∧ (∀ b ∈ l₁, stop b = false) ∧
      ∀ a l₃, l₂ = a :: l₃ → stop a = true := by
  induction n generalizing c l with
  | zero => simp [walk] at h
  | succ n ih =>
    cases l with
    | nil =>
      simp only [walk, hl.eq_none, Option.some.injEq] at h
      exact ⟨[], [], rfl, h.symm, nofun, nofun⟩
    | cons a l =>
      simp only [walk, hl.eq_some] at h
      split_ifs at h with ha
      · refine ⟨[], a :: l, rfl, (Option.some.inj h).symm, nofun, ?_⟩
        intro b l₃ hb
        obtain ⟨rfl, -⟩ := List.cons.inj hb
        exact ha
      · obtain ⟨l₁, l₂, rfl, he, hstop, hrest⟩ := ih (c := .next a) hl.tail h
        exact ⟨a :: l₁, l₂, rfl, he, List.forall_mem_cons.mpr ⟨Bool.eq_false_iff.mpr ha, hstop⟩, hrest⟩

section Write
variable [DecidableEq ι] [DecidableEq α] {c : Cell ι α} {L : Lists ι α} {x : α}

def write (L : Lists ι α) : Cell ι α → Option α → Lists ι α
  | .head i, v => { L with head := Function.update L.head i v }
  | .next a, v => { L with next := Function.update L.next a v }

lemma read_write (L : Lists ι α) (c d : Cell ι α) (v : Option α) :
    (L.write c v).read d = if d = c then v else L.read d := by
  cases c <;> cases d <;> simp [write, read, Function.update_apply]

@[simp] lemma read_write_self (L : Lists ι α) (c : Cell ι α) (v : Option α) :
    (L.write c v).read c = v := by simp [read_write]

lemma read_write_of_ne (L : Lists ι α) {d : Cell ι α} (v : Option α) (h : d ≠ c) :
    (L.write c v).read d = L.read d := by simp [read_write, h]

lemma next_write (L : Lists ι α) (c : Cell ι α) (v : Option α) (a : α) :
    (L.write c v).next a = if Cell.next a = c then v else L.next a :=
  L.read_write c (.next a) v

lemma links_write {d : Cell ι α} {l : List α} (v : Option α)
    (h : Links L.next (L.read d) l) (hd : d ≠ c) (hl : ∀ a ∈ l, Cell.next a ≠ c) :
    Links (L.write c v).next ((L.write c v).read d) l := by
  rw [read_write_of_ne L v hd]
  apply h.frame
  intro a ha
  rw [next_write, if_neg (hl a ha)]

def append (L : Lists ι α) (e : Cell ι α) (x : α) : Lists ι α :=
  (L.write e (some x)).write (.next x) none

def unlink (L : Lists ι α) (c : Cell ι α) (x : α) : Lists ι α :=
  L.write c (L.next x)

lemma read_append (L : Lists ι α) (e c : Cell ι α) (x : α) :
    (L.append e x).read c =
      if c = .next x then none else if c = e then some x else L.read c := by
  simp only [append, read_write]

lemma links_append {l : List α} (h : Links L.next (L.read c) l) (hx : x ∉ l) (hc : c ≠ .next x) :
    Links (L.append (lastCell c l) x).next ((L.append (lastCell c l) x).read c) (l ++ [x]) := by
  have hnx : ∀ l₁ l₂ : List α, l = l₁ ++ l₂ → lastCell c l₁ ≠ .next x := fun l₁ l₂ hl =>
    lastCell_ne hc fun a ha heq => hx (hl ▸ List.mem_append_left _ (Cell.next.inj heq ▸ ha))
  have hend : Links L.next (L.read c) (l ++ []) := by rwa [List.append_nil]
  refine links_splice hend (fun k₁ k₂ hk hne => ?_) ?_
  · rw [read_append, if_neg (hnx k₁ k₂ hk), if_neg hne]
  rw [read_append, if_neg (hnx l [] (List.append_nil l).symm), if_pos rfl]
  refine .cons ?_
  rw [← read_next, read_append, if_pos rfl]
  exact .nil

lemma links_unlink {l₁ l₂ : List α}
    (h : Links L.next (L.read c) (l₁ ++ x :: l₂)) (hc : ∀ a ∈ l₁ ++ x :: l₂, c ≠ .next a) :
    Links (L.unlink (lastCell c l₁) x).next ((L.unlink (lastCell c l₁) x).read c) (l₁ ++ l₂) := by
  refine links_splice h (fun k₁ k₂ _ hne => read_write_of_ne _ _ hne) ?_
  rw [unlink, read_write_self]
  apply h.rest.frame
  intro a ha
  rw [next_write, if_neg]
  refine (lastCell_ne (hc a (by simp [ha])) fun b hb heq => ?_).symm
  exact (List.nodup_append.mp h.nodup).2.2 b hb a (.tail x ha) (Cell.next.inj heq)

section Chains
variable {i j : ι} {l l₁ l₂ k : List α}

lemma links_append_chain (hl : Links L.next (L.read (.head i)) l)
    (hk : Links L.next (L.read (.head j)) k) (hx : x ∉ l ∧ x ∉ k)
    (hdis : j ≠ i → ∀ a ∈ l, a ∉ k) : Links (L.append (lastCell (.head i) l) x).next
      ((L.append (lastCell (.head i) l) x).read (.head j)) (if j = i then k ++ [x] else k) := by
  split_ifs with hj
  · subst hj
    obtain rfl := hl.unique hk
    exact links_append hl hx.1 nofun
  · obtain ⟨hhead, hnext⟩ := apart_lastCell hj (hdis hj)
    exact links_write _ (links_write _ hk hhead hnext) nofun fun a ha heq => hx.2 (Cell.next.inj heq ▸ ha)

lemma links_unlink_chain (hl : Links L.next (L.read (.head i)) (l₁ ++ x :: l₂))
    (hk : Links L.next (L.read (.head j)) k)
    (hdis : j ≠ i → ∀ a ∈ l₁ ++ x :: l₂, a ∉ k) : Links (L.unlink (lastCell (.head i) l₁) x).next
      ((L.unlink (lastCell (.head i) l₁) x).read (.head j)) (k.erase x) := by
  by_cases hj : j = i
  · subst hj
    obtain rfl := hl.unique hk
    have hnot : x ∉ l₁ := fun hin => (List.nodup_append.mp hl.nodup).2.2 x hin x (.head _) rfl
    rw [List.erase_append_right _ hnot, List.erase_cons_head]
    exact links_unlink hl nofun
  · rw [List.erase_of_not_mem (hdis hj x (by simp))]
    obtain ⟨hhead, hnext⟩ := apart_lastCell hj fun a ha => hdis hj a (List.mem_append_left _ ha)
    exact links_write _ hk hhead hnext

end Chains

/-- Every list of the heap ends, whether or not its owner still matters. -/
def AllEnd (L : Lists ι α) : Prop := ∀ c, ∃ l, Links L.next (L.read c) l

lemma allEnd_append (h : L.AllEnd) (e : Cell ι α) (x : α) : (L.append e x).AllEnd := by
  have hread : ∀ c, (∃ l, Links (L.append e x).next (L.read c) l) →
    ∃ l, Links (L.append e x).next ((L.append e x).read c) l := by
    intro c hc
    rw [read_append]
    split
    · exact ⟨[], .nil⟩
    split
    · refine ⟨[x], .cons ?_⟩
      rw [← read_next, read_append, if_pos rfl]
      exact .nil
    · exact hc
  intro c
  obtain ⟨l, hl⟩ := h c
  apply hread
  generalize L.read c = p at hl ⊢
  induction hl with
  | nil => exact ⟨[], .nil⟩
  | @cons a l _ ih =>
    obtain ⟨l', hl'⟩ := hread (.next a) ih
    exact ⟨a :: l', .cons hl'⟩

lemma allEnd_unlink (h : L.AllEnd) {e : Cell ι α} (he : L.read e = some x) : (L.unlink e x).AllEnd := by
  have hxe : Cell.next x ≠ e := by
    intro heq
    obtain ⟨l, hl⟩ := h e
    rw [he] at hl
    cases hl with
    | @cons _ l ht =>
      have hnx : L.next x = some x := by rw [← read_next, heq, he]
      rw [hnx] at ht
      have hlen := congrArg List.length (ht.unique (.cons (hnx ▸ ht)))
      simp at hlen
  intro c
  obtain ⟨l, hl⟩ := h c
  generalize hp : L.read c = p at hl
  induction hl generalizing c with
  | nil =>
    by_cases hce : c = e
    · rw [hce, he] at hp
      cases hp
    · rw [unlink, read_write_of_ne _ _ hce, hp]
      exact ⟨[], .nil⟩
  | @cons a l _ ih =>
    by_cases hce : c = e
    · subst hce
      rw [he, Option.some.injEq] at hp
      subst hp
      obtain ⟨l', hl'⟩ := ih (.next x) rfl
      rw [unlink, read_write_of_ne _ _ hxe] at hl'
      rw [unlink, read_write_self]
      exact ⟨l', hl'⟩
    · obtain ⟨l', hl'⟩ := ih (.next a) rfl
      rw [unlink, read_write_of_ne _ _ hce, hp]
      exact ⟨a :: l', .cons hl'⟩

end Write

end Lists

end Nucleos.IntrusiveList
