import Nucleos.Lib.Buckets

/-!
# Doubly linked lists threaded through their own nodes

A list with a first and a last node is linked in both directions. Each direction is a singly linked
list of its own, and the list is well formed when the second one runs through the nodes of the first
in reverse. Taking a node out uses the links of each direction to find the cell of the other one.
-/

namespace Nucleos.IntrusiveList

universe u
variable {α : Type u}

/-- The cell of one direction that points to a node, given the pointer of the other direction. -/
def cellOf : Option α → Cell Unit α
  | none => .head ()
  | some a => .next a

lemma lastCell_head_eq (l : List α) : Lists.lastCell (.head ()) l = cellOf l.getLast? := by
  rcases List.eq_nil_or_concat l with rfl | ⟨l, a, rfl⟩
  · rfl
  · rw [List.concat_eq_append, Lists.lastCell_append, List.getLast?_concat]
    rfl

structure DoubleList (α : Type u) where
  fwd : Lists Unit α
  bwd : Lists Unit α

namespace DoubleList

structure Holds (d : DoubleList α) (l : List α) : Prop where
  fwd : Links d.fwd.next (d.fwd.head ()) l
  bwd : Links d.bwd.next (d.bwd.head ()) l.reverse

def swap (d : DoubleList α) : DoubleList α := ⟨d.bwd, d.fwd⟩

variable {d : DoubleList α} {l l₁ l₂ : List α} {x : α}

lemma Holds.swap (h : d.Holds l) : d.swap.Holds l.reverse :=
  ⟨h.bwd, by rw [List.reverse_reverse]; exact h.fwd⟩

lemma Holds.nodup (h : d.Holds l) : l.Nodup := h.fwd.nodup

lemma links_head {next : α → Option α} {p : Option α} (h : Links next p l) : p = l.head? := by
  cases l with
  | nil => exact h.eq_none
  | cons a l => exact h.eq_some

lemma links_next {next : α → Option α} {p : Option α} (h : Links next p (l₁ ++ x :: l₂)) :
    next x = l₂.head? :=
  links_head h.rest

lemma Holds.front (h : d.Holds l) : d.fwd.head () = l.head? := links_head h.fwd

lemma Holds.next (h : d.Holds (l₁ ++ x :: l₂)) : d.fwd.next x = l₂.head? := links_next h.fwd

lemma Holds.prev (h : d.Holds (l₁ ++ x :: l₂)) : d.bwd.next x = l₁.getLast? := by
  have hb := h.bwd
  rw [List.reverse_append, List.reverse_cons, List.append_assoc] at hb
  rw [← List.head?_reverse]
  exact links_next hb

section Update
variable [DecidableEq α]

def remove (d : DoubleList α) (x : α) : DoubleList α where
  fwd := d.fwd.write (cellOf (d.bwd.next x)) (d.fwd.next x)
  bwd := d.bwd.write (cellOf (d.fwd.next x)) (d.bwd.next x)

def pushFront (d : DoubleList α) (x : α) : DoubleList α where
  fwd := d.fwd.push () x
  bwd := (d.bwd.write (.next x) none).write (cellOf (d.fwd.head ())) (some x)

def pushRear (d : DoubleList α) (x : α) : DoubleList α := (d.swap.pushFront x).swap

lemma links_remove (l₁ l₂ : List α) (h : Links d.fwd.next (d.fwd.head ()) (l₁ ++ x :: l₂))
    (hprev : d.bwd.next x = l₁.getLast?) :
    Links (d.remove x).fwd.next ((d.remove x).fwd.head ()) (l₁ ++ l₂) := by
  have hunlink := Lists.links_unlink (L := d.fwd) (c := .head ()) h nofun
  rw [lastCell_head_eq, ← hprev] at hunlink
  exact hunlink

lemma Holds.remove (h : d.Holds (l₁ ++ x :: l₂)) : (d.remove x).Holds (l₁ ++ l₂) := by
  refine ⟨links_remove l₁ l₂ h.fwd h.prev, ?_⟩
  have hb := h.bwd
  rw [List.reverse_append, List.reverse_cons, List.append_assoc] at hb
  have hswap := links_remove (d := d.swap) l₂.reverse l₁.reverse hb
    (by rw [List.getLast?_reverse]; exact h.next)
  rw [List.reverse_append]
  exact hswap

lemma write_write_comm (L : Lists Unit α) {c e : Cell Unit α} (hce : c ≠ e) (v w : Option α) :
    (L.write c v).write e w = (L.write e w).write c v := by
  cases c with
  | head i => cases e with
    | head j => exact absurd rfl hce
    | next b => rfl
  | next a => cases e with
    | head j => rfl
    | next b =>
      have hab : a ≠ b := fun h => hce (congrArg _ h)
      simp only [Lists.write, Function.update_comm hab]

lemma Holds.pushFront (h : d.Holds l) (hx : x ∉ l) : (d.pushFront x).Holds (x :: l) := by
  refine ⟨Lists.links_push h.fwd hx, ?_⟩
  have hcell : cellOf (d.fwd.head ()) = Lists.lastCell (.head ()) l.reverse := by
    rw [lastCell_head_eq, List.getLast?_reverse, h.front]
  have hne : Cell.next x ≠ cellOf (d.fwd.head ()) := by
    rw [h.front]
    cases l with
    | nil => exact nofun
    | cons a l =>
      intro hc
      exact hx (Cell.next.inj hc ▸ .head _)
  have happend := Lists.links_append (c := .head ()) h.bwd (x := x)
    (fun hm => hx (List.mem_reverse.mp hm)) nofun
  rw [List.reverse_cons]
  rw [← hcell] at happend
  unfold Lists.append at happend
  rw [← write_write_comm _ hne] at happend
  exact happend

lemma Holds.pushRear (h : d.Holds l) (hx : x ∉ l) : (d.pushRear x).Holds (l ++ [x]) := by
  have hpush := (h.swap.pushFront fun hm => hx (List.mem_reverse.mp hm)).swap
  rw [List.reverse_cons, List.reverse_reverse] at hpush
  exact hpush

end Update

end DoubleList

end Nucleos.IntrusiveList
