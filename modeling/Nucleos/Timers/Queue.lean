import Nucleos.Lib.Run
import Nucleos.Lib.SortedList

/-!
# Queues of watchdog timers

A queue is a list through the timers, the next one to expire in front. Running the expired timers
calls watchdog functions, and these set and clear timers of the very queue that is being run down.
-/

namespace Nucleos.Timers

open Function IntrusiveList Run

def tmrNever : Int := 2 ^ 31 - 1

/-- Why a call does not return: a chain without end. `misuse` is a caller that is not where it says
it is. -/
inductive Stop where
  | endless
  | misuse
deriving DecidableEq, Repr

/-- The timers of a program and one queue of them; `W` names the watchdog functions. -/
structure Queue (N : Nat) (W : Type) where
  tmrs : Lists Unit (Fin N)
  expTime : Fin N → Int
  func : Fin N → W

namespace Queue
variable {N : Nat} {W : Type}

def front (q : Queue N W) : Option (Fin N) := q.tmrs.head ()

def headTime (q : Queue N W) : Int :=
  match q.front with
  | none => 0
  | some tp => q.expTime tp

def find (stop : Fin N → Bool) (q : Queue N W) : Except Stop (Cell Unit (Fin N)) :=
  match q.tmrs.walk stop (N + 1) (.head ()) with
  | none => .error .endless
  | some atp => .ok atp

def remove (atp : Cell Unit (Fin N)) (tp : Fin N) (q : Queue N W) : Queue N W :=
  { q with tmrs := if q.tmrs.read atp = some tp then q.tmrs.unlink atp tp else q.tmrs }

def link (atp : Cell Unit (Fin N)) (tp : Fin N) (q : Queue N W) : Queue N W :=
  { q with tmrs := q.tmrs.insert atp tp }

def disarm (tp : Fin N) (q : Queue N W) : Queue N W :=
  { q with expTime := update q.expTime tp tmrNever }

def arm (tp : Fin N) (expTime : Int) (watchdog : W) (q : Queue N W) : Queue N W :=
  { q with expTime := update q.expTime tp expTime, func := update q.func tp watchdog }

/-- What a call reports: the time of the head before it and of the head after it. -/
structure Heads where
  old : Int
  new : Int
deriving DecidableEq, Repr

def tmrsClrtimer (tp : Fin N) (q : Queue N W) : Except Stop (Heads × Queue N W) := do
  let prevTime := q.headTime
  let q := q.disarm tp
  let atp ← q.find (fun a => a = tp)
  let q := q.remove atp tp
  return (⟨prevTime, q.headTime⟩, q)

def tmrsSettimer (tp : Fin N) (expTime : Int) (watchdog : W) (q : Queue N W) :
    Except Stop (Heads × Queue N W) := do
  let oldHead := q.headTime
  let (_, q) ← q.tmrsClrtimer tp
  let q := q.arm tp expTime watchdog
  let atp ← q.find (fun a => expTime < q.expTime a)
  let q := q.link atp tp
  return (⟨oldHead, q.headTime⟩, q)

/-- The test of the loop of `tmrs_exptimers`: the timer that is due, taken off the queue. -/
def takeDue (now : Int) (q : Queue N W) : Option (Fin N × Queue N W) :=
  match q.front with
  | none => none
  | some tp =>
    if q.expTime tp ≤ now then some (tp, { q with tmrs := q.tmrs.unlink (.head ()) tp }.disarm tp) else none

structure Holds (q : Queue N W) (l : List (Fin N)) : Prop where
  links : Links q.tmrs.next q.front l
  sorted : l.Pairwise fun a b => q.expTime a ≤ q.expTime b

namespace Holds
variable {q q' : Queue N W} {l : List (Fin N)} {tp : Fin N}

lemma nodup (h : q.Holds l) : l.Nodup := h.links.nodup

lemma unique {l' : List (Fin N)} (h : q.Holds l) (h' : q.Holds l') : l = l' := h.links.unique h'.links

lemma congr (h : q.Holds l) (htmrs : q'.tmrs = q.tmrs)
    (hexp : ∀ a ∈ l, q'.expTime a = q.expTime a) : q'.Holds l := by
  refine ⟨?_, ?_⟩
  · rw [front, htmrs]
    exact h.links
  refine h.sorted.imp_of_mem fun ha hb hab => ?_
  rw [hexp _ ha, hexp _ hb]
  exact hab

lemma headTime_eq (h : q.Holds l) : q.headTime = (l.head?.map q.expTime).getD 0 := by
  cases l with
  | nil => simp [headTime, h.links.eq_none]
  | cons a l => simp [headTime, h.links.eq_some]

lemma find_spec (links : Links q.tmrs.next q.front l) (stop : Fin N → Bool) : ∃ l₁ l₂, l = l₁ ++ l₂ ∧
    q.find stop = .ok (Lists.lastCell (.head ()) l₁) ∧ (∀ b ∈ l₁, stop b = false) ∧
      ∀ a l₃, l₂ = a :: l₃ → stop a = true := by
  have hlen : l.length < N + 1 := by
    have := List.Nodup.length_le_card links.nodup
    rw [Fintype.card_fin] at this
    omega
  obtain ⟨e, he⟩ := q.tmrs.walk_ends stop (c := .head ()) links hlen
  obtain ⟨l₁, l₂, hl, rfl, hbefore, hafter⟩ := q.tmrs.walk_split stop (c := .head ()) links he
  exact ⟨l₁, l₂, hl, by rw [find, he], hbefore, hafter⟩

lemma remove_links (links : Links q.tmrs.next q.front l) {l₁ l₂ : List (Fin N)} (hl : l = l₁ ++ l₂)
    (hbefore : ∀ b ∈ l₁, b ≠ tp) (hafter : ∀ a l₃, l₂ = a :: l₃ → a = tp) :
    Links (q.remove (Lists.lastCell (.head ()) l₁) tp).tmrs.next
      (q.remove (Lists.lastCell (.head ()) l₁) tp).front (l.erase tp) := by
  have hread := q.tmrs.read_lastCell (c := .head ()) (hl ▸ links)
  have hnot : tp ∉ l₁ := fun hmem => hbefore tp hmem rfl
  cases l₂ with
  | nil =>
    rw [List.append_nil] at hl
    rw [List.erase_of_not_mem (hl ▸ hnot)]
    simpa only [remove, front, hread.eq_none, reduceCtorEq, if_false] using links
  | cons a l₃ =>
    obtain rfl := hafter a l₃ rfl
    have herase : l.erase a = l₁ ++ l₃ := by
      rw [hl, List.erase_append_right _ hnot, List.erase_cons_head]
    rw [herase]
    simp only [remove, front, hread.eq_some, if_true]
    exact Lists.links_unlink (c := .head ()) (hl ▸ links) nofun

end Holds

section Calls
variable {q q' : Queue N W} {l : List (Fin N)} {tp : Fin N}

lemma tmrsClrtimer_spec (h : q.Holds l) (tp : Fin N) :
    ∃ q', q.tmrsClrtimer tp = .ok (⟨q.headTime, q'.headTime⟩, q') ∧
    q'.Holds (l.erase tp) ∧ q'.func = q.func ∧ ∀ a, a ≠ tp → q'.expTime a = q.expTime a := by
  obtain ⟨l₁, l₂, hl, hfind, hbefore, hafter⟩ := Holds.find_spec (q := q.disarm tp) h.links fun a => a = tp
  have hother : ∀ a, a ≠ tp → (q.disarm tp).expTime a = q.expTime a :=
    fun a ha => update_of_ne ha _ _
  refine ⟨(q.disarm tp).remove (Lists.lastCell (.head ()) l₁) tp, ?_, ⟨?_, ?_⟩, rfl, hother⟩
  · simp only [tmrsClrtimer, hfind, bind, Except.bind, pure, Except.pure]
  · refine Holds.remove_links (q := q.disarm tp) h.links hl (fun b hb => ?_) fun a l₃ ha => ?_
    · simpa using hbefore b hb
    · simpa using hafter a l₃ ha
  · refine (h.sorted.sublist List.erase_sublist).imp_of_mem fun {a b} ha hb hab => ?_
    have hne : ∀ {c}, c ∈ l.erase tp → c ≠ tp := fun hc heq => List.Nodup.not_mem_erase h.nodup (heq ▸ hc)
    exact (hother a (hne ha)).trans_le (hab.trans_eq (hother b (hne hb)).symm)

lemma tmrsSettimer_spec (h : q.Holds l) (tp : Fin N) (expTime : Int) (watchdog : W) :
    ∃ q' l', q.tmrsSettimer tp expTime watchdog = .ok (⟨q.headTime, q'.headTime⟩, q') ∧
      q'.Holds l' ∧ l'.Perm (tp :: l.erase tp) ∧ q'.expTime tp = expTime ∧ q'.func tp = watchdog ∧
      ∀ a, a ≠ tp → q'.expTime a = q.expTime a ∧ q'.func a = q.func a := by
  obtain ⟨q₁, hclr, h₁, hfunc, hexp⟩ := tmrsClrtimer_spec h tp
  have hnot : tp ∉ l.erase tp := List.Nodup.not_mem_erase h.nodup
  have hne : ∀ a ∈ l.erase tp, a ≠ tp := fun a ha heq => hnot (heq ▸ ha)
  have h₂ : (q₁.arm tp expTime watchdog).Holds (l.erase tp) :=
    h₁.congr rfl fun a ha => update_of_ne (hne a ha) _ _
  obtain ⟨l₁, l₂, hl, hfind, hbefore, hafter⟩ :=
    Holds.find_spec h₂.links fun a => expTime < (q₁.arm tp expTime watchdog).expTime a
  have htp : (q₁.arm tp expTime watchdog).expTime tp = expTime := update_self _ _ _
  refine ⟨(q₁.arm tp expTime watchdog).link (Lists.lastCell (.head ()) l₁) tp, l₁ ++ tp :: l₂, ?_,
    ⟨?_, ?_⟩, ?_, htp,
    update_self _ _ _, ?_⟩
  · simp only [tmrsSettimer, hclr, hfind, bind, Except.bind, pure, Except.pure]
  · exact Lists.links_insert (c := .head ()) (hl ▸ h₂.links) (hl ▸ hnot)
      (fun h => nomatch h) fun a _ h => nomatch h
  · have hsorted := Lists.pairwise_insert (x := tp) (hl ▸ h₂.sorted) (fun b hb => ?_) fun a l₃ ha => ?_
    · exact hsorted
    · rw [htp]
      simpa using hbefore b hb
    · rw [htp]
      simpa using hafter a l₃ ha
  · rw [hl]
    exact List.perm_middle
  · intro a ha
    refine ⟨?_, ?_⟩
    · rw [← hexp a ha]
      exact update_of_ne ha _ _
    · rw [← hfunc]
      exact update_of_ne ha _ _

lemma takeDue_some {now : Int} (h : q.Holds l) (ht : q.takeDue now = some (tp, q')) :
    ∃ l', l = tp :: l' ∧ q.expTime tp ≤ now ∧ q'.Holds l' ∧ q'.func = q.func ∧
      ∀ a, a ≠ tp → q'.expTime a = q.expTime a := by
  cases l with
  | nil =>
    rw [takeDue, h.links.eq_none] at ht
    nomatch ht
  | cons a l' =>
    rw [takeDue, h.links.eq_some] at ht
    rcases ite_eq_iff.mp ht with ⟨hdue, ht⟩ | ⟨hdue, ht⟩
    · obtain ⟨rfl, rfl⟩ := Prod.mk.inj (Option.some.inj ht)
      have hnot := (List.nodup_cons.mp h.nodup).1
      refine ⟨l', rfl, hdue, ⟨?_, ?_⟩, rfl, fun b hb => update_of_ne hb _ _⟩
      · have hlinks : Links q.tmrs.next (q.tmrs.read (.head ())) ([] ++ a :: l') := h.links
        exact Lists.links_unlink hlinks nofun
      refine (List.pairwise_cons.mp h.sorted).2.imp_of_mem fun {b c} hb hc hbc => ?_
      have hne : ∀ {d}, d ∈ l' → d ≠ a := fun hd heq => hnot (heq ▸ hd)
      simpa [disarm, update_of_ne (hne hb), update_of_ne (hne hc)] using hbc
    · nomatch ht

lemma takeDue_none {now : Int} (h : q.Holds l) (ht : q.takeDue now = none) : ∀ a ∈ l, now < q.expTime a := by
  cases l with
  | nil => exact nofun
  | cons b l' =>
    rw [takeDue, h.links.eq_some] at ht
    rcases ite_eq_iff.mp ht with ⟨_, ht⟩ | ⟨hdue, _⟩
    · nomatch ht
    have hb := Int.not_le.mp hdue
    exact List.forall_mem_cons.mpr ⟨hb, fun a ha =>
      lt_of_lt_of_le hb ((List.pairwise_cons.mp h.sorted).1 a ha)⟩

end Calls

end Queue

end Nucleos.Timers
