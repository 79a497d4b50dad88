import Nucleos.Vm.Request
import Nucleos.Vm.Remap

/-!
# The address space of a process

What the regions of a process occupy is a list of ranges. Requests insert a range into a gap, cut
its front off, move its end or copy a whole list, and each of these leaves a list in order that
was in order. A new range has to start on a page and to have a length, and nothing but the request
itself sees to that.
-/

namespace Nucleos.Vm

open Function IntrusiveList Run

/-! ## Lists of ranges -/

structure Range where
  vaddr : BitVec 32
  length : BitVec 32
  deriving DecidableEq

def Range.fin (x : Range) : Nat := x.vaddr.toNat + x.length.toNat

/-- At least one page and no part of one, inside the address space, at a multiple of `unit`. -/
structure Range.Placed (unit : Nat) (x : Range) : Prop where
  aligned : unit ∣ x.vaddr.toNat
  whole : 4096 ∣ x.length.toNat
  pos : 0 < x.length.toNat
  nowrap : x.fin < 2 ^ 32

structure Laid (unit : Nat) (l : List Range) : Prop where
  placed : ∀ x ∈ l, x.Placed unit
  apart : l.Pairwise fun x y => x.fin ≤ y.vaddr.toNat

section Laid
variable {unit : Nat} {x y : Range} {l l' l₁ l₂ : List Range}

lemma Range.Placed.lt_fin (hx : x.Placed unit) : x.vaddr.toNat < x.fin := Nat.lt_add_of_pos_right hx.pos

lemma Range.Placed.end_toNat (hx : x.Placed unit) : (x.vaddr + x.length).toNat = x.fin := by
  rw [BitVec.toNat_add]
  exact Nat.mod_eq_of_lt hx.nowrap

lemma laid_nil : Laid unit [] := ⟨nofun, .nil⟩

lemma Laid.sublist (h : Laid unit l) (hsub : l'.Sublist l) : Laid unit l' :=
  ⟨fun x hx => h.placed x (hsub.mem hx), h.apart.sublist hsub⟩

lemma Laid.fin_le_last (h : Laid unit l) (hx : x ∈ l) : ∃ z ∈ l.getLast?, x.fin ≤ z.fin := by
  induction l generalizing x with
  | nil => nomatch hx
  | cons a l ih =>
    cases l with
    | nil =>
      rw [List.mem_singleton.mp hx]
      exact ⟨a, rfl, Nat.le_refl _⟩
    | cons b l =>
      have htail := h.sublist (List.sublist_cons_self a (b :: l))
      rw [List.getLast?_cons_cons]
      rcases List.mem_cons.mp hx with rfl | hx
      · obtain ⟨z, hz, hle⟩ := ih htail (.head _)
        have hab := (List.pairwise_cons.mp h.apart).1 b (.head _)
        have hb := (htail.placed b (.head _)).lt_fin
        exact ⟨z, hz, by omega⟩
      · exact ih htail hx

lemma Laid.head_le_vaddr (h : Laid unit l) (hx : x ∈ l) : ∃ z ∈ l.head?, z.vaddr.toNat ≤ x.vaddr.toNat := by
  cases l with
  | nil => nomatch hx
  | cons a l =>
    refine ⟨a, rfl, ?_⟩
    rcases List.mem_cons.mp hx with rfl | hx
    · exact Nat.le_refl _
    have hle := (List.pairwise_cons.mp h.apart).1 x hx
    have hlt := (h.placed a (.head _)).lt_fin
    omega

lemma Laid.insert (h : Laid unit (l₁ ++ l₂)) (hx : x.Placed unit)
    (hlast : ∀ y ∈ l₁.getLast?, y.fin ≤ x.vaddr.toNat)
    (hhead : ∀ z ∈ l₂.head?, x.fin ≤ z.vaddr.toNat) : Laid unit (l₁ ++ x :: l₂) := by
  have h₁ := h.sublist (List.sublist_append_left l₁ l₂)
  have h₂ := h.sublist (List.sublist_append_right l₁ l₂)
  obtain ⟨hap₁, hap₂, hcross⟩ := List.pairwise_append.mp h.apart
  have hbefore : ∀ a ∈ l₁, a.fin ≤ x.vaddr.toNat := by
    intro a ha
    obtain ⟨z, hz, hle⟩ := h₁.fin_le_last ha
    exact Nat.le_trans hle (hlast z hz)
  have hbehind : ∀ b ∈ l₂, x.fin ≤ b.vaddr.toNat := by
    intro b hb
    obtain ⟨z, hz, hle⟩ := h₂.head_le_vaddr hb
    exact Nat.le_trans (hhead z hz) hle
  constructor
  · exact List.forall_mem_append.mpr ⟨h₁.placed, List.forall_mem_cons.mpr ⟨hx, h₂.placed⟩⟩
  · exact List.pairwise_append.mpr ⟨hap₁, List.pairwise_cons.mpr ⟨hbehind, hap₂⟩, fun a ha =>
      List.forall_mem_cons.mpr ⟨hbefore a ha, hcross a ha⟩⟩

lemma Laid.replace (h : Laid unit (l₁ ++ x :: l₂)) (hy : y.Placed unit) (hle : x.vaddr.toNat ≤ y.vaddr.toNat)
    (hfin : y.fin ≤ x.fin ∨ ∀ z ∈ l₂.head?, y.fin ≤ z.vaddr.toNat) : Laid unit (l₁ ++ y :: l₂) := by
  obtain ⟨-, hap₂, hcross⟩ := List.pairwise_append.mp h.apart
  have hsub : (l₁ ++ l₂).Sublist (l₁ ++ x :: l₂) := (List.sublist_cons_self x l₂).append_left l₁
  refine (h.sublist hsub).insert hy (fun a ha => ?_) fun z hz => ?_
  · exact Nat.le_trans (hcross a (List.mem_of_getLast? ha) x (.head _)) hle
  rcases hfin with hfin | hfin
  · exact Nat.le_trans hfin ((List.pairwise_cons.mp hap₂).1 z (List.mem_of_mem_head? hz))
  · exact hfin z hz

end Laid

/-! ## The ranges of a process -/

def VirRegion.range (x : VirRegion) : Range := ⟨x.vaddr, x.length⟩

def Heap.ranges (h : Heap) (l : List RegionId) : List Range := l.map fun r => (h.region r).range

def State.ranges (s : State) (p : ProcId) : List Range := s.heap.ranges (s.proc p).vmRegions

variable {unit : Nat} {s t u : State} {p : ProcId} {r : RegionId} {ok : Bool}

lemma Laid.nodup {h : Heap} {l : List RegionId} (hl : Laid unit (h.ranges l)) : l.Nodup := by
  have hap := List.pairwise_map.mp hl.apart
  refine hap.imp_of_mem fun {a b} ha _ hab => ?_
  rintro rfl
  have hlt := (hl.placed _ (List.mem_map_of_mem ha)).lt_fin
  exact absurd hab (Nat.not_le_of_lt hlt)

/-- The address spaces of all processes are in order, and no region is in two of them. -/
structure State.Layout (unit : Nat) (s : State) : Prop where
  unit_dvd : unit ∣ 4096
  laid : ∀ p, Laid unit (s.ranges p)
  owner : ∀ p q r, r ∈ (s.proc p).vmRegions → r ∈ (s.proc q).vmRegions → p = q
  fresh : ∀ r, s.Held r → r < s.heap.nextRegion
  stack : ∀ p, unit ∣ (s.proc p).vmStacktop.toNat

structure Beside (p : ProcId) (s t : State) : Prop where
  proc : ∀ q, t.proc q = { s.proc q with vmPt := (t.proc q).vmPt, vmRegions := (t.proc q).vmRegions }
  vmRegions : ∀ q, q ≠ p → (t.proc q).vmRegions = (s.proc q).vmRegions
  range : ∀ r, r < s.heap.nextRegion → r ∉ (s.proc p).vmRegions →
    (t.heap.region r).range = (s.heap.region r).range
  fresh : ∀ r ∈ (t.proc p).vmRegions, r ∈ (s.proc p).vmRegions ∨ s.heap.nextRegion ≤ r ∧ r < t.heap.nextRegion
  next : s.heap.nextRegion ≤ t.heap.nextRegion

lemma Beside.trans (h₁ : Beside p s t) (h₂ : Beside p t u) : Beside p s u where
  proc q := by rw [h₂.proc q, h₁.proc q]
  vmRegions q hq := (h₂.vmRegions q hq).trans (h₁.vmRegions q hq)
  range r hr hnot := by
    have hnot' : r ∉ (t.proc p).vmRegions := fun hmem => by
      rcases h₁.fresh r hmem with hmem | ⟨hle, -⟩
      · exact hnot hmem
      · exact absurd hr (Nat.not_lt_of_le hle)
    exact (h₂.range r (Nat.lt_of_lt_of_le hr h₁.next) hnot').trans (h₁.range r hr hnot)
  fresh r hr := by
    rcases h₂.fresh r hr with hr | ⟨hle, hlt⟩
    · rcases h₁.fresh r hr with hr | ⟨hle, hlt⟩
      · exact .inl hr
      · exact .inr ⟨hle, Nat.lt_of_lt_of_le hlt h₂.next⟩
    · exact .inr ⟨Nat.le_trans h₁.next hle, hlt⟩
  next := Nat.le_trans h₁.next h₂.next

lemma State.Layout.beside (hs : s.Layout unit) (h : Beside p s t) (hlaid : Laid unit (t.ranges p)) :
    t.Layout unit := by
  have hheld : ∀ q, ∀ r ∈ (s.proc q).vmRegions, r < s.heap.nextRegion := fun q r hr => hs.fresh r ⟨q, hr⟩
  refine ⟨hs.unit_dvd, fun q => ?_, fun a b r ha hb => ?_, ?_, fun q => ?_⟩
  · by_cases hq : q = p
    · rw [hq]
      exact hlaid
    have hranges : t.ranges q = s.ranges q := by
      rw [State.ranges, h.vmRegions q hq]
      refine List.map_congr_left fun r hr => h.range r (hheld q r hr) fun hmem => ?_
      exact hq (hs.owner q p r hr hmem)
    rw [hranges]
    exact hs.laid q
  · -- a region that is new in the list of `p` is in no other
    have hold : ∀ q, q ≠ p → r ∈ (t.proc q).vmRegions → r ∈ (t.proc p).vmRegions → q = p := by
      intro q hq hmem hp
      rw [h.vmRegions q hq] at hmem
      rcases h.fresh r hp with hp | ⟨hle, -⟩
      · exact hs.owner q p r hmem hp
      · exact absurd (hheld q r hmem) (Nat.not_lt_of_le hle)
    by_cases hap : a = p
    · by_cases hbp : b = p
      · rw [hap, hbp]
      · rw [hap] at ha ⊢
        exact (hold b hbp hb ha).symm
    by_cases hbp : b = p
    · rw [hbp] at hb ⊢
      exact hold a hap ha hb
    · rw [h.vmRegions a hap] at ha
      rw [h.vmRegions b hbp] at hb
      exact hs.owner a b r ha hb
  · rintro r ⟨q, hr⟩
    by_cases hq : q = p
    · rw [hq] at hr
      rcases h.fresh r hr with hr | ⟨-, hlt⟩
      · exact Nat.lt_of_lt_of_le (hheld p r hr) h.next
      · exact hlt
    · rw [h.vmRegions q hq] at hr
      exact Nat.lt_of_lt_of_le (hheld q r hr) h.next
  · rw [h.proc q]
    exact hs.stack q

structure Steady (s t : State) : Prop where
  proc : ∀ q, t.proc q = { s.proc q with vmPt := (t.proc q).vmPt }
  range : ∀ r, r < s.heap.nextRegion → (t.heap.region r).range = (s.heap.region r).range
  next : s.heap.nextRegion ≤ t.heap.nextRegion

lemma Steady.vmRegions (h : Steady s t) (p : ProcId) : (t.proc p).vmRegions = (s.proc p).vmRegions := by
  rw [h.proc p]

lemma Steady.trans (h₁ : Steady s t) (h₂ : Steady t u) : Steady s u where
  proc q := by rw [h₂.proc q, h₁.proc q]
  range r hr := (h₂.range r (Nat.lt_of_lt_of_le hr h₁.next)).trans (h₁.range r hr)
  next := Nat.le_trans h₁.next h₂.next

lemma Frame.range (h : Frame s t) (r : RegionId) : (t.heap.region r).range = (s.heap.region r).range := by
  rw [h.region r]
  rfl

lemma Frame.steady (h : Frame s t) : Steady s t where
  proc := h.proc
  range r _ := h.range r
  next := Nat.le_of_eq h.next.symm

lemma Steady.beside (h : Steady s t) (p : ProcId) : Beside p s t where
  proc q := by rw [h.proc q]
  vmRegions q _ := h.vmRegions q
  range r hr _ := h.range r hr
  fresh r hr := .inl (h.vmRegions p ▸ hr)
  next := h.next

lemma Steady.ranges (h : Steady s t) (hs : s.Layout unit) (p : ProcId) : t.ranges p = s.ranges p := by
  rw [State.ranges, h.vmRegions p]
  exact List.map_congr_left fun r hr => h.range r (hs.fresh r ⟨p, hr⟩)

lemma State.Layout.steady (hs : s.Layout unit) (h : Steady s t) : t.Layout unit := by
  refine hs.beside (h.beside 0) ?_
  rw [h.ranges hs 0]
  exact hs.laid 0

/-! ## The search for a gap -/

section Slot
variable {h : Heap} {minv maxv length v : BitVec 32} {l : List RegionId} {prev : Option RegionId}
    {a b : BitVec 32}

lemma freevrange_eq_some : freevrange minv maxv length a b = some v ↔ maxOf a minv = v ∧
    v.toNat < min b.toNat maxv.toNat ∧ v.toNat + length.toNat ≤ min b.toNat maxv.toNat := by
  have hroom : (minOf b maxv > maxOf a minv ∧ minOf b maxv - maxOf a minv ≥ length) ↔
      (maxOf a minv).toNat < min b.toNat maxv.toNat ∧
        (maxOf a minv).toNat + length.toNat ≤ min b.toNat maxv.toNat := by
    rw [← minOf_toNat]
    refine and_congr_right fun hlt => ?_
    have hlt' := BitVec.lt_def.mp hlt
    rw [ge_iff_le, BitVec.le_def, BitVec.toNat_sub_of_le (BitVec.le_of_lt hlt)]
    omega
  unfold freevrange
  simp only [hroom, ite_eq_iff, Option.some.injEq, reduceCtorEq, and_false, or_false]
  constructor
  · rintro ⟨h, rfl⟩
    exact ⟨rfl, h⟩
  · rintro ⟨rfl, h⟩
    exact ⟨h, rfl⟩

lemma freevrange_some (hfind : freevrange minv maxv length a b = some v) :
    (v = a ∨ v = minv) ∧ a.toNat ≤ v.toNat ∧ minv.toNat ≤ v.toNat ∧ v.toNat + length.toNat ≤ b.toNat ∧
      v.toNat + length.toNat ≤ maxv.toNat := by
  obtain ⟨rfl, -, hle⟩ := freevrange_eq_some.mp hfind
  obtain ⟨hb, hmax⟩ := Nat.le_min.mp hle
  refine ⟨?_, ?_, ?_, hb, hmax⟩
  · unfold maxOf
    split_ifs
    · exact .inl rfl
    · exact .inr rfl
  · rw [maxOf_toNat]
    exact Nat.le_max_left ..
  · rw [maxOf_toNat]
    exact Nat.le_max_right ..

lemma freevrange_none (hfind : freevrange minv maxv length a b = none) (hpos : 0 < length.toNat)
    (ha : a.toNat ≤ v.toNat) (hmin : minv.toNat ≤ v.toNat) :
    ¬ v.toNat + length.toNat ≤ min b.toNat maxv.toNat := by
  intro hle
  have hmax : (maxOf a minv).toNat ≤ v.toNat := by
    rw [maxOf_toNat]
    exact Nat.max_le.mpr ⟨ha, hmin⟩
  have hsome : freevrange minv maxv length a b = some (maxOf a minv) :=
    freevrange_eq_some.mpr ⟨rfl, by omega, by omega⟩
  nomatch hfind.symm.trans hsome

lemma insertAfter_append {q : RegionId} {l₁ l₂ : List RegionId} (hq : q ∉ l₁) (r : RegionId) :
    insertAfter r q (l₁ ++ q :: l₂) = l₁ ++ q :: r :: l₂ := by
  induction l₁ with
  | nil => simp [insertAfter]
  | cons x l₁ ih =>
    obtain ⟨hne, hq⟩ := not_or.mp (mt List.mem_cons.mpr hq)
    rw [List.cons_append, insertAfter, if_neg (Ne.symm hne), ih hq]
    rfl

structure Gap (h : Heap) (l₁ l₂ : List RegionId) (x : Range) : Prop where
  last : ∀ y ∈ (h.ranges l₁).getLast?, y.fin ≤ x.vaddr.toNat
  head : ∀ z ∈ (h.ranges l₂).head?, x.fin ≤ z.vaddr.toNat
  nowrap : x.fin < 2 ^ 32

lemma gap_of_limit {l₁ l₂ : List RegionId} (hlast : ∀ y ∈ (h.ranges l₁).getLast?, y.fin ≤ v.toNat)
    (hlimit : v.toNat + length.toNat ≤ (h.rangeLimit l₂).toNat) : Gap h l₁ l₂ ⟨v, length⟩ := by
  refine ⟨hlast, fun z hz => ?_, Nat.lt_of_le_of_lt hlimit (h.rangeLimit l₂).isLt⟩
  cases l₂ with
  | nil => nomatch hz
  | cons n l₂ =>
    cases hz
    exact hlimit

lemma regionFindSlot_split (hunit : unit ∣ 4096) (hl : Laid unit (h.ranges l)) (hmin : unit ∣ minv.toNat)
    (hfind : regionFindSlot h l minv maxv length = some (v, prev)) :
    ∃ l₁ l₂, l = l₁ ++ l₂ ∧ (∀ r, linkRegion r prev l = l₁ ++ r :: l₂) ∧ Gap h l₁ l₂ ⟨v, length⟩ ∧
      unit ∣ v.toNat ∧
      minv.toNat ≤ v.toNat ∧ v.toNat + length.toNat ≤ (if maxv = 0 then minv + length else maxv).toNat := by
  unfold regionFindSlot at hfind
  simp only at hfind
  rcases ite_eq_iff.mp hfind with ⟨_, hfind⟩ | ⟨_, hfind⟩
  · nomatch hfind
  split at hfind
  · next startv hfront =>
    cases hfind
    obtain ⟨heq, -, hge, hlimit, hmax⟩ := freevrange_some hfront
    refine ⟨[], l, rfl, fun r => rfl, gap_of_limit nofun hlimit, ?_, hge, hmax⟩
    rcases heq with rfl | rfl
    · exact Nat.dvd_zero unit
    · exact hmin
  · obtain ⟨l₁, q, l₂, rfl, rfl, hfree⟩ := findBehind_split hfind
    obtain ⟨heq, hle, hge, hlimit, hmax⟩ := freevrange_some hfree
    have hq : (h.region q).range.Placed unit :=
      hl.placed _ (List.mem_map_of_mem (List.mem_append_right l₁ (.head _)))
    have hend : ((h.region q).vaddr + (h.region q).length).toNat = (h.region q).range.fin := hq.end_toNat
    have hnot : q ∉ l₁ := fun hmem => (List.nodup_append.mp hl.nodup).2.2 q hmem q (.head _) rfl
    refine ⟨l₁ ++ [q], l₂, by simp, fun r => ?_, gap_of_limit (fun y hy => ?_) hlimit, ?_, hge, hmax⟩
    · rw [linkRegion, insertAfter_append hnot]
      simp
    · have hlast : (h.ranges (l₁ ++ [q])).getLast? = some (h.region q).range := by simp [Heap.ranges]
      rw [hlast] at hy
      cases hy
      rw [← hend]
      exact hle
    · rcases heq with rfl | rfl
      · rw [hend]
        exact Nat.dvd_add hq.aligned (Nat.dvd_trans hunit hq.whole)
      · exact hmin

/-- A place for a region: inside the bounds and the address space, and free. -/
structure Slot (h : Heap) (l : List RegionId) (minv maxv length v : BitVec 32) : Prop where
  min : minv.toNat ≤ v.toNat
  -- `maxv` 0 asks for the place right at `minv`
  max : v.toNat + length.toNat ≤ if maxv = 0 then minv.toNat + length.toNat else maxv.toNat
  top : v.toNat + length.toNat ≤ vmDatatop.toNat
  free : ∀ r ∈ l, v.toNat + length.toNat ≤ (h.region r).vaddr.toNat ∨ (h.region r).range.fin ≤ v.toNat

lemma findBehind_none (hend : ∀ r ∈ l, ((h.region r).vaddr + (h.region r).length).toNat =
    (h.region r).range.fin)
    (hpos : 0 < length.toNat) (hfind : findBehind h minv maxv length l = none)
    (hfront : freevrange minv maxv length a (h.rangeLimit l) = none) (ha : a.toNat ≤ v.toNat)
    (hmin : minv.toNat ≤ v.toNat)
    (hmax : v.toNat + length.toNat ≤ maxv.toNat) (htop : v.toNat + length.toNat ≤ vmDatatop.toNat) :
    ¬ ∀ r ∈ l, v.toNat + length.toNat ≤ (h.region r).vaddr.toNat ∨ (h.region r).range.fin ≤ v.toNat := by
  intro hfree
  induction l generalizing a with
  | nil => exact freevrange_none hfront hpos ha hmin (Nat.le_min.mpr ⟨htop, hmax⟩)
  | cons x l ih =>
    -- the place lies in front of the region, or the search goes on behind it
    rcases hfree x (.head _) with hle | hge
    · exact freevrange_none hfront hpos ha hmin (Nat.le_min.mpr ⟨hle, hmax⟩)
    rw [findBehind] at hfind
    split at hfind
    · cases hfind
    next hnone =>
    refine ih (fun r hr => hend r (.tail x hr)) hfind hnone ?_ fun r hr => hfree r (.tail x hr)
    rw [hend x List.mem_cons_self]
    exact hge

lemma regionFindSlot_none (hl : Laid unit (h.ranges l)) (hpos : 0 < length.toNat)
    (hfind : regionFindSlot h l minv maxv length = none) : ¬ Slot h l minv maxv length v := by
  intro hv
  have hend : ∀ r ∈ l, ((h.region r).vaddr + (h.region r).length).toNat = (h.region r).range.fin :=
    fun r hr =>
    (hl.placed _ (List.mem_map_of_mem hr)).end_toNat
  have htop : vmDatatop.toNat < 2 ^ 32 := by decide
  have hlimit : v.toNat + length.toNat ≤ (if maxv = 0 then minv + length else maxv).toNat ∧
      ¬ (maxv = 0 ∧ (if maxv = 0 then minv + length else maxv) ≤ minv) := by
    have hmin := hv.min
    have hmax := hv.max
    have hle := hv.top
    by_cases hzero : maxv = 0
    · rw [if_pos hzero] at hmax ⊢
      rw [BitVec.le_def, BitVec.toNat_add, Nat.mod_eq_of_lt (by omega)]
      omega
    · rw [if_neg hzero] at hmax ⊢
      exact ⟨hmax, fun h => hzero h.1⟩
  unfold regionFindSlot at hfind
  simp only [if_neg hlimit.2] at hfind
  split at hfind
  · nomatch hfind
  · next hfront => exact findBehind_none hend hpos hfind hfront (Nat.zero_le _) hv.min hlimit.1 hv.top hv.free

/-- A slot that is found can be used and leaves the list in order; if none is found there is
none. -/
theorem regionFindSlot_sound_complete (hl : Laid 4096 (h.ranges l)) (hmin : 4096 ∣ minv.toNat)
    (hdvd : 4096 ∣ length.toNat)
    (hpos : 0 < length.toNat) :
    (∀ v prev, regionFindSlot h l minv maxv length = some (v, prev) → Slot h l minv maxv length v ∧
      ∃ l₁ l₂, l = l₁ ++ l₂ ∧ (∀ r, linkRegion r prev l = l₁ ++ r :: l₂) ∧
        Laid 4096 (h.ranges l₁ ++ ⟨v, length⟩ :: h.ranges l₂)) ∧
    (regionFindSlot h l minv maxv length = none → ∀ v, ¬ Slot h l minv maxv length v) := by
  refine ⟨fun v prev hfind => ?_, fun hfind v => regionFindSlot_none hl hpos hfind⟩
  obtain ⟨l₁, l₂, rfl, hlink, hgap, hv, hge, hmax⟩ := regionFindSlot_split (Nat.dvd_refl _) hl hmin hfind
  have hlaid : Laid 4096 (h.ranges l₁ ++ ⟨v, length⟩ :: h.ranges l₂) := by
    rw [Heap.ranges, List.map_append] at hl
    exact hl.insert ⟨hv, hdvd, hpos, hgap.nowrap⟩ hgap.last hgap.head
  refine ⟨⟨hge, ?_, ?_, fun r hr => ?_⟩, l₁, l₂, rfl, hlink, hlaid⟩
  · split_ifs at hmax ⊢ with hzero
    · rw [BitVec.toNat_add] at hmax
      exact Nat.le_trans hmax (Nat.mod_le ..)
    · exact hmax
  · have hnowrap := hgap.nowrap
    have hfin : 4096 ∣ v.toNat + length.toNat := Nat.dvd_add hv hdvd
    simp only [Range.fin] at hnowrap
    show v.toNat + length.toNat ≤ 0xFFFFF000
    omega
  · obtain ⟨-, hbehind, hcross⟩ := List.pairwise_append.mp hlaid.apart
    rcases List.mem_append.mp hr with hr | hr
    · exact .inr (hcross _ (List.mem_map_of_mem hr) _ (.head _))
    · exact .inl ((List.pairwise_cons.mp hbehind).1 _ (List.mem_map_of_mem hr))

def lastPage : Heap :=
  { bootVm.heap with
    region := fun r => ⟨if r = 0 then 0x1000 else 0xFFFFF000, 0x1000, [], vrAnon, vrtNone, 0⟩ }

/-- The end of a region in the last page is taken for 0, and nothing is found for no bytes at
all. -/
theorem slot_over_region : (lastPage.ranges [0, 1]).Pairwise (fun x y => x.fin ≤ y.vaddr.toNat) ∧
    regionFindSlot lastPage [0, 1] 0x1000 0x2000 0x1000 = some (0x1000, some 1) ∧
      ¬ Slot lastPage [0, 1] 0x1000 0x2000 0x1000 0x1000 ∧
    regionFindSlot lastPage [0] 0x1000 0x2000 0 = none ∧ Slot lastPage [0] 0x1000 0x2000 0 0x1000 := by
  refine ⟨by decide, by decide, fun h => absurd (h.free 0 (by decide)) (by decide), by decide,
    by decide, by decide, by decide, ?_⟩
  decide

theorem slot_behind_region : regionFindSlot lastPage [0] 0x1000 0x3000 0x1000 = some (0x2000, some 0) ∧
    Slot lastPage [0] 0x1000 0x3000 0x1000 0x2000 := by
  have hl : Laid 4096 (lastPage.ranges [0]) := by
    refine ⟨fun x hx => ?_, List.pairwise_singleton _ _⟩
    rw [List.mem_singleton.mp hx]
    exact ⟨by decide, by decide, by decide, by decide⟩
  have hfind : regionFindSlot lastPage [0] 0x1000 0x3000 0x1000 = some (0x2000, some 0) := by decide
  exact ⟨hfind, ((regionFindSlot_sound_complete hl (by decide) (by decide) (by decide)).1 _ _ hfind).1⟩

end Slot

/-! ## A new region -/

section New
variable {minv maxv length v : BitVec 32} {prev : Option RegionId}

lemma State.Layout.link (hs : s.Layout unit)
    (hfind : regionFindSlot s.heap (s.proc p).vmRegions minv maxv length = some (v, prev))
    (hsteady : Steady s u) (hnext : s.heap.nextRegion < u.heap.nextRegion)
    (hrange : (u.heap.region s.heap.nextRegion).range = ⟨v, length⟩) (hmin : unit ∣ minv.toNat)
    (hdvd : 4096 ∣ length.toNat)
    (hpos : 0 < length.toNat) : (u.link p s.heap.nextRegion prev).Layout unit := by
  obtain ⟨l₁, l₂, hl, hlink, hgap, hv, -⟩ := regionFindSlot_split hs.unit_dvd (hs.laid p) hmin hfind
  have hlist : ((u.link p s.heap.nextRegion prev).proc p).vmRegions = l₁ ++ s.heap.nextRegion :: l₂ := by
    rw [link_vmRegions, if_pos rfl, hsteady.vmRegions, hlink]
  have hmem : ∀ r, r ∈ l₁ ++ l₂ → r ∈ (s.proc p).vmRegions := fun r hr => hl ▸ hr
  have hranges : ∀ l : List RegionId, (∀ r ∈ l, r ∈ l₁ ++ l₂) → u.heap.ranges l = s.heap.ranges l :=
    fun l hsub =>
    List.map_congr_left fun r hr => hsteady.range r (hs.fresh r ⟨p, hmem r (hsub r hr)⟩)
  refine hs.beside (p := p) ⟨fun q => ?_, fun q hq => ?_, fun r hr _ => hsteady.range r hr,
    fun r hr => ?_, hsteady.next⟩ ?_
  · by_cases hq : q = p
    · subst hq
      simp only [State.link, State.modProc, update_self]
      rw [hsteady.proc q]
    · simp only [State.link, State.modProc, update_of_ne hq]
      rw [hsteady.proc q]
  · rw [link_vmRegions, if_neg hq, hsteady.vmRegions]
  · rw [hlist, List.mem_append, List.mem_cons, or_left_comm, ← List.mem_append] at hr
    rcases hr with rfl | hr
    · exact .inr ⟨Nat.le_refl _, hnext⟩
    · exact .inl (hmem r hr)
  · have hnew : (u.link p s.heap.nextRegion prev).ranges p = s.heap.ranges l₁ ++ ⟨v, length⟩ ::
      s.heap.ranges l₂ := by
      rw [State.ranges, hlist, ← hrange, ← hranges l₁ fun r hr => List.mem_append_left l₂ hr,
        ← hranges l₂ fun r hr => List.mem_append_right l₁ hr]
      exact List.map_append
    have hold := hs.laid p
    rw [State.ranges, hl, Heap.ranges, List.map_append] at hold
    rw [hnew]
    exact hold.insert ⟨hv, hdvd, hpos, hgap.nowrap⟩ hgap.last hgap.head

lemma newRegion_steady (s : State) (x : VirRegion) : Steady s (s.modHeap fun h => h.newRegion x) where
  proc _ := rfl
  range r hr := by
    have hregion : (s.modHeap fun h => h.newRegion x).heap.region r = s.heap.region r :=
      newRegion_of_ne s.heap x (Nat.ne_of_lt hr)
    rw [hregion]
  next := Nat.le_succ _

variable {what : BitVec 32} {flags : BitVec 16} {prealloc : Bool}

lemma mapPageRegion_steady {res : Option RegionId}
    (h : mapPageRegion p minv maxv length what flags prealloc s = .ok (res, t)) :
    Steady s t ∨ ∃ v prev u, regionFindSlot s.heap (s.proc p).vmRegions minv maxv length =
      some (v, prev) ∧ Steady s u ∧
      s.heap.nextRegion < u.heap.nextRegion ∧ (u.heap.region s.heap.nextRegion).range = ⟨v, length⟩ ∧
      t = u.link p s.heap.nextRegion prev := by
  rcases mapPageRegion_cases h with ⟨-, ha⟩ | ⟨v, prev, s₃, got, s₄, hslot, hnew, h₃, h⟩
  · exact .inl ha.frame.steady
  have hfound : ∀ u, Frame s₃ u →
      Steady s u ∧ s.heap.nextRegion < u.heap.nextRegion ∧
        (u.heap.region s.heap.nextRegion).range = ⟨v, length⟩ := by
    intro u hu
    have hframe := hnew.frame.trans hu
    refine ⟨(newRegion_steady s _).trans hframe.steady, ?_, ?_⟩
    · rw [hframe.next]
      exact Nat.lt_succ_self _
    · rw [hframe.range]
      exact congrArg VirRegion.range (newRegion_new s.heap _)
  have hframe₄ := mapWhat_frame h₃
  rcases h with ⟨-, -, rfl⟩ | ⟨-, ok, s₅, hpre, h⟩
  · exact .inl (hfound _ hframe₄).1
  obtain ⟨hsteady, hnext, hrange⟩ := hfound _ (hframe₄.trans (preallocate_frame hpre))
  rcases h with ⟨-, -, rfl⟩ | ⟨-, -, rfl⟩
  · exact .inl hsteady
  · exact .inr ⟨v, prev, s₅, hslot, hsteady, hnext, hrange, rfl⟩

lemma mapPageRegion_layout {res : Option RegionId} (hs : s.Layout unit)
    (hmin : unit ∣ minv.toNat) (hdvd : 4096 ∣ length.toNat) (hpos : 0 < length.toNat)
    (h : mapPageRegion p minv maxv length what flags prealloc s = .ok (res, t)) : t.Layout unit := by
  rcases mapPageRegion_steady h with hsteady | ⟨v, prev, u, hfind, hsteady, hnext, hrange, rfl⟩
  · exact hs.steady hsteady
  · exact hs.link hfind hsteady hnext hrange hmin hdvd hpos

end New

/-! ## Copies of regions -/

section Copy
variable {vr : RegionId} {res : Option RegionId}

lemma copyBlocks_frame {l : List PhysId} (h : copyBlocks r l s = (ok, t)) : Frame s t := by
  induction l generalizing s with
  | nil =>
    cases h
    exact Frame.refl _
  | cons pr rest ih =>
    rw [copyBlocks] at h
    split at h
    · next s₁ hslab =>
      cases h
      exact (slaballoc_false hslab).1.frame
    next s₁ hslab =>
    have hcopy : Frame s₁ (s₁.modHeap fun h => (h.copyPhys r pr).insertPhys r h.nextPhys) := by
      refine ⟨fun q => ?_, fun _ => rfl, rfl⟩
      have hregion := copyPhys_region s₁.heap r pr q
      simp only [State.modHeap]
      rw [hregion]
      split_ifs <;> rfl
    exact ((slaballoc_true hslab).frame.trans hcopy).trans (ih h)

lemma mapCopyRegion_steady (h : mapCopyRegion p vr s = .ok (res, t)) :
    Steady s t ∧ (∀ new, res = some new → new = s.heap.nextRegion ∧ s.heap.nextRegion < t.heap.nextRegion ∧
      (t.heap.region new).range = (s.heap.region vr).range) := by
  unfold mapCopyRegion at h
  rcases slabs_cases h with ⟨u, ha, -, h⟩ | ⟨s₂, haside, h⟩
  · cases h
    exact ⟨ha.frame.steady, nofun⟩
  simp only at h
  have hnew := haside.modHeap fun h => h.newRegion (h.region vr)
  rw [haside.heap] at h
  generalize (s₂.modHeap fun h => h.newRegion (h.region vr)) = s₃ at h hnew
  have hsteady : ∀ u, Frame s₃ u → Steady s u := fun u hu =>
    (newRegion_steady s _).trans (hnew.frame.trans hu).steady
  split at h
  · next s₄ h₃ =>
    have hframe₄ := copyBlocks_frame h₃
    cases h
    refine ⟨hsteady _ hframe₄, ?_⟩
    rintro new hsome
    cases hsome
    have hframe := hnew.frame.trans hframe₄
    refine ⟨rfl, ?_, ?_⟩
    · rw [hframe.next]
      exact Nat.lt_succ_self _
    · rw [hframe.range]
      exact (congrArg VirRegion.range (newRegion_new s.heap (s.heap.region vr))).trans rfl
  · next s₄ h₃ =>
    have hframe₄ := copyBlocks_frame h₃
    obtain ⟨⟨ok, s₅⟩, hfree, h⟩ := bind_eq_ok.mp h
    cases h
    exact ⟨hsteady _ (hframe₄.trans (mapFree_frame hfree)), nofun⟩

lemma modRegion_steady (s : State) {f : VirRegion → VirRegion}
    (hr : s.heap.nextRegion ≤ r ∨ ∀ x, (f x).range = x.range) :
    Steady s (s.modHeap fun h => h.modRegion r f) where
  proc _ := rfl
  range q hq := by
    simp only [State.modHeap, Heap.modRegion]
    by_cases hqr : q = r
    · subst hqr
      rw [update_self]
      exact hr.resolve_left (Nat.not_le_of_lt hq) _
    · rw [update_of_ne hqr]
  next := Nat.le_refl _

lemma mapRemap_layout {da size va : BitVec 32} {res : Int} (hs : s.Layout unit)
    (hmin : unit ∣ (archVir2map (s.proc p) (if da = 0 then (s.proc p).vmStacktop else da)).toNat)
    (hpos : 0 < (roundUp size).toNat)
    (h : mapRemap p da size r s = .ok (res, va, t)) : t.Layout unit := by
  unfold mapRemap at h
  simp only at h
  split at h
  · cases h
    exact hs
  next v prev hslot =>
  rcases ite_eq_iff.mp h with ⟨_, h⟩ | ⟨_, h⟩
  · cases h
    exact hs
  obtain ⟨⟨copy, s₁⟩, hcopy, h⟩ := bind_eq_ok.mp h
  obtain ⟨hsteady, hnew⟩ := mapCopyRegion_steady hcopy
  cases copy with
  | none =>
    cases h
    exact hs.steady hsteady
  | some vr =>
  obtain ⟨rfl, hnext, -⟩ := hnew vr rfl
  obtain ⟨s₂, hblocks, h⟩ := bind_eq_ok.mp h
  cases h
  refine State.Layout.steady ?_ (remapBlocks_recounted hblocks).2.steady
  refine hs.link hslot ?_ ?_ ?_ hmin (roundUp_dvd size) hpos
  · refine ⟨hsteady.proc, fun q hq => ?_, hsteady.next⟩
    simp only [State.modHeap, Heap.modRegion]
    rw [update_of_ne (Nat.ne_of_lt hq)]
    exact hsteady.range q hq
  · exact hnext
  · simp [State.modHeap, Heap.modRegion, VirRegion.range]

end Copy

/-! ## A region that changes its size -/

structure Resized (s t : State) (r : RegionId) (y : Range) : Prop where
  proc : ∀ q, t.proc q = { s.proc q with vmPt := (t.proc q).vmPt }
  range : ∀ q, (t.heap.region q).range = if q = r then y else (s.heap.region q).range
  next : t.heap.nextRegion = s.heap.nextRegion

lemma nextRegion_append {l₁ l₂ : List RegionId} (hr : r ∉ l₁) : nextRegion r (l₁ ++ r :: l₂) = l₂.head? := by
  induction l₁ with
  | nil => simp [nextRegion]
  | cons x l₁ ih =>
    obtain ⟨hne, hr⟩ := not_or.mp (mt List.mem_cons.mpr hr)
    have hdrop : ((x :: l₁) ++ r :: l₂).dropWhile (· ≠ r) = (l₁ ++ r :: l₂).dropWhile (· ≠ r) := by
      simp [Ne.symm hne]
    rw [nextRegion, hdrop]
    exact ih hr

lemma State.Layout.resized {y : Range} (hs : s.Layout unit) (hr : r ∈ (s.proc p).vmRegions)
    (h : Resized s t r y) (hy : y.Placed unit)
    (hle : (s.heap.region r).vaddr.toNat ≤ y.vaddr.toNat) (hfin : y.fin ≤ (s.heap.region r).range.fin ∨
      ∀ n ∈ nextRegion r (s.proc p).vmRegions, y.fin ≤ (s.heap.region n).vaddr.toNat) : t.Layout unit := by
  have hlist : ∀ q, (t.proc q).vmRegions = (s.proc q).vmRegions := fun q => by rw [h.proc q]
  have hlaid := hs.laid p
  obtain ⟨l₁, l₂, hl⟩ := List.append_of_mem hr
  rw [State.ranges, hl] at hlaid
  have hnd := List.nodup_append.mp hlaid.nodup
  have hnot₁ : r ∉ l₁ := fun hmem => hnd.2.2 r hmem r (.head _) rfl
  have hnot₂ : r ∉ l₂ := (List.nodup_cons.mp hnd.2.1).1
  have hkeep : ∀ l : List RegionId, r ∉ l → t.heap.ranges l = s.heap.ranges l := by
    intro l hnot
    refine List.map_congr_left fun q hq => ?_
    rw [h.range q, if_neg fun heq : q = r => hnot (heq ▸ hq)]
  refine hs.beside (p := p) ⟨fun q => ?_, fun q _ => hlist q, fun q _ hq => ?_, fun q hq => ?_,
    Nat.le_of_eq h.next.symm⟩ ?_
  · rw [h.proc q]
  · rw [h.range q, if_neg fun heq : q = r => hq (heq ▸ hr)]
  · exact .inl (hlist p ▸ hq)
  have hnew : t.ranges p = s.heap.ranges l₁ ++ y :: s.heap.ranges l₂ := by
    have hy : y = (t.heap.region r).range := by rw [h.range r, if_pos rfl]
    rw [State.ranges, hlist, hl, hy, ← hkeep l₁ hnot₁, ← hkeep l₂ hnot₂]
    exact List.map_append
  rw [hnew]
  rw [Heap.ranges, List.map_append, List.map_cons] at hlaid
  refine hlaid.replace hy hle (hfin.imp_right fun hfin z hz => ?_)
  rw [hl, nextRegion_append hnot₁] at hfin
  cases l₂ with
  | nil => nomatch hz
  | cons n l₂ =>
    cases hz
    exact hfin n rfl

lemma shrink_resized (s : State) (r : RegionId) (len : BitVec 32) :
    Resized s (s.modHeap fun h => h.shrink r len) r ⟨(s.heap.region r).vaddr + len,
      (s.heap.region r).length - len⟩ := by
  obtain ⟨f, hf, -⟩ := shiftOffsets_spec len (s.heap.region r).phys
    (s.heap.modRegion r fun x => { x with vaddr := x.vaddr + len, length := x.length - len })
  refine ⟨fun _ => rfl, fun q => ?_, (congrArg Heap.nextRegion hf :)⟩
  have hq : (s.modHeap fun h => h.shrink r len).heap.region q = _ := congrFun (congrArg Heap.region hf) q
  rw [hq]
  by_cases hqr : q = r
  · subst hqr
    simp [Heap.modRegion, VirRegion.range]
  · simp [Heap.modRegion, hqr]

lemma State.Layout.unlink (hs : s.Layout unit) (p : ProcId) (r : RegionId) : (s.unlink p r).Layout unit := by
  have hlist : ((s.unlink p r).proc p).vmRegions = (s.proc p).vmRegions.erase r := by
    rw [unlink_vmRegions, if_pos rfl]
  refine hs.beside (p := p) ⟨fun q => ?_, fun q hq => ?_, fun q _ _ => rfl, fun q hq => ?_, Nat.le_refl _⟩ ?_
  · rw [State.unlink, State.modProc_proc]
    split <;> rfl
  · rw [unlink_vmRegions, if_neg hq]
  · rw [hlist] at hq
    exact .inl (List.mem_of_mem_erase hq)
  · rw [State.ranges, hlist]
    exact (hs.laid p).sublist (List.Sublist.map _ List.erase_sublist)

variable {len : BitVec 32}

lemma unmapFront_layout (hs : s.Layout unit) (hr : r ∈ (s.proc p).vmRegions)
    (hle : len ≤ (s.heap.region r).length)
    (hdvd : 4096 ∣ len.toNat) (h : unmapFront p r len s = .ok t) : t.Layout unit := by
  unfold unmapFront at h
  split_ifs at h with hne
  · obtain ⟨⟨ok, s₁⟩, hfree, h⟩ := bind_eq_ok.mp h
    cases h
    exact (hs.unlink p r).steady (mapFree_frame hfree).steady
  obtain ⟨⟨ok, s₁⟩, hsub, h⟩ := bind_eq_ok.mp h
  cases h
  have hframe : Frame s s₁ := subfreeFrom_frame hsub
  have hrange := hframe.range r
  have hx : (s₁.heap.region r).range.Placed unit := by
    rw [hrange]
    exact (hs.laid p).placed _ (List.mem_map_of_mem hr)
  have hlen : (s₁.heap.region r).length = (s.heap.region r).length := congrArg Range.length hrange
  have hlt : len.toNat < (s₁.heap.region r).length.toNat := by
    rw [hlen]
    exact Nat.lt_of_le_of_ne (BitVec.le_def.mp hle) fun heq => hne (BitVec.eq_of_toNat_eq heq)
  have hwrap : (s₁.heap.region r).vaddr.toNat + (s₁.heap.region r).length.toNat < 2 ^ 32 := hx.nowrap
  have hvaddr : ((s₁.heap.region r).vaddr + len).toNat = (s₁.heap.region r).vaddr.toNat + len.toNat := by
    rw [BitVec.toNat_add]
    exact Nat.mod_eq_of_lt (by omega)
  have hlength : ((s₁.heap.region r).length - len).toNat = (s₁.heap.region r).length.toNat - len.toNat :=
    BitVec.toNat_sub_of_le (BitVec.le_def.mpr (Nat.le_of_lt hlt))
  have hfin : Range.fin ⟨(s₁.heap.region r).vaddr + len, (s₁.heap.region r).length - len⟩ =
    (s₁.heap.region r).range.fin := by
    simp only [Range.fin, VirRegion.range, hvaddr, hlength]
    omega
  refine (hs.steady hframe.steady).resized (p := p) (hframe.vmRegions p ▸ hr)
    (shrink_resized s₁ r len) ⟨?_, ?_, ?_, ?_⟩ ?_
    (.inl (Nat.le_of_eq hfin))
  · rw [hvaddr]
    exact Nat.dvd_add hx.aligned (Nat.dvd_trans hs.unit_dvd hdvd)
  · rw [hlength]
    exact Nat.dvd_sub hx.whole hdvd
  · rw [hlength]
    omega
  · rw [hfin]
    exact hx.nowrap
  · rw [hvaddr]
    omega

lemma mapUnmapRegion_layout (hs : s.Layout unit) (h : mapUnmapRegion p r len s = .ok (0, t)) :
    t.Layout unit := by
  obtain ⟨hr, hle, hdvd, -, u, hfront, ha⟩ := mapUnmapRegion_inv h
  exact (unmapFront_layout hs hr hle hdvd hfront).steady ((setPtes_frame _ _ _ _ _).trans ha.frame).steady

lemma toNat_add_of_lt {a b : BitVec 32} (h : a < a + b) : (a + b).toNat = a.toNat + b.toNat := by
  have hlt := BitVec.lt_def.mp h
  rw [BitVec.toNat_add] at hlt ⊢
  omega

lemma mapRegionExtend_layout {delta : BitVec 32} (hs : s.Layout unit)
    (hr : r ∈ (s.proc p).vmRegions) (hdvd : 4096 ∣ delta.toNat)
    (h : mapRegionExtend p r delta s = (ok, t)) : t.Layout unit := by
  unfold mapRegionExtend at h
  simp only at h
  split at h
  · cases h
    exact hs
  split at h
  · cases h
    exact hs
  next hgrow =>
  rcases ite_eq_iff.mp h with ⟨hfits, h⟩ | ⟨_, h⟩
  · cases h
    have hx : (s.heap.region r).range.Placed unit := (hs.laid p).placed _ (List.mem_map_of_mem hr)
    have hend : ((s.heap.region r).vaddr + (s.heap.region r).length).toNat =
      (s.heap.region r).range.fin := hx.end_toNat
    -- the end of the region does not run over
    have hsum : ((s.heap.region r).vaddr + (s.heap.region r).length + delta).toNat =
      (s.heap.region r).range.fin + delta.toNat := by
      rw [toNat_add_of_lt (BitVec.not_le.mp hgrow), hend]
    have hbound := ((s.heap.region r).vaddr + (s.heap.region r).length + delta).isLt
    rw [hsum] at hbound
    have hfin₀ : (s.heap.region r).range.fin = (s.heap.region r).vaddr.toNat +
      (s.heap.region r).length.toNat := rfl
    have hlength : ((s.heap.region r).length + delta).toNat = (s.heap.region r).length.toNat +
      delta.toNat := by
      rw [BitVec.toNat_add]
      exact Nat.mod_eq_of_lt (by omega)
    have hfin : Range.fin ⟨(s.heap.region r).vaddr, (s.heap.region r).length + delta⟩ =
        (s.heap.region r).range.fin + delta.toNat := by
      rw [Range.fin, hlength, hfin₀, Nat.add_assoc]
    have hres : Resized s (s.modHeap fun h => h.modRegion r fun x => { x with length := x.length + delta }) r
        ⟨(s.heap.region r).vaddr, (s.heap.region r).length + delta⟩ := by
      refine ⟨fun _ => rfl, fun q => ?_, rfl⟩
      by_cases hqr : q = r
      · subst hqr
        simp [State.modHeap, Heap.modRegion, VirRegion.range]
      · simp [State.modHeap, Heap.modRegion, hqr]
    refine hs.resized hr hres ⟨hx.aligned, ?_, ?_, ?_⟩ (Nat.le_refl _) (.inr fun n hn => ?_)
    · rw [hlength]
      exact Nat.dvd_add hx.whole hdvd
    · rw [hlength]
      exact Nat.lt_of_lt_of_le hx.pos (Nat.le_add_right _ _)
    · rw [hfin]
      exact hbound
    rw [Option.mem_def.mp hn] at hfits
    have hle := BitVec.le_def.mp (of_decide_eq_true hfits)
    rw [hsum] at hle
    rw [hfin]
    exact hle
  · cases h
    exact hs

end Nucleos.Vm
