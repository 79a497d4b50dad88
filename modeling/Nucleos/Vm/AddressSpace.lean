import Nucleos.Vm.Layout

/-!
# Requests keep the address spaces in order

Requests on any processes, in any order, whether or not memory can be had for them. Mappings have
to be asked for on a page and with a length that is not rounded up to nothing: `do_mmap` and
`map_remap` look at neither.
-/

namespace Nucleos.Vm

open Function IntrusiveList Run

variable {α : Type} {unit : Nat} {s t u : State} {p : ProcId} {r : RegionId} {ok : Bool}
    {parent child : ProcId} {l : List RegionId} {len addr : BitVec 32} {res : Int}

lemma State.Layout.emptied (hs : s.Layout unit) (hheap : t.heap = s.heap)
    (hlist : ∀ q, (t.proc q).vmRegions = [] ∨ (t.proc q).vmRegions = (s.proc q).vmRegions)
    (hstack : ∀ q, unit ∣ (t.proc q).vmStacktop.toNat) : t.Layout unit := by
  have hmem : ∀ q r, r ∈ (t.proc q).vmRegions → r ∈ (s.proc q).vmRegions := by
    intro q r hr
    rcases hlist q with hq | hq
    · rw [hq] at hr
      nomatch hr
    · rw [hq] at hr
      exact hr
  refine ⟨hs.unit_dvd, fun q => ?_, fun a b r ha hb => hs.owner a b r (hmem a r ha) (hmem b r hb), ?_, hstack⟩
  · rw [State.ranges, hheap]
    rcases hlist q with hq | hq
    · rw [hq]
      exact laid_nil
    · rw [hq]
      exact hs.laid q
  · rintro r ⟨q, hr⟩
    rw [hheap]
    exact hs.fresh r ⟨q, hmem q r hr⟩

lemma State.Layout.modProc (hs : s.Layout unit) (p : ProcId) {f : VmProc → VmProc}
    (hlist : (f (s.proc p)).vmRegions = [] ∨ (f (s.proc p)).vmRegions = (s.proc p).vmRegions)
    (hstack : unit ∣ (f (s.proc p)).vmStacktop.toNat) : (s.modProc p f).Layout unit := by
  refine hs.emptied rfl (fun q => ?_) fun q => ?_
  · by_cases hq : q = p
    · subst hq
      simpa only [State.modProc, update_self] using hlist
    · exact .inr (by simp [State.modProc, hq])
  by_cases hq : q = p
  · subst hq
    simpa only [State.modProc, update_self] using hstack
  · simp only [State.modProc, update_of_ne hq]
    exact hs.stack q

lemma State.Layout.answered {a b : α} (hs : s.Layout unit)
    (h : (.ok (a, s) : Except Stop (α × State)) = .ok (b, t)) : t.Layout unit := by
  cases h
  exact hs

lemma State.Layout.mapped {a b : α} {x y : BitVec 32} (hs : s.Layout unit)
    (h : (.ok (a, x, s) : Except Stop (α × BitVec 32 × State)) = .ok (b, y, t)) : t.Layout unit := by
  cases h
  exact hs

/-! ## Fork -/

lemma setRegions_beside (s : State) (p : ProcId)
    (hl : ∀ r ∈ l, r ∈ (s.proc p).vmRegions) :
    Beside p s (s.modProc p fun x => { x with vmRegions := l }) where
  proc q := by
    rw [State.modProc_proc]
    split <;> rfl
  vmRegions q hq := by simp [State.modProc, hq]
  range _ _ _ := rfl
  fresh r hr := .inl (hl r (by simpa [State.modProc] using hr))
  next := Nat.le_refl _

lemma freeRegions_beside (hl : (s.proc p).vmRegions = l) (h : freeRegions p l s = .ok t) : Beside p s t := by
  induction l generalizing s with
  | nil =>
    obtain rfl := Except.ok.inj h
    exact (Frame.refl s).steady.beside p
  | cons r rest ih =>
    rw [freeRegions] at h
    obtain ⟨⟨ok, s₁⟩, hfree, h⟩ := bind_eq_ok.mp h
    have hframe := mapFree_frame hfree
    have hset := setRegions_beside s₁ p (l := rest) fun q hq => by
      rw [hframe.vmRegions, hl]
      exact .tail r hq
    exact ((hframe.steady.beside p).trans hset).trans (ih (by simp [State.modProc]) h)

lemma mapFreeProc_beside (h : mapFreeProc p s = .ok t) : Beside p s t ∧ (t.proc p).vmRegions = [] := by
  obtain ⟨s₁, hfree, h⟩ := bind_eq_ok.mp h
  cases h
  have hset := setRegions_beside s₁ p (l := []) nofun
  exact ⟨(freeRegions_beside rfl hfree).trans hset, by simp [State.modProc]⟩

lemma mapFreeProc_layout (hs : s.Layout unit) (h : mapFreeProc p s = .ok t) : t.Layout unit := by
  obtain ⟨hbeside, hempty⟩ := mapFreeProc_beside h
  refine hs.beside hbeside ?_
  rw [State.ranges, hempty]
  exact laid_nil

structure Duplicated (child : ProcId) (vr : RegionId) (s t : State) : Prop where
  beside : Beside child s t
  list : (t.proc child).vmRegions = (s.proc child).vmRegions ++ [s.heap.nextRegion]
  old : ∀ r < s.heap.nextRegion, (t.heap.region r).range = (s.heap.region r).range
  new : (t.heap.region s.heap.nextRegion).range = (s.heap.region vr).range
  next : s.heap.nextRegion < t.heap.nextRegion

lemma copyRegions_round {vr : RegionId} {rest : List RegionId}
    (h : copyRegions child (vr :: rest) s = .ok (ok, t)) :
    (∃ s₁, Steady s s₁ ∧ mapFreeProc child s₁ = .ok t) ∨
      ∃ u, Duplicated child vr s u ∧ copyRegions child rest u = .ok (ok, t) := by
  rw [copyRegions] at h
  obtain ⟨⟨copy, s₁⟩, hcopy, h⟩ := bind_eq_ok.mp h
  obtain ⟨hsteady, hnew⟩ := mapCopyRegion_steady hcopy
  cases copy with
  | none =>
    obtain ⟨s₂, hfree, h⟩ := bind_eq_ok.mp h
    cases h
    exact .inl ⟨s₁, hsteady, hfree⟩
  | some newvr =>
    obtain ⟨rfl, hnext, hrange⟩ := hnew newvr rfl
    refine .inr ⟨_, ?_, h⟩
    have hparent := modRegion_steady s₁ (r := s.heap.nextRegion) (f := fun x =>
      { x with parent := child }) (.inr fun _ => rfl)
    generalize (s₁.modHeap fun h => h.modRegion s.heap.nextRegion fun x =>
      { x with parent := child }) = s₂ at hparent ⊢
    have hsteady₂ := hsteady.trans hparent
    have hnext₂ : s.heap.nextRegion < s₂.heap.nextRegion := Nat.lt_of_lt_of_le hnext hparent.next
    have hlinked : Duplicated child vr s (s₂.modProc child fun x =>
      { x with vmRegions := x.vmRegions ++ [s.heap.nextRegion] }) := by
      have hlist : ((s₂.modProc child fun x =>
        { x with vmRegions := x.vmRegions ++ [s.heap.nextRegion] }).proc child).vmRegions =
          (s.proc child).vmRegions ++ [s.heap.nextRegion] := by
        rw [← hsteady₂.vmRegions child]
        simp [State.modProc]
      refine ⟨⟨fun q => ?_, fun q hq => ?_, fun r hr _ => hsteady₂.range r hr, fun r hr => ?_,
        Nat.le_of_lt hnext₂⟩, hlist,
        hsteady₂.range, (hparent.range _ hnext).trans hrange, hnext₂⟩
      · by_cases hq : q = child
        · subst hq
          simp only [State.modProc, update_self]
          rw [hsteady₂.proc q]
        · simp only [State.modProc, update_of_ne hq]
          rw [hsteady₂.proc q]
      · rw [← hsteady₂.vmRegions q]
        simp [State.modProc, hq]
      · rw [hlist] at hr
        rcases List.mem_append.mp hr with hr | hr
        · exact .inl hr
        · rw [List.mem_singleton.mp hr]
          exact .inr ⟨Nat.le_refl _, hnext₂⟩
    generalize (s₂.modProc child fun x =>
      { x with vmRegions := x.vmRegions ++ [s.heap.nextRegion] }) = s₃ at hlinked ⊢
    -- counting the copies moves nothing
    have hshare : Frame s₃ (s₃.modHeap (shareBlocks (s₃.heap.region vr).phys
      (s₃.heap.region s.heap.nextRegion).phys)) := by
      have hrelisted := shareBlocks_relisted (s₃.heap.region vr).phys
        (s₃.heap.region s.heap.nextRegion).phys s₃.heap
      exact modHeap_frame s₃ hrelisted.region hrelisted.nextRegion
    exact ⟨hlinked.beside.trans (hshare.steady.beside child), (hshare.vmRegions child).trans hlinked.list,
      fun r hr => (hshare.range r).trans (hlinked.old r hr), (hshare.range _).trans hlinked.new,
        hshare.next ▸ hlinked.next⟩

lemma copyRegions_beside (h : copyRegions child l s = .ok (ok, t)) : Beside child s t := by
  induction l generalizing s with
  | nil =>
    cases h
    exact (Frame.refl _).steady.beside child
  | cons vr rest ih =>
    rcases copyRegions_round h with ⟨s₁, hsteady, hfree⟩ | ⟨u, hdup, h⟩
    · exact (hsteady.beside child).trans (mapFreeProc_beside hfree).1
    · exact hdup.beside.trans (ih h)

lemma copyRegions_layout (hs : s.Layout unit) (hl : ∀ r ∈ l, r < s.heap.nextRegion)
    (hlaid : Laid unit (s.ranges child ++ s.heap.ranges l))
    (h : copyRegions child l s = .ok (ok, t)) : t.Layout unit := by
  induction l generalizing s with
  | nil => exact hs.answered h
  | cons vr rest ih =>
    rcases copyRegions_round h with ⟨s₁, hsteady, hfree⟩ | ⟨u, hdup, h⟩
    · exact mapFreeProc_layout (hs.steady hsteady) hfree
    have hranges : ∀ l : List RegionId, (∀ r ∈ l, r < s.heap.nextRegion) →
      u.heap.ranges l = s.heap.ranges l := fun l hl =>
      List.map_congr_left fun r hr => hdup.old r (hl r hr)
    have hchild : u.ranges child = s.ranges child ++ [(s.heap.region vr).range] := by
      have hold := hranges (s.proc child).vmRegions fun r hr => hs.fresh r ⟨child, hr⟩
      rw [State.ranges, hdup.list, State.ranges, ← hold, ← hdup.new]
      exact List.map_append
    have hcons : s.heap.ranges (vr :: rest) = [(s.heap.region vr).range] ++ s.heap.ranges rest := rfl
    rw [hcons, ← List.append_assoc, ← hchild] at hlaid
    have hrest : ∀ r ∈ rest, r < s.heap.nextRegion := fun r hr => hl r (.tail vr hr)
    refine ih (hs.beside hdup.beside (hlaid.sublist (List.sublist_append_left _ _)))
      (fun r hr => Nat.lt_trans (hrest r hr) hdup.next) ?_ h
    rw [hranges rest hrest]
    exact hlaid

lemma mapProcCopy_copied (h : mapProcCopy child parent s = .ok (ok, t)) :
    ∃ s₁, copyRegions child (s.proc parent).vmRegions (s.modProc child fun x =>
      { x with vmRegions := [] }) = .ok (ok, s₁) ∧
      Frame s₁ t := by
  obtain ⟨s₁, s₂, hcopy, h₁, h₂⟩ := mapProcCopy_inv h
  exact ⟨s₁, hcopy, h₁.heap.2.trans h₂.heap.2⟩

lemma mapProcCopy_layout (hs : s.Layout unit) (h : mapProcCopy child parent s = .ok (ok, t)) :
    t.Layout unit := by
  obtain ⟨s₁, hcopy, hframe⟩ := mapProcCopy_copied h
  have hempty : (s.modProc child fun x => { x with vmRegions := [] }).Layout unit :=
    hs.modProc child (.inl rfl) (hs.stack child)
  have hchild : (s.modProc child fun x => { x with vmRegions := [] }).ranges child = [] := by
    simp [State.ranges, State.modProc, Heap.ranges]
  refine State.Layout.steady (copyRegions_layout hempty (fun r hr => hs.fresh r ⟨parent, hr⟩) ?_
    hcopy) hframe.steady
  rw [hchild, List.nil_append]
  exact hs.laid parent

lemma ptNew_layout (hs : s.Layout unit) (h : ptNew p s = (ok, t)) : t.Layout unit := by
  unfold ptNew at h
  simp only at h
  have hclear : ∀ u : State, u.Layout unit →
    (u.modProc p fun x => { x with ptDir := true, vmPt := PageTable.empty }).Layout unit :=
    fun u hu => hu.modProc p (.inr rfl) (hu.stack p)
  split at h
  · cases h
    exact hclear s hs
  split at h
  · next s₁ hslab =>
    cases h
    exact hs.steady (slaballoc_false hslab).1.frame.steady
  · next s₁ hslab =>
    cases h
    exact hclear s₁ (hs.steady (slaballoc_true hslab).frame.steady)

lemma ptIdentity_layout (hs : s.Layout unit) (h : ptIdentity p s = (ok, t)) : t.Layout unit := by
  unfold ptIdentity at h
  split at h
  · next s₁ hnew =>
    have hlayout := ptNew_layout hs hnew
    cases h
    exact hlayout
  · next s₁ hnew =>
    have hlayout := ptNew_layout hs hnew
    cases h
    exact hlayout.modProc p (.inr rfl) (hlayout.stack p)

lemma handleFrom_frame {write : Bool} {n : Nat} {mem : BitVec 32}
    (h : handleFrom p write n mem len s = .ok (res, t)) : Frame s t := by
  induction n generalizing s mem len with
  | zero =>
    cases h
    exact Frame.refl _
  | succ n ih =>
    rw [handleFrom] at h
    split at h
    · cases h
      exact Frame.refl _
    obtain ⟨found, -, h⟩ := bind_eq_ok.mp h
    cases found with
    | none =>
      cases h
      exact Frame.refl _
    | some r =>
      rcases ite_eq_iff.mp h with ⟨_, h⟩ | ⟨_, h⟩
      · cases h
        exact Frame.refl _
      obtain ⟨⟨got, s₁⟩, hhandle, h⟩ := bind_eq_ok.mp h
      have hframe := mapHandleMemory_frame hhandle
      cases got with
      | false =>
        cases h
        exact hframe
      | true => exact hframe.trans (ih h)

lemma forkMessages_frame {msgaddr : BitVec 32} (h : forkMessages parent child msgaddr s = .ok t) :
    Frame s t := by
  obtain ⟨⟨_, s₁⟩, h₁, h⟩ := bind_eq_ok.mp h
  obtain ⟨⟨_, s₂⟩, h₂, h⟩ := bind_eq_ok.mp h
  cases h
  exact (handleFrom_frame h₁).trans (handleFrom_frame h₂)

lemma forkSlot_layout (hs : s.Layout unit) (parent child : ProcId) : (forkSlot parent child s).Layout unit :=
  hs.modProc child (.inl rfl) (hs.stack parent)

lemma forkHeap_layout (hs : s.Layout unit) (parent child : ProcId) :
    (forkHeap parent child s).Layout unit := by
  unfold forkHeap
  split_ifs
  · exact hs.modProc child (.inr rfl) (hs.stack child)
  · exact hs

lemma forkMemory_layout (hs : s.Layout unit) (h : forkMemory parent child s = .ok (ok, t)) :
    t.Layout unit := by
  unfold forkMemory at h
  split at h
  · next s₁ hnew =>
    have hlayout := ptNew_layout hs hnew
    exact hlayout.answered h
  · next s₁ hnew =>
    have hlayout := ptNew_layout hs hnew
    exact mapProcCopy_layout hlayout h

lemma forkImage_layout (hs : s.Layout unit) (h : forkImage parent child s = (ok, t)) : t.Layout unit := by
  unfold forkImage at h
  simp only at h
  generalize ((s.proc parent).segS.memLen +
    ((s.proc parent).segS.memVir - (s.proc parent).segD.memVir)).toNat = clicks at h
  generalize (s.proc parent).segS.memVir - (s.proc parent).segD.memVir = above at h
  split at h
  · next s₁ hmem =>
    cases h
    exact hs.steady (allocMem_none hmem).1.frame.steady
  · next base s₁ hmem =>
    have hlayout₁ : s₁.Layout unit :=
      hs.steady ((takeMem_frame s base clicks).trans (allocMem_some hmem).2.frame).steady
    exact ptIdentity_layout (hlayout₁.modProc child (.inr rfl) (hlayout₁.stack child)) h

lemma doFork_layout {msgaddr : BitVec 32} (hs : s.Layout unit)
    (h : doFork parent child msgaddr s = .ok (res, t)) :
    t.Layout unit := by
  unfold doFork at h
  split at h
  · exact hs.answered h
  split at h
  · exact hs.answered h
  split at h
  · exact hs.answered h
  have hslot := forkSlot_layout hs parent child
  split at h
  · obtain ⟨⟨ok, s₁⟩, hmem, h⟩ := bind_eq_ok.mp h
    have hlayout := forkMemory_layout hslot hmem
    cases ok with
    | false =>
      exact hlayout.answered h
    | true =>
      obtain ⟨s₂, hmsg, h⟩ := bind_eq_ok.mp h
      cases h
      exact (forkHeap_layout hlayout parent child).steady (forkMessages_frame hmsg).steady
  · split at h
    all_goals
      next s₁ himage =>
      exact (forkImage_layout hslot himage).answered h

/-! ## The other requests -/

lemma dvd_toNat_add {a b : BitVec 32} (ha : 4096 ∣ a.toNat) (hb : 4096 ∣ b.toNat) : 4096 ∣ (a + b).toNat := by
  rw [BitVec.toNat_add]
  omega

lemma dvd_shiftLeft (a : BitVec 32) : 4096 ∣ (a <<< 12).toNat := by
  rw [BitVec.toNat_shiftLeft, Nat.shiftLeft_eq]
  omega

lemma dvd_archVir2map {x : VmProc} (h : 4096 ∣ addr.toNat) : 4096 ∣ (archVir2map x addr).toNat :=
  dvd_toNat_add h (dvd_shiftLeft _)

lemma doMmap_layout {fd : Int} {flags va : BitVec 32} (hs : s.Layout 4096) (haddr : 4096 ∣ addr.toNat)
    (hlen : roundUp len ≠ 0) (h : doMmap p fd flags addr len s = .ok (res, va, t)) : t.Layout 4096 := by
  unfold doMmap at h
  simp only at h
  split at h
  · nomatch h
  split at h
  · exact hs.mapped h
  split at h
  · split at h
    · exact hs.mapped h
    obtain ⟨⟨got, s₁⟩, hpage, h⟩ := bind_eq_ok.mp h
    have hmin : 4096 ∣ (archVir2map (s.proc p) (if addr ≠ 0 then addr else (s.proc p).vmStacktop)).toNat := by
      refine dvd_archVir2map ?_
      split_ifs
      · exact haddr
      · exact hs.stack p
    have hpos : 0 < (roundUp len).toNat := Nat.pos_of_ne_zero fun hzero => hlen (BitVec.eq_of_toNat_eq hzero)
    have hlayout := mapPageRegion_layout hs hmin (roundUp_dvd len) hpos hpage
    cases got with
    | none | some r => exact hlayout.mapped h
  · exact hs.mapped h

lemma doMunmap_layout {text : Bool} (hs : s.Layout unit)
    (h : doMunmap p text addr len s = .ok (res, t)) : t.Layout unit := by
  unfold doMunmap at h
  simp only at h
  split at h
  · nomatch h
  split at h
  · exact hs.answered h
  obtain ⟨found, -, h⟩ := bind_eq_ok.mp h
  cases found with
  | none =>
    exact hs.answered h
  | some r =>
    rcases ite_eq_iff.mp h with ⟨_, h⟩ | ⟨_, h⟩
    · exact hs.answered h
    obtain ⟨⟨got, s₁⟩, hunmap, h⟩ := bind_eq_ok.mp h
    split at h
    · nomatch h
    next hres =>
    cases h
    obtain rfl : got = 0 := not_not.mp hres
    exact mapUnmapRegion_layout hs hunmap

lemma doRemap_layout {d src : ProcId} {da sa size va : BitVec 32} (hs : s.Layout 4096) (hda : 4096 ∣ da.toNat)
    (hsize : roundUp size ≠ 0) (h : doRemap d src da sa size s = .ok (res, va, t)) : t.Layout 4096 := by
  unfold doRemap at h
  split at h
  · exact hs.mapped h
  split at h
  · exact hs.mapped h
  obtain ⟨found, -, h⟩ := bind_eq_ok.mp h
  cases found with
  | none => exact hs.mapped h
  | some region =>
    obtain ⟨⟨got, startv, s₁⟩, hremap, h⟩ := bind_eq_ok.mp h
    have hmin : 4096 ∣ (archVir2map (s.proc d) (if da = 0 then (s.proc d).vmStacktop else da)).toNat := by
      refine dvd_archVir2map ?_
      split_ifs
      · exact hs.stack d
      · exact hda
    have hpos : 0 < (roundUp size).toNat :=
      Nat.pos_of_ne_zero fun hzero => hsize (BitVec.eq_of_toNat_eq hzero)
    exact (mapRemap_layout hs hmin hpos hremap).mapped h

lemma growHeap_cases {old new : BitVec 32} (h : growHeap p old new s = .ok (res, t)) :
    (res = 0 ∧ t = s ∧ ((s.proc p).haspt = true → p ≠ vmProcNr → (s.proc p).vmHeap ≠ none → new ≤ old)) ∨
      ∃ heap ok, (s.proc p).vmHeap = some heap ∧ heap ∈ (s.proc p).vmRegions ∧
        mapRegionExtend p heap ((new - old) <<< 12) s = (ok, t) ∧ res = if ok then 0 else -enomem := by
  unfold growHeap at h
  split at h
  · split at h
    · next hnone =>
      cases h
      exact .inl ⟨rfl, rfl, fun _ _ hsome => absurd hnone hsome⟩
    next heap hheap =>
    split at h
    · split at h
      · nomatch h
      next hmem =>
      split at h
      all_goals
        next hext =>
        cases h
        exact .inr ⟨heap, _, hheap, not_not.mp hmem, hext, rfl⟩
    · next hle =>
      cases h
      exact .inl ⟨rfl, rfl, fun _ _ _ => BitVec.not_lt.mp hle⟩
  · next hpaged =>
    cases h
    exact .inl ⟨rfl, rfl, fun hpt hp => absurd ⟨hpt, hp⟩ hpaged⟩

def VmProc.clicksTo (x : VmProc) (v : BitVec 32) : BitVec 32 := (v + 4095).sshiftRight 12 - x.segD.memVir

abbrev State.withData (s : State) (p : ProcId) (clicks : BitVec 32) (segS : MemMap) : State :=
  s.modProc p fun x => { x with segD := { (s.proc p).segD with memLen := clicks }, segS := segS }

lemma doBrk_cases {v sp : BitVec 32} (h : doBrk p v sp s = .ok (res, t)) : (res ≠ 0 ∧ t = s) ∨ ∃ segS,
    growHeap p (s.proc p).segD.memLen ((s.proc p).clicksTo v) (s.withData p ((s.proc p).clicksTo v)
      segS) = .ok (res, t) := by
  have hsame {err : Int} (herr : err ≠ 0) (h : Except.ok (ε := Stop) (err, s) =
    .ok (res, t)) : res ≠ 0 ∧ t = s := by
    cases h
    exact ⟨herr, rfl⟩
  unfold doBrk adjust at h
  simp only at h
  split at h
  · exact .inl (hsame (by decide) h)
  split at h
  · exact .inl (hsame (by decide) h)
  split at h
  · exact .inl (hsame (by decide) h)
  rcases ite_eq_iff.mp h with ⟨_, h⟩ | ⟨_, h⟩
  · exact .inl (hsame (by decide) h)
  rcases ite_eq_iff.mp h with ⟨_, h⟩ | ⟨_, h⟩
  · exact .inl (hsame (by decide) h)
  exact .inr ⟨_, h⟩

lemma doBrk_layout {v sp : BitVec 32} (hs : s.Layout unit) (h : doBrk p v sp s = .ok (res, t)) :
    t.Layout unit := by
  rcases doBrk_cases h with ⟨-, rfl⟩ | ⟨segS, h⟩
  · exact hs
  have hseg : (s.withData p ((s.proc p).clicksTo v) segS).Layout unit := hs.modProc p (.inr rfl) (hs.stack p)
  rcases growHeap_cases h with ⟨-, rfl, -⟩ | ⟨heap, ok, -, hmem, hext, -⟩
  · exact hseg
  · exact mapRegionExtend_layout hseg hmem (dvd_shiftLeft _) hext

/-! ## Runs -/

/-- The mapping asked for starts on a page and is not rounded up to nothing. -/
def Request.OnPages : Request → Prop
  | .mmap _ _ _ addr len => 4096 ∣ addr.toNat ∧ roundUp len ≠ 0
  | .remap _ _ da _ size => 4096 ∣ da.toNat ∧ roundUp size ≠ 0
  | _ => True

lemma Request.step_layout {q : Request} (hs : s.Layout 4096) (hq : q.OnPages)
    (h : q.step s = .ok t) : t.Layout 4096 := by
  obtain ⟨⟨res, s₁⟩, hexec, h⟩ := bind_eq_ok.mp h
  cases h
  cases q with
  | mmap p fd flags addr len =>
    obtain ⟨⟨got, va, s₂⟩, hmmap, hexec⟩ := bind_eq_ok.mp hexec
    cases hexec
    exact doMmap_layout hs hq.1 hq.2 hmmap
  | remap d src da sa size =>
    obtain ⟨⟨got, va, s₂⟩, hremap, hexec⟩ := bind_eq_ok.mp hexec
    cases hexec
    exact doRemap_layout hs hq.1 hq.2 hremap
  | munmap p text addr len => exact doMunmap_layout hs hexec
  | brk p v sp => exact doBrk_layout hs hexec
  | fork parent child msgaddr => exact doFork_layout hs hexec

def Range.Has (x : Range) (a : Nat) : Prop := x.vaddr.toNat ≤ a ∧ a < x.fin

/-- In every run of requests whose mappings start on a page and are not rounded up to nothing, the
regions of every process are at all times strictly sorted, on pages, not empty, inside the address
space and disjoint. -/
theorem address_spaces_in_order {n : Nat} (tr : Trace Request.step n) (hinit : (tr.state 0).Layout 4096)
    (hreq : ∀ i < n, (tr.act i).OnPages) (i : Nat) (hi : i ≤ n) (p : ProcId) :
    ((tr.state i).ranges p).Pairwise (fun x y => x.vaddr < y.vaddr) ∧
    (∀ x ∈ (tr.state i).ranges p, 4096 ∣ x.vaddr.toNat ∧ 0 < x.length ∧
      x.vaddr.toNat + x.length.toNat ≤ 2 ^ 32) ∧
    ((tr.state i).ranges p).Pairwise fun x y => ∀ a, ¬ (x.Has a ∧ y.Has a) := by
  have hlayout : (tr.state i).Layout 4096 :=
    tr.invariant_of (State.Layout 4096) (fun _ q => q.OnPages) hinit hreq
    (fun hs hq hstep => Request.step_layout hs hq hstep) i hi
  have hlaid := hlayout.laid p
  refine ⟨hlaid.apart.imp_of_mem fun {x y} hx _ hxy => ?_, fun x hx => ?_,
    hlaid.apart.imp fun {x y} hxy a ha => ?_⟩
  · exact BitVec.lt_def.mpr (Nat.lt_of_lt_of_le (hlaid.placed x hx).lt_fin hxy)
  · have hplaced := hlaid.placed x hx
    exact ⟨hplaced.aligned, BitVec.lt_def.mpr hplaced.pos, Nat.le_of_lt hplaced.nowrap⟩
  · obtain ⟨⟨-, hlt⟩, hle, -⟩ := ha
    exact absurd (Nat.lt_of_le_of_lt hle hlt) (Nat.not_lt_of_le hxy)

lemma layout_bootVm : bootVm.Layout 4096 := by
  refine ⟨Nat.dvd_refl 4096, fun p => laid_nil, nofun, ?_, fun p => Nat.dvd_zero 4096⟩
  rintro r ⟨p, hr⟩
  nomatch hr

def mapAndFork (i : Nat) : Request :=
  if i = 0 then .mmap 0 (-1) mapAnonymous 0x1000 0x1001 else .fork 0 1 0x1000

theorem address_spaces_in_order_fork :
    ∃ tr : Trace Request.step 2, ((tr.state 2).ranges 1) = [⟨0x1000, 0x2000⟩] ∧
      ((tr.state 2).ranges 1).Pairwise fun x y => ∀ a, ¬ (x.Has a ∧ y.Has a) := by
  refine ⟨Trace.run Request.step bootVm mapAndFork 2 (by decide +kernel), by decide +kernel, ?_⟩
  refine (address_spaces_in_order _ layout_bootVm (fun i _ => ?_) 2 (Nat.le_refl 2) 1).2.2
  show (mapAndFork i).OnPages
  unfold mapAndFork
  split_ifs
  · exact ⟨by decide, by decide⟩
  · trivial

/-- The last byte of the address space does not fit into a length: rounded up it is 0. -/
def mapTooLong (i : Nat) : Request :=
  .mmap 0 (-1) mapAnonymous (if i < 2 then 0x1000 else 0x2010)
    (if i < 2 then 0xFFFFF001 else 0x1000)

/-- Mappings of almost all of the address space are both accepted, at one address and without a
length, and one that starts inside a page stays there. -/
theorem empty_and_unaligned_regions :
    ∃ tr : Trace Request.step 3, (tr.state 0).Layout 4096 ∧
      (tr.state 2).ranges 0 = [⟨0x1000, 0⟩, ⟨0x1000, 0⟩] ∧
      ¬ ((tr.state 2).ranges 0).Pairwise (fun x y => x.vaddr < y.vaddr) ∧
        ⟨0x2010, 0x1000⟩ ∈ (tr.state 3).ranges 0 := by
  refine ⟨Trace.run Request.step bootVm mapTooLong 3 (by decide +kernel), layout_bootVm,
    by decide +kernel, ?_, by decide +kernel⟩
  decide +kernel

end Nucleos.Vm
