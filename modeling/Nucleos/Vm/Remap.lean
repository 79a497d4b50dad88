import Nucleos.Vm.Operation

/-!
# Mapping a region a second time

`map_remap` copies the tree of a region as a fork does and counts every copy, but puts none on
the list of its block. So the counts and lists agree afterwards only if there was nothing to
copy, and with an unlisted sharer left the first to unmap finds the list empty while the count
is not.
-/

namespace Nucleos.Vm

open IntrusiveList Sharing Run Relation

variable {s t u : State} {p d : ProcId} {r region : RegionId} {da size : BitVec 32}

/-- The sharing invariant: counts and lists are exact for the physical regions of processes. -/
def State.Counted (s : State) : Prop := Exact s.heap.store (s.heap.Refs s.Held)

/-! ## What the call does -/

structure Recounted (s t : State) : Prop where
  physr : t.heap.physr = s.heap.physr
  region : t.heap.region = s.heap.region
  first : ∀ b, (t.heap.block b).firstregion = (s.heap.block b).firstregion
  vmRegions : ∀ p, (t.proc p).vmRegions = (s.proc p).vmRegions

lemma Recounted.trans (h₁ : Recounted s t) (h₂ : Recounted t u) : Recounted s u where
  physr := h₂.physr.trans h₁.physr
  region := h₂.region.trans h₁.region
  first b := (h₂.first b).trans (h₁.first b)
  vmRegions p := (h₂.vmRegions p).trans (h₁.vmRegions p)

lemma Aside.recounted (ha : Aside s t) : Recounted s t := by
  refine ⟨?_, ?_, fun b => ?_, ha.vmRegions⟩ <;> rw [ha.heap]

lemma count_recounted (s : State) (b : BlockId) :
    Recounted s (s.modHeap fun h => h.modBlock b fun x => { x with refcount := x.refcount + 1 }) := by
  refine ⟨rfl, rfl, fun b' => ?_, fun _ => rfl⟩
  by_cases hb : b' = b
  · subst hb
    simp [State.modHeap, Heap.modBlock]
  · simp [State.modHeap, Heap.modBlock, hb]

lemma mapPtes_recounted (s : State) (p : ProcId) (r : RegionId) (pr : PhysId) :
    Recounted s (s.mapPtes p r pr) :=
  ⟨rfl, rfl, fun _ => rfl, (mapPtes_frame s p r pr).vmRegions⟩

lemma remapBlocks_recounted {l : List PhysId} (h : remapBlocks p r l s = .ok t) :
    Recounted s t ∧ Frame s t := by
  induction l generalizing s with
  | nil =>
    obtain rfl := Except.ok.inj h
    exact ⟨(Aside.refl s).recounted, .refl s⟩
  | cons pr rest ih =>
    rw [remapBlocks] at h
    rcases hmap : mapPhWritept p r pr (s.modHeap fun h => h.modBlock (s.heap.physr pr).ph fun x =>
        { x with refcount := x.refcount + 1 }) with ⟨ok, s₁⟩
    simp only [hmap] at h
    rcases mapPhWritept_aside hmap with ⟨rfl, ha⟩ | ⟨rfl, -, -⟩
    · have hcount := count_recounted s (s.heap.physr pr).ph
      have hframe := (modHeap_frame s rfl rfl).trans ((mapPtes_frame _ p r pr).trans ha.frame)
      obtain ⟨hrec, hrest⟩ := ih h
      exact ⟨(hcount.trans (mapPtes_recounted _ p r pr)).trans (ha.recounted.trans hrec), hframe.trans hrest⟩
    · nomatch h

def State.shown (s : State) (d : ProcId) (region : RegionId) (startv size : BitVec 32)
    (prev : Option RegionId) : State :=
  ((s.modHeap fun h => (h.newRegion (h.region region)).copyAll h.nextRegion
    (h.region region).phys).modHeap fun h =>
    h.modRegion s.heap.nextRegion fun x =>
      { x with
        vaddr := startv, length := size, flags := (h.region region).flags, tag := vrtNone, parent := d }).link d
    s.heap.nextRegion prev

lemma mapRemap_inv {va : BitVec 32} (h : mapRemap d da size region s = .ok (0, va, t)) :
    ∃ prev u, regionFindSlot s.heap (s.proc d).vmRegions
        (archVir2map (s.proc d) (if da = 0 then (s.proc d).vmStacktop else da)) vmDatatop
          (roundUp size) = some (va, prev) ∧
      Aside (s.shown d region va (roundUp size) prev) u ∧
      remapBlocks d s.heap.nextRegion (u.heap.region s.heap.nextRegion).phys u = .ok t := by
  unfold mapRemap at h
  simp only at h
  cases hslot : regionFindSlot s.heap (s.proc d).vmRegions
      (archVir2map (s.proc d) (if da = 0 then (s.proc d).vmStacktop else da)) vmDatatop (roundUp size) with
  | none =>
    rw [hslot] at h
    nomatch h
  | some slot =>
    obtain ⟨startv, prev⟩ := slot
    rw [hslot] at h
    rcases ite_eq_iff.mp h with ⟨_, h⟩ | ⟨_, h⟩
    · nomatch h
    obtain ⟨⟨copy, s₁⟩, hcopy, h⟩ := bind_eq_ok.mp h
    cases copy with
    | none => nomatch h
    | some vr =>
      obtain ⟨rfl, ha⟩ := mapCopyRegion_some hcopy
      obtain ⟨t', hblocks, h⟩ := bind_eq_ok.mp h
      obtain ⟨-, heq⟩ := ok_pair_inj h
      obtain ⟨rfl, rfl⟩ := Prod.mk.inj heq
      exact ⟨prev, _, rfl, (ha.modHeap fun h => h.modRegion s.heap.nextRegion fun x =>
        { x with
          vaddr := startv, length := roundUp size, flags := (h.region region).flags, tag := vrtNone, parent := d }).relink d
          fun l => linkRegion s.heap.nextRegion prev l, hblocks⟩

/-! ## The copies are on no list -/

section Shown
variable {startv : BitVec 32} {prev : Option RegionId}

lemma shown_phys (hphys : ∀ x ∈ (s.heap.region region).phys, x < s.heap.nextPhys) (y : PhysId) :
    y ∈ ((s.shown d region startv size prev).heap.region s.heap.nextRegion).phys ↔
      y ∈ s.heap.news (s.heap.region region).phys := by
  have hc : Copied (s.heap.newRegion (s.heap.region region)) _ s.heap.nextRegion
    (s.heap.region region).phys := copyAll_copied hphys
  have hmem := hc.mem y
  rw [newRegion_new] at hmem
  have hself : ((s.shown d region startv size prev).heap.region s.heap.nextRegion).phys =
      (((s.heap.newRegion (s.heap.region region)).copyAll s.heap.nextRegion
        (s.heap.region region).phys).region s.heap.nextRegion).phys := by
    simp [State.shown, State.link, State.modProc, State.modHeap, Heap.modRegion]
  rw [hself]
  exact hmem.trans (or_iff_right (by simp))

lemma shown_old (d : ProcId) (startv size : BitVec 32) (prev : Option RegionId)
    (hphys : ∀ x ∈ (s.heap.region region).phys, x < s.heap.nextPhys) :
    (∀ x < s.heap.nextPhys, (s.shown d region startv size prev).heap.physr x = s.heap.physr x) ∧
      (s.shown d region startv size prev).heap.block = s.heap.block := by
  have hc : Copied (s.heap.newRegion (s.heap.region region)) _ s.heap.nextRegion
    (s.heap.region region).phys := copyAll_copied hphys
  exact ⟨hc.old, hc.block⟩

end Shown

/-- A remap that copies something leaves a counted physical region that is on no list. -/
theorem not_counted_of_mapRemap {va : BitVec 32} (hs : s.Bounded) (hcounted : s.Counted) (hr : s.Held region)
    (hne : (s.heap.region region).phys ≠ []) (h : mapRemap d da size region s = .ok (0, va, t)) :
    ¬ t.Counted := by
  intro hexact
  have hphys : ∀ x ∈ (s.heap.region region).phys, x < s.heap.nextPhys :=
    fun x hx => hs.refs x ⟨region, hr, hx⟩
  obtain ⟨prev, u, hslot, ha, hblocks⟩ := mapRemap_inv h
  have hre := ha.recounted.trans (remapBlocks_recounted hblocks).1
  have hprev : ∀ q ∈ prev, q ∈ (s.proc d).vmRegions := fun q hq => regionFindSlot_mem hslot q hq
  have hnew : s.heap.nextPhys ∈ s.heap.news (s.heap.region region).phys :=
    mem_news.mpr ⟨Nat.le_refl _, Nat.lt_add_of_pos_right (List.length_pos_of_ne_nil hne)⟩
  -- the first copy is a physical region of the process
  have href : t.heap.Refs t.Held s.heap.nextPhys := by
    refine ⟨s.heap.nextRegion, ⟨d, ?_⟩, ?_⟩
    · rw [hre.vmRegions]
      exact ((adds_link (s := s) (fun _ => rfl) hprev).mem d _).mpr (.inl ⟨rfl, rfl⟩)
    · rw [hre.region]
      exact (shown_phys hphys _).mpr hnew
  -- but the list of its block is the old one
  obtain ⟨k, hlinks, hmem, -⟩ := hexact (t.heap.store.target s.heap.nextPhys)
  obtain ⟨k₀, hlinks₀, hmem₀, -⟩ := hcounted (t.heap.store.target s.heap.nextPhys)
  obtain ⟨hold, hblock⟩ := shown_old d va (roundUp size) prev hphys
  have hlt : ∀ x ∈ k₀, x < s.heap.nextPhys := fun x hx => hs.refs x ((hmem₀ x).mp hx).1
  have hhead : t.heap.store.lists.head = s.heap.store.lists.head := by
    funext b
    exact (hre.first b).trans (by rw [hblock]; rfl)
  have hsame : k = k₀ := by
    rw [hhead] at hlinks
    refine hlinks.unique (hlinks₀.frame fun x hx => ?_)
    have hx' := hold x (hlt x hx)
    show (t.heap.physr x).nextPhList = (s.heap.physr x).nextPhList
    rw [hre.physr, hx']
  have hin := (hmem s.heap.nextPhys).mpr ⟨href, rfl⟩
  rw [hsame] at hin
  exact Nat.lt_irrefl _ (hlt _ hin)

/-! ## A region without blocks -/

lemma roundUp_dvd (len : BitVec 32) : 4096 ∣ (roundUp len).toNat := by
  have hmod : (len % vmPageSize).toNat = len.toNat % 4096 := by rw [BitVec.toNat_umod, vmPageSize_toNat]
  unfold roundUp
  split_ifs with hne
  · have hlt : (len % vmPageSize).toNat < 4096 := by
      rw [hmod]
      exact Nat.mod_lt _ (by omega)
    have hle : len % vmPageSize ≤ vmPageSize := BitVec.le_def.mpr (by rw [vmPageSize_toNat]; omega)
    rw [BitVec.toNat_add, BitVec.toNat_sub_of_le hle, hmod, vmPageSize_toNat]
    omega
  · have hzero := congrArg BitVec.toNat (not_not.mp hne)
    rw [hmod] at hzero
    exact Nat.dvd_of_mod_eq_zero hzero

def State.opened (s : State) (d : ProcId) (va size : BitVec 32) (flags : BitVec 16)
    (prev : Option RegionId) : State :=
  (s.modHeap fun h => h.newRegion ⟨va, size, [], flags, vrtNone, d⟩).link d s.heap.nextRegion prev

lemma mapRemap_empty {va : BitVec 32} (hr : region ≠ s.heap.nextRegion)
    (hempty : (s.heap.region region).phys = [])
    (h : mapRemap d da size region s = .ok (0, va, t)) : ∃ prev, (∀ q ∈ prev, q ∈ (s.proc d).vmRegions) ∧
      Aside (s.opened d va (roundUp size) (s.heap.region region).flags prev) t := by
  obtain ⟨prev, u, hslot, ha, hblocks⟩ := mapRemap_inv h
  refine ⟨prev, fun q hq => regionFindSlot_mem hslot q hq, ?_⟩
  have hshown : s.shown d region va (roundUp size) prev = s.opened d va (roundUp size)
    (s.heap.region region).flags prev := by
    simp [State.shown, State.opened, hempty, Heap.copyAll, State.modHeap, Heap.modRegion, Heap.newRegion, hr]
  rw [hshown] at ha
  have hnil : (u.heap.region s.heap.nextRegion).phys = [] := by
    rw [ha.heap]
    exact congrArg VirRegion.phys (newRegion_new s.heap _)
  rw [hnil] at hblocks
  cases hblocks
  exact ha

section Opened
variable {va : BitVec 32} {flags : BitVec 16} {prev : Option RegionId}

lemma opened_region (s : State) (d : ProcId) (va size : BitVec 32) (flags : BitVec 16)
    (prev : Option RegionId) (q : RegionId) :
    (s.opened d va size flags prev).heap.region q =
      if q = s.heap.nextRegion then ⟨va, size, [], flags, vrtNone, d⟩ else s.heap.region q := by
  split_ifs with hq
  · rw [hq]
    exact newRegion_new s.heap _
  · exact newRegion_of_ne s.heap _ hq

lemma opened_held (hprev : ∀ q ∈ prev, q ∈ (s.proc d).vmRegions) :
    (s.opened d va size flags prev).Held = fun q => q = s.heap.nextRegion ∨ s.Held q :=
  (adds_link (fun _ => rfl) hprev).held

lemma State.Sane.opened (hs : s.Sane) (hprev : ∀ q ∈ prev, q ∈ (s.proc d).vmRegions)
    (hdvd : 4096 ∣ size.toNat)
    (hpure : flags &&& vrAnon ≠ 0 ↔ flags &&& vrDirect = 0) : (s.opened d va size flags prev).Sane := by
  have hne : ∀ {q}, s.Held q → q ≠ s.heap.nextRegion := fun hq => Nat.ne_of_lt (hs.tidy.sound.tree _ hq).lt
  have hsite := hs.tidy.site_newRegion d va flags hdvd
  refine ⟨?_, fun q hq => ?_, ?_⟩
  · refine hs.tidy.adds (adds_link (fun _ => rfl) hprev) (fun r' hr' => ?_) hsite.sound hsite.parent
    rw [opened_region, if_neg (hne hr')]
  · rw [opened_held hprev] at hq
    rw [VirRegion.Pure, opened_region]
    split_ifs with heq
    · exact hpure
    · exact hs.pure q (hq.resolve_left heq)
  · rw [opened_held hprev]
    exact (newRegion_use hs.tidy _).paged hs.paged

end Opened

lemma mapRemap_sane {va : BitVec 32} (hs : s.Sane) (hr : s.Held region)
    (hempty : (s.heap.region region).phys = [])
    (h : mapRemap d da size region s = .ok (0, va, t)) : t.Sane := by
  obtain ⟨prev, hprev, ha⟩ := mapRemap_empty (Nat.ne_of_lt (hs.tidy.sound.tree _ hr).lt) hempty h
  exact ((hs.opened hprev (roundUp_dvd size) (hs.pure region hr)).aside ha).1

lemma mapRemap_counted {va : BitVec 32} (hs : s.Bounded) (hcounted : s.Counted) (hr : s.Held region)
    (hempty : (s.heap.region region).phys = []) (h : mapRemap d da size region s = .ok (0, va, t)) :
    t.Counted := by
  obtain ⟨prev, hprev, ha⟩ := mapRemap_empty (Nat.ne_of_lt (hs.held region hr)) hempty h
  rw [State.Counted, ha.heap, ha.held, opened_held hprev]
  refine Exact.congr (S := s.heap.store) hcounted fun x => ?_
  refine exists_congr fun q => ?_
  rw [opened_region]
  constructor
  · rintro ⟨rfl | hq, hx⟩
    · rw [if_pos rfl] at hx
      nomatch hx
    · rw [if_neg (Nat.ne_of_lt (hs.held q hq))] at hx
      exact ⟨hq, hx⟩
  · rintro ⟨hq, hx⟩
    rw [if_neg (Nat.ne_of_lt (hs.held q hq))]
    exact ⟨.inr hq, hx⟩

/-! ## Runs of remaps, unmaps and exits -/

inductive ShareOp where
  | mapRemap (d : ProcId) (da size : BitVec 32) (region : RegionId)
  | mapUnmapRegion (p : ProcId) (r : RegionId) (len : BitVec 32)
  | mapFreeProc (p : ProcId)

def ShareOp.Succeeds (s t : State) : ShareOp → Prop
  | .mapRemap d da size region => s.Held region ∧ ∃ va, Vm.mapRemap d da size region s = .ok (0, va, t)
  | .mapUnmapRegion p r len => Vm.mapUnmapRegion p r len s = .ok (0, t)
  | .mapFreeProc p => Vm.mapFreeProc p s = .ok t

/-- A remap finds nothing to copy, and an unmap is refused no memory for what it has to copy. -/
def ShareOp.Harmless (s t : State) : ShareOp → Prop
  | .mapRemap _ _ _ region => (s.heap.region region).phys = []
  | .mapUnmapRegion _ _ _ => t.denied = s.denied
  | .mapFreeProc _ => True

/-- The state is reached from another by calls that succeed and are harmless. -/
inductive Shares (s : State) : State → Prop where
  | refl : Shares s s
  | call {t u : State} {op : ShareOp} (ht : Shares s t) (hop : op.Succeeds t u)
      (hok : op.Harmless t u) : Shares s u

lemma Shares.sane (hs : s.Sane) (h : Shares s t) : t.Sane := by
  induction h with
  | refl => exact hs
  | @call t u op _ hop hok ih =>
    cases op with
    | mapRemap d da size region =>
      obtain ⟨hr, va, hremap⟩ := hop
      exact mapRemap_sane ih hr hok hremap
    | mapUnmapRegion p r len => exact (mapUnmapRegion_sane ih hop hok).1
    | mapFreeProc p => exact (mapFreeProc_sane ih hop).1

/-- The sharing invariant survives a successful remap exactly when there was nothing to copy; and
in every run of remaps, unmaps and exits whose calls are harmless it holds in every state reached,
where no page of a block in use is free. -/
theorem remap_keeps_counts_iff (s : State) :
    (∀ t d da size region va, s.Bounded → s.Counted → s.Held region →
      mapRemap d da size region s = .ok (0, va, t) →
      (t.Counted ↔ (s.heap.region region).phys = [])) ∧
    (∀ t, s.Sane → Shares s t → t.Counted ∧ ∀ f, t.Owned f → t.free f = false) := by
  refine ⟨fun t d da size region va hb hc hr h => ⟨fun hcounted => ?_, fun hempty => ?_⟩, fun t hs h => ?_⟩
  · by_contra hne
    exact not_counted_of_mapRemap hb hc hr hne h hcounted
  · exact mapRemap_counted hb hc hr hempty h
  have hsane := h.sane hs
  refine ⟨hsane.tidy.sound.exact, fun f hf => ?_⟩
  obtain ⟨b, hb, hhas⟩ := hf
  exact hsane.paged.taken b hb f hhas

def mapShared (prealloc : Bool) : Op :=
  .mapPageRegion 0 0x1000 0 0x1000 mapNone (vrAnon ||| vrWritable ||| vrShared) prealloc

lemma reached_mapShared (prealloc : Bool) :
    (mapShared prealloc).Succeeds bootVm ((mapShared prealloc).after bootVm) := by
  cases prealloc <;>
    exact .of_page boot_bootVm.sane ⟨by decide, by decide, by decide,
      fun hw => absurd rfl hw⟩ (by decide +kernel) (by decide +kernel)

def remapped (s : State) : State :=
  match mapRemap 1 0 0x1000 0 s with
  | .ok (_, _, t) => t
  | .error _ => s

def remapReturns (s : State) : Option (Int × BitVec 32) :=
  match mapRemap 1 0 0x1000 0 s with
  | .ok (res, va, _) => some (res, va)
  | .error _ => none

lemma mapRemap_remapped {s : State} (va : BitVec 32) (h : remapReturns s = some (0, va)) :
    mapRemap 1 0 0x1000 0 s = .ok (0, va, remapped s) := by
  unfold remapReturns at h
  unfold remapped
  cases hremap : mapRemap 1 0 0x1000 0 s with
  | error e =>
    rw [hremap] at h
    nomatch h
  | ok res =>
    obtain ⟨res, va', t⟩ := res
    rw [hremap] at h
    cases h
    rfl

/-- Two processes map a page that one of them shared; when the first unmaps it VM follows a null
pointer. -/
theorem unmap_after_remap_faults :
    ∃ s t va, Reached s ∧ s.Counted ∧ s.Held 0 ∧ mapRemap 1 0 0x1000 0 s = .ok (0, va, t) ∧ ¬ t.Counted ∧
      failure (mapUnmapRegion 0 0 0x1000 t) = some .fault := by
  have hs : Reached ((mapShared true).after bootVm) := .call (.boot boot_bootVm) (reached_mapShared true)
  have hheld : ((mapShared true).after bootVm).Held 0 := ⟨0, by decide +kernel⟩
  have hremap := mapRemap_remapped (s := (mapShared true).after bootVm) 0 (by decide +kernel)
  have hcounted : ((mapShared true).after bootVm).Counted := hs.sane.tidy.sound.exact
  refine ⟨_, _, _, hs, hcounted, hheld, hremap, ?_, by decide +kernel⟩
  exact not_counted_of_mapRemap hs.sane.tidy.bounded hcounted hheld (by decide +kernel) hremap

/-- A shared region nobody has touched can be mapped again. -/
theorem remap_keeps_counts_untouched :
    (remapped ((mapShared false).after bootVm)).Counted ∧
      ((remapped ((mapShared false).after bootVm)).proc 1).vmRegions = [1] := by
  have hs : Reached ((mapShared false).after bootVm) := .call (.boot boot_bootVm) (reached_mapShared false)
  have hheld : ((mapShared false).after bootVm).Held 0 := ⟨0, by decide +kernel⟩
  have hremap := mapRemap_remapped (s := (mapShared false).after bootVm) 0 (by decide +kernel)
  obtain ⟨hiff, -⟩ := remap_keeps_counts_iff ((mapShared false).after bootVm)
  refine ⟨(hiff _ 1 0 0x1000 0 0 hs.sane.tidy.bounded hs.sane.tidy.sound.exact hheld hremap).mpr ?_, ?_⟩
  · decide +kernel
  · decide +kernel

end Nucleos.Vm
