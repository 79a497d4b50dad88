import Nucleos.Vm.PageTable

/-!
# The operations keep the page tables up to date

A call that maps or frees memory, whether or not it succeeds, leaves page tables that show what the
trees say. For `map_unmap_region` and for a fork that takes that no allocation is refused on the
way: what they leave undone for lack of memory they do not report.
-/

namespace Nucleos.Vm

open IntrusiveList Sharing Run Relation

variable {s t u : State} {h h' : Heap} {K K' : RegionId → Prop} {R : RegionId → PhysId → Prop}
    {V : BitVec 32 → Prop}
  {p q : ProcId} {r : RegionId} {x pr : PhysId} {ok : Bool} {A : Prop}

def State.Mirrored (s : State) : Prop := ∀ p, s.Mirrors (s.heap.Nodes s.Held) p fun _ => False

lemma mirrored_of (hm : s.Mirrors (s.heap.Nodes s.Held) p fun _ => False) : s.Mirrored := fun _ q hq v e he =>
  .inr ((hm q hq v e he).resolve_left fun hf => hf.2)

lemma State.Mirrors.recount (K' : RegionId → Prop) (hm : s.Mirrors (s.heap.Nodes K) p V)
    (hK : ∀ r, (s.heap.region r).phys ≠ [] → K r → K' r) :
    s.Mirrors (s.heap.Nodes K') p V :=
  hm.mono fun r _ hx => ⟨hK r (List.ne_nil_of_mem hx.2) hx.1, hx.2⟩

lemma State.Mirrors.relist (hm : s.Mirrors R p V) (hheap : t.heap = s.heap)
    (hhaspt : ∀ q, (t.proc q).haspt = (s.proc q).haspt)
    (hpte : ∀ q, (t.proc q).vmPt.pte = (s.proc q).vmPt.pte) : t.Mirrors R p V := by
  refine hm.keep hhaspt hpte fun r x hx => ⟨hx, ?_⟩
  rw [hheap]
  exact .refl _ _ _

lemma State.Mirrors.unlink (hm : s.Mirrors R p V) (q : ProcId) (r : RegionId) :
    (s.unlink q r).Mirrors R p V := by
  exact hm.relist rfl (s.modProc_keep VmProc.haspt rfl) (s.modProc_keep (fun x => x.vmPt.pte) rfl)

lemma State.Mirrored.aside (hm : s.Mirrored) (ha : Aside s t) : t.Mirrored := by
  intro p
  rw [ha.heap, ha.held]
  exact (hm p).aside ha

lemma State.Mirrored.updates (hs : s.Tidy) (hr : r ∈ (s.proc p).vmRegions) (hm : s.Mirrored)
    (h : Updates r 0 A s t) : t.Mirrored := by
  refine mirrored_of (p := p) ?_
  rw [h.frame.held]
  exact h.mirrors hs.sound ⟨p, hr⟩ (hs.parent p r hr) (fun j hj => absurd hj (Nat.not_lt_zero _)) (hm p)

/-! ## A new region -/

lemma newRegion_alike (h : Heap) (y : VirRegion) (hr : r ≠ h.nextRegion) (x : PhysId) :
    h.Alike (h.newRegion y) r x := by
  have hregion := newRegion_of_ne h y hr
  exact ⟨by rw [hregion]; rfl, by rw [hregion], rfl, rfl, by rw [hregion]; exact id⟩

section Page
variable {minv maxv length what startv : BitVec 32} {flags : BitVec 16} {prealloc : Bool}

lemma newRegion_mirrors (hs : s.Tidy) (hm : s.Mirrored) (y : VirRegion) (p : ProcId) :
    (s.modHeap fun h => h.newRegion y).Mirrors ((s.modHeap fun h => h.newRegion y).heap.Nodes
      s.Held) p fun _ => False := by
  refine (hm p).keep (fun _ => rfl) (fun _ => rfl) fun r x hx => ?_
  have hne : r ≠ s.heap.nextRegion := Nat.ne_of_lt (hs.sound.tree r hx.1).lt
  refine ⟨⟨hx.1, ?_⟩, newRegion_alike s.heap y hne x⟩
  have hregion : (s.modHeap fun h => h.newRegion y).heap.region r = s.heap.region r :=
    newRegion_of_ne s.heap y hne
  rw [hregion]
  exact hx.2

lemma pageRegion_mirrors (hs : s.Tidy) (hm : s.Mirrored) (hpos : 0 < length.toNat)
    (hdvd : 4096 ∣ length.toNat) :
    (s.pageRegion p startv length what flags).Mirrors
      ((s.pageRegion p startv length what flags).heap.Nodes s.Building) p
      fun _ => False := by
  have hsite := hs.site_newRegion p startv flags hdvd
  have hnew := (newRegion_mirrors hs hm ⟨startv, length, [], flags, vrtNone, p⟩ p).recount
    s.Building fun q _ hq => .inr hq
  unfold State.pageRegion
  simp only
  split_ifs
  · exact hnew
  · exact add_mirrors hsite.sound hsite.mem hsite.parent hnew (gap_newRegion s.heap p startv flags
      hpos hdvd) what

lemma mapPageRegion_mirrored {res : Option RegionId} (hs : s.Tidy) (hm : s.Mirrored) (hpos : 0 < length.toNat)
    (hdvd : 4096 ∣ length.toNat) (hwhat : what ≠ mapNone → prealloc = false)
    (h : mapPageRegion p minv maxv length what flags prealloc s = .ok (res, t)) : t.Mirrored := by
  rcases mapPageRegion_spec hs hpos hdvd hwhat h
    with ⟨-, ha | ⟨y, ha⟩⟩ | ⟨startv, prev, u, hslot, -, hup, rfl⟩
  · exact hm.aside ha
  · refine mirrored_of (p := p) ?_
    have hheld : t.Held = s.Held := ha.held
    rw [ha.heap, hheld]
    exact (newRegion_mirrors hs hm y p).aside ha
  have hsite := hs.site_pageRegion p startv what flags hpos hdvd
  have hu := hup.mirrors hsite.sound hsite.mem hsite.parent (fun j hj => absurd hj (Nat.not_lt_zero _))
    (pageRegion_mirrors hs hm hpos hdvd)
  have hheld := held_linked hup hslot
  refine mirrored_of (p := p) ?_
  rw [hheld]
  exact hu.relist rfl (State.modProc_keep _ VmProc.haspt rfl) (State.modProc_keep _ (fun x => x.vmPt.pte) rfl)

end Page

/-! ## Unmapping -/

def Heap.Front (h : Heap) (r : RegionId) (len : BitVec 32) (v : BitVec 32) : Prop :=
  ∃ j < pagesIn len, v = pageOf (pageAt (h.region r).vaddr j)

variable {len : BitVec 32}

lemma spares_front (h : Heap) (r : RegionId) (hdvd : 4096 ∣ len.toNat) :
    h.Spares r len.toNat (h.Front r len) := by
  intro j hj
  refine ⟨j, ?_, rfl⟩
  unfold pagesIn
  omega

lemma shrink_alike (hs : h.Sound K) (hr : K r) (hsh : Shrunk h h' r len) {q : RegionId} (hx : h.Nodes K q x) :
    h.Alike h' q x := by
  have hblock : h'.blockOf x = h.blockOf x := by
    rw [Heap.blockOf, hsh.ph, hsh.block]
    rfl
  have hparent : (h'.region q).parent = (h.region q).parent := by
    rw [hsh.region]
    split_ifs <;> rfl
  refine ⟨?_, hparent, by rw [hblock], by rw [hblock],
    fun hw => writable_keep (hsh.flags q) (.inl (by rw [hblock])) hw⟩
  rw [hsh.region, hsh.physr]
  by_cases hqr : q = r
  · subst hqr
    rw [if_pos rfl, if_pos hx.2]
    simp only
    rw [BitVec.add_assoc, BitVec.add_comm len, BitVec.sub_add_cancel]
  · have hnot : x ∉ (h.region r).phys := fun hmem => hqr (hs.parent_eq hx.1 hr hx.2 hmem)
    rw [if_neg hqr, if_neg hnot]

lemma unmapFront_mirrors (hs : s.Tidy) (hm : s.Mirrored) (hr : r ∈ (s.proc p).vmRegions)
    (hdvd : 4096 ∣ len.toNat)
    (h : unmapFront p r len s = .ok t) : t.Mirrors (t.heap.Nodes t.Held) p (s.heap.Front r len) := by
  have hheld : s.Held r := ⟨p, hr⟩
  have hstart : s.Mirrors (s.heap.Nodes s.Held) p (s.heap.Front r len) :=
    (hm p).except fun _ hf => hf.elim
  have hspares := spares_front s.heap r hdvd
  cases unmapFront_gone hs hr hdvd h with
  | all hup hempty =>
    have hfreed := hup.mirrors (s := s.unlink p r) hs.sound hheld (hs.parent p r hr) hspares
      (hstart.unlink p r)
    refine hfreed.recount _ fun q hq hqheld => ?_
    rw [hup.frame.held, hs.held_unlink hr q]
    refine ⟨hqheld, ?_⟩
    rintro rfl
    exact hq hempty
  | @front s₁ hup =>
    have hfreed := hup.mirrors hs.sound hheld (hs.parent p r hr) hspares hstart
    have htidy := hs.updates hr hup
    have hr₁ : s₁.Held r := by
      rw [hup.frame.held]
      exact hheld
    have hsh := shrink_shrunk len (htidy.sound.tree r hr₁).nodup
    rw [← hup.frame.held] at hfreed
    refine hfreed.keep (fun _ => rfl) (fun _ => rfl) fun q x hx =>
      ⟨⟨hx.1, ?_⟩, shrink_alike htidy.sound hr₁ hsh hx⟩
    have hphys : ((s₁.modHeap fun h => h.shrink r len).heap.region q).phys =
      (s₁.heap.region q).phys := hsh.phys q
    rw [hphys]
    exact hx.2

lemma mapUnmapRegion_mirrored (hs : s.Tidy) (hm : s.Mirrored) (h : mapUnmapRegion p r len s = .ok (0, t)) :
    t.Mirrored := by
  obtain ⟨hr, -, hdvd, -, u, hunmap, ha⟩ := mapUnmapRegion_inv h
  have hfront := unmapFront_mirrors hs hm hr hdvd hunmap
  refine State.Mirrored.aside (mirrored_of (p := p) ?_) ha
  rw [(setPtes_frame u p (s.heap.region r).vaddr (pagesIn len) fun _ => none).held]
  exact hfront.setPtes nofun fun _ hv => .inr ⟨rfl, hv⟩

/-! ## Exit -/

lemma freeRegions_mirrors {l : List RegionId} (hs : s.Tidy) (hregions : (s.proc p).vmRegions = l)
    (hm : s.Mirrors (s.heap.Nodes s.Held) p fun _ => True) (h : freeRegions p l s = .ok t) :
    t.Mirrors (t.heap.Nodes t.Held) p fun _ => True := by
  refine (freeRegions_rule (P := fun s => s.Mirrors (s.heap.Nodes s.Held) p fun _ =>
    True) ?_ hs hm hregions h).1
  intro s t r hf hm
  have hfreed := hf.updates.mirrors hf.tidy.sound ⟨p, hf.mem⟩ (hf.tidy.parent p r hf.mem)
    (fun _ _ => trivial) hm
  refine (hfreed.recount _ fun q hq hheld => (hf.held_unlink q).mpr ⟨hheld, ?_⟩).unlink p r
  rintro rfl
  exact hq hf.empty

/-- `free_proc`: the page table goes first, and then the regions. -/
def freeProc (p : ProcId) (s : State) : Except Stop State :=
  mapFreeProc p (s.modProc p fun x => { x with haspt := false })

abbrev State.dropPt (s : State) (p : ProcId) : State := s.modProc p fun x => { x with haspt := false }

end Nucleos.Vm
