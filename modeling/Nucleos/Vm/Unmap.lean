import Nucleos.Vm.Isolation

/-!
# What an unmap leaves

The front of a region goes with its entries, and the region moves up behind it. The rest of the
pages keep their frames, unless a block that another region shares is cut in two: what is left of
it is copied then.
-/

namespace Nucleos.Vm

open Function Run

variable {s t u : State} {p : ProcId} {r : RegionId} {len v f : BitVec 32} {res : Int}

def State.Maps (s : State) (p : ProcId) (v f : BitVec 32) : Prop :=
  ∃ r ∈ (s.proc p).vmRegions, ∃ x ∈ (s.heap.region r).phys, s.heap.Translates r x v f

lemma State.Maps.frame_eq {f' : BitVec 32} (hs : s.Tidy) (hl : s.Layout 1) (h : s.Maps p v f)
    (h' : s.Maps p v f') : f = f' := by
  obtain ⟨r, hr, x, hx, i, hi, hv, hf⟩ := h
  obtain ⟨r', hr', y, hy, j, hj, hv', hf'⟩ := h'
  obtain ⟨rfl, rfl, rfl⟩ := page_unique hs hl hr hr' hx hy hi hj (hv.symm.trans hv')
  exact hf.trans hf'.symm

lemma shrink_thins (hs : s.Tidy) (hr : s.Held r) (len : BitVec 32) (V : BitVec 32 → Prop) :
    Thins s.Held r V s.heap (s.heap.shrink r len) := by
  have hsh := shrink_shrunk len (hs.sound.tree r hr).nodup
  have hnodes : ∀ {q x}, (s.heap.shrink r len).Nodes s.Held q x ↔ s.heap.Nodes s.Held q x := by
    intro q x
    rw [Heap.Nodes, hsh.phys q]
    rfl
  constructor
  · rintro q v f ⟨x, hx, hm⟩
    exact ⟨x, hnodes.mp hx, (shrink_alike hs.sound hr hsh (hnodes.mp hx)).translates.mp hm⟩
  · rintro q v f ⟨x, hx, hm⟩
    exact .inr ⟨x, hnodes.mpr hx, (shrink_alike hs.sound hr hsh hx).translates.mpr hm⟩

lemma front_page {x : PhysId} {q : RegionId} (hs : s.Tidy) (hl : s.Layout 1)
    (hr : r ∈ (s.proc p).vmRegions)
    (hle : len ≤ (s.heap.region r).length) (hv : s.heap.Front r len v)
    (hq : q ∈ (s.proc p).vmRegions) (hx : x ∈ (s.heap.region q).phys)
    (hm : s.heap.Translates q x v f) : q = r ∧ s.heap.start x < len.toNat := by
  obtain ⟨j, hj, rfl⟩ := hv
  obtain ⟨i, hi, hv, -⟩ := hm
  have hfx := hs.sound.fits ⟨p, hq⟩ hx
  have hlen := BitVec.le_def.mp hle
  have hstart := hfx.start_dvd
  unfold pagesIn at hj
  rw [pageIn_eq hfx] at hv
  obtain ⟨rfl, rfl⟩ := page_index hl hr hq (by omega)
    (Nat.lt_of_lt_of_le (page_lt_stop hfx hi) hfx.le) hv
  exact ⟨rfl, by omega⟩

lemma maps_iff_of (ht : Thins s.Held r (s.heap.Front r len) s.heap u.heap)
    (hsub : ∀ q ∈ (u.proc p).vmRegions, q ∈ (s.proc p).vmRegions)
    (hkept : ∀ q ∈ (s.proc p).vmRegions, (u.heap.region q).phys ≠ [] → q ∈ (u.proc p).vmRegions)
    (hgone : ∀ v f, s.heap.Front r len v → ¬ u.Maps p v f) (v f : BitVec 32) :
    u.Maps p v f ↔ s.Maps p v f ∧ ¬ s.heap.Front r len v := by
  constructor
  · rintro ⟨q, hq, x, hx, hm⟩
    obtain ⟨y, hy, hold⟩ := ht.less ⟨x, ⟨⟨p, hsub q hq⟩, hx⟩, hm⟩
    exact ⟨⟨q, hsub q hq, y, hy.2, hold⟩, fun hv => hgone v f hv ⟨q, hq, x, hx, hm⟩⟩
  rintro ⟨⟨q, hq, x, hx, hm⟩, hv⟩
  rcases ht.more ⟨x, ⟨⟨p, hq⟩, hx⟩, hm⟩ with ⟨-, hf⟩ | ⟨y, hy, hm⟩
  · exact absurd hf hv
  · exact ⟨q, hkept q hq (List.ne_nil_of_mem hy.2), y, hy.2, hm⟩

lemma unmapFront_maps (hs : s.Tidy) (hl : s.Layout 1) (hr : r ∈ (s.proc p).vmRegions)
    (hle : len ≤ (s.heap.region r).length)
    (hdvd : 4096 ∣ len.toNat) (hone : ¬ s.heap.CutsShared r len)
    (h : unmapFront p r len s = .ok u) :
    (∀ v f, u.Maps p v f ↔ s.Maps p v f ∧ ¬ s.heap.Front r len v) ∧
      (u.proc p).haspt = (s.proc p).haspt ∧ ∀ v, (s.proc p).vmPt.pte v ≠ none →
        (u.proc p).vmPt.pte v ≠ none := by
  have hspares := spares_front s.heap r hdvd
  cases unmapFront_gone hs hr hdvd h with
  | all hup hempty =>
    have ht : Thins s.Held r (s.heap.Front r len) s.heap u.heap :=
      hup.thins hs.sound ⟨p, hr⟩ hspares
    have hmem : ∀ q, q ∈ (u.proc p).vmRegions ↔ q ≠ r ∧ q ∈ (s.proc p).vmRegions := by
      intro q
      rw [hup.frame.vmRegions, unlink_vmRegions, if_pos rfl]
      exact (hs.nodup p).mem_erase_iff
    refine ⟨maps_iff_of ht (fun q hq => ((hmem q).mp hq).2) (fun q hq hne => (hmem q).mpr ⟨?_, hq⟩)
      ?_, ?_, fun v hv => hup.present ?_⟩
    · rintro rfl
      exact hne hempty
    · rintro v f hv ⟨q, hq, x, hx, hm⟩
      obtain ⟨hne, hq⟩ := (hmem q).mp hq
      obtain ⟨y, hy, hm⟩ := ht.less ⟨x, ⟨⟨p, hq⟩, hx⟩, hm⟩
      exact hne (front_page hs hl hr hle hv hq hy.2 hm).1
    · rw [hup.frame.proc p]
      simp [State.unlink, State.modProc]
    · simp only [State.unlink, State.modProc, update_self]
      exact hv
  | @front s₁ hup habove =>
    have hup' : Updates r len.toNat False s s₁ := eq_false hone ▸ hup
    have hheld : s₁.Held = s.Held := hup.frame.held
    have htidy := hs.updates hr hup
    have hlist := hup.frame.vmRegions p
    have hr₁ : r ∈ (s₁.proc p).vmRegions := hlist ▸ hr
    have hregion := hup.frame.region r
    have hshrink := shrink_thins htidy ⟨p, hr₁⟩ len (s.heap.Front r len)
    have ht := (hup'.thins hs.sound ⟨p, hr⟩ hspares).trans (hheld ▸ hshrink)
    refine ⟨maps_iff_of ht (fun q hq => hlist ▸ hq) (fun q hq _ => hlist.symm ▸ hq) ?_, ?_,
      fun v hv => hup'.present hv⟩
    swap
    · show (s₁.proc p).haspt = _
      rw [hup.frame.proc p]
    rintro v f hv ⟨q, hq, x, hx, hm⟩
    obtain ⟨y, hy, hm⟩ := hshrink.less ⟨x, ⟨⟨p, hq⟩, hx⟩, hm⟩
    have hv₁ : s₁.heap.Front r len v := by
      rw [Heap.Front, hregion]
      exact hv
    have hle₁ : len ≤ (s₁.heap.region r).length := by
      rw [hregion]
      exact hle
    obtain ⟨rfl, hlt⟩ := front_page htidy (hl.steady hup.frame.steady) hr₁ hle₁ hv₁ hq hy.2 hm
    exact Nat.not_le.mpr hlt (habove (.inr hone) y hy.2)

/-- An unmap that goes through takes the pages of the front, and if it cuts no block that another
region shares, no other page of the process changes its frame. One that is refused changes
nothing. -/
theorem mapUnmapRegion_pages (hs : s.Tidy) (hm : s.Mirrored) (hl : s.Layout 1)
    (h : mapUnmapRegion p r len s = .ok (res, t)) :
    (res = -einval → t = s) ∧
    (res = 0 → (∀ v, s.heap.Front r len v → (t.proc p).vmPt.pte v = none) ∧
      (¬ s.heap.CutsShared r len →
      (∀ v f, t.Maps p v f ↔ s.Maps p v f ∧ ¬ s.heap.Front r len v) ∧
      ∀ v e, s.Entry p v e → ¬ s.heap.Front r len v → ∃ e', t.Entry p v e' ∧
        e'.frame = e.frame)) := by
  constructor
  · rintro rfl
    unfold mapUnmapRegion at h
    split at h
    · nomatch h
    dsimp only at h
    split at h
    · cases h
      rfl
    split at h
    · cases h
      rfl
    obtain ⟨u, -, h⟩ := bind_eq_ok.mp h
    split at h
    · exact nomatch (ok_pair_inj h).1
    · exact nomatch (ok_pair_inj h).1
  · rintro rfl
    have hmirrored := mapUnmapRegion_mirrored hs hm h
    obtain ⟨hr, hle, hdvd, -, u, hunmap, ha⟩ := mapUnmapRegion_inv h
    refine ⟨fun v hv => ?_, fun hone => ?_⟩
    · obtain ⟨j, hj, hvj⟩ := hv
      rw [ha.pte, setPtes_pte, if_pos rfl]
      rcases writePtes_cases (s.heap.region r).vaddr (fun _ => none) (pagesIn len)
        (u.proc p).vmPt.pte v with
        ⟨-, -, -, heq⟩ | ⟨hnot, -⟩
      · exact heq
      · exact absurd hvj (hnot j hj)
    obtain ⟨hmaps, hhaspt, hpresent⟩ := unmapFront_maps hs hl hr hle hdvd hone hunmap
    have hframe := (setPtes_frame u p (s.heap.region r).vaddr (pagesIn len)
      fun _ => none).trans ha.frame
    have htidy : t.Tidy := by
      refine (unmapFront_tidy hs hr hle hdvd hunmap (.inr hone)).frame hframe ?_
      rw [ha.heap]
      exact (unmapFront_tidy hs hr hle hdvd hunmap (.inr hone)).sound
    have hmaps' : ∀ v f, t.Maps p v f ↔ s.Maps p v f ∧ ¬ s.heap.Front r len v := by
      intro v f
      rw [← hmaps, State.Maps, State.Maps, hframe.vmRegions, ha.heap]
      rfl
    refine ⟨hmaps', fun v e he hv => ?_⟩
    have hne : (t.proc p).vmPt.pte v ≠ none := by
      rw [ha.pte]
      exact setPtes_present (fun i hi hvi => absurd ⟨i, hi, hvi⟩ hv)
        (hpresent v (by rw [he.2]; nofun))
    obtain ⟨e', he'⟩ := Option.ne_none_iff_exists'.mp hne
    have hentry : t.Entry p v e' := ⟨by rw [hframe.proc p]; exact hhaspt.trans he.1, he'⟩
    obtain ⟨q, hq, x, hx, i, hi, hvi, hfi, -⟩ := entry_shown hs hm he
    obtain ⟨q', hq', y, hy, j, hj, hvj, hfj, -⟩ := entry_shown htidy hmirrored hentry
    have hold := ((hmaps' v e'.frame).mp ⟨q', hq', y, hy, j, hj, hvj, hfj⟩).1
    exact ⟨e', hentry, hold.frame_eq hs hl ⟨q, hq, x, hx, i, hi, hvi, hfi⟩⟩

def mapTwo : Op := .mapPageRegion 0 0x1000 0 0x2000 mapNone (vrAnon ||| vrWritable) true

lemma served_mapTwo {luck : List (Option (BitVec 32))}
    (h : mapTwo.returns { bootVm with luck } = true) :
    Served (mapTwo.performed { bootVm with luck }).2 :=
  have hboot : Served { bootVm with luck } :=
    .boot ⟨fun _ => rfl, fun _ => ⟨rfl, rfl⟩⟩ fun _ _ => rfl
  .call hboot (.of_page (by decide) ⟨by decide, by decide, by decide, fun hw => absurd rfl hw⟩ h)

def unmapFirst (s : State) : Int × State :=
  match mapUnmapRegion 0 0 0x1000 s with
  | .ok res => res
  | .error _ => (1, s)

lemma unmapFirst_ok (h : (unmapFirst s).1 = 0) :
    mapUnmapRegion 0 0 0x1000 s = .ok (0, (unmapFirst s).2) := by
  unfold unmapFirst at h ⊢
  split at h
  · next res hres =>
    rw [hres, ← h]
  · nomatch h

theorem mapUnmapRegion_pages_first : ∃ s t, mapUnmapRegion 0 0 0x1000 s = .ok (0, t) ∧
    s.Maps 0 1 16 ∧ ¬ t.Maps 0 1 16 ∧ t.Maps 0 2 17 := by
  have hserved : Served (mapTwo.performed bootVm).2 := served_mapTwo (by decide +kernel)
  have hrun := unmapFirst_ok (s := (mapTwo.performed bootVm).2) (by decide +kernel)
  obtain ⟨hsane, -, hmirrored, hlayout⟩ := hserved.private
  have hone : ¬ (mapTwo.performed bootVm).2.heap.CutsShared 0 0x1000 := by
    unfold Heap.CutsShared
    decide +kernel
  have hmaps := (((mapUnmapRegion_pages hsane.tidy hmirrored hlayout hrun).2 rfl).2 hone).1
  refine ⟨_, _, hrun, ⟨0, by decide +kernel, 0, by decide +kernel, 0, by decide +kernel,
    by decide +kernel, by decide +kernel⟩,
    fun h => ((hmaps 1 16).mp h).2 ⟨0, by decide, by decide +kernel⟩,
      (hmaps 2 17).mpr ⟨⟨0, by decide +kernel, 0, by decide +kernel, 1,
      by decide +kernel, by decide +kernel, by decide +kernel⟩, ?_⟩⟩
  unfold Heap.Front
  decide +kernel

def forkTwo (luck : List (Option (BitVec 32))) : State :=
  ((Op.mapProcCopy 1 0).performed (mapTwo.performed { bootVm with luck }).2).2

/-- After a fork the block of two pages has to be copied: with memory for it the page that stays
gets another frame, and without memory the block stays under the page that went. -/
theorem unmap_shared_front :
    (∃ s t e, Served s ∧ mapUnmapRegion 0 0 0x1000 s = .ok (0, t) ∧ s.Entry 0 2 ⟨17, false⟩ ∧
      t.Entry 0 2 e ∧ e.frame ≠ 17) ∧
    ∃ s t, Served s ∧ mapUnmapRegion 0 0 0x1000 s = .ok (0, t) ∧ s.heap.Front 0 0x1000 1 ∧
      t.Maps 0 1 16 := by
  have hserved : ∀ l ∈ [bootVm.luck, bootVm.luck ++ [some 0, some 20, some 0]],
    Served (forkTwo l) := by
    intro l hl
    refine (served_mapTwo ?_).fork ?_ ?_ ?_
    all_goals
      revert l
      decide +kernel
  refine ⟨⟨_, _, ⟨21, true⟩, hserved _ (.tail _ (.head _)), unmapFirst_ok (by decide +kernel),
      ⟨by decide +kernel, by decide +kernel⟩, ⟨by decide +kernel, by decide +kernel⟩, by decide⟩,
    _, _, hserved _ (.head _), unmapFirst_ok (by decide +kernel), ⟨0, by decide, by decide +kernel⟩,
    0, by decide +kernel, 0, by decide +kernel, 0, by decide +kernel, by decide +kernel, by decide +kernel⟩

end Nucleos.Vm
