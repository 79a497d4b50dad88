import Nucleos.Vm.Pages

/-!
# The operations on regions as a machine

The calls that the rest of VM makes into `region.c`, one after the other, on the regions of any
processes. A call comes with what the function asserts about its arguments. In every state that
successful calls lead to, the counts and lists of the blocks are exact and their pages are not
free.
-/

namespace Nucleos.Vm

open IntrusiveList Sharing Run Relation

variable {s t u : State} {h h' : Heap} {K K' : RegionId → Prop} {p : ProcId} {r : RegionId}
    {f : BitVec 32} {b : Nat} {A : Prop} {ok : Bool} {len : BitVec 32}

inductive Op where
  | mapPageRegion (p : ProcId) (minv maxv length what : BitVec 32) (flags : BitVec 16) (prealloc : Bool)
  | mapPf (p : ProcId) (r : RegionId) (offset : BitVec 32)
  | mapHandleMemory (p : ProcId) (r : RegionId) (offset length : BitVec 32) (write : Bool)
  | mapProcCopy (dst src : ProcId)
  | mapUnmapRegion (p : ProcId) (r : RegionId) (len : BitVec 32)
  | mapFreeProc (p : ProcId)
  deriving DecidableEq

def Op.exec (s : State) : Op → Except Stop (Bool × State)
  | .mapPageRegion p minv maxv length what flags prealloc => do
    let (r, s) ← Vm.mapPageRegion p minv maxv length what flags prealloc s
    .ok (r.isSome, s)
  | .mapPf p r offset => Vm.mapPf p r offset s
  | .mapHandleMemory p r offset length write => Vm.mapHandleMemory p r offset length write s
  | .mapProcCopy dst src => Vm.mapProcCopy dst src s
  | .mapUnmapRegion p r len => do
    let (res, s) ← Vm.mapUnmapRegion p r len s
    .ok (res == 0, s)
  | .mapFreeProc p => do
    let s ← Vm.mapFreeProc p s
    .ok (true, s)

def step (s : State) (op : Op) : Except Stop State := do
  let (_, s) ← op.exec s
  .ok s

def State.Given (s : State) (what length : BitVec 32) : Prop :=
  what.toNat + length.toNat ≤ 2 ^ 32 ∧
    ∀ f : BitVec 32, what.toNat ≤ 4096 * f.toNat → 4096 * f.toNat < what.toNat + length.toNat →
      s.free f = false ∧ ¬ s.heap.Owned s.Held f

/-- What the functions assert about their arguments, and their callers see to. -/
def Op.Asserted (s : State) : Op → Prop
  | .mapPageRegion _ _ _ length what flags prealloc =>
    0 < length.toNat ∧ 4096 ∣ length.toNat ∧ (flags &&& vrAnon ≠ 0 ↔ flags &&& vrDirect = 0) ∧
      (what ≠ mapNone → prealloc = false ∧ 4096 ∣ what.toNat ∧ (flags &&& vrAnon ≠ 0 → s.Given what length))
  | .mapPf p r offset =>
    r ∈ (s.proc p).vmRegions ∧ (s.heap.region r).flags &&& vrAnon ≠ 0 ∧ FaultOk s.heap r offset
  | .mapHandleMemory p r offset length write =>
    r ∈ (s.proc p).vmRegions ∧ (s.heap.region r).flags &&& vrAnon ≠ 0 ∧ 4096 ∣ offset.toNat ∧
      4096 ∣ length.toNat ∧
      offset.toNat + length.toNat ≤ (s.heap.region r).length.toNat ∧
      (write = true → (s.heap.region r).flags &&& vrWritable ≠ 0)
  | .mapProcCopy dst _ => (s.proc dst).vmRegions = []
  | .mapUnmapRegion _ _ _ => True
  | .mapFreeProc _ => True

structure State.Sane (s : State) : Prop where
  tidy : s.Tidy
  pure : ∀ r, s.Held r → (s.heap.region r).Pure
  paged : s.heap.Paged s.Held s.free

def State.Owned (s : State) (f : BitVec 32) : Prop := s.heap.Owned s.Held f

def Accounts (s t : State) : Prop := ∀ f, s.Accounted s.Held f → t.Accounted t.Held f

/-- A page that no longer backs anonymous memory is free, or VM has taken it for itself. -/
def Returns (s t : State) : Prop := ∀ f, s.Owned f → t.Accounted t.Held f

lemma Accounts.returns (h : Accounts s t) : Returns s t := fun f hf => h f (.inr (.inr hf))

lemma Accounts.trans (h₁ : Accounts s t) (h₂ : Accounts t u) : Accounts s u := fun f hf => h₂ f (h₁ f hf)

/-! ## Regions without blocks do not matter -/

lemma backs_recount (hK : ∀ r, (h.region r).phys ≠ [] → (K' r ↔ K r)) (b : BlockId) :
    h.Backs K' b ↔ h.Backs K b := by
  refine exists_congr fun r => ?_
  constructor
  · rintro ⟨hr, hanon, x, hx, hph⟩
    exact ⟨(hK r (List.ne_nil_of_mem hx)).mp hr, hanon, x, hx, hph⟩
  · rintro ⟨hr, hanon, x, hx, hph⟩
    exact ⟨(hK r (List.ne_nil_of_mem hx)).mpr hr, hanon, x, hx, hph⟩

lemma backs_newRegion (x : VirRegion) (hK : ∀ r, K r → r ≠ h.nextRegion) (b : BlockId) :
    (h.newRegion x).Backs (fun r => r = h.nextRegion ∨ K r) b ↔ h.Backs K b := by
  constructor
  · rintro ⟨r, rfl | hr, hanon, y, hy, hph⟩
    · rw [newRegion_new] at hy
      nomatch hy
    · rw [newRegion_of_ne h x (hK r hr)] at hanon hy
      exact ⟨r, hr, hanon, y, hy, hph⟩
  · rintro ⟨r, hr, hanon, y, hy, hph⟩
    refine ⟨r, .inr hr, ?_, y, ?_, hph⟩
    · rw [newRegion_of_ne h x (hK r hr)]
      exact hanon
    · rw [newRegion_of_ne h x (hK r hr)]
      exact hy

structure SameUse (h h' : Heap) (K K' : RegionId → Prop) : Prop where
  backs : ∀ b, h'.Backs K' b ↔ h.Backs K b
  same : ∀ b, (h.block b).Same (h'.block b)

lemma use_without (hempty : (h.region r).phys = []) (hK : ∀ q, K' q ↔ K q ∧ q ≠ r) : SameUse h h K K' := by
  refine ⟨backs_recount fun q hq => (hK q).trans (and_iff_left ?_), fun _ => ⟨rfl, rfl⟩⟩
  rintro rfl
  exact hq hempty

lemma SameUse.owned (hu : SameUse h h' K K') : h'.Owned K' f ↔ h.Owned K f :=
  exists_congr fun b => and_congr (hu.backs b) (hu.same b).has

lemma SameUse.paged (hu : SameUse h h' K K') {free : BitVec 32 → Bool} (hp : h.Paged K free) :
    h'.Paged K' free :=
  hp.keep (fun _ hf => hf) fun b hb => ⟨(hu.backs b).mp hb, hu.same b⟩

lemma SameUse.accounted (hu : SameUse s.heap t.heap K K') (hfree : t.free = s.free) (hown : t.own = s.own)
    (hf : s.Accounted K f) : t.Accounted K' f := by
  rcases hf with hf | hf | hf
  · exact .inl (by rw [hfree]; exact hf)
  · exact .inr (.inl (by rw [hown]; exact hf))
  · exact .inr (.inr (hu.owned.mpr hf))

/-! ## The operations -/

lemma Frame.pure (hframe : Frame s t) (hpure : ∀ r, s.Held r → (s.heap.region r).Pure)
    (r : RegionId) (hr : t.Held r) :
    (t.heap.region r).Pure := by
  rw [hframe.held] at hr
  rw [VirRegion.Pure, hframe.region r]
  exact hpure r hr

lemma State.Sane.aside (hs : s.Sane) (ha : Aside s t) : t.Sane ∧ Accounts s t := by
  refine ⟨⟨hs.tidy.aside ha, ha.frame.pure hs.pure, ?_⟩, fun f hf => ?_⟩
  · rw [ha.held]
    exact ha.paged hs.paged
  · rw [ha.held]
    exact ha.accounted hf

lemma State.Sane.updates (hs : s.Sane) (hr : r ∈ (s.proc p).vmRegions) (h : Updates r b A s t) :
    t.Sane ∧ ((A → (s.heap.region r).flags &&& vrAnon ≠ 0) → Accounts s t) ∧ Returns s t := by
  have hheld : s.Held r := ⟨p, hr⟩
  obtain ⟨hpaged, hacc, hown⟩ := h.pages hheld hs.tidy.sound (hs.pure r hheld) hs.paged
  refine ⟨⟨hs.tidy.updates hr h, h.frame.pure hs.pure, ?_⟩, fun hanon f hf => ?_, fun f hf => ?_⟩
  · rw [h.frame.held]
    exact hpaged
  · rw [h.frame.held]
    exact hacc hanon f hf
  rw [h.frame.held]
  by_cases hanon : (s.heap.region r).flags &&& vrAnon = 0
  · exact .inr (.inr (hown hanon f hf))
  · exact hacc (fun _ => hanon) f (.inr (.inr hf))

lemma State.Sane.use (hs : s.Sane) (ht : t.Tidy) (hu : SameUse s.heap t.heap s.Held t.Held)
    (hfree : t.free = s.free) (hown : t.own = s.own)
    (hflags : ∀ q, t.Held q → ∃ q', s.Held q' ∧
      (t.heap.region q).flags = (s.heap.region q').flags) : t.Sane ∧ Accounts s t := by
  refine ⟨⟨ht, fun q hq => ?_, ?_⟩, fun f hf => hu.accounted hfree hown hf⟩
  · obtain ⟨q', hq', hflags⟩ := hflags q hq
    rw [VirRegion.Pure, hflags]
    exact hs.pure q' hq'
  · rw [hfree]
    exact hu.paged hs.paged

lemma State.Sane.frame (hs : s.Sane) (hframe : Frame s t) (hheap : t.heap = s.heap)
    (hfree : t.free = s.free) (hown : t.own = s.own) :
    t.Sane ∧ Accounts s t := by
  refine hs.use (hs.tidy.frame hframe (by rw [hheap]; exact hs.tidy.sound)) ?_ hfree hown fun q
    hq => ⟨q, ?_, by rw [hheap]⟩
  · rw [hheap, hframe.held]
    exact ⟨fun _ => Iff.rfl, fun _ => ⟨rfl, rfl⟩⟩
  · rwa [hframe.held] at hq

lemma freeRegions_sane {l : List RegionId} (hs : s.Sane) (hregions : (s.proc p).vmRegions = l)
    (h : freeRegions p l s = .ok t) : t.Sane ∧ Accounts s t := by
  have hstart : s.Sane ∧ Accounts s s := ⟨hs, fun _ hf => hf⟩
  refine (freeRegions_rule (P := fun u => u.Sane ∧ Accounts s u) (fun {u v r} hf hu => ?_) hs.tidy
    hstart hregions h).1
  obtain ⟨hsane₁, hacc₁, -⟩ := hu.1.updates hf.mem hf.updates
  have hheld : ∀ q, (v.unlink p r).Held q ↔ v.Held q ∧ q ≠ r := by
    intro q
    rw [hf.held_unlink, hf.updates.frame.held]
  obtain ⟨hsane₂, hacc₂⟩ := hsane₁.use hf.tidy_unlink (use_without hf.empty hheld) rfl rfl fun q
    hq => ⟨q, ((hheld q).mp hq).1, rfl⟩
  exact ⟨hsane₂, (hu.2.trans (hacc₁ nofun)).trans hacc₂⟩

lemma mapFreeProc_sane (hs : s.Sane) (h : mapFreeProc p s = .ok t) : t.Sane ∧ Accounts s t := by
  obtain ⟨s₁, hfree, h⟩ := bind_eq_ok.mp h
  cases h
  rw [modProc_of_empty (freeRegions_tidy hs.tidy rfl hfree).2]
  exact freeRegions_sane hs rfl hfree

lemma copyRegion_use (dst : ProcId) (hs : s.Tidy) {vr : RegionId} (hvr : s.Held vr) :
    SameUse s.heap (s.copyRegion dst vr).heap s.Held (s.copyRegion dst vr).Held ∧
      ∀ q, (s.copyRegion dst vr).Held q → ∃ q', s.Held q' ∧
        ((s.copyRegion dst vr).heap.region q).flags = (s.heap.region q').flags := by
  have ht := hs.sound.tree vr hvr
  have hc : Recopied s.heap (s.copyRegion dst vr).heap dst vr :=
    copyRegion_recopied dst fun x hx => (ht.fits x hx).phys_lt
  have hphys := copyRegion_phys dst ht
  have hregion : ∀ q, s.Held q → (s.copyRegion dst vr).heap.region q = s.heap.region q := fun q hq =>
    hc.region q (Nat.ne_of_lt (hs.sound.tree q hq).lt)
  rw [copyRegion_held]
  refine ⟨⟨fun b => ⟨?_, ?_⟩, fun b => ⟨(hc.block b).2, (hc.block b).1⟩⟩, ?_⟩
  · rintro ⟨q, rfl | hq, hanon, y, hy, hph⟩
    · obtain ⟨x, hx, hxph, -⟩ := forall₂_mem_right hc.copies (hc.mem y hy)
      rw [hc.self] at hanon
      exact ⟨vr, hvr, hanon, x, hx, hxph.symm.trans hph⟩
    · rw [hregion q hq] at hanon hy
      rw [hc.old y (hs.sound.fits hq hy).phys_lt] at hph
      exact ⟨q, hq, hanon, y, hy, hph⟩
  · rintro ⟨q, hq, hanon, y, hy, hph⟩
    refine ⟨q, .inr hq, by rw [hregion q hq]; exact hanon, y, by rw [hregion q hq]; exact hy, ?_⟩
    rw [hc.old y (hs.sound.fits hq hy).phys_lt]
    exact hph
  · rintro q (rfl | hq)
    · exact ⟨vr, hvr, by rw [hc.self]⟩
    · exact ⟨q, hq, by rw [hregion q hq]⟩

lemma mapProcCopy_sane {dst src : ProcId} (hs : s.Sane) (hdst : (s.proc dst).vmRegions = [])
    (h : mapProcCopy dst src s = .ok (true, t)) (hcrowd : t.Uncrowded) : t.Sane ∧ Accounts s t := by
  refine (mapProcCopy_rule (P := fun u => u.Sane ∧
    Accounts s u) hs.tidy hdst h hcrowd ⟨hs, fun _ hf => hf⟩ ?_ ?_).2
  · rintro u u' vr hu hvr htidy ha ⟨hsane, hacc⟩
    obtain ⟨huse, hflags⟩ := copyRegion_use dst hu hvr
    obtain ⟨hsane', hacc'⟩ := hsane.use htidy huse rfl rfl hflags
    obtain ⟨hsane'', hacc''⟩ := hsane'.aside ha
    exact ⟨hsane'', hacc.trans (hacc'.trans hacc'')⟩
  · rintro u u' q hu hr ⟨hsane, hacc⟩
    cases hr with
    | aside ha =>
      obtain ⟨hsane', hacc'⟩ := hsane.aside ha
      exact ⟨hsane', hacc.trans hacc'⟩
    | @map r pr hq hpr =>
      obtain ⟨hsane', hacc'⟩ := hsane.frame (mapPtes_frame u q r pr) rfl rfl rfl
      exact ⟨hsane', hacc.trans hacc'⟩

lemma shrink_use (K : RegionId → Prop) (hsh : Shrunk h h' r len) : SameUse h h' K K := by
  refine ⟨fun b => ?_, fun b => ⟨by rw [hsh.block], by rw [hsh.block]⟩⟩
  refine exists_congr fun q => and_congr_right fun _ => ?_
  rw [hsh.flags, hsh.phys]
  refine and_congr_right fun _ => exists_congr fun x => and_congr_right fun _ => ?_
  rw [hsh.ph]

lemma unmapFront_sane (hs : s.Sane) (hr : r ∈ (s.proc p).vmRegions) (hle : len ≤ (s.heap.region r).length)
    (hdvd : 4096 ∣ len.toNat) (h : unmapFront p r len s = .ok t) (hden : t.denied = s.denied) :
    t.Sane ∧ Returns s t := by
  have hheld : s.Held r := ⟨p, hr⟩
  have htidy := unmapFront_tidy hs.tidy hr hle hdvd h (.inl hden)
  cases unmapFront_gone hs.tidy hr hdvd h with
  | all hup hempty =>
    obtain ⟨hpaged, hacc, -⟩ := hup.pages (s := s.unlink p r) hheld hs.tidy.sound (hs.pure r hheld) hs.paged
    -- the region has left the list, and has no blocks
    have hheld₁ : ∀ q, t.Held q ↔ s.Held q ∧ q ≠ r := by
      intro q
      rw [hup.frame.held]
      exact hs.tidy.held_unlink hr q
    have huse := use_without hempty hheld₁
    refine ⟨⟨htidy, fun q hq => ?_, huse.paged hpaged⟩, fun f hf => ?_⟩
    · rw [VirRegion.Pure, hup.frame.region q]
      exact hs.pure q ((hheld₁ q).mp hq).1
    · exact huse.accounted rfl rfl (hacc (by simp) f (.inr (.inr hf)))
  | @front s₁ hup =>
    obtain ⟨hsane₁, -, hret⟩ := hs.updates hr hup
    have hr₁ : s₁.Held r := by
      rw [hup.frame.held]
      exact hheld
    have hsh := shrink_shrunk len (hsane₁.tidy.sound.tree r hr₁).nodup
    obtain ⟨hsane, hacc⟩ := hsane₁.use htidy (shrink_use s₁.Held hsh) rfl rfl fun q hq => ⟨q, hq, hsh.flags q⟩
    exact ⟨hsane, fun f hf => hacc f (hret f hf)⟩

lemma mapUnmapRegion_inv (h : mapUnmapRegion p r len s = .ok (0, t)) :
    r ∈ (s.proc p).vmRegions ∧ len ≤ (s.heap.region r).length ∧ 4096 ∣ len.toNat ∧
      (s.heap.region r).flags &&& (vrAnon ||| vrDirect) ≠ 0 ∧
      ∃ u, unmapFront p r len s = .ok u ∧
        Aside (u.setPtes p (s.heap.region r).vaddr (pagesIn len) fun _ => none) t := by
  unfold mapUnmapRegion at h
  split at h
  · nomatch h
  next hr =>
  rcases ite_eq_iff.mp h with ⟨_, h⟩ | ⟨hlen, h⟩
  · exact nomatch h
  split at h
  · nomatch h
  next hflags =>
  obtain ⟨u, hunmap, h⟩ := bind_eq_ok.mp h
  obtain ⟨hle, hmod⟩ := not_or.mp hlen
  refine ⟨not_not.mp hr, BitVec.not_lt.mp hle, ?_, hflags, u, hunmap, ?_⟩
  · have hmod' := congrArg BitVec.toNat (not_not.mp hmod)
    rw [BitVec.toNat_umod, vmPageSize_toNat] at hmod'
    exact Nat.dvd_of_mod_eq_zero hmod'
  cases hpt : ptWritemap p (s.heap.region r).vaddr (pagesIn len) (fun _ => none) u with
  | mk got u' =>
    rw [hpt] at h
    rcases ptWritemap_aside hpt with ⟨rfl, ha⟩ | ⟨rfl, -, -⟩
    · cases h
      exact ha
    · exact nomatch (ok_pair_inj h).1

lemma unmapFront_denied (hs : s.Tidy) (hr : r ∈ (s.proc p).vmRegions) (hdvd : 4096 ∣ len.toNat)
    (h : unmapFront p r len s = .ok t) : s.denied ≤ t.denied := by
  cases unmapFront_gone hs hr hdvd h with
  | all hup | front hup => exact hup.denied

lemma mapUnmapRegion_sane (hs : s.Sane) (h : mapUnmapRegion p r len s = .ok (0, t))
    (hden : t.denied = s.denied) : t.Sane ∧ Returns s t := by
  obtain ⟨hr, hle, hdvd, -, u, hunmap, ha⟩ := mapUnmapRegion_inv h
  have hden₁ : u.denied ≤ t.denied := ha.denied
  have hden₂ := unmapFront_denied hs.tidy hr hdvd hunmap
  obtain ⟨hsane₁, hret⟩ := unmapFront_sane hs hr hle hdvd hunmap (by omega)
  obtain ⟨hsane₂, hacc₂⟩ := hsane₁.frame (setPtes_frame u p (s.heap.region r).vaddr (pagesIn len)
    fun _ => none) rfl rfl rfl
  obtain ⟨hsane₃, hacc₃⟩ := hsane₂.aside ha
  exact ⟨hsane₃, fun f hf => hacc₃ f (hacc₂ f (hret f hf))⟩

section Page
variable {minv maxv length what startv : BitVec 32} {flags : BitVec 16} {prealloc : Bool}

lemma newRegion_use (hs : s.Tidy) (x : VirRegion) :
    SameUse s.heap (s.heap.newRegion x) s.Held fun q => q = s.heap.nextRegion ∨ s.Held q :=
  ⟨backs_newRegion x fun _ hq => Nat.ne_of_lt (hs.sound.tree _ hq).lt, fun _ => ⟨rfl, rfl⟩⟩

lemma pageRegion_pages (p : ProcId) (startv : BitVec 32) (hs : s.Sane) (hpos : 0 < length.toNat)
    (hdvd : 4096 ∣ length.toNat)
    (hwhat : what ≠ mapNone → 4096 ∣ what.toNat ∧ (flags &&& vrAnon ≠ 0 → s.Given what length)) :
    (s.pageRegion p startv length what flags).heap.Paged s.Building
      (s.pageRegion p startv length what flags).free ∧
      ∀ f, s.Owned f → (s.pageRegion p startv length what flags).heap.Owned s.Building f := by
  have huse := newRegion_use hs.tidy ⟨startv, length, [], flags, vrtNone, p⟩
  have hnew := huse.paged hs.paged
  unfold State.pageRegion
  simp only
  split_ifs with hw
  · exact ⟨hnew, fun f hf => huse.owned.mpr hf⟩
  have hsite := hs.tidy.site_newRegion p startv flags hdvd
  have hgap := gap_newRegion s.heap p startv flags hpos hdvd
  have hflags : ((s.heap.newRegion ⟨startv, length, [], flags, vrtNone, p⟩).region
    s.heap.nextRegion).flags = flags := by
    rw [newRegion_new]
  obtain ⟨hwdvd, hgiven⟩ := hwhat hw
  have hgains := hsite.sound.gains_withBlock what hsite.mem hgap
  refine ⟨hgains.paged hnew (fun f hf => hf) fun hanon => ?_, fun f hf => hgains.owned (huse.owned.mpr hf)⟩
  simp only [State.modHeap, hflags] at hanon
  obtain ⟨hbound, hgiven⟩ := hgiven hanon
  rw [withBlock_block, if_pos rfl]
  refine ⟨⟨hwdvd, hdvd, hbound⟩, fun f hf => ?_⟩
  obtain ⟨hfree, howned⟩ := hgiven f hf.1 hf.2
  exact ⟨fun hf' => howned (huse.owned.mp hf'), hfree⟩

lemma mapPageRegion_sane {res : Option RegionId} (hs : s.Sane)
    (hassert : (Op.mapPageRegion p minv maxv length what flags prealloc).Asserted s)
    (h : mapPageRegion p minv maxv length what flags prealloc s = .ok (res, t)) : t.Sane ∧ Returns s t := by
  obtain ⟨hpos, hdvd, hpure, hwhat⟩ := hassert
  have hpre : what ≠ mapNone → prealloc = false := fun hw => (hwhat hw).1
  have htidy := mapPageRegion_tidy hs.tidy hpos hdvd hpre h
  rcases mapPageRegion_spec hs.tidy hpos hdvd hpre h
    with ⟨-, ha | ⟨x, ha⟩⟩ | ⟨startv, prev, u, hslot, -, hup, rfl⟩
  · obtain ⟨hsane, hacc⟩ := hs.aside ha
    exact ⟨hsane, hacc.returns⟩
  · have huse : SameUse s.heap (s.heap.newRegion x) s.Held s.Held := by
      obtain ⟨hbacks, hsame⟩ := newRegion_use hs.tidy x
      refine ⟨fun b => (backs_recount (fun q hq => ?_) b).trans (hbacks b), hsame⟩
      refine (or_iff_right ?_).symm
      rintro rfl
      rw [newRegion_new] at hq
      exact hq rfl
    obtain ⟨hsane₁, hacc₁⟩ := hs.use (hs.tidy.allocRegion x) huse rfl rfl fun q hq =>
      ⟨q, hq, congrArg VirRegion.flags (hs.tidy.newRegion_region x hq)⟩
    obtain ⟨hsane₂, hacc₂⟩ := hsane₁.aside ha
    exact ⟨hsane₂, (hacc₁.trans hacc₂).returns⟩
  · have hsite := hs.tidy.site_pageRegion p startv what flags hpos hdvd
    have hflags := congrArg VirRegion.flags (hs.tidy.new_pageRegion p startv what flags hpos hdvd)
    obtain ⟨hpaged, hown⟩ := pageRegion_pages p startv hs hpos hdvd fun hw => (hwhat hw).2
    have hpure' : ((s.pageRegion p startv length what flags).heap.region s.heap.nextRegion).Pure := by
      rw [VirRegion.Pure, hflags]
      exact hpure
    obtain ⟨hpaged', hacc', hown'⟩ := hup.pages hsite.mem hsite.sound hpure' hpaged
    have hheld := held_linked hup hslot
    refine ⟨⟨htidy, fun q hq => ?_, ?_⟩, fun f hf => ?_⟩
    · rw [hheld] at hq
      have hframe : (u.link p s.heap.nextRegion prev).heap.region q = _ := hup.frame.region q
      rw [VirRegion.Pure, hframe]
      rcases hq with rfl | hq
      · exact hpure'
      · rw [pageRegion_region s p startv length what flags (Nat.ne_of_lt (hs.tidy.sound.tree q hq).lt)]
        exact hs.pure q hq
    · rw [hheld]
      exact hpaged'
    · rw [hheld]
      by_cases hanon : flags &&& vrAnon = 0
      · exact .inr (.inr (hown' (by rw [hflags]; exact hanon) f (hown f hf)))
      · exact hacc' (fun _ => by rw [hflags]; exact hanon) f (.inr (.inr (hown f hf)))

end Page

/-! ## Runs -/

/-- A call that reports success, with its assertions met and no count run over. What an unmap has to
copy it can copy; `map_unmap_region` does not look whether it could. -/
structure Op.Succeeds (s : State) (op : Op) (t : State) : Prop where
  asserted : op.Asserted s
  exec : op.exec s = .ok (true, t)
  uncrowded : t.Uncrowded
  granted : ∀ p r len, op = .mapUnmapRegion p r len → t.denied = s.denied

lemma Op.Succeeds.sane {op : Op} (hs : s.Sane) (h : op.Succeeds s t) : t.Sane ∧ Returns s t := by
  obtain ⟨hassert, hexec, hcrowd, hgranted⟩ := h
  cases op with
  | mapPageRegion p minv maxv length what flags prealloc =>
    obtain ⟨⟨res, s₁⟩, hpage, h⟩ := bind_eq_ok.mp hexec
    obtain ⟨-, rfl⟩ := ok_pair_inj h
    exact mapPageRegion_sane hs hassert hpage
  | mapPf p r offset =>
    obtain ⟨hr, hanon, hf⟩ := hassert
    obtain ⟨hup, -⟩ := mapPf_updates (b := 0) (hs.tidy.site hr) hf hexec
    obtain ⟨hsane, -, hret⟩ := hs.updates hr hup
    exact ⟨hsane, hret⟩
  | mapHandleMemory p r offset length write =>
    obtain ⟨hr, hanon, hoff, hlen, hin, hwr⟩ := hassert
    obtain ⟨hup, -⟩ := mapHandleMemory_updates (b := 0) (hs.tidy.site hr) hin hoff hlen hwr hexec
    obtain ⟨hsane, -, hret⟩ := hs.updates hr hup
    exact ⟨hsane, hret⟩
  | mapProcCopy dst src =>
    obtain ⟨hsane, hacc⟩ := mapProcCopy_sane hs hassert hexec hcrowd
    exact ⟨hsane, hacc.returns⟩
  | mapUnmapRegion p r len =>
    obtain ⟨⟨res, s₁⟩, hunmap, h⟩ := bind_eq_ok.mp hexec
    obtain ⟨hres, rfl⟩ := ok_pair_inj h
    obtain rfl : res = 0 := eq_of_beq hres
    exact mapUnmapRegion_sane hs hunmap (hgranted p r len rfl)
  | mapFreeProc p =>
    obtain ⟨s₁, hfree, h⟩ := bind_eq_ok.mp hexec
    cases h
    obtain ⟨hsane, hacc⟩ := mapFreeProc_sane hs hfree
    exact ⟨hsane, hacc.returns⟩

structure State.Boot (s : State) : Prop where
  regions : ∀ p, (s.proc p).vmRegions = []
  count : ∀ b, (s.heap.block b).refcount = 0 ∧ (s.heap.block b).firstregion = none

lemma State.Boot.sane (hb : s.Boot) : s.Sane := by
  have hheld : ∀ r, ¬ s.Held r := by
    rintro r ⟨p, hr⟩
    rw [hb.regions p] at hr
    nomatch hr
  refine ⟨⟨⟨fun i => ⟨[], ?_, fun x => ?_, ?_⟩, fun r hr => absurd hr (hheld r), fun r _ hr =>
    absurd hr (hheld r)⟩,
    fun p r hr => absurd ⟨p, hr⟩ (hheld r), fun p => by rw [hb.regions p]; exact List.nodup_nil⟩,
    fun r hr => absurd hr (hheld r), ⟨?_, ?_, ?_⟩⟩
  · have hhead : s.heap.store.lists.head i = none := (hb.count i).2
    rw [hhead]
    exact .nil
  · refine ⟨nofun, ?_⟩
    rintro ⟨⟨r, hr, -⟩, -⟩
    exact absurd hr (hheld r)
  · exact congrArg BitVec.toNat (hb.count i).1
  · rintro b ⟨r, hr, -⟩
    exact absurd hr (hheld r)
  · rintro b ⟨r, hr, -⟩
    exact absurd hr (hheld r)
  · rintro b b' ⟨r, hr, -⟩
    exact absurd hr (hheld r)

inductive Reached : State → Prop where
  | boot {s : State} (h : s.Boot) : Reached s
  | call {s t : State} {op : Op} (hs : Reached s) (h : op.Succeeds s t) : Reached t

lemma Reached.sane (hs : Reached s) : s.Sane := by
  induction hs with
  | boot h => exact h.sane
  | call _ h ih => exact (h.sane ih).1

def State.Sharer (s : State) (b : BlockId) (x : PhysId) : Prop :=
  ∃ p, ∃ r ∈ (s.proc p).vmRegions, x ∈ (s.heap.region r).phys ∧ (s.heap.physr x).ph = b

lemma sharer_iff {b : BlockId} {x : PhysId} :
    s.Sharer b x ↔ s.heap.Refs s.Held x ∧ (s.heap.physr x).ph = b := by
  constructor
  · rintro ⟨p, r, hr, hx, hph⟩
    exact ⟨⟨r, ⟨p, hr⟩, hx⟩, hph⟩
  · rintro ⟨⟨r, ⟨p, hr⟩, hx⟩, hph⟩
    exact ⟨p, r, hr, hx, hph⟩

lemma Reached.list_exact (hs : Reached s) (b : BlockId) :
    ∃ k : List PhysId, Links (fun x => (s.heap.physr x).nextPhList) (s.heap.block b).firstregion k ∧ k.Nodup ∧
      (∀ x, x ∈ k ↔ s.Sharer b x) ∧ (s.heap.block b).refcount.toNat = k.length := by
  obtain ⟨k, hlinks, hmem, hcount⟩ := hs.sane.tidy.sound.exact b
  exact ⟨k, hlinks, hlinks.nodup, fun x => (hmem x).trans sharer_iff.symm, hcount⟩

/-- In every state that successful calls lead to, the list of each block holds exactly the physical
regions of processes that point to it, each once, and its count is their number. The pages of
blocks that back anonymous memory are not free, and a page that a successful call takes from the
last of them, or cuts off, is free afterwards unless VM has taken it for itself. -/
theorem counts_and_pages_exact (hs : Reached s) :
    (∀ b, ∃ k : List PhysId, Links (fun x => (s.heap.physr x).nextPhList)
      (s.heap.block b).firstregion k ∧ k.Nodup ∧
      (∀ x, x ∈ k ↔ s.Sharer b x) ∧ (s.heap.block b).refcount.toNat = k.length) ∧
        (∀ f, s.Owned f → s.free f = false) ∧
    (∀ op t, Op.Succeeds s op t → ∀ f, s.Owned f → ¬ t.Owned f → t.free f = true ∨ t.own f = true) := by
  have hsane := hs.sane
  refine ⟨hs.list_exact, fun f hf => ?_, fun op t hop f hf hnot => ?_⟩
  · obtain ⟨b, hb, hhas⟩ := hf
    exact hsane.paged.taken b hb f hhas
  rcases (hop.sane hsane).2 f hf with hf | hf | hf
  · exact .inl hf
  · exact .inr hf
  · exact absurd hf hnot

def Op.after (s : State) (op : Op) : State :=
  match op.exec s with
  | .ok (_, t) => t
  | .error _ => s

def Op.reports (s : State) (op : Op) : Bool :=
  match op.exec s with
  | .ok (res, _) => res
  | .error _ => false

lemma Op.exec_after {op : Op} (h : op.reports s = true) : op.exec s = .ok (true, op.after s) := by
  unfold Op.reports at h
  unfold Op.after
  cases hexec : op.exec s with
  | error e => simp [hexec] at h
  | ok res =>
    rw [hexec] at h
    obtain ⟨ok, t⟩ := res
    obtain rfl : ok = true := h
    rfl

lemma Op.Succeeds.of_page {p : ProcId} {minv maxv length what : BitVec 32} {flags : BitVec 16}
    {prealloc : Bool} (hs : s.Sane)
    (hassert : (Op.mapPageRegion p minv maxv length what flags prealloc).Asserted s)
    (h : (Op.mapPageRegion p minv maxv length what flags prealloc).reports s = true)
    (hfew : ((Op.mapPageRegion p minv maxv length what flags prealloc).after s).heap.nextPhys ≤ 255) :
    (Op.mapPageRegion p minv maxv length what flags prealloc).Succeeds s
      ((Op.mapPageRegion p minv maxv length what flags prealloc).after s) := by
  have hexec := Op.exec_after h
  refine ⟨hassert, hexec, ?_, nofun⟩
  obtain ⟨⟨res, s₁⟩, hpage, heq⟩ := bind_eq_ok.mp hexec
  obtain ⟨-, rfl⟩ := ok_pair_inj heq
  exact (mapPageRegion_sane hs hassert hpage).1.tidy.bounded.uncrowded hfew

/-- A machine with 48 free pages that is lucky with its own allocations. -/
def bootVm : State where
  heap := ⟨fun _ => ⟨0, 0, 0, none⟩, fun _ => ⟨0, 0, 0, none⟩, fun _ => ⟨0, 0, [], 0, 0, 0⟩, 0, 0, 0⟩
  proc _ := ⟨true, true, false, [], PageTable.empty, true, ⟨0, 0, 0⟩, ⟨0, 0, 0⟩, ⟨0, 0, 0⟩, 0, none⟩
  free f := 16 ≤ f && f < 64
  own _ := false
  luck := [some 0, some 0, some 0, some 0, some 16, some 0, some 0, some 0, some 0, some 0]
  denied := 0

lemma boot_bootVm : bootVm.Boot := ⟨fun _ => rfl, fun _ => ⟨rfl, rfl⟩⟩

def mapOne : Op := .mapPageRegion 0 0x1000 0 0x1000 mapNone (vrAnon ||| vrWritable) true

lemma reached_mapOne : mapOne.Succeeds bootVm (mapOne.after bootVm) :=
  .of_page boot_bootVm.sane ⟨by decide, by decide, by decide,
    fun hw => absurd rfl hw⟩ (by decide +kernel) (by decide +kernel)

lemma reached_fork :
    (Op.mapProcCopy 1 0).Succeeds (mapOne.after bootVm)
      ((Op.mapProcCopy 1 0).after (mapOne.after bootVm)) := by
  have hreports : (Op.mapProcCopy 1 0).reports (mapOne.after bootVm) = true := by decide +kernel
  have hexec := Op.exec_after hreports
  have hempty : ((mapOne.after bootVm).proc 1).vmRegions = [] := by decide +kernel
  have hsane := (Reached.call (.boot boot_bootVm) reached_mapOne).sane
  exact ⟨hempty, hexec, (mapProcCopy_bounded hsane.tidy.bounded hempty hexec).uncrowded
    (by decide +kernel), nofun⟩

/-- After a fork both processes are on the list of the one block there is. -/
theorem counts_and_pages_exact_fork :
    ∃ s, Reached s ∧ (s.heap.block 0).refcount = 2 ∧ ∃ k : List PhysId,
      (∀ x, x ∈ k ↔ s.Sharer 0 x) ∧ k.length = 2 := by
  refine ⟨_, .call (.call (.boot boot_bootVm) reached_mapOne) reached_fork, by decide +kernel, ?_⟩
  obtain ⟨hlists, -, -⟩ := counts_and_pages_exact (.call (.call (.boot boot_bootVm) reached_mapOne)
    reached_fork)
  obtain ⟨k, -, -, hmem, hlen⟩ := hlists 0
  refine ⟨k, hmem, hlen.symm.trans ?_⟩
  decide +kernel

def mapDevice : Op := .mapPageRegion 0 0x1000 0 0x1000 0x5000 (vrDirect ||| vrWritable) false

lemma reached_mapDevice : mapDevice.Succeeds bootVm (mapDevice.after bootVm) :=
  .of_page boot_bootVm.sane ⟨by decide, by decide, by decide,
    fun _ => ⟨rfl, by decide, fun hanon => absurd (by decide) hanon⟩⟩
    (by decide +kernel) (by decide +kernel)

/-- The last reference to a block can go without its pages coming back: they are a device's. -/
theorem direct_pages_not_returned :
    ∃ s op t b f, Reached s ∧ Op.Succeeds s op t ∧ (∃ x, s.Sharer b x) ∧ (∀ x, ¬ t.Sharer b x) ∧
      (s.heap.block b).Has f ∧
      t.free f = false ∧ t.own f = false := by
  have hs : Reached (mapDevice.after bootVm) := .call (.boot boot_bootVm) reached_mapDevice
  have hreports : (Op.mapUnmapRegion 0 0 0x1000).reports (mapDevice.after bootVm) = true := by decide +kernel
  have hexec := Op.exec_after hreports
  have hgranted : ((Op.mapUnmapRegion 0 0 0x1000).after (mapDevice.after bootVm)).denied =
    (mapDevice.after bootVm).denied := by
    decide +kernel
  have hcall : Op.Succeeds (mapDevice.after bootVm) (.mapUnmapRegion 0 0 0x1000)
      ((Op.mapUnmapRegion 0 0 0x1000).after (mapDevice.after bootVm)) := by
    refine ⟨trivial, hexec, ?_, fun _ _ _ _ => hgranted⟩
    obtain ⟨⟨res, s₁⟩, hunmap, heq⟩ := bind_eq_ok.mp hexec
    obtain ⟨hres, rfl⟩ := ok_pair_inj heq
    obtain rfl : res = 0 := eq_of_beq hres
    exact (mapUnmapRegion_sane hs.sane hunmap hgranted).1.tidy.bounded.uncrowded (by decide +kernel)
  refine ⟨_, _, _, 0, 5, hs, hcall, ⟨0, 0, 0, by decide +kernel, by decide +kernel,
    by decide +kernel⟩, fun x hx => ?_,
    by decide +kernel, by decide +kernel, by decide +kernel⟩
  obtain ⟨k, -, -, hmem, hlen⟩ := (Reached.call hs hcall).list_exact 0
  have hzero : (((Op.mapUnmapRegion 0 0 0x1000).after (mapDevice.after bootVm)).heap.block
    0).refcount.toNat = 0 := by
    decide +kernel
  have hin := (hmem x).mpr hx
  rw [List.eq_nil_of_length_eq_zero (hlen.symm.trans hzero)] at hin
  nomatch hin

end Nucleos.Vm
