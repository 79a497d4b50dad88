import Nucleos.Vm.Copy

/-!
# The pages of blocks

Anonymous memory is made of pages that VM has taken from the page allocator or was given at the
start. As long as a block backs such memory its pages are not free and belong to no other block;
when it goes, or is cut, its pages are free again.
-/

namespace Nucleos.Vm

open IntrusiveList Sharing Run Relation

variable {s t u : State} {h h' : Heap} {K K' : RegionId → Prop} {p : ProcId} {r : RegionId}
    {pr : PhysId} {x y : PhysBlock}
  {f : BitVec 32} {free free' : BitVec 32 → Bool}

variable {base : BitVec 32} {n : Nat}

def PhysBlock.Has (x : PhysBlock) (f : BitVec 32) : Prop :=
  x.phys.toNat ≤ 4096 * f.toNat ∧ 4096 * f.toNat < x.phys.toNat + x.length.toNat

instance (x : PhysBlock) (f : BitVec 32) : Decidable (x.Has f) := inferInstanceAs (Decidable (_ ∧ _))

structure PhysBlock.Whole (x : PhysBlock) : Prop where
  phys_dvd : 4096 ∣ x.phys.toNat
  length_dvd : 4096 ∣ x.length.toNat
  bound : x.phys.toNat + x.length.toNat ≤ 2 ^ 32

lemma mem_pageRange (hn : base.toNat + n ≤ 2 ^ 32) :
    f ∈ pageRange base n ↔ base.toNat ≤ f.toNat ∧ f.toNat < base.toNat + n := by
  have hadd : ∀ i < n, (base + BitVec.ofNat 32 i).toNat = base.toNat + i := by
    intro i hi
    rw [BitVec.toNat_add, BitVec.toNat_ofNat, Nat.mod_eq_of_lt (a := i) (by omega),
      Nat.mod_eq_of_lt (by omega)]
  constructor
  · intro hf
    obtain ⟨i, hi, rfl⟩ := List.mem_map.mp hf
    have hi := List.mem_range.mp hi
    rw [hadd i hi]
    omega
  · rintro ⟨hle, hlt⟩
    refine List.mem_map.mpr ⟨f.toNat - base.toNat, List.mem_range.mpr (by omega), BitVec.eq_of_toNat_eq ?_⟩
    rw [hadd _ (by omega)]
    omega

lemma pageOf_toNat (a : BitVec 32) : (pageOf a).toNat = a.toNat / 4096 := by
  rw [pageOf, BitVec.toNat_ushiftRight, Nat.shiftRight_eq_div_pow]

lemma PhysBlock.Whole.mem_pageRange (hx : x.Whole) :
    f ∈ pageRange (pageOf x.phys) (pagesIn x.length) ↔ x.Has f := by
  obtain ⟨⟨a, ha⟩, ⟨n, hn⟩, hbound⟩ := hx
  have hpage : (pageOf x.phys).toNat = a := by
    rw [pageOf_toNat]
    omega
  have hcount : pagesIn x.length = n := by
    rw [pagesIn]
    omega
  rw [Vm.mem_pageRange (by omega), hpage, hcount, PhysBlock.Has, ha, hn]
  omega

def Heap.Backs (h : Heap) (K : RegionId → Prop) (b : BlockId) : Prop :=
  ∃ r, K r ∧ (h.region r).flags &&& vrAnon ≠ 0 ∧ ∃ x ∈ (h.region r).phys, (h.physr x).ph = b

def Heap.Owned (h : Heap) (K : RegionId → Prop) (f : BitVec 32) : Prop := ∃ b, h.Backs K b ∧ (h.block b).Has f

structure Heap.Paged (h : Heap) (K : RegionId → Prop) (free : BitVec 32 → Bool) : Prop where
  whole : ∀ b, h.Backs K b → (h.block b).Whole
  taken : ∀ b, h.Backs K b → ∀ f, (h.block b).Has f → free f = false
  apart : ∀ b b', h.Backs K b → h.Backs K b' → ∀ f, (h.block b).Has f → (h.block b').Has f → b = b'

def State.Accounted (s : State) (K : RegionId → Prop) (f : BitVec 32) : Prop :=
  s.free f = true ∨ s.own f = true ∨ s.heap.Owned K f

def PhysBlock.Same (x y : PhysBlock) : Prop := y.phys = x.phys ∧ y.length = x.length

lemma PhysBlock.Same.has (hxy : x.Same y) : y.Has f ↔ x.Has f := by
  rw [PhysBlock.Has, PhysBlock.Has, hxy.1, hxy.2]

lemma PhysBlock.Same.whole (hxy : x.Same y) (hx : x.Whole) : y.Whole := by
  obtain ⟨h₁, h₂, h₃⟩ := hx
  exact ⟨by rwa [hxy.1], by rwa [hxy.2], by rwa [hxy.1, hxy.2]⟩

lemma Heap.Paged.not_owned (hp : h.Paged K free) (hf : free f = true) : ¬ h.Owned K f := by
  rintro ⟨b, hb, hhas⟩
  rw [hp.taken b hb f hhas] at hf
  nomatch hf

lemma Heap.Paged.shrink (hp : h.Paged K free)
    (hfree : ∀ f, free' f = true → free f = true ∨
      ∃ b, h.Backs K b ∧ (h.block b).Has f ∧ ¬ (h'.Backs K' b ∧ (h'.block b).Has f))
    (hb : ∀ b, h'.Backs K' b → h.Backs K b ∧ (h'.block b).Whole ∧ ∀ f, (h'.block b).Has f →
      (h.block b).Has f) :
    h'.Paged K' free' where
  whole b hbacks := (hb b hbacks).2.1
  taken b hbacks f hf := by
    obtain ⟨hold, -, hless⟩ := hb b hbacks
    rw [Bool.eq_false_iff]
    intro hfree'
    rcases hfree f hfree' with hfree' | ⟨b₀, hb₀, hhas, hlost⟩
    · exact hp.not_owned hfree' ⟨b, hold, hless f hf⟩
    · obtain rfl := hp.apart b b₀ hold hb₀ f (hless f hf) hhas
      exact hlost ⟨hbacks, hf⟩
  apart b b' hbacks hbacks' f hf hf' :=
    hp.apart b b' (hb b hbacks).1 (hb b' hbacks').1 f ((hb b hbacks).2.2 f hf) ((hb b' hbacks').2.2 f hf')

lemma Heap.Paged.kept (hp : h.Paged K free) {b : BlockId} (hb : h.Backs K b) (hx : (h.block b).Same x) :
    h.Backs K b ∧ x.Whole ∧ ∀ f, x.Has f → (h.block b).Has f :=
  ⟨hb, hx.whole (hp.whole b hb), fun _ => hx.has.mp⟩

lemma Heap.Paged.keep (hp : h.Paged K free) (hfree : ∀ f, free' f = true → free f = true)
    (hb : ∀ b, h'.Backs K' b → h.Backs K b ∧ (h.block b).Same (h'.block b)) : h'.Paged K' free' := by
  refine hp.shrink (fun f hf => .inl (hfree f hf)) fun b hbacks => ?_
  exact hp.kept (hb b hbacks).1 (hb b hbacks).2

structure Heap.Gains (h h' : Heap) (K : RegionId → Prop) (A : Prop) : Prop where
  backs : ∀ b, h'.Backs K b ↔ (b = h.nextBlock ∧ A) ∨ h.Backs K b
  same : ∀ b, h.Backs K b → (h.block b).Same (h'.block b)

section Gains
variable {A : Prop}

lemma Heap.Gains.owned (hg : h.Gains h' K A) (hf : h.Owned K f) : h'.Owned K f := by
  obtain ⟨b, hb, hhas⟩ := hf
  exact ⟨b, (hg.backs b).mpr (.inr hb), (hg.same b hb).has.mpr hhas⟩

lemma Heap.Gains.paged (hg : h.Gains h' K A) (hp : h.Paged K free)
    (hfree : ∀ f, free' f = true → free f = true)
    (hnew : A → (h'.block h.nextBlock).Whole ∧ ∀ f, (h'.block h.nextBlock).Has f → ¬ h.Owned K f ∧
      free' f = false) :
    h'.Paged K free' where
  whole b hbacks := by
    rcases (hg.backs b).mp hbacks with ⟨rfl, hA⟩ | hold
    · exact (hnew hA).1
    · exact (hg.same b hold).whole (hp.whole b hold)
  taken b hbacks f hf := by
    rcases (hg.backs b).mp hbacks with ⟨rfl, hA⟩ | hold
    · exact ((hnew hA).2 f hf).2
    · rw [Bool.eq_false_iff]
      exact fun hfree' => hp.not_owned (hfree f hfree') ⟨b, hold, (hg.same b hold).has.mp hf⟩
  apart b b' hbacks hbacks' f hf hf' := by
    rcases (hg.backs b).mp hbacks with ⟨rfl, hA⟩ | hold <;> rcases (hg.backs b').mp hbacks'
      with ⟨rfl, hA'⟩ | hold'
    · rfl
    · exact absurd ⟨b', hold', (hg.same b' hold').has.mp hf'⟩ ((hnew hA).2 f hf).1
    · exact absurd ⟨b, hold, (hg.same b hold).has.mp hf⟩ ((hnew hA').2 f hf').1
    · exact hp.apart b b' hold hold' f ((hg.same b hold).has.mp hf) ((hg.same b' hold').has.mp hf')

structure State.Takes (s t : State) (K : RegionId → Prop) (A : Prop) (base : BitVec 32) (n : Nat) : Prop where
  gains : s.heap.Gains t.heap K A
  avail : s.Avail base n
  whole : (t.heap.block s.heap.nextBlock).Whole
  has : ∀ f, (t.heap.block s.heap.nextBlock).Has f ↔ f ∈ pageRange base n
  free : ∀ f, t.free f = true ↔ s.free f = true ∧ f ∉ pageRange base n
  own : t.own = s.own

lemma State.Takes.paged (ht : s.Takes t K A base n) (hp : s.heap.Paged K s.free) : t.heap.Paged K t.free := by
  refine ht.gains.paged hp (fun f hf => ((ht.free f).mp hf).1) fun _ => ⟨ht.whole, fun f hf => ?_⟩
  have hin := (ht.has f).mp hf
  refine ⟨hp.not_owned (ht.avail.free f hin), ?_⟩
  rw [Bool.eq_false_iff]
  exact fun hfree => ((ht.free f).mp hfree).2 hin

lemma State.Takes.accounted (ht : s.Takes t K A base n) (hA : A) (hf : s.Accounted K f) :
    t.Accounted K f := by
  rcases hf with hf | hf | hf
  · by_cases hin : f ∈ pageRange base n
    · exact .inr (.inr ⟨_, (ht.gains.backs _).mpr (.inl ⟨rfl, hA⟩), (ht.has f).mpr hin⟩)
    · exact .inl ((ht.free f).mpr ⟨hf, hin⟩)
  · exact .inr (.inl (by rw [ht.own]; exact hf))
  · exact .inr (.inr (ht.gains.owned hf))

end Gains

/-! ## One update -/

def VirRegion.Pure (x : VirRegion) : Prop := x.flags &&& vrAnon ≠ 0 ↔ x.flags &&& vrDirect = 0

lemma freeMem_free : (freeMem base n s).free f = true ↔ s.free f = true ∨ f ∈ pageRange base n := by
  simp [freeMem]

lemma takeMem_free : (s.takeMem base n).free f = true ↔ s.free f = true ∧ f ∉ pageRange base n := by
  simp [State.takeMem]

lemma State.Avail.whole {length : BitVec 32} (hav : s.Avail base (pagesIn length)) (hpos : 0 < length.toNat)
    (hdvd : 4096 ∣ length.toNat) (hx : x.phys = base <<< 12 ∧ x.length = length) :
    x.Whole ∧ ∀ f, x.Has f ↔ f ∈ pageRange base (pagesIn length) := by
  have hbound := hav.bound
  rw [numberPhysicalPages, pagesIn] at hbound
  have hphys : x.phys.toNat = 4096 * base.toNat := by
    rw [hx.1, BitVec.toNat_shiftLeft, Nat.shiftLeft_eq]
    omega
  have hwhole : x.Whole := ⟨by rw [hphys]; exact Nat.dvd_mul_right _ _, by rw [hx.2]; exact hdvd,
    by rw [hphys, hx.2]; omega⟩
  refine ⟨hwhole, fun f => ?_⟩
  rw [← hwhole.mem_pageRange, hx.1, hx.2, hav.pageRange_shiftLeft]

lemma Heap.Fits.length_dvd (hf : h.Fits r pr) :
    0 < (h.blockOf pr).length.toNat ∧ 4096 ∣ (h.blockOf pr).length.toNat := by
  have hpos := hf.pos
  have h₁ := hf.start_dvd
  have h₂ := hf.stop_dvd
  rw [Heap.stop] at hpos h₂
  exact ⟨by omega, (Nat.dvd_add_right h₁).mp h₂⟩

section Add
variable {offset length phys : BitVec 32} {l₁ l₂ : List PhysId}

lemma withBlock_block (h : Heap) (r : RegionId) (offset length phys : BitVec 32) (b : BlockId) :
    (h.withBlock r offset length phys).block b = if b = h.nextBlock
      then ⟨length, phys, 1, some h.nextPhys⟩ else h.block b := by
  by_cases hb : b = h.nextBlock <;> simp [Heap.withBlock, Heap.insertPhys, Heap.modRegion, Heap.newBlock, hb]

lemma Heap.Sound.backs_lt (hs : h.Sound K) {b : BlockId} (hb : h.Backs K b) : b < h.nextBlock := by
  obtain ⟨q, hq, -, x, hx, rfl⟩ := hb
  exact (hs.fits hq hx).block_lt

lemma Heap.Sound.gains_withBlock (phys : BitVec 32) (hs : h.Sound K) (hr : K r)
    (hg : h.Gap r offset length l₁ l₂) :
    h.Gains (h.withBlock r offset length phys) K ((h.region r).flags &&& vrAnon ≠ 0) := by
  have hgrown := hs.grown phys hr hg
  refine ⟨fun b => ⟨?_, ?_⟩, fun b hb => ?_⟩
  · rintro ⟨q, hq, hanon, x, hx, hph⟩
    rw [hgrown.flags] at hanon
    rcases (hgrown.mem q x).mp hx with ⟨rfl, rfl⟩ | hx
    · exact .inl ⟨hph.symm.trans hgrown.new, hanon⟩
    · exact .inr ⟨q, hq, hanon, x, hx, (hgrown.old hq hx).symm.trans hph⟩
  · rintro (⟨rfl, hanon⟩ | ⟨q, hq, hanon, x, hx, hph⟩)
    · exact ⟨r, hr, by rwa [hgrown.flags], h.nextPhys, (hgrown.mem r _).mpr (.inl ⟨rfl, rfl⟩), hgrown.new⟩
    · exact ⟨q, hq, by rwa [hgrown.flags], x, (hgrown.mem q x).mpr (.inr hx), (hgrown.old hq hx).trans hph⟩
  · rw [withBlock_block, if_neg (Nat.ne_of_lt (hs.backs_lt hb))]
    exact ⟨rfl, rfl⟩

lemma State.Avail.takes_add (hav : s.Avail base (pagesIn length)) (hs : s.heap.Sound K) (hr : K r)
    (hg : s.heap.Gap r offset length l₁ l₂) :
    s.Takes ((s.takeMem base (pagesIn length)).addBlock p r offset length (base <<< 12)) K
      ((s.heap.region r).flags &&& vrAnon ≠ 0) base (pagesIn length) := by
  have hnew := withBlock_block s.heap r offset length (base <<< 12) s.heap.nextBlock
  rw [if_pos rfl] at hnew
  obtain ⟨hwhole, hhas⟩ := hav.whole hg.pos hg.length_dvd
    (x := (s.heap.withBlock r offset length (base <<< 12)).block s.heap.nextBlock)
    (by rw [hnew]; exact ⟨rfl, rfl⟩)
  exact ⟨hs.gains_withBlock _ hr hg, hav, hwhole, hhas, fun _ => takeMem_free, rfl⟩

end Add

section Drop
variable {c : Cell BlockId PhysId} {base : BitVec 32}

lemma settle_free (s : State) (r : RegionId) (b : BlockId) :
    (s.settle r b).free f = true ↔ s.free f = true ∨ ((s.heap.block b).refcount = 0 ∧
      (s.heap.region r).flags &&& vrAnon ≠ 0 ∧
      f ∈ pageRange (pageOf (s.heap.block b).phys) (pagesIn (s.heap.block b).length)) := by
  unfold State.settle
  split_ifs with hz hanon
  · rw [freeMem_free]
    exact or_congr Iff.rfl ⟨fun hf => ⟨hz, hanon, hf⟩, fun hf => hf.2.2⟩
  · exact (or_iff_left fun hf => hanon hf.2.1).symm
  · split <;> exact (or_iff_left fun hf => hz hf.1).symm
  · exact (or_iff_left fun hf => hz hf.1).symm

lemma settle_own (s : State) (r : RegionId) (b : BlockId) : (s.settle r b).own = s.own := by
  unfold State.settle
  split_ifs
  · rfl
  · rfl
  · split <;> rfl
  · rfl

lemma unref_same (h : Heap) (c : Cell BlockId PhysId) (pr : PhysId) (b : BlockId) :
    (h.block b).Same ((h.unref c pr).block b) :=
  ⟨(unref_block h c pr b).2.1, (unref_block h c pr b).1⟩

section
variable (hs : h.Sound K) (hr : K r) (hpr : pr ∈ (h.region r).phys)
include hs hr hpr

/-- A block that is still counted after a reference has gone has another one, in a region of the
same kind. -/
theorem Heap.Sound.another (hc : h.Finds pr c)
    (hcount : ((h.unref c pr).block (h.physr pr).ph).refcount ≠ 0) :
    ∃ q y, K q ∧ y ∈ (h.region q).phys ∧ y ≠ pr ∧ (h.physr y).ph = (h.physr pr).ph ∧
      (h.region q).flags = (h.region r).flags := by
  obtain ⟨y, ⟨hne, q, hq, hy⟩, hph⟩ := (hs.exact_unref hr hpr hc).some_ref hcount
  have hph' : (h.physr y).ph = (h.physr pr).ph := (unref_physr h c pr y).1.symm.trans hph
  exact ⟨q, y, hq, hy, hne, hph', hs.kind q r hq hr y hy pr hpr hph'⟩

lemma Heap.Sound.last (hc : h.Finds pr c)
    (hcount : ((h.unref c pr).block (h.physr pr).ph).refcount = 0) {q : RegionId} {y : PhysId} (hq : K q)
    (hy : y ∈ (h.region q).phys) (hph : (h.physr y).ph = (h.physr pr).ph) : y = pr := by
  by_contra hne
  have hpos := (hs.exact_unref hr hpr hc).pos (a := y) ⟨hne, q, hq, hy⟩
  have htarget : (h.unref c pr).store.target y = (h.physr pr).ph := (unref_physr h c pr y).1.trans hph
  rw [htarget] at hpos
  have hzero : ((h.unref c pr).store.count (h.physr pr).ph).toNat = 0 := congrArg BitVec.toNat hcount
  omega

lemma backs_without (b : BlockId) :
    (h.without r c pr).Backs K b ↔
      ∃ q, K q ∧ (h.region q).flags &&& vrAnon ≠ 0 ∧ ∃ y ∈ (h.region q).phys, y ≠ pr ∧
        (h.physr y).ph = b := by
  have hflags : ∀ q, ((h.without r c pr).region q).flags = (h.region q).flags := by
    intro q
    rw [removePhys_same, unref_region]
  have hmem : ∀ {q x}, K q → (x ∈ ((h.without r c pr).region q).phys ↔ x ≠ pr ∧ x ∈ (h.region q).phys) := by
    intro q x hq
    rw [removePhys_phys, unref_region, ← removePhys_phys]
    exact hs.mem_removePhys hr hpr hq
  constructor
  · rintro ⟨q, hq, hanon, x, hx, hph⟩
    rw [hflags] at hanon
    obtain ⟨hne, hx⟩ := (hmem hq).mp hx
    exact ⟨q, hq, hanon, x, hx, hne, (unref_physr h c pr x).1.symm.trans hph⟩
  · rintro ⟨q, hq, hanon, x, hx, hne, hph⟩
    exact ⟨q, hq, by rw [hflags]; exact hanon, x, (hmem hq).mpr ⟨hne, hx⟩, (unref_physr h c pr x).1.trans hph⟩

lemma Heap.Sound.backs_drop (hc : h.Finds pr c) {b : BlockId}
    (hb : h.Backs K b) : (h.without r c pr).Backs K b ∨
      (b = (h.physr pr).ph ∧ ((h.unref c pr).block b).refcount = 0 ∧ (h.region r).flags &&& vrAnon ≠ 0) := by
  obtain ⟨q, hq, hanon, x, hx, rfl⟩ := hb
  by_cases hne : x = pr
  · subst hne
    obtain rfl := hs.parent_eq hq hr hx hpr
    by_cases hcount : ((h.unref c x).block (h.physr x).ph).refcount = 0
    · exact .inr ⟨rfl, hcount, hanon⟩
    · obtain ⟨q', y, hq', hy, hne, hph, hflags⟩ := hs.another hr hx hc hcount
      exact .inl ((backs_without hs hr hx _).mpr ⟨q', hq', by rw [hflags]; exact hanon, y, hy, hne, hph⟩)
  · exact .inl ((backs_without hs hr hpr _).mpr ⟨q, hq, hanon, x, hx, hne, rfl⟩)

end

section
variable (hs : s.heap.Sound K) (hr : K r) (hpr : pr ∈ (s.heap.region r).phys) (hc : s.heap.Finds pr c)
include hs hr hpr hc

lemma Heap.Sound.paged_drop (hp : s.heap.Paged K s.free) :
    (s.heap.without r c pr).Paged K (s.dropRef r c pr).free := by
  refine hp.shrink (fun f hf => ?_) fun b hb => ?_
  · refine ((settle_free (s.modHeap fun h => h.unref c pr) r (s.heap.physr pr).ph).mp hf).imp_right ?_
    rintro ⟨hcount, hanon, hin⟩
    simp only [State.modHeap, unref_region] at hanon
    have hbacks : s.heap.Backs K (s.heap.physr pr).ph := ⟨r, hr, hanon, pr, hpr, rfl⟩
    have hsame := unref_same s.heap c pr (s.heap.physr pr).ph
    refine ⟨_, hbacks, hsame.has.mp ((hsame.whole (hp.whole _ hbacks)).mem_pageRange.mp hin), fun hb => ?_⟩
    obtain ⟨q, hq, -, y, hy, hne, hph⟩ := (backs_without hs hr hpr _).mp hb.1
    exact hne (hs.last hr hpr hc hcount hq hy hph)
  · obtain ⟨q, hq, hanon, y, hy, -, hph⟩ := (backs_without hs hr hpr b).mp hb
    exact hp.kept ⟨q, hq, hanon, y, hy, hph⟩ (unref_same s.heap c pr b)

lemma Heap.Sound.accounted_drop (hp : s.heap.Paged K s.free) (hf : s.Accounted K f) :
    ((s.dropRef r c pr).modHeap fun h => h.removePhys r pr).Accounted K f := by
  have hfree := settle_free (f := f) (s.modHeap fun h => h.unref c pr) r (s.heap.physr pr).ph
  rcases hf with hf | hf | ⟨b, hb, hhas⟩
  · exact .inl (hfree.mpr (.inl hf))
  · refine .inr (.inl ?_)
    have hown := settle_own (s.modHeap fun h => h.unref c pr) r (s.heap.physr pr).ph
    exact (congrFun hown f).trans hf
  have hsame := unref_same s.heap c pr b
  rcases hs.backs_drop hr hpr hc hb with hb' | ⟨rfl, hcount, hanon⟩
  · refine .inr (.inr ?_)
    rw [dropRef_removed]
    exact ⟨b, hb', hsame.has.mpr hhas⟩
  refine .inl (hfree.mpr (.inr ⟨hcount, ?_, ?_⟩))
  · simp only [State.modHeap, unref_region]
    exact hanon
  · exact (hsame.whole (hp.whole _ hb)).mem_pageRange.mpr (hsame.has.mpr hhas)

lemma Heap.Sound.owned_drop (hanon : (s.heap.region r).flags &&& vrAnon = 0) (hf : s.heap.Owned K f) :
    (s.heap.without r c pr).Owned K f := by
  obtain ⟨b, hb, hhas⟩ := hf
  rcases hs.backs_drop hr hpr hc hb with hb' | ⟨-, -, hanon'⟩
  · exact ⟨b, hb', (unref_same s.heap c pr b).has.mpr hhas⟩
  · exact absurd hanon hanon'

end

/-! A copy: one reference leaves the block, which has others, and gets a new one. -/

abbrev Heap.moved (h : Heap) (c : Cell BlockId PhysId) (pr : PhysId) (phys : BitVec 32) : Heap :=
  (h.unref c pr).rebase pr phys

section
variable (h : Heap) (c : Cell BlockId PhysId) (pr : PhysId) (phys : BitVec 32)

lemma moved_block (b : BlockId) :
    if b = h.nextBlock then
      ((h.moved c pr phys).block b).phys = phys ∧ ((h.moved c pr phys).block b).length = (h.blockOf pr).length
    else (h.block b).Same ((h.moved c pr phys).block b) := by
  have hnext : (h.unref c pr).nextBlock = h.nextBlock := (unref_next h c pr).1
  have hlength : ((h.unref c pr).blockOf pr).length = (h.blockOf pr).length := by
    rw [Heap.blockOf, (unref_physr h c pr pr).1, (unref_block h c pr _).1]
    rfl
  split_ifs with hb
  · subst hb
    simp [Heap.moved, Heap.rebase, hnext, hlength]
  have hsame : (h.moved c pr phys).block b = (h.unref c pr).block b := by
    simp [Heap.moved, Heap.rebase, hnext, hb]
  rw [hsame]
  exact unref_same h c pr b

lemma moved_ph (x : PhysId) :
    ((h.moved c pr phys).physr x).ph = if x = pr then h.nextBlock else (h.physr x).ph := by
  split_ifs with hx
  · subst hx
    rw [rebase_physr_self, (unref_next h c x).1]
  · rw [rebase_physr_of_ne _ phys hx, (unref_physr h c pr x).1]

lemma moved_region :
    (h.moved c pr phys).region = h.region := unref_region h c pr

end

lemma unref_shared (hshared : 1 < (h.blockOf pr).refcount.toNat) (c : Cell BlockId PhysId) :
    ((h.unref c pr).block (h.physr pr).ph).refcount ≠ 0 := by
  intro hzero
  rw [(unref_block h c pr _).2.2, if_pos rfl] at hzero
  have hblock : h.blockOf pr = h.block (h.physr pr).ph := rfl
  rw [hblock] at hshared
  have hle : (1 : BitVec 8) ≤ (h.block (h.physr pr).ph).refcount := BitVec.le_def.mpr (Nat.le_of_lt hshared)
  have hnat := congrArg BitVec.toNat hzero
  rw [BitVec.toNat_sub_of_le hle] at hnat
  have hone : (1 : BitVec 8).toNat = 1 := rfl
  have hz : (0 : BitVec 8).toNat = 0 := rfl
  omega

lemma Heap.Sound.gains_moved (hs : h.Sound K) (hr : K r) (hpr : pr ∈ (h.region r).phys) (hc : h.Finds pr c)
    (hshared : 1 < (h.blockOf pr).refcount.toNat) (phys : BitVec 32) :
    h.Gains (h.moved c pr phys) K ((h.region r).flags &&& vrAnon ≠ 0) := by
  refine ⟨fun b => ⟨?_, ?_⟩, fun b hb => ?_⟩
  · rintro ⟨q, hq, hanon, x, hx, hph⟩
    rw [moved_region] at hanon hx
    rw [moved_ph] at hph
    split_ifs at hph with hxp
    · subst hxp
      obtain rfl := hs.parent_eq hq hr hx hpr
      exact .inl ⟨hph.symm, hanon⟩
    · exact .inr ⟨q, hq, hanon, x, hx, hph⟩
  · rintro (⟨rfl, hanon⟩ | ⟨q, hq, hanon, x, hx, rfl⟩) <;> rw [Heap.Backs, moved_region]
    · refine ⟨r, hr, hanon, pr, hpr, ?_⟩
      rw [moved_ph, if_pos rfl]
    · by_cases hxp : x = pr
      · subst hxp
        obtain rfl := hs.parent_eq hq hr hx hpr
        obtain ⟨q', y, hq', hy, hne, hph, hflags⟩ := hs.another hr hx hc (unref_shared hshared c)
        refine ⟨q', hq', by rw [hflags]; exact hanon, y, hy, ?_⟩
        rw [moved_ph, if_neg hne]
        exact hph
      · refine ⟨q, hq, hanon, x, hx, ?_⟩
        rw [moved_ph, if_neg hxp]
  · have hsame := moved_block h c pr phys b
    rw [if_neg (Nat.ne_of_lt (hs.backs_lt hb))] at hsame
    exact hsame

lemma State.Avail.takes_copy (hav : s.Avail base (pagesIn (s.heap.blockOf pr).length))
    (hs : s.heap.Sound K) (hr : K r)
    (hpr : pr ∈ (s.heap.region r).phys) (hc : s.heap.Finds pr c)
    (hshared : 1 < (s.heap.blockOf pr).refcount.toNat) :
    s.Takes (s.copyBlock p r c pr base) K ((s.heap.region r).flags &&&
      vrAnon ≠ 0) base (pagesIn (s.heap.blockOf pr).length) := by
  obtain ⟨hpos, hdvd⟩ := (hs.fits hr hpr).length_dvd
  have hnew := moved_block s.heap c pr (base <<< 12) s.heap.nextBlock
  rw [if_pos rfl, Heap.moved, ← copyBlock_heap s p r] at hnew
  obtain ⟨hwhole, hhas⟩ := hav.whole hpos hdvd hnew
  refine ⟨?_, hav, hwhole, hhas, fun f => ?_, settle_own ((s.takeMem base _).modHeap fun h =>
    h.unref c pr) r (s.heap.physr pr).ph⟩
  · rw [copyBlock_heap]
    exact hs.gains_moved hr hpr hc hshared _
  have hfree := settle_free (f := f) ((s.takeMem base (pagesIn (s.heap.blockOf pr).length)).modHeap
    fun h => h.unref c pr) r
    (s.heap.physr pr).ph
  rw [← takeMem_free]
  exact hfree.trans (or_iff_left fun hf => unref_shared hshared c hf.1)

end Drop

section Cut
variable {sublen : BitVec 32}

lemma backs_cutFront (h : Heap) (pr : PhysId) (sublen : BitVec 32) (b : BlockId) :
    (h.cutFront pr sublen).Backs K b ↔ h.Backs K b := by
  have hph : ∀ x, ((h.cutFront pr sublen).physr x).ph = (h.physr x).ph := by
    intro x
    rw [cutFront_physr]
    split_ifs <;> rfl
  refine exists_congr fun q => and_congr_right fun _ => and_congr_right fun _ =>
    exists_congr fun x => and_congr_right fun _ => ?_
  rw [hph]

lemma cutFront_same (h : Heap) (pr : PhysId) (sublen : BitVec 32) {b : BlockId} (hb : b ≠ (h.physr pr).ph) :
    (h.block b).Same ((h.cutFront pr sublen).block b) := by
  rw [cutFront_block, if_neg hb]
  exact ⟨rfl, rfl⟩

lemma PhysBlock.Whole.cut (hx : x.Whole) (hdvd : 4096 ∣ sublen.toNat) (hlt : sublen.toNat < x.length.toNat)
    (hy : y.phys = x.phys + sublen ∧ y.length = x.length - sublen) :
    y.Whole ∧ ∀ f, (x.Has f ↔ y.Has f ∨ f ∈ pageRange (pageOf x.phys) (pagesIn sublen)) ∧
      ¬ (y.Has f ∧ f ∈ pageRange (pageOf x.phys) (pagesIn sublen)) := by
  obtain ⟨hd₁, hd₂, hbound⟩ := hx
  have hphys : y.phys.toNat = x.phys.toNat + sublen.toNat := by
    rw [hy.1, BitVec.toNat_add, Nat.mod_eq_of_lt (by omega)]
  have hlength : y.length.toNat = x.length.toNat - sublen.toNat := by
    rw [hy.2, BitVec.toNat_sub_of_le (BitVec.le_def.mpr (Nat.le_of_lt hlt))]
  have hfront : (⟨sublen, x.phys, 0, none⟩ : PhysBlock).Whole := ⟨hd₁, hdvd, by simp only; omega⟩
  refine ⟨⟨?_, ?_, ?_⟩, fun f => ?_⟩
  · rw [hphys]
    exact Nat.dvd_add hd₁ hdvd
  · rw [hlength]
    exact Nat.dvd_sub hd₂ hdvd
  · rw [hphys, hlength]
    omega
  have hmem := hfront.mem_pageRange (f := f)
  simp only at hmem
  rw [hmem]
  simp only [PhysBlock.Has, hphys, hlength]
  omega

lemma cutBlock_free (s : State) (r : RegionId) (pr : PhysId) (sublen : BitVec 32) :
    (s.cutBlock r pr sublen).free f = true ↔ s.free f = true ∨
      ((s.heap.region r).flags &&& vrDirect = 0 ∧
        f ∈ pageRange (pageOf (s.heap.blockOf pr).phys) (pagesIn sublen)) := by
  unfold State.cutBlock
  split_ifs with hd
  · refine freeMem_free.trans (or_congr Iff.rfl ?_)
    exact ⟨fun hf => ⟨hd, hf⟩, fun hf => hf.2⟩
  · exact (or_iff_left fun hf => hd hf.1).symm

lemma cutBlock_own (s : State) (r : RegionId) (pr : PhysId) (sublen : BitVec 32) :
    (s.cutBlock r pr sublen).own = s.own := by
  unfold State.cutBlock
  split_ifs <;> rfl

lemma Heap.Sound.anon_of_backs (hs : h.Sound K) (hr : K r) (hpr : pr ∈ (h.region r).phys)
    (hb : h.Backs K (h.physr pr).ph) :
    (h.region r).flags &&& vrAnon ≠ 0 := by
  obtain ⟨q, hq, hanon, y, hy, hph⟩ := hb
  rw [← hs.kind q r hq hr y hy pr hpr hph]
  exact hanon

lemma Heap.Fits.sublen_lt (hlt : h.start pr + sublen.toNat < h.stop pr) :
    sublen.toNat < (h.block (h.physr pr).ph).length.toNat := by
  rw [Heap.stop] at hlt
  exact Nat.lt_of_add_lt_add_left hlt

lemma cutFront_self (h : Heap) (pr : PhysId) (sublen : BitVec 32) :
    ((h.cutFront pr sublen).block (h.physr pr).ph).phys = (h.block (h.physr pr).ph).phys + sublen ∧
      ((h.cutFront pr sublen).block (h.physr pr).ph).length = (h.block (h.physr pr).ph).length - sublen := by
  rw [cutFront_block, if_pos rfl]
  exact ⟨rfl, rfl⟩

section
variable (hp : s.heap.Paged K s.free) (hr : K r) (hpr : pr ∈ (s.heap.region r).phys)
    (hpure : (s.heap.region r).Pure)
  (hdvd : 4096 ∣ sublen.toNat) (hlt : s.heap.start pr + sublen.toNat < s.heap.stop pr)
include hp hr hpr hpure hdvd hlt

lemma Heap.Paged.cut :
    (s.heap.cutFront pr sublen).Paged K (s.cutBlock r pr sublen).free := by
  have hcut := fun hb => (hp.whole _ hb).cut hdvd (Heap.Fits.sublen_lt hlt) (cutFront_self s.heap pr sublen)
  refine hp.shrink (fun f hf => ?_) fun b hb => ?_
  · refine ((cutBlock_free s r pr sublen).mp hf).imp_right ?_
    rintro ⟨hd, hin⟩
    have hb : s.heap.Backs K (s.heap.physr pr).ph := ⟨r, hr, hpure.mpr hd, pr, hpr, rfl⟩
    exact ⟨_, hb, ((hcut hb).2 f).1.mpr (.inr hin), fun hleft => ((hcut hb).2 f).2 ⟨hleft.2, hin⟩⟩
  rw [backs_cutFront] at hb
  by_cases heq : b = (s.heap.physr pr).ph
  · subst heq
    exact ⟨hb, (hcut hb).1, fun f hf => ((hcut hb).2 f).1.mpr (.inl hf)⟩
  · exact hp.kept hb (cutFront_same s.heap pr sublen heq)

lemma Heap.Paged.accounted_cut (hs : s.heap.Sound K) (hf : s.Accounted K f) :
    (s.cutBlock r pr sublen).Accounted K f := by
  rcases hf with hf | hf | ⟨b, hb, hhas⟩
  · exact .inl ((cutBlock_free s r pr sublen).mpr (.inl hf))
  · exact .inr (.inl (by rw [cutBlock_own]; exact hf))
  have howned : ((s.heap.cutFront pr sublen).block b).Has f → (s.cutBlock r pr sublen).heap.Owned K f := by
    intro hf
    rw [cutBlock_heap]
    exact ⟨b, (backs_cutFront s.heap pr sublen b).mpr hb, hf⟩
  by_cases heq : b = (s.heap.physr pr).ph
  · subst heq
    have hcut := (hp.whole _ hb).cut hdvd (Heap.Fits.sublen_lt hlt) (cutFront_self s.heap pr sublen)
    rcases ((hcut.2 f).1).mp hhas with hf | hin
    · exact .inr (.inr (howned hf))
    · exact .inl ((cutBlock_free s r pr sublen).mpr (.inr ⟨hpure.mp (hs.anon_of_backs hr hpr hb), hin⟩))
  · exact .inr (.inr (howned ((cutFront_same s.heap pr sublen heq).has.mpr hhas)))

end

lemma Heap.Sound.owned_cut (hs : h.Sound K) (hr : K r) (hpr : pr ∈ (h.region r).phys)
    (hanon : (h.region r).flags &&& vrAnon = 0)
    (sublen : BitVec 32) (hf : h.Owned K f) : (h.cutFront pr sublen).Owned K f := by
  obtain ⟨b, hb, hhas⟩ := hf
  have hne : b ≠ (h.physr pr).ph := by
    rintro rfl
    exact hs.anon_of_backs hr hpr hb hanon
  exact ⟨b, (backs_cutFront h pr sublen b).mpr hb, (cutFront_same h pr sublen hne).has.mpr hhas⟩

end Cut

/-! ## Sequences of updates -/

section Updates
variable {b : Nat} {A : Prop}

lemma Aside.paged (ha : Aside s t) (hp : s.heap.Paged K s.free) : t.heap.Paged K t.free := by
  rw [ha.heap]
  exact hp.keep ha.free fun b hb => ⟨hb, rfl, rfl⟩

lemma Aside.accounted (ha : Aside s t) (hf : s.Accounted K f) : t.Accounted K f := by
  rcases hf with hf | hf | hf
  · exact (ha.spent f hf).imp_right .inl
  · exact .inr (.inl (ha.own f hf))
  · exact .inr (.inr (by rw [ha.heap]; exact hf))

structure Repaged (K : RegionId → Prop) (r : RegionId) (A : Prop) (s t : State) : Prop where
  paged : t.heap.Paged K t.free
  accounted : (A → (s.heap.region r).flags &&& vrAnon ≠ 0) → ∀ f, s.Accounted K f → t.Accounted K f
  owned : (s.heap.region r).flags &&& vrAnon = 0 → ∀ f, s.heap.Owned K f → t.heap.Owned K f

lemma State.Takes.repaged (ht : s.Takes t K ((s.heap.region r).flags &&& vrAnon ≠ 0) base n) (hA : A)
    (hp : s.heap.Paged K s.free) : Repaged K r A s t :=
  ⟨ht.paged hp, fun hanon _ => ht.accounted (hanon hA), fun _ _ => ht.gains.owned⟩

section
variable (hr : K r) (hs : s.heap.Sound K) (hpure : (s.heap.region r).Pure) (hp : s.heap.Paged K s.free)
include hr hs hpure hp

lemma Update.pages (h : Update r b A s t) : Repaged K r A s t := by
  cases h with
  | aside h =>
    refine ⟨h.paged hp, fun _ f => h.accounted, fun _ f hf => ?_⟩
    rw [h.heap]
    exact hf
  | map pr _ => exact ⟨hp, fun _ _ hf => hf, fun _ _ hf => hf⟩
  | add hA hgap hav => exact (hav.takes_add hs hr hgap).repaged hA hp
  | copy hA hpr hc hshared hav => exact (hav.takes_copy hs hr hpr hc hshared).repaged hA hp
  | @drop _ pr c hpr hc _ =>
    have haccounted := fun f => hs.accounted_drop (f := f) hr hpr hc hp
    refine ⟨?_, fun _ => haccounted, fun hanon f hf => ?_⟩
    · rw [dropRef_removed]
      exact hs.paged_drop hr hpr hc hp
    · rw [dropRef_removed]
      exact hs.owned_drop hr hpr hc hanon hf
  | cut hpr _ hdvd hlt _ =>
    refine ⟨?_, fun _ f => hp.accounted_cut hr hpr hpure hdvd hlt hs, fun hanon f hf => ?_⟩
    · rw [cutBlock_heap]
      exact hp.cut hr hpr hpure hdvd hlt
    · rw [cutBlock_heap]
      exact hs.owned_cut hr hpr hanon _ hf

lemma Updates.pages (h : Updates r b A s t) : Repaged K r A s t := by
  induction h with
  | refl => exact ⟨hp, fun _ _ hf => hf, fun _ _ hf => hf⟩
  | @tail u t hup h ih =>
    have hup : Updates r b A s u := hup
    have hpure' : (u.heap.region r).Pure := by
      rw [VirRegion.Pure, hup.flags]
      exact hpure
    have hstep := h.pages hr (hup.sound hr hs) hpure' ih.paged
    refine ⟨hstep.paged, fun hanon f hf => ?_, fun hanon f hf => ?_⟩
    · exact hstep.accounted (by rw [hup.flags]; exact hanon) f (ih.accounted hanon f hf)
    · exact hstep.owned (by rw [hup.flags]; exact hanon) f (ih.owned hanon f hf)

end

end Updates

end Nucleos.Vm
