import Nucleos.Vm.AddressSpace

/-!
# What the page tables show

A page table is a cache of the trees: each of its entries is for a page of a physical region of
the process, shows the frame that page is in, and is writable only if the region may write the
block as its count is now. Work on a tree keeps this up, except that freeing blocks leaves their
entries behind until `map_unmap_region` clears them; these pages are kept apart.
-/

namespace Nucleos.Vm

open Function IntrusiveList Sharing Run Relation

variable {s t u : State} {h h' : Heap} {K : RegionId → Prop} {R R' : RegionId → PhysId → Prop}
    {V V' : BitVec 32 → Prop}
  {p q : ProcId} {r : RegionId} {x pr : PhysId} {v : BitVec 32} {e : Pte} {ok : Bool}

/-- Where the `i`-th page of a physical region is seen, and the frame it is in. -/
def Heap.pageIn (h : Heap) (r : RegionId) (x : PhysId) (i : Nat) : BitVec 32 :=
  pageOf (pageAt ((h.region r).vaddr + (h.physr x).offset) i)

def Heap.frameIn (h : Heap) (x : PhysId) (i : Nat) : BitVec 32 := pageOf (pageAt (h.blockOf x).phys i)

/-- The entry is one for a page of a physical region of the process, among those in `R`. -/
def Heap.Shows (h : Heap) (R : RegionId → PhysId → Prop) (p : ProcId) (v : BitVec 32) (e : Pte) : Prop :=
  ∃ r x i, R r x ∧ (h.region r).parent = p ∧ i < pagesIn (h.blockOf x).length ∧ v = h.pageIn r x i ∧
    e.frame = h.frameIn x i ∧ (e.write = true → writable (h.region r) (h.blockOf x) = true)

def Heap.Nodes (h : Heap) (K : RegionId → Prop) (r : RegionId) (x : PhysId) : Prop :=
  K r ∧ x ∈ (h.region r).phys

/-- The page tables in use show nothing else; the entries of `p` in `V` apart. -/
def State.Mirrors (s : State) (R : RegionId → PhysId → Prop) (p : ProcId) (V : BitVec 32 → Prop) : Prop :=
  ∀ q, (s.proc q).haspt = true → ∀ v e, (s.proc q).vmPt.pte v = some e → (q = p ∧ V v) ∨ s.heap.Shows R q v e

/-! ## Entries and the heap under them -/

/-- The page of a physical region is seen in the same place, in the same frame and no less
writable. -/
structure Heap.Alike (h h' : Heap) (r : RegionId) (x : PhysId) : Prop where
  place : (h'.region r).vaddr + (h'.physr x).offset = (h.region r).vaddr + (h.physr x).offset
  parent : (h'.region r).parent = (h.region r).parent
  length : (h'.blockOf x).length = (h.blockOf x).length
  phys : (h'.blockOf x).phys = (h.blockOf x).phys
  write : writable (h.region r) (h.blockOf x) = true → writable (h'.region r) (h'.blockOf x) = true

lemma Heap.Alike.pageIn (ha : h.Alike h' r x) (i : Nat) : h'.pageIn r x i = h.pageIn r x i := by
  rw [Heap.pageIn, Heap.pageIn, ha.place]

lemma Heap.Alike.frameIn (ha : h.Alike h' r x) (i : Nat) : h'.frameIn x i = h.frameIn x i := by
  rw [Heap.frameIn, Heap.frameIn, ha.phys]

def Heap.Translates (h : Heap) (r : RegionId) (x : PhysId) (v f : BitVec 32) : Prop :=
  ∃ i < pagesIn (h.blockOf x).length, v = h.pageIn r x i ∧ f = h.frameIn x i

variable {f : BitVec 32}

lemma Heap.Alike.translates (ha : h.Alike h' r x) : h'.Translates r x v f ↔ h.Translates r x v f := by
  simp only [Heap.Translates, ha.length, ha.pageIn, ha.frameIn]

lemma State.Mirrors.follow (hm : s.Mirrors R p V) (hhaspt : ∀ q, (t.proc q).haspt = (s.proc q).haspt)
    (hpte : ∀ q, (t.proc q).vmPt.pte = (s.proc q).vmPt.pte) (hV : ∀ v, V v → V' v)
    (hstep : ∀ r x v f, R r x → s.heap.Translates r x v f → ((s.heap.region r).parent = p ∧ V' v) ∨
      R' r x ∧ (t.heap.region r).parent = (s.heap.region r).parent ∧ t.heap.Translates r x v f ∧
        (writable (s.heap.region r) (s.heap.blockOf x) = true →
          writable (t.heap.region r) (t.heap.blockOf x) = true)) :
    t.Mirrors R' p V' := by
  intro q hq v e he
  rw [hhaspt] at hq
  rw [hpte] at he
  rcases hm q hq v e he with ⟨hqp, hv⟩ | ⟨r, x, i, hR, hparent, hi, hv, hframe, hwrite⟩
  · exact .inl ⟨hqp, hV v hv⟩
  rcases hstep r x v e.frame hR ⟨i, hi, hv, hframe⟩ with ⟨hp, hv⟩ | ⟨hR', hp, ⟨j, hj, hv', hframe'⟩, hw⟩
  · exact .inl ⟨hparent.symm.trans hp, hv⟩
  · exact .inr ⟨r, x, j, hR', hp.trans hparent, hj, hv', hframe', fun he => hw (hwrite he)⟩

lemma State.Mirrors.keep (hm : s.Mirrors R p V) (hhaspt : ∀ q, (t.proc q).haspt = (s.proc q).haspt)
    (hpte : ∀ q, (t.proc q).vmPt.pte = (s.proc q).vmPt.pte)
    (hkeep : ∀ r x, R r x → R' r x ∧ s.heap.Alike t.heap r x) :
    t.Mirrors R' p V := by
  refine hm.follow hhaspt hpte (fun _ hv => hv) fun r x v f hx htr => .inr ?_
  obtain ⟨hx', ha⟩ := hkeep r x hx
  exact ⟨hx', ha.parent, ha.translates.mpr htr, ha.write⟩

lemma Heap.Alike.refl (h : Heap) (r : RegionId) (x : PhysId) : h.Alike h r x := ⟨rfl, rfl, rfl, rfl, id⟩

variable {h'' : Heap}

lemma Heap.Alike.trans (ha : h.Alike h' r x) (ha' : h'.Alike h'' r x) : h.Alike h'' r x :=
  ⟨ha'.place.trans ha.place, ha'.parent.trans ha.parent, ha'.length.trans ha.length,
    ha'.phys.trans ha.phys, fun hw => ha'.write (ha.write hw)⟩

lemma State.Mirrors.mono (hm : s.Mirrors R p V) (hR : ∀ r x, R r x → R' r x) : s.Mirrors R' p V :=
  hm.keep (fun _ => rfl) (fun _ => rfl) fun r x hx => ⟨hR r x hx, .refl s.heap r x⟩

lemma State.Mirrors.aside (hm : s.Mirrors R p V) (ha : Aside s t) : t.Mirrors R p V := by
  refine hm.keep ha.haspt ha.pte fun r x hx => ⟨hx, ?_⟩
  rw [ha.heap]
  exact .refl _ _ _

lemma State.Mirrors.except (hm : s.Mirrors R p V) (hV : ∀ v, V v → V' v) : s.Mirrors R p V' :=
  hm.follow (fun _ => rfl) (fun _ => rfl) hV fun _ _ _ _ hx htr => .inr ⟨hx, rfl, htr, id⟩

lemma writePtes_cases (a : BitVec 32) (entry : Nat → Option Pte) (n : Nat)
    (pte : BitVec 32 → Option Pte) (v : BitVec 32) :
    (∃ i < n, v = pageOf (pageAt a i) ∧ writePtes a entry n pte v = entry i) ∨
      ((∀ i < n, v ≠ pageOf (pageAt a i)) ∧ writePtes a entry n pte v = pte v) := by
  induction n with
  | zero => exact .inr ⟨fun i hi => absurd hi (Nat.not_lt_zero i), rfl⟩
  | succ n ih =>
    by_cases hv : v = pageOf (pageAt a n)
    · refine .inl ⟨n, Nat.lt_succ_self n, hv, ?_⟩
      rw [hv]
      exact update_self _ _ _
    have hstep : writePtes a entry (n + 1) pte v = writePtes a entry n pte v := update_of_ne hv _ _
    rw [hstep]
    rcases ih with ⟨i, hi, hv', heq⟩ | ⟨hnot, heq⟩
    · exact .inl ⟨i, Nat.lt_succ_of_lt hi, hv', heq⟩
    refine .inr ⟨fun i hi => ?_, heq⟩
    rcases Nat.lt_succ_iff_lt_or_eq.mp hi with hi | rfl
    · exact hnot i hi
    · exact hv

lemma setPtes_pte (s : State) (p : ProcId) (a : BitVec 32) (n : Nat) (entry : Nat → Option Pte) (q : ProcId) :
    ((s.setPtes p a n entry).proc q).vmPt.pte = if q = p
      then writePtes a entry n (s.proc q).vmPt.pte else (s.proc q).vmPt.pte := by
  rw [State.setPtes, State.modProc_proc]
  split <;> rfl

lemma setPtes_haspt (s : State) (p : ProcId) (a : BitVec 32) (n : Nat) (entry : Nat → Option Pte)
    (q : ProcId) :
    ((s.setPtes p a n entry).proc q).haspt = (s.proc q).haspt := by
  rw [(setPtes_frame s p a n entry).proc q]

variable {i : Nat}

lemma mapPtes_shows (hx : R r x) (hi : i < pagesIn (h.blockOf x).length) :
    h.Shows R (h.region r).parent (h.pageIn r x i) ⟨h.frameIn x i, writable (h.region r) (h.blockOf x)⟩ :=
  ⟨r, x, i, hx, rfl, hi, rfl, rfl, id⟩

variable {a : BitVec 32} {n : Nat} {entry : Nat → Option Pte}

lemma State.Mirrors.setPtes (hm : s.Mirrors R p V')
    (hnew : ∀ i < n, ∀ e, entry i = some e → s.heap.Shows R q (pageOf (pageAt a i)) e)
    (hV : ∀ v, V' v → V v ∨ q = p ∧ ∃ i < n, v = pageOf (pageAt a i)) :
    (s.setPtes q a n entry).Mirrors R p V := by
  intro q' hq v e he
  have hheap : (s.setPtes q a n entry).heap = s.heap := rfl
  rw [setPtes_haspt] at hq
  rw [setPtes_pte] at he
  rw [hheap]
  have hold : (s.proc q').vmPt.pte v = some e → (q' = q → ∀ i < n, v ≠ pageOf (pageAt a i)) →
      (q' = p ∧ V v) ∨ s.heap.Shows R q' v e := by
    intro he hnot
    rcases hm q' hq v e he with ⟨hqp, hv⟩ | hshow
    · rcases hV v hv with hv | ⟨hpq, i, hi, hv⟩
      · exact .inl ⟨hqp, hv⟩
      · exact absurd hv (hnot (hqp.trans hpq.symm) i hi)
    · exact .inr hshow
  split_ifs at he with hqp
  · rcases writePtes_cases a entry n (s.proc q').vmPt.pte v with ⟨i, hi, hv, heq⟩ | ⟨hnot, heq⟩
    · rw [hv, hqp]
      exact .inr (hnew i hi e (heq.symm.trans he))
    · exact hold (heq.symm.trans he) fun _ => hnot
  · exact hold he fun heq => absurd heq hqp

lemma State.Mirrors.mapPtes (hm : s.Mirrors R p V') (hx : R r x)
    (hV : ∀ v, V' v → V v ∨ (s.heap.region r).parent = p ∧ ∃ i < pagesIn (s.heap.blockOf x).length,
      v = s.heap.pageIn r x i) :
    (s.mapPtes (s.heap.region r).parent r x).Mirrors R p V := by
  refine hm.setPtes (fun i hi e he => ?_) hV
  cases he
  exact mapPtes_shows hx hi

/-! ## Losing a reference -/

lemma writable_keep {x x' : VirRegion} {b b' : PhysBlock} (hflags : x'.flags = x.flags)
    (hcount : b'.refcount = b.refcount ∨ b.refcount ≠ 1) (hw : writable x b = true) :
    writable x' b' = true := by
  unfold writable at hw ⊢
  rw [hflags]
  rcases Bool.or_eq_true_iff.mp hw with hw | hw
  · exact Bool.or_eq_true_iff.mpr (.inl hw)
  obtain ⟨hwr, hone⟩ := Bool.and_eq_true_iff.mp hw
  rcases hcount with hcount | hcount
  · rw [hcount]
    exact Bool.or_eq_true_iff.mpr (.inr hw)
  · exact absurd (eq_of_beq hone) hcount

lemma Heap.Alike.of_same (hregion : h'.region r = { h.region r with phys := (h'.region r).phys })
    (hphysr : (h'.physr x).offset = (h.physr x).offset) (hblock : h'.blockOf x = h.blockOf x) :
    h.Alike h' r x := by
  refine ⟨by rw [hregion, hphysr], by rw [hregion], by rw [hblock], by rw [hblock], ?_⟩
  rw [hblock]
  exact writable_keep (by rw [hregion]) (.inl rfl)

lemma settle_mirrors (hm : s.Mirrors R p V) {b : BlockId}
    (hfirst : ∀ first, (s.heap.block b).firstregion = some first → R (s.heap.physr first).parent first) :
    (s.settle r b).Mirrors R p V := by
  unfold State.settle
  split_ifs
  · exact hm
  · exact hm
  · cases hb : (s.heap.block b).firstregion with
    | none => exact hm
    | some first => exact hm.mapPtes (hfirst first hb) fun _ => .inl
  · exact hm

def Heap.Others (h : Heap) (K : RegionId → Prop) (pr : PhysId) (r : RegionId) (x : PhysId) : Prop :=
  h.Nodes K r x ∧ x ≠ pr

lemma Heap.Sound.others (hs : s.heap.Sound K) (hr : K r) (hpr : pr ∈ (s.heap.region r).phys)
    (hparent : (s.heap.region r).parent = p)
    (hm : s.Mirrors (s.heap.Nodes K) p V) (hV : ∀ v, V v → V' v)
    (hpages : ∀ i < pagesIn (s.heap.blockOf pr).length, V' (s.heap.pageIn r pr i)) :
    s.Mirrors (s.heap.Others K pr) p V' := by
  refine hm.follow (fun _ => rfl) (fun _ => rfl) hV fun q x v f hx htr => ?_
  by_cases hne : x = pr
  · subst hne
    obtain rfl := hs.parent_eq hr hx.1 hpr hx.2
    obtain ⟨i, hi, rfl, -⟩ := htr
    exact .inl ⟨hparent, hpages i hi⟩
  · exact .inr ⟨⟨hx, hne⟩, rfl, htr, id⟩

lemma unref_alike (hs : h.Sound K) (hr : K r) (hpr : pr ∈ (h.region r).phys)
    (c : Cell BlockId PhysId) {q : RegionId}
    (hx : h.Others K pr q x) : h.Alike (h.unref c pr) q x := by
  obtain ⟨⟨hq, hxq⟩, hne⟩ := hx
  have hregion : (h.unref c pr).region = h.region := unref_region h c pr
  obtain ⟨hph, -, hoffset⟩ := unref_physr h c pr x
  have hblock : (h.unref c pr).blockOf x = (h.unref c pr).block (h.physr x).ph := by rw [Heap.blockOf, hph]
  obtain ⟨hlength, hphys, hcount⟩ := unref_block h c pr (h.physr x).ph
  refine ⟨by rw [hregion, hoffset], by rw [hregion], ?_, ?_, writable_keep (by rw [hregion]) ?_⟩
  · rw [hblock, hlength]
    rfl
  · rw [hblock, hphys]
    rfl
  rw [hblock, hcount]
  by_cases heq : (h.physr x).ph = (h.physr pr).ph
  · -- the block has both references, so its count is not one
    refine .inr fun hone => hne ?_
    have hone' : (h.blockOf pr).refcount = 1 := by
      rw [Heap.blockOf, ← heq]
      exact hone
    exact hs.alone hr hpr hone' ⟨q, hq, hxq⟩ heq
  · rw [if_neg heq]
    exact .inl rfl

lemma dropRef_mirrors (hs : s.heap.Sound K) (hr : K r) (hpr : pr ∈ (s.heap.region r).phys)
    {c : Cell BlockId PhysId}
    (hc : s.heap.Finds pr c) (hm : s.Mirrors (s.heap.Others K pr) p V) :
    (s.dropRef r c pr).Mirrors (s.heap.Others K pr) p V := by
  have hunref : (s.modHeap fun h => h.unref c pr).Mirrors (s.heap.Others K pr) p V :=
    hm.keep (fun _ => rfl) (fun _ => rfl) fun q x hx => ⟨hx, unref_alike hs hr hpr c hx⟩
  refine settle_mirrors hunref fun first hfirst => ?_
  obtain ⟨k, hlinks, hmem, -⟩ := hs.exact_unref hr hpr hc (s.heap.physr pr).ph
  have hhead : (s.heap.unref c pr).store.lists.head (s.heap.physr pr).ph = some first := hfirst
  rw [hhead] at hlinks
  obtain ⟨⟨hne, q, hq, hx⟩, -⟩ := (hmem first).mp (by
    cases hlinks with
    | cons => exact .head _)
  have hparent : ((s.heap.unref c pr).physr first).parent = q :=
    (unref_physr s.heap c pr first).2.1.trans (hs.fits hq hx).parent
  have hgoal : s.heap.Others K pr ((s.heap.unref c pr).physr first).parent first := by
    rw [hparent]
    exact ⟨⟨hq, hx⟩, hne⟩
  exact hgoal

/-! ## One update -/

lemma pageIn_eq (hf : h.Fits r x) (i : Nat) :
    h.pageIn r x i = pageOf (pageAt (h.region r).vaddr (h.start x / 4096 + i)) := by
  have hoffset : (h.physr x).offset = BitVec.ofNat 32 (4096 * (h.start x / 4096)) := by
    rw [Nat.mul_div_cancel' hf.start_dvd, Heap.start, BitVec.ofNat_toNat, BitVec.setWidth_eq]
  rw [Heap.pageIn, pageAt, pageAt, Nat.mul_add, BitVec.ofNat_add, ← hoffset, BitVec.add_assoc]

lemma page_lt_stop (hf : h.Fits r x) (hi : i < pagesIn (h.blockOf x).length) :
    4096 * (h.start x / 4096 + i) < h.stop x := by
  have hdvd := hf.start_dvd
  unfold pagesIn at hi
  unfold Heap.stop
  omega

section Limit
variable {limit : Nat} {A : Prop} {c : Cell BlockId PhysId}

def Heap.Spares (h : Heap) (r : RegionId) (limit : Nat) (V : BitVec 32 → Prop) : Prop :=
  ∀ j, 4096 * j < limit → V (pageOf (pageAt (h.region r).vaddr j))

lemma removed_alike (hx : h.Others K pr q x) (c : Cell BlockId PhysId) (r : RegionId) :
    (h.without r c pr).Nodes K q x ∧ (h.unref c pr).Alike (h.without r c pr) q x := by
  have hsame := removePhys_same (h.unref c pr) r pr q
  refine ⟨⟨hx.1.1, ?_⟩, .of_same hsame rfl rfl⟩
  rw [removePhys_phys, unref_region]
  split_ifs
  · exact (List.mem_erase_of_ne hx.2).mpr hx.1.2
  · exact hx.1.2

lemma pageAt_cut {sublen : BitVec 32} (hdvd : 4096 ∣ sublen.toNat) (hi : sublen.toNat / 4096 ≤ i) :
    pageAt (a + sublen) (i - sublen.toNat / 4096) = pageAt a i := by
  have hsub : sublen = BitVec.ofNat 32 (4096 * (sublen.toNat / 4096)) := by
    rw [Nat.mul_div_cancel' hdvd, BitVec.ofNat_toNat, BitVec.setWidth_eq]
  have hsum : 4096 * i = 4096 * (sublen.toNat / 4096) + 4096 * (i - sublen.toNat / 4096) := by omega
  rw [pageAt, pageAt, hsum, BitVec.ofNat_add, ← hsub, BitVec.add_assoc]

lemma cutFront_blockOf (h : Heap) (pr : PhysId) (sublen : BitVec 32) : (h.cutFront pr sublen).blockOf pr =
    { h.blockOf pr with phys := (h.blockOf pr).phys + sublen, length := (h.blockOf pr).length - sublen } := by
  rw [Heap.blockOf, cutFront_physr, if_pos rfl, cutFront_block, if_pos rfl]
  rfl

lemma cut_alike (sublen : BitVec 32) (hs : h.Sound K) (hr : K r) (hpr : pr ∈ (h.region r).phys)
    (hone : (h.blockOf pr).refcount = 1) {q : RegionId}
    (hx : h.Others K pr q x) : h.Alike (h.cutFront pr sublen) q x := by
  have hne : (h.physr x).ph ≠ (h.physr pr).ph := fun heq => hx.2 (hs.alone hr hpr hone ⟨q, hx.1⟩ heq)
  have hphysr : (h.cutFront pr sublen).physr x = h.physr x := by rw [cutFront_physr, if_neg hx.2]
  have hblock : (h.cutFront pr sublen).blockOf x = h.blockOf x := by
    rw [Heap.blockOf, hphysr, cutFront_block, if_neg hne]
    rfl
  exact .of_same rfl (congrArg PhysRegion.offset hphysr) hblock

section Cut
variable {sublen : BitVec 32} (hdvd : 4096 ∣ sublen.toNat) (hlt : h.start pr + sublen.toNat < h.stop pr)
include hdvd hlt

lemma cut_translates : (h.cutFront pr sublen).Translates r pr v f ↔
    ∃ i < pagesIn (h.blockOf pr).length, sublen.toNat / 4096 ≤ i ∧ v = h.pageIn r pr i ∧
      f = h.frameIn pr i := by
  have hoffset : ((h.cutFront pr sublen).physr pr).offset = (h.physr pr).offset + sublen := by
    rw [cutFront_physr, if_pos rfl]
  have hvaddr : ((h.cutFront pr sublen).region r).vaddr = (h.region r).vaddr := rfl
  have hlen : pagesIn ((h.cutFront pr sublen).blockOf pr).length =
    pagesIn (h.blockOf pr).length - sublen.toNat / 4096 := by
    unfold Heap.stop at hlt
    rw [cutFront_blockOf, pagesIn, pagesIn]
    simp only
    rw [BitVec.toNat_sub_of_le (BitVec.le_def.mpr (by omega))]
    omega
  have hpage : ∀ i, sublen.toNat / 4096 ≤ i →
    (h.cutFront pr sublen).pageIn r pr (i - sublen.toNat / 4096) = h.pageIn r pr i ∧
      (h.cutFront pr sublen).frameIn pr (i - sublen.toNat / 4096) = h.frameIn pr i := by
    intro i hi
    rw [Heap.pageIn, Heap.pageIn, Heap.frameIn, Heap.frameIn, hoffset, hvaddr, cutFront_blockOf,
      ← BitVec.add_assoc, pageAt_cut hdvd hi,
      pageAt_cut hdvd hi]
    exact ⟨rfl, rfl⟩
  rw [Heap.Translates, hlen]
  constructor
  · rintro ⟨i, hi, hv, hf⟩
    obtain ⟨hv', hf'⟩ := hpage (i + sublen.toNat / 4096) (Nat.le_add_left _ _)
    rw [Nat.add_sub_cancel] at hv' hf'
    exact ⟨_, by omega, Nat.le_add_left _ _, hv.trans hv', hf.trans hf'⟩
  · rintro ⟨i, hi, hle, hv, hf⟩
    obtain ⟨hv', hf'⟩ := hpage i hle
    exact ⟨_, by omega, hv.trans hv'.symm, hf.trans hf'.symm⟩

end Cut

lemma Updates.spares (h : Updates r limit A s t) (hV : s.heap.Spares r limit V) :
    t.heap.Spares r limit V := by
  intro j hj
  rw [h.frame.region r]
  exact hV j hj

section
variable (hs : s.heap.Sound K) (hr : K r) (hparent : (s.heap.region r).parent = p)
include hs hr hparent

section
variable (hm : s.Mirrors (s.heap.Nodes K) p V)
include hm

lemma copy_mirrors (hpr : pr ∈ (s.heap.region r).phys) (hc : s.heap.Finds pr c) (base : BitVec 32) :
    (s.copyBlock p r c pr base).Mirrors ((s.copyBlock p r c pr base).heap.Nodes K) p V := by
  -- the entries of the block to be copied are set apart until they are written again
  have hothers : (s.takeMem base (pagesIn (s.heap.blockOf pr).length)).Mirrors (s.heap.Others K pr) p
      fun v => V v ∨ ∃ i < pagesIn (s.heap.blockOf pr).length, v = s.heap.pageIn r pr i :=
    hs.others (s := s) hr hpr hparent hm (fun _ hv => .inl hv) fun i hi => .inr ⟨i, hi, rfl⟩
  have hdrop := dropRef_mirrors (s := s.takeMem base (pagesIn (s.heap.blockOf pr).length)) hs hr
    hpr hc hothers
  have hheap : ((s.takeMem base (pagesIn (s.heap.blockOf pr).length)).dropRef r c pr).heap =
    s.heap.unref c pr :=
    dropRef_heap _ r c pr
  have hregion : (s.heap.unref c pr).region = s.heap.region := unref_region s.heap c pr
  unfold State.copyBlock
  generalize (s.takeMem base (pagesIn (s.heap.blockOf pr).length)).dropRef r c pr = s₁ at hdrop hheap
  have hmoved : (s₁.modHeap fun h => h.rebase pr (base <<< 12)).Mirrors
    ((s.heap.moved c pr (base <<< 12)).Nodes K) p
      fun v => V v ∨ ∃ i < pagesIn (s.heap.blockOf pr).length, v = s.heap.pageIn r pr i := by
    refine hdrop.keep (fun _ => rfl) (fun _ => rfl) fun q x hx => ⟨⟨hx.1.1, ?_⟩, ?_⟩
    · rw [moved_region]
      exact hx.1.2
    have hlt := (hs.fits hx.1.1 hx.1.2).block_lt
    have hne : ((s.heap.unref c pr).physr x).ph ≠ (s.heap.unref c pr).nextBlock := by
      rw [(unref_physr s.heap c pr x).1, (unref_next s.heap c pr).1]
      exact Nat.ne_of_lt hlt
    have hblock : ((s.heap.unref c pr).rebase pr (base <<< 12)).blockOf x =
      (s.heap.unref c pr).blockOf x := by
      rw [Heap.blockOf, rebase_physr_of_ne _ _ hx.2]
      exact update_of_ne hne _ _
    simp only [State.modHeap]
    rw [hheap]
    exact .of_same rfl (by rw [rebase_physr_of_ne _ _ hx.2]) hblock
  have hheap₂ : (s₁.modHeap fun h => h.rebase pr (base <<< 12)).heap = s.heap.moved c pr (base <<< 12) :=
    congrArg (fun h => Heap.rebase h pr (base <<< 12)) hheap
  generalize (s₁.modHeap fun h => h.rebase pr (base <<< 12)) = s₂ at hmoved hheap₂
  have hregion₂ : s₂.heap.region = s.heap.region := by rw [hheap₂, moved_region]
  have hparent₂ : (s₂.heap.region r).parent = p := by rw [hregion₂, hparent]
  have hlength : (s₂.heap.blockOf pr).length = (s.heap.blockOf pr).length := by
    have hmoved := moved_block s.heap c pr (base <<< 12) s.heap.nextBlock
    rw [if_pos rfl] at hmoved
    rw [hheap₂, Heap.blockOf, moved_ph, if_pos rfl]
    exact hmoved.2
  have hpage : ∀ i, s₂.heap.pageIn r pr i = s.heap.pageIn r pr i := by
    intro i
    have hoffset : ((s.heap.moved c pr (base <<< 12)).physr pr).offset = (s.heap.physr pr).offset := by
      have hself : ((s.heap.unref c pr).rebase pr (base <<< 12)).physr pr = _ := update_self _ _ _
      rw [hself]
      exact (unref_physr s.heap c pr pr).2.2
    rw [Heap.pageIn, Heap.pageIn, hregion₂, hheap₂, hoffset]
  have hnodes : s₂.heap.Nodes K r pr := ⟨hr, by rw [hregion₂]; exact hpr⟩
  have hend : (s₂.mapPtes p r pr).heap = s₂.heap := rfl
  rw [hend]
  rw [← hheap₂] at hmoved
  have hwrite := hmoved.mapPtes (V := V) hnodes fun v hv => by
    rcases hv with hv | ⟨i, hi, hv⟩
    · exact .inl hv
    refine .inr ⟨hparent₂, i, ?_, ?_⟩
    · rw [hlength]
      exact hi
    · rw [hpage]
      exact hv
  rw [hparent₂] at hwrite
  exact hwrite

lemma add_mirrors {offset length : BitVec 32} {l₁ l₂ : List PhysId}
    (hgap : s.heap.Gap r offset length l₁ l₂) (phys : BitVec 32) :
    (s.addBlock p r offset length phys).Mirrors ((s.addBlock p r offset length phys).heap.Nodes K) p V := by
  have hold : (s.modHeap fun h => h.newBlock r offset length phys).Mirrors
      (fun q x => s.heap.Nodes K q x ∨ (q = r ∧ x = s.heap.nextPhys)) p V := by
    refine hm.keep (fun _ => rfl) (fun _ => rfl) fun q x hx => ⟨.inl hx, ?_⟩
    have hf := hs.fits hx.1 hx.2
    have hphysr := newBlock_physr_of_lt phys s.heap r offset length hf.phys_lt
    have hne : (s.heap.physr x).ph ≠ s.heap.nextBlock := Nat.ne_of_lt hf.block_lt
    have hblock : (s.heap.newBlock r offset length phys).blockOf x = s.heap.blockOf x := by
      rw [Heap.blockOf, hphysr]
      exact update_of_ne hne _ _
    exact .of_same rfl (congrArg PhysRegion.offset hphysr) hblock
  have hparent₁ : ((s.modHeap fun h => h.newBlock r offset length phys).heap.region r).parent = p := hparent
  have hmapped := hold.mapPtes (r := r) (x := s.heap.nextPhys) (.inr ⟨rfl, rfl⟩) fun _ => .inl
  rw [hparent₁] at hmapped
  have hgrown := hs.grown phys hr hgap
  refine hmapped.keep (fun _ => rfl) (fun _ => rfl) fun q x hx => ⟨?_, .of_same (hgrown.same q) rfl rfl⟩
  rcases hx with hx | ⟨rfl, rfl⟩
  · exact ⟨hx.1, (hgrown.mem q x).mpr (.inr hx.2)⟩
  · exact ⟨hr, (hgrown.mem q _).mpr (.inl ⟨rfl, rfl⟩)⟩

end

variable (hV : s.heap.Spares r limit V) (hm : s.Mirrors (s.heap.Nodes K) p V)
include hV hm

lemma drop_mirrors (hpr : pr ∈ (s.heap.region r).phys) (hc : s.heap.Finds pr c)
    (hlimit : s.heap.stop pr ≤ limit) : ((s.dropRef r c pr).modHeap fun h => h.removePhys r pr).Mirrors
      (((s.dropRef r c pr).modHeap fun h => h.removePhys r pr).heap.Nodes K) p V := by
  have hf := hs.fits hr hpr
  have hothers : s.Mirrors (s.heap.Others K pr) p V := by
    refine hs.others hr hpr hparent hm (fun _ hv => hv) fun i hi => ?_
    rw [pageIn_eq hf]
    exact hV _ (Nat.lt_of_lt_of_le (page_lt_stop hf hi) hlimit)
  refine (dropRef_mirrors hs hr hpr hc hothers).keep (fun _ => rfl) (fun _ => rfl) fun q x hx => ?_
  rw [dropRef_removed, dropRef_heap]
  exact removed_alike hx c r

lemma cut_mirrors (hpr : pr ∈ (s.heap.region r).phys) (hone : (s.heap.blockOf pr).refcount = 1)
    {sublen : BitVec 32} (hdvd : 4096 ∣ sublen.toNat) (hlt : s.heap.start pr + sublen.toNat < s.heap.stop pr)
    (hlimit : s.heap.start pr + sublen.toNat ≤ limit) :
    (s.cutBlock r pr sublen).Mirrors ((s.cutBlock r pr sublen).heap.Nodes K) p V := by
  have hf := hs.fits hr hpr
  have hpte : ∀ q, ((s.cutBlock r pr sublen).proc q).vmPt.pte = (s.proc q).vmPt.pte := by
    intro q
    unfold State.cutBlock
    split_ifs <;> rfl
  have hhaspt : ∀ q, ((s.cutBlock r pr sublen).proc q).haspt = (s.proc q).haspt := by
    intro q
    rw [(cutBlock_frame s r pr sublen).proc q]
  refine hm.follow hhaspt hpte (fun _ hv => hv) fun q x v f hx htr => ?_
  rw [cutBlock_heap]
  by_cases hxp : x = pr
  · subst hxp
    obtain rfl := hs.parent_eq hr hx.1 hpr hx.2
    obtain ⟨i, hi, hv, hfr⟩ := htr
    by_cases hcut : i < sublen.toNat / 4096
    · have hstart := hf.start_dvd
      rw [hv, pageIn_eq hf]
      exact .inl ⟨hparent, hV _ (by omega)⟩
    · refine .inr ⟨hx, rfl, (cut_translates hdvd hlt).mpr ⟨i, hi, Nat.not_lt.mp hcut, hv, hfr⟩, ?_⟩
      rw [cutFront_blockOf]
      exact writable_keep rfl (.inl rfl)
  · have ha := cut_alike sublen hs hr hpr hone ⟨hx, hxp⟩
    exact .inr ⟨hx, rfl, ha.translates.mpr htr, ha.write⟩

lemma Update.mirrors (h : Update r limit A s t) : t.Mirrors (t.heap.Nodes K) p V := by
  cases h with
  | aside ha =>
    rw [ha.heap]
    exact hm.aside ha
  | map pr hpr => exact hm.mapPtes (R := s.heap.Nodes K) ⟨hr, hpr⟩ fun _ => .inl
  | @add _ _ _ length base _ _ hgap _ =>
    rw [hparent]
    exact add_mirrors (s := s.takeMem base (pagesIn length)) hs hr hparent hm hgap _
  | @copy _ _ _ _ base hpr hc _ _ =>
    rw [hparent]
    exact copy_mirrors hs hr hparent hm hpr hc base
  | drop hpr hc hlimit => exact drop_mirrors hs hr hparent hV hm hpr hc hlimit
  | cut hpr hone hdvd hlt hlimit => exact cut_mirrors hs hr hparent hV hm hpr hone hdvd hlt hlimit

lemma Updates.mirrors (h : Updates r limit A s t) : t.Mirrors (t.heap.Nodes K) p V := by
  induction h with
  | refl => exact hm
  | @tail u u' hup hstep ih =>
    have hup : Updates r limit A s u := hup
    exact hstep.mirrors (hup.sound hr hs) hr (by rw [hup.frame.region r]; exact hparent) (hup.spares hV) ih

end

/-! ## Updates without new blocks -/

def Heap.Maps (h : Heap) (K : RegionId → Prop) (r : RegionId) (v f : BitVec 32) : Prop :=
  ∃ x, h.Nodes K r x ∧ h.Translates r x v f

structure Thins (K : RegionId → Prop) (r : RegionId) (V : BitVec 32 → Prop) (h h' : Heap) : Prop where
  less : ∀ {q v f}, h'.Maps K q v f → h.Maps K q v f
  more : ∀ {q v f}, h.Maps K q v f → (q = r ∧ V v) ∨ h'.Maps K q v f

lemma Thins.trans (h₁ : Thins K r V h h') (h₂ : Thins K r V h' h'') : Thins K r V h h'' :=
  ⟨fun hm => h₁.less (h₂.less hm), fun hm => (h₁.more hm).elim .inl h₂.more⟩

lemma thins_of (hpr : ∀ {q}, h.Nodes K q pr → q = r)
    (hothers : ∀ {q x}, h.Others K pr q x → h'.Nodes K q x ∧ h.Alike h' q x)
    (hless : ∀ {q x}, h'.Nodes K q x → h.Nodes K q x)
    (hsub : h'.Nodes K r pr → ∀ {v f}, h'.Translates r pr v f → h.Translates r pr v f)
    (hmore : ∀ {v f}, h.Translates r pr v f → V v ∨ h'.Nodes K r pr ∧ h'.Translates r pr v f) :
    Thins K r V h h' := by
  constructor
  · rintro q v f ⟨x, hx, hm⟩
    refine ⟨x, hless hx, ?_⟩
    by_cases hne : x = pr
    · subst hne
      obtain rfl := hpr (hless hx)
      exact hsub hx hm
    · exact (hothers ⟨hless hx, hne⟩).2.translates.mp hm
  · rintro q v f ⟨x, hx, hm⟩
    by_cases hne : x = pr
    · subst hne
      obtain rfl := hpr hx
      exact (hmore hm).imp (⟨rfl, ·⟩) (⟨x, ·⟩)
    · obtain ⟨hx', ha⟩ := hothers ⟨hx, hne⟩
      exact .inr ⟨x, hx', ha.translates.mpr hm⟩

lemma Update.thins (h : Update r limit False s t) (hs : s.heap.Sound K) (hr : K r)
    (hV : s.heap.Spares r limit V) :
    Thins K r V s.heap t.heap := by
  cases h with
  | aside ha =>
    rw [ha.heap]
    exact ⟨id, .inr⟩
  | map pr hpr => exact ⟨id, .inr⟩
  | add hfresh | copy hfresh => exact hfresh.elim
  | @drop _ pr c hpr hc hlimit =>
    have hf := hs.fits hr hpr
    have hgone : ∀ {q x}, (s.heap.without r c pr).Nodes K q x → s.heap.Nodes K q x ∧ (q = r → x ≠ pr) := by
      rintro q x ⟨hq, hx⟩
      rw [removePhys_phys, unref_region] at hx
      split_ifs at hx with hqr
      · subst hqr
        obtain ⟨hne, hx⟩ := (hs.tree q hq).nodup.mem_erase_iff.mp hx
        exact ⟨⟨hq, hx⟩, fun _ => hne⟩
      · exact ⟨⟨hq, hx⟩, fun h => absurd h hqr⟩
    rw [dropRef_removed]
    refine thins_of (fun hq => hs.parent_eq hq.1 hr hq.2 hpr) (fun hx => ?_) (fun hx => (hgone hx).1)
      (fun hx => absurd rfl ((hgone hx).2 rfl)) fun ⟨i, hi, hv, _⟩ => .inl ?_
    · obtain ⟨hnode, ha⟩ := removed_alike hx c r
      exact ⟨hnode, (unref_alike hs hr hpr c hx).trans ha⟩
    · rw [hv, pageIn_eq hf]
      exact hV _ (Nat.lt_of_lt_of_le (page_lt_stop hf hi) hlimit)
  | @cut _ pr sublen hpr hone hdvd hlt hlimit =>
    have hf := hs.fits hr hpr
    have hstart := hf.start_dvd
    rw [cutBlock_heap]
    refine thins_of (fun hq => hs.parent_eq hq.1 hr hq.2 hpr) (fun hx =>
      ⟨hx.1, cut_alike sublen hs hr hpr hone hx⟩) id (fun _ v f hm => ?_)
      fun {v f} ⟨i, hi, hv, hfr⟩ => ?_
    · obtain ⟨i, hi, -, hv, hfr⟩ := (cut_translates hdvd hlt).mp hm
      exact ⟨i, hi, hv, hfr⟩
    by_cases hcut : i < sublen.toNat / 4096
    · rw [hv, pageIn_eq hf]
      exact .inl (hV _ (by omega))
    · exact .inr ⟨⟨hr, hpr⟩, (cut_translates hdvd hlt).mpr ⟨i, hi, Nat.not_lt.mp hcut, hv, hfr⟩⟩

lemma Updates.thins (h : Updates r limit False s t) (hs : s.heap.Sound K) (hr : K r)
    (hV : s.heap.Spares r limit V) :
    Thins K r V s.heap t.heap := by
  induction h with
  | refl => exact ⟨id, .inr⟩
  | @tail u u' hup hstep ih =>
    have hup : Updates r limit False s u := hup
    exact ih.trans (hstep.thins (hup.sound hr hs) hr (hup.spares hV))

lemma setPtes_present (hnew : ∀ i < n, v = pageOf (pageAt a i) → entry i ≠ none)
    (hv : (s.proc q).vmPt.pte v ≠ none) : ((s.setPtes p a n entry).proc q).vmPt.pte v ≠ none := by
  rw [setPtes_pte]
  split_ifs
  · rcases writePtes_cases a entry n (s.proc q).vmPt.pte v with ⟨i, hi, hvi, heq⟩ | ⟨-, heq⟩
    · rw [heq]
      exact hnew i hi hvi
    · rw [heq]
      exact hv
  · exact hv

lemma Update.present (h : Update r limit False s t) (hv : (s.proc q).vmPt.pte v ≠ none) :
    (t.proc q).vmPt.pte v ≠ none := by
  cases h with
  | aside ha =>
    rw [ha.pte]
    exact hv
  | map pr hpr => exact setPtes_present (fun _ _ _ => nofun) hv
  | add hfresh | copy hfresh => exact hfresh.elim
  | drop =>
    unfold State.dropRef State.settle
    split_ifs
    · exact hv
    · exact hv
    · split
      · exact hv
      · exact setPtes_present (fun _ _ _ => nofun) hv
    · exact hv
  | cut =>
    unfold State.cutBlock
    split_ifs <;> exact hv

lemma Updates.present (h : Updates r limit False s t) (hv : (s.proc q).vmPt.pte v ≠ none) :
    (t.proc q).vmPt.pte v ≠ none := by
  induction h with
  | refl => exact hv
  | tail _ hstep ih => exact hstep.present ih

end Limit

end Nucleos.Vm
