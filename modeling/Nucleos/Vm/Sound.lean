import Nucleos.Vm.Frame

/-!
# The sharing invariant

The physical regions that matter are those in the trees of a set of regions: of all regions
of processes, or of these and one that is being built. The invariant says that the counts and
lists of the blocks are exact for them, and that in every tree of the set the blocks lie one
after the other in whole pages inside the region.
-/

namespace Nucleos.Vm

open IntrusiveList Sharing

variable {h h' : Heap} {K : RegionId → Prop} {r : RegionId} {pr : PhysId}

/-! ## Stores -/

variable {c : Cell BlockId PhysId} {x : PhysId}

lemma store_eq {S : Store BlockId PhysId 8} (hhead : ∀ b, (h.block b).firstregion = S.lists.head b)
    (hnext : ∀ x, (h.physr x).nextPhList = S.lists.next x) (htarget : ∀ x, (h.physr x).ph = S.target x)
    (hcount : ∀ b, (h.block b).refcount = S.count b) : h.store = S := by
  obtain ⟨⟨head, next⟩, target, count⟩ := S
  simp only at hhead hnext htarget hcount
  simp only [Heap.store, hhead, hnext, htarget, hcount]

section
variable (h : Heap)

lemma store_newBlock (r : RegionId) (offset length phys : BitVec 32) :
    (h.newBlock r offset length phys).store = h.store.fresh h.nextPhys h.nextBlock := by
  apply store_eq
  all_goals
    intro i
    simp only [Heap.newBlock, Store.fresh, Lists.write, Heap.store, Function.update_apply]
    split_ifs <;> rfl

lemma store_rebase (pr : PhysId) (phys : BitVec 32) :
    (h.rebase pr phys).store = h.store.fresh pr h.nextBlock := by
  apply store_eq
  all_goals
    intro i
    simp only [Heap.rebase, Store.fresh, Lists.write, Heap.store, Function.update_apply]
    split_ifs <;> rfl

lemma store_shareBlock (pr : PhysId) (b : BlockId) : (h.shareBlock pr b).store = h.store.push pr b := by
  apply store_eq
  all_goals
    intro i
    simp only [Heap.shareBlock, Heap.modBlock, Heap.modPhys, Store.push, Lists.write, Heap.store,
      Function.update_apply]
    split_ifs <;> simp_all

lemma store_modRegion (r : RegionId) (f : VirRegion → VirRegion) : (h.modRegion r f).store = h.store := rfl

lemma writeCell_block (c : Cell BlockId PhysId) (v : Option PhysId) (b : BlockId) :
    (h.writeCell c v).block b = if c = .head b then { h.block b with firstregion := v } else h.block b := by
  cases c with
  | head b' => simp [Heap.writeCell, Heap.modBlock_block, eq_comm]
  | next x => simp [Heap.writeCell, Heap.modPhys]

lemma writeCell_physr (c : Cell BlockId PhysId) (v : Option PhysId) (x : PhysId) :
    (h.writeCell c v).physr x = if c = .next x then { h.physr x with nextPhList := v } else h.physr x := by
  cases c with
  | head b => simp [Heap.writeCell, Heap.modBlock]
  | next y => simp [Heap.writeCell, Heap.modPhys_physr, eq_comm]

lemma writeCell_region (c : Cell BlockId PhysId) (v : Option PhysId) :
    (h.writeCell c v).region = h.region := by
  cases c <;> rfl

lemma unref_block (c : Cell BlockId PhysId) (pr : PhysId) (b : BlockId) :
    ((h.unref c pr).block b).length = (h.block b).length ∧ ((h.unref c pr).block b).phys = (h.block b).phys ∧
      ((h.unref c pr).block b).refcount =
        if b = (h.physr pr).ph then (h.block b).refcount - 1 else (h.block b).refcount := by
  simp only [Heap.unref]
  split_ifs with hread hb hb
  all_goals simp only [writeCell_block, Heap.modBlock_block, hb, if_true, if_false, and_self]
  all_goals split_ifs <;> exact ⟨rfl, rfl, rfl⟩

lemma unref_physr (c : Cell BlockId PhysId) (pr x : PhysId) :
    ((h.unref c pr).physr x).ph = (h.physr x).ph ∧ ((h.unref c pr).physr x).parent = (h.physr x).parent ∧
      ((h.unref c pr).physr x).offset = (h.physr x).offset := by
  simp only [Heap.unref]
  split_ifs
  · rw [writeCell_physr]
    split_ifs <;> exact ⟨rfl, rfl, rfl⟩
  · exact ⟨rfl, rfl, rfl⟩

lemma unref_region (c : Cell BlockId PhysId) (pr : PhysId) : (h.unref c pr).region = h.region := by
  simp only [Heap.unref]
  split_ifs
  · rw [writeCell_region]
    rfl
  · rfl

lemma store_unref (hc : h.store.lists.read c = some pr) :
    (h.unref c pr).store = h.store.drop c pr (h.physr pr).ph := by
  have hread : (h.modBlock (h.physr pr).ph fun x =>
    { x with refcount := x.refcount - 1 }).store.lists.read c =
      some pr := by
    rw [← hc]
    cases c with
    | head b => by_cases hb : b = (h.physr pr).ph <;> simp [Heap.modBlock, Heap.store, hb]
    | next x => rfl
  refine store_eq (fun b => ?_) (fun x => ?_) (fun x => (unref_physr h c pr x).1) fun b => ?_
  · have hhead := h.store.lists.read_write c (.head b) (h.store.lists.next pr)
    rw [Lists.read_head] at hhead
    rw [Store.drop, Lists.unlink, hhead, Heap.unref, if_pos hread, writeCell_block]
    split
    · next hb =>
      rw [if_pos hb.symm]
      rfl
    · next hb =>
      rw [if_neg (Ne.symm hb)]
      by_cases hp : b = (h.physr pr).ph <;> simp [Heap.modBlock, Heap.store, hp]
  · have hnext := h.store.lists.next_write c (h.store.lists.next pr) x
    rw [Store.drop, Lists.unlink, hnext, Heap.unref, if_pos hread, writeCell_physr]
    split
    · next hx =>
      rw [if_pos hx.symm]
      rfl
    · next hx =>
      rw [if_neg (Ne.symm hx)]
      rfl
  · rw [(unref_block h c pr b).2.2]
    simp only [Store.drop, Function.update_apply]
    split_ifs with hb
    · rw [hb]
      rfl
    · rfl

end

/-! ## Trees in whole pages -/

def Heap.start (h : Heap) (pr : PhysId) : Nat := (h.physr pr).offset.toNat

def Heap.stop (h : Heap) (pr : PhysId) : Nat := h.start pr + (h.blockOf pr).length.toNat

structure Heap.Fits (h : Heap) (r : RegionId) (pr : PhysId) : Prop where
  parent : (h.physr pr).parent = r
  pos : h.start pr < h.stop pr
  le : h.stop pr ≤ (h.region r).length.toNat
  start_dvd : 4096 ∣ h.start pr
  stop_dvd : 4096 ∣ h.stop pr
  phys_lt : pr < h.nextPhys
  block_lt : (h.physr pr).ph < h.nextBlock

structure Heap.Tree (h : Heap) (r : RegionId) : Prop where
  fits : ∀ pr ∈ (h.region r).phys, h.Fits r pr
  laid : (h.region r).phys.Pairwise fun x y => h.stop x ≤ h.start y
  dvd : 4096 ∣ (h.region r).length.toNat
  lt : r < h.nextRegion

structure Heap.Keeps (h h' : Heap) (x : PhysId) : Prop where
  parent : (h'.physr x).parent = (h.physr x).parent
  start : h'.start x = h.start x
  stop : h'.stop x = h.stop x
  phys_lt : x < h'.nextPhys
  block_lt : (h'.physr x).ph < h'.nextBlock

lemma Heap.Keeps.modRegion (hk : h.Keeps h' pr) (f : VirRegion → VirRegion) : h.Keeps (h'.modRegion r f) pr :=
  ⟨hk.parent, hk.start, hk.stop, hk.phys_lt, hk.block_lt⟩

lemma Heap.Fits.keeps (hf : h.Fits r pr) (hphysr : h'.physr pr = h.physr pr)
    (hblock : (h'.block (h.physr pr).ph).length = (h.block (h.physr pr).ph).length)
    (hnp : h.nextPhys ≤ h'.nextPhys)
    (hnb : h.nextBlock ≤ h'.nextBlock) : h.Keeps h' pr := by
  refine ⟨congrArg _ hphysr, ?_, ?_, Nat.lt_of_lt_of_le hf.phys_lt hnp, ?_⟩
  · simp only [Heap.start, hphysr]
  · simp only [Heap.stop, Heap.start, Heap.blockOf, hphysr, hblock]
  · rw [hphysr]
    exact Nat.lt_of_lt_of_le hf.block_lt hnb

lemma Heap.fits_of {a b : Nat} (hstart : h.start pr = a) (hstop : h.stop pr = b)
    (hlength : b ≤ (h.region r).length.toNat)
    (hpos : a < b) (ha : 4096 ∣ a) (hb : 4096 ∣ b) (hparent : (h.physr pr).parent = r)
    (hphys : pr < h.nextPhys)
    (hblock : (h.physr pr).ph < h.nextBlock) : h.Fits r pr := by
  subst hstart hstop
  exact ⟨hparent, hpos, hlength, ha, hb, hphys, hblock⟩

lemma Heap.Fits.keep (hf : h.Fits r pr) (hk : h.Keeps h' pr)
    (hlength : (h'.region r).length = (h.region r).length) :
    h'.Fits r pr :=
  Heap.fits_of hk.start hk.stop (hlength ▸ hf.le) hf.pos hf.start_dvd hf.stop_dvd
    (hk.parent.trans hf.parent) hk.phys_lt hk.block_lt

lemma laid_keep {l : List PhysId} (hl : l.Pairwise fun x y => h.stop x ≤ h.start y)
    (hkeep : ∀ x ∈ l, h.Keeps h' x) :
    l.Pairwise fun x y => h'.stop x ≤ h'.start y :=
  hl.imp_of_mem fun {x y} hx hy hxy => by rwa [(hkeep x hx).stop, (hkeep y hy).start]

lemma Heap.Tree.keep (ht : h.Tree r) (hphys : (h'.region r).phys.Sublist (h.region r).phys)
    (hlength : (h'.region r).length = (h.region r).length) (hkeep : ∀ x ∈ (h'.region r).phys, h.Keeps h' x)
    (hnext : h.nextRegion ≤ h'.nextRegion) : h'.Tree r where
  fits x hx := (ht.fits x (hphys.subset hx)).keep (hkeep x hx) hlength
  laid := laid_keep (ht.laid.sublist hphys) hkeep
  dvd := by
    rw [hlength]
    exact ht.dvd
  lt := Nat.lt_of_lt_of_le ht.lt hnext

lemma Heap.Tree.nodup (ht : h.Tree r) : (h.region r).phys.Nodup := by
  refine ht.laid.imp_of_mem fun {x y} hx _ hxy heq => ?_
  subst heq
  have hpos := (ht.fits x hx).pos
  omega

def Heap.Refs (h : Heap) (K : RegionId → Prop) (pr : PhysId) : Prop := ∃ r, K r ∧ pr ∈ (h.region r).phys

structure Heap.Sound (h : Heap) (K : RegionId → Prop) : Prop where
  exact : Exact h.store (h.Refs K)
  tree : ∀ r, K r → h.Tree r
  kind : ∀ r q, K r → K q → ∀ x ∈ (h.region r).phys, ∀ y ∈ (h.region q).phys,
    (h.physr x).ph = (h.physr y).ph →
    (h.region r).flags = (h.region q).flags

lemma Heap.Sound.fits (hs : h.Sound K) (hr : K r) (hpr : pr ∈ (h.region r).phys) : h.Fits r pr :=
  (hs.tree r hr).fits pr hpr

lemma Heap.Sound.parent_eq (hs : h.Sound K) {q : RegionId} (hr : K r) (hq : K q)
    (hpr : pr ∈ (h.region r).phys)
    (hpq : pr ∈ (h.region q).phys) : r = q :=
  (hs.fits hr hpr).parent.symm.trans (hs.fits hq hpq).parent

lemma Heap.Sound.keep (hs : h.Sound K) (hexact : Exact h'.store (h'.Refs K))
    (hregion : ∀ r, K r → ∃ l, l.Sublist (h.region r).phys ∧ h'.region r = { h.region r with phys := l })
    (hkeep : ∀ x, h.Refs K x → h.Keeps h' x)
    (hsplit : ∀ x y, h.Refs K x → h.Refs K y → (h'.physr x).ph = (h'.physr y).ph →
      (h.physr x).ph = (h.physr y).ph)
    (hnext : h.nextRegion ≤ h'.nextRegion) : h'.Sound K := by
  have hphys : ∀ r, K r → (h'.region r).phys.Sublist (h.region r).phys := by
    intro r hr
    obtain ⟨l, hl, heq⟩ := hregion r hr
    rw [heq]
    exact hl
  refine ⟨hexact, fun r hr => ?_, fun r q hr hq x hx y hy heq => ?_⟩
  · obtain ⟨l, -, heq⟩ := hregion r hr
    exact (hs.tree r hr).keep (hphys r hr) (by rw [heq]) (fun x hx =>
      hkeep x ⟨r, hr, (hphys r hr).subset hx⟩) hnext
  have hx' := (hphys r hr).subset hx
  have hy' := (hphys q hq).subset hy
  obtain ⟨l, -, hsame⟩ := hregion r hr
  obtain ⟨l', -, hsame'⟩ := hregion q hq
  rw [hsame, hsame']
  exact hs.kind r q hr hq x hx' y hy' (hsplit x y ⟨r, hr, hx'⟩ ⟨q, hq, hy'⟩ heq)

/-! ## Losing a reference -/

lemma Heap.Sound.read_cell (hs : h.Sound K) (hr : K r) (hpr : pr ∈ (h.region r).phys)
    (hc : h.Finds pr c) : h.store.lists.read c = some pr := by
  obtain ⟨l₁, l₂, hl, rfl, -⟩ := hs.exact.found ⟨r, hr, hpr⟩ hc
  exact (h.store.lists.read_lastCell (c := .head (h.store.target pr)) hl).eq_some

lemma Heap.Sound.exact_unref (hs : h.Sound K) (hr : K r) (hpr : pr ∈ (h.region r).phys)
    (hc : h.Finds pr c) : Exact (h.unref c pr).store fun x => x ≠ pr ∧ h.Refs K x := by
  rw [store_unref h (hs.read_cell hr hpr hc)]
  exact hs.exact.drop ⟨r, hr, hpr⟩ hc

lemma unref_shape (h : Heap) (c : Cell BlockId PhysId) (pr x : PhysId) :
    (h.unref c pr).start x = h.start x ∧ (h.unref c pr).stop x = h.stop x := by
  obtain ⟨hph, _, hoff⟩ := unref_physr h c pr x
  have hlen := (unref_block h c pr (h.physr x).ph).1
  simp only [Heap.start, Heap.stop, Heap.blockOf, hph, hoff, hlen, and_self]

lemma unref_next (h : Heap) (c : Cell BlockId PhysId) (pr : PhysId) :
    (h.unref c pr).nextBlock = h.nextBlock ∧ (h.unref c pr).nextPhys = h.nextPhys ∧
      (h.unref c pr).nextRegion = h.nextRegion := by
  simp only [Heap.unref]
  split_ifs
  · cases c <;> exact ⟨rfl, rfl, rfl⟩
  · exact ⟨rfl, rfl, rfl⟩

abbrev Heap.without (h : Heap) (r : RegionId) (c : Cell BlockId PhysId) (pr : PhysId) : Heap :=
  (h.unref c pr).removePhys r pr

lemma removePhys_phys (h : Heap) (r : RegionId) (pr : PhysId) (q : RegionId) :
    ((h.removePhys r pr).region q).phys = if q = r then (h.region q).phys.erase pr
      else (h.region q).phys := by
  rw [Heap.removePhys, Heap.modRegion_region]
  split_ifs <;> rfl

lemma removePhys_same (h : Heap) (r : RegionId) (pr : PhysId) (q : RegionId) :
    (h.removePhys r pr).region q = { h.region q with phys := ((h.removePhys r pr).region q).phys } := by
  rw [Heap.removePhys, Heap.modRegion_region]
  split_ifs <;> rfl

lemma Heap.Sound.mem_removePhys (hs : h.Sound K) {q : RegionId} (hr : K r)
    (hpr : pr ∈ (h.region r).phys) (hq : K q) :
    x ∈ ((h.removePhys r pr).region q).phys ↔ x ≠ pr ∧ x ∈ (h.region q).phys := by
  rw [removePhys_phys]
  split_ifs with heq
  · subst heq
    exact (hs.tree q hq).nodup.mem_erase_iff
  refine ⟨fun hx => ⟨?_, hx⟩, fun hx => hx.2⟩
  rintro rfl
  exact heq (hs.parent_eq hq hr hx hpr)

lemma Heap.Sound.refs_removePhys (hs : h.Sound K) (hr : K r) (hpr : pr ∈ (h.region r).phys) (x : PhysId) :
    (h.removePhys r pr).Refs K x ↔ x ≠ pr ∧ h.Refs K x := by
  constructor
  · rintro ⟨q, hq, hx⟩
    obtain ⟨hne, hx⟩ := (hs.mem_removePhys hr hpr hq).mp hx
    exact ⟨hne, q, hq, hx⟩
  · rintro ⟨hne, q, hq, hx⟩
    exact ⟨q, hq, (hs.mem_removePhys hr hpr hq).mpr ⟨hne, hx⟩⟩

lemma Heap.Fits.keeps_unref (hf : h.Fits r pr) : h.Keeps (h.unref c x) pr := by
  obtain ⟨hblock, hphys, -⟩ := unref_next h c x
  obtain ⟨hph, hparent, -⟩ := unref_physr h c x pr
  obtain ⟨hstart, hstop⟩ := unref_shape h c x pr
  refine ⟨hparent, hstart, hstop, ?_, ?_⟩
  · rw [hphys]
    exact hf.phys_lt
  · rw [hph, hblock]
    exact hf.block_lt

lemma Heap.Sound.remove (hs : h.Sound K) (hr : K r) (hpr : pr ∈ (h.region r).phys)
    (hc : h.Finds pr c) : (h.without r c pr).Sound K := by
  have hregion := unref_region h c pr
  have hphys : ∀ q, ((h.without r c pr).region q).phys =
      ((h.removePhys r pr).region q).phys := by
    intro q
    rw [removePhys_phys, removePhys_phys, hregion]
  have hsame : ∀ q, (h.without r c pr).region q =
      { h.region q with phys := ((h.removePhys r pr).region q).phys } := by
    intro q
    rw [removePhys_same, hphys, hregion]
  refine hs.keep ?_ (fun q _ => ⟨_, ?_, hsame q⟩) ?_ (fun x y _ _ heq => ?_)
    (Nat.le_of_eq (unref_next h c pr).2.2.symm)
  · refine (hs.exact_unref hr hpr hc).congr fun x => ?_
    rw [← hs.refs_removePhys hr hpr x]
    exact exists_congr fun q => by rw [hphys]
  · rw [removePhys_phys]
    split_ifs
    · exact List.erase_sublist
    · exact List.Sublist.refl _
  · rintro x ⟨q, hq, hx⟩
    exact (hs.fits hq hx).keeps_unref.modRegion _
  · exact (unref_physr h c pr x).1.symm.trans (heq.trans (unref_physr h c pr y).1)

/-! ## A block of its own -/

lemma rebase_physr_of_ne (h : Heap) (phys : BitVec 32) (hx : x ≠ pr) :
    (h.rebase pr phys).physr x = h.physr x := by
  simp [Heap.rebase, hx]

lemma rebase_physr_self (h : Heap) (pr : PhysId) (phys : BitVec 32) :
    ((h.rebase pr phys).physr pr).ph = h.nextBlock := by
  simp [Heap.rebase]

lemma rebase_stop (h : Heap) (pr : PhysId) (phys : BitVec 32) (hx : (h.physr x).ph < h.nextBlock) :
    (h.rebase pr phys).stop x = h.stop x := by
  by_cases hxp : x = pr
  · subst hxp
    simp [Heap.rebase, Heap.stop, Heap.start, Heap.blockOf]
  · have hne : (h.physr x).ph ≠ h.nextBlock := Nat.ne_of_lt hx
    simp [Heap.rebase, Heap.stop, Heap.start, Heap.blockOf, hxp, hne]

lemma rebase_start (h : Heap) (pr : PhysId) (phys : BitVec 32) (x : PhysId) :
    (h.rebase pr phys).start x = h.start x ∧ ((h.rebase pr phys).physr x).parent = (h.physr x).parent := by
  by_cases hxp : x = pr
  · subst hxp
    simp [Heap.rebase, Heap.start]
  · simp only [Heap.start, rebase_physr_of_ne h phys hxp, and_self]

lemma Heap.Keeps.rebase (hk : h.Keeps h' x) (phys : BitVec 32) : h.Keeps (h'.rebase pr phys) x := by
  obtain ⟨hstart, hparent⟩ := rebase_start h' pr phys x
  refine ⟨hparent.trans hk.parent, hstart.trans hk.start,
    (rebase_stop h' pr phys hk.block_lt).trans hk.stop, hk.phys_lt, ?_⟩
  by_cases hxp : x = pr
  · subst hxp
    rw [rebase_physr_self]
    exact Nat.lt_succ_self _
  · rw [rebase_physr_of_ne h' phys hxp]
    exact Nat.lt_succ_of_lt hk.block_lt

lemma Heap.Sound.rebase (hs : h.Sound K) (hr : K r) (hpr : pr ∈ (h.region r).phys)
    (hc : h.Finds pr c) (phys : BitVec 32) : ((h.unref c pr).rebase pr phys).Sound K := by
  have hregion : ((h.unref c pr).rebase pr phys).region = h.region := unref_region h c pr
  have hkeeps : ∀ x, h.Refs K x → h.Keeps (h.unref c pr) x := by
    rintro x ⟨q, hq, hx⟩
    exact (hs.fits hq hx).keeps_unref
  refine hs.keep ?_ (fun q _ => ⟨_, List.Sublist.refl _, by rw [hregion]⟩)
    (fun x hx => (hkeeps x hx).rebase phys)
    (fun x y hx hy heq => ?_) (Nat.le_of_eq (unref_next h c pr).2.2.symm)
  · rw [store_rebase]
    refine ((hs.exact_unref hr hpr hc).fresh (by omega) (fun hx => hx.1 rfl) ?_).congr fun x => ?_
    · rintro x ⟨_, hx⟩
      exact Nat.ne_of_lt (hkeeps x hx).block_lt
    have hrefs : ((h.unref c pr).rebase pr phys).Refs K x ↔ h.Refs K x := exists_congr fun q => by
      rw [hregion]
    rw [hrefs]
    constructor
    · intro hx
      by_cases hxp : x = pr
      · exact .inl hxp
      · exact .inr ⟨hxp, hx⟩
    · rintro (rfl | ⟨_, hx⟩)
      · exact ⟨r, hr, hpr⟩
      · exact hx
  · by_cases hxp : x = pr
    · by_cases hyp : y = pr
      · rw [hxp, hyp]
      · rw [hxp, rebase_physr_of_ne _ phys hyp, rebase_physr_self] at heq
        exact absurd heq (Nat.ne_of_gt (hkeeps y hy).block_lt)
    · by_cases hyp : y = pr
      · rw [hyp, rebase_physr_of_ne _ phys hxp, rebase_physr_self] at heq
        exact absurd heq (Nat.ne_of_lt (hkeeps x hx).block_lt)
      · rw [rebase_physr_of_ne _ phys hxp, rebase_physr_of_ne _ phys hyp] at heq
        exact (unref_physr h c pr x).1.symm.trans (heq.trans (unref_physr h c pr y).1)

/-! ## A new block -/

/-- A range of whole pages of a region that no block of its tree touches, with the nodes before and
after it. -/
structure Heap.Gap (h : Heap) (r : RegionId) (offset length : BitVec 32) (l₁ l₂ : List PhysId) : Prop where
  split : (h.region r).phys = l₁ ++ l₂
  left : ∀ x ∈ l₁, h.stop x ≤ offset.toNat
  right : ∀ y ∈ l₂, offset.toNat + length.toNat ≤ h.start y
  pos : 0 < length.toNat
  le : offset.toNat + length.toNat ≤ (h.region r).length.toNat
  offset_dvd : 4096 ∣ offset.toNat
  length_dvd : 4096 ∣ length.toNat

lemma physrInsert_split (pr : PhysId) (h : Heap) {l₁ l₂ : List PhysId}
    (hl : ∀ x ∈ l₁, ¬ (h.physr pr).offset < (h.physr x).offset)
    (hr : ∀ y ∈ l₂, (h.physr pr).offset < (h.physr y).offset) :
    h.physrInsert pr (l₁ ++ l₂) = l₁ ++ pr :: l₂ := by
  induction l₁ with
  | nil =>
    cases l₂ with
    | nil => rfl
    | cons y l₂ =>
      rw [List.nil_append, Heap.physrInsert, if_pos (hr y List.mem_cons_self)]
      rfl
  | cons x l₁ ih =>
    rw [List.cons_append, Heap.physrInsert, if_neg (hl x List.mem_cons_self),
      ih fun z hz => hl z (.tail x hz)]
    rfl

section NewBlock
variable {offset length : BitVec 32} {l₁ l₂ : List PhysId} (phys : BitVec 32)

lemma newBlock_physr_of_lt (h : Heap) (r : RegionId) (offset length : BitVec 32) {x : PhysId}
    (hx : x < h.nextPhys) :
    (h.newBlock r offset length phys).physr x = h.physr x := by
  have hne : x ≠ h.nextPhys := Nat.ne_of_lt hx
  simp [Heap.newBlock, hne]

lemma newBlock_new (h : Heap) (r : RegionId) (offset length : BitVec 32) :
    (h.newBlock r offset length phys).physr h.nextPhys = ⟨h.nextBlock, r, offset, none⟩ ∧
      (h.newBlock r offset length phys).blockOf h.nextPhys = ⟨length, phys, 1, some h.nextPhys⟩ := by
  simp [Heap.newBlock, Heap.blockOf]

lemma Heap.Fits.keeps_newBlock {q : RegionId} {x : PhysId} (hf : h.Fits q x) :
    h.Keeps (h.newBlock r offset length phys) x := by
  refine hf.keeps (newBlock_physr_of_lt phys h r offset length hf.phys_lt) ?_ (Nat.le_succ _) (Nat.le_succ _)
  simp [Heap.newBlock, Nat.ne_of_lt hf.block_lt]

abbrev Heap.withBlock (h : Heap) (r : RegionId) (offset length phys : BitVec 32) : Heap :=
  (h.newBlock r offset length phys).insertPhys r h.nextPhys

lemma Heap.Tree.region_newBlock (ht : h.Tree r) (hg : h.Gap r offset length l₁ l₂) (q : RegionId) :
    (h.withBlock r offset length phys).region q =
      if q = r then { h.region q with phys := l₁ ++ h.nextPhys :: l₂ } else h.region q := by
  have hmem : ∀ x ∈ l₁ ++ l₂, h.Fits r x := fun x hx => ht.fits x (hg.split ▸ hx)
  have hin : (h.newBlock r offset length phys).physrInsert h.nextPhys (l₁ ++ l₂) = l₁ ++
    h.nextPhys :: l₂ := by
    apply physrInsert_split
    · intro x hx
      have hf := hmem x (List.mem_append_left _ hx)
      rw [(newBlock_new phys h r offset length).1,
        newBlock_physr_of_lt phys h r offset length hf.phys_lt, BitVec.lt_def]
      have hleft := hg.left x hx
      have hpos := hf.pos
      exact Nat.not_lt.mpr (Nat.le_of_lt (Nat.lt_of_lt_of_le hpos hleft))
    · intro y hy
      have hf := hmem y (List.mem_append_right _ hy)
      rw [(newBlock_new phys h r offset length).1,
        newBlock_physr_of_lt phys h r offset length hf.phys_lt, BitVec.lt_def]
      exact Nat.lt_of_lt_of_le (Nat.lt_add_of_pos_right hg.pos) (hg.right y hy)
  by_cases hq : q = r
  · subst hq
    rw [if_pos rfl, ← hin, ← hg.split]
    simp [Heap.insertPhys, Heap.modRegion, Heap.newBlock]
  · simp [Heap.insertPhys, Heap.modRegion, Heap.newBlock, hq]

lemma Heap.Tree.newBlock (ht : h.Tree r) (hg : h.Gap r offset length l₁ l₂) :
    (h.withBlock r offset length phys).Tree r := by
  have hregion := ht.region_newBlock phys hg r
  rw [if_pos rfl] at hregion
  have hmem : ∀ x ∈ l₁ ++ l₂, x ∈ (h.region r).phys := fun x hx => hg.split ▸ hx
  have hkeeps : ∀ x ∈ l₁ ++ l₂, h.Keeps (h.withBlock r offset length phys) x := fun x hx =>
    ((ht.fits x (hmem x hx)).keeps_newBlock phys).modRegion _
  obtain ⟨hnew, hblock⟩ := newBlock_new phys h r offset length
  have hstart : (h.withBlock r offset length phys).start h.nextPhys = offset.toNat :=
    congrArg (fun x => x.offset.toNat) hnew
  have hstop : (h.withBlock r offset length phys).stop h.nextPhys =
      offset.toNat + length.toNat := by
    rw [Heap.stop, hstart]
    exact congrArg (fun x => offset.toNat + x.length.toNat) hblock
  have hlength : ((h.withBlock r offset length phys).region r).length = (h.region r).length := by
    rw [hregion]
  have hlaid := laid_keep (hg.split ▸ ht.laid) hkeeps
  rw [List.pairwise_append] at hlaid
  refine ⟨fun x hx => ?_, ?_, ?_, ht.lt⟩
  · rw [hregion, List.mem_append, List.mem_cons, or_left_comm, ← List.mem_append] at hx
    rcases hx with rfl | hx
    · refine Heap.fits_of hstart hstop (hlength ▸ hg.le) (Nat.lt_add_of_pos_right hg.pos) hg.offset_dvd
        (Nat.dvd_add hg.offset_dvd hg.length_dvd) (congrArg PhysRegion.parent hnew) (Nat.lt_succ_self _) ?_
      exact Nat.lt_of_le_of_lt (Nat.le_of_eq (congrArg PhysRegion.ph hnew)) (Nat.lt_succ_self _)
    · exact (ht.fits x (hmem x hx)).keep (hkeeps x hx) hlength
  · rw [hregion]
    rw [List.pairwise_append, List.pairwise_cons]
    refine ⟨hlaid.1, ⟨fun y hy => ?_, hlaid.2.1⟩, fun x hx y hy => ?_⟩
    · rw [hstop, (hkeeps y (List.mem_append_right _ hy)).start]
      exact hg.right y hy
    rcases List.mem_cons.mp hy with rfl | hy
    · rw [(hkeeps x (List.mem_append_left _ hx)).stop, hstart]
      exact hg.left x hx
    · exact hlaid.2.2 x hx y hy
  · rw [hregion]
    exact ht.dvd

structure Heap.Grown (h h' : Heap) (K : RegionId → Prop) (r : RegionId) : Prop where
  mem : ∀ q x, x ∈ (h'.region q).phys ↔ (q = r ∧ x = h.nextPhys) ∨ x ∈ (h.region q).phys
  same : ∀ q, h'.region q = { h.region q with phys := (h'.region q).phys }
  old : ∀ {q x}, K q → x ∈ (h.region q).phys → (h'.physr x).ph = (h.physr x).ph
  new : (h'.physr h.nextPhys).ph = h.nextBlock

lemma Heap.Sound.grown (hs : h.Sound K) (hr : K r) (hg : h.Gap r offset length l₁ l₂) :
    h.Grown (h.withBlock r offset length phys) K r := by
  have hregion := (hs.tree r hr).region_newBlock phys hg
  refine ⟨fun q x => ?_, fun q => ?_, fun hq hx => ?_,
    congrArg PhysRegion.ph (newBlock_new phys h r offset length).1⟩
  · rw [hregion]
    split_ifs with hq
    · subst hq
      rw [hg.split]
      simp only [List.mem_append, List.mem_cons, true_and]
      exact or_left_comm
    · exact ⟨.inr, fun hx => hx.resolve_left fun hx => hq hx.1⟩
  · rw [hregion]
    split_ifs <;> rfl
  · exact congrArg _ (newBlock_physr_of_lt phys h r offset length (hs.fits hq hx).phys_lt)

lemma Heap.Grown.flags (hg : h.Grown h' K r) (q : RegionId) : (h'.region q).flags = (h.region q).flags := by
  rw [hg.same]

lemma Heap.Sound.newBlock (hs : h.Sound K) (hr : K r) (hg : h.Gap r offset length l₁ l₂) :
    (h.withBlock r offset length phys).Sound K := by
  have hregion := (hs.tree r hr).region_newBlock phys hg
  have hgrown := hs.grown phys hr hg
  have hrefs : ∀ x, (h.withBlock r offset length phys).Refs K x ↔
      x = h.nextPhys ∨ h.Refs K x := by
    intro x
    constructor
    · rintro ⟨q, hq, hx⟩
      rcases (hgrown.mem q x).mp hx with ⟨_, hx⟩ | hx
      · exact .inl hx
      · exact .inr ⟨q, hq, hx⟩
    · rintro (rfl | ⟨q, hq, hx⟩)
      · exact ⟨r, hr, (hgrown.mem r h.nextPhys).mpr (.inl ⟨rfl, rfl⟩)⟩
      · exact ⟨q, hq, (hgrown.mem q x).mpr (.inr hx)⟩
  refine ⟨?_, fun q hq => ?_, ?_⟩
  · refine Exact.congr (?_ : Exact _ fun x => x = h.nextPhys ∨ h.Refs K x) hrefs
    rw [Heap.withBlock, Heap.insertPhys, store_modRegion, store_newBlock]
    refine hs.exact.fresh (by omega) ?_ ?_
    · rintro ⟨q, hq, hx⟩
      exact Nat.lt_irrefl _ (hs.fits hq hx).phys_lt
    · rintro x ⟨q, hq, hx⟩
      exact Nat.ne_of_lt (hs.fits hq hx).block_lt
  · by_cases hqr : q = r
    · subst hqr
      exact (hs.tree q hq).newBlock phys hg
    have hsame := hregion q
    rw [if_neg hqr] at hsame
    refine (hs.tree q hq).keep ?_ (congrArg VirRegion.length hsame) (fun x hx => ?_) (Nat.le_refl _)
    · rw [hsame]
    · rw [hsame] at hx
      exact ((hs.fits hq hx).keeps_newBlock phys).modRegion _
  · intro q q' hq hq' x hx y hy heq
    rw [hgrown.flags, hgrown.flags]
    rcases (hgrown.mem q x).mp hx with ⟨hqr, hxn⟩ | hxo
    · rcases (hgrown.mem q' y).mp hy with ⟨hqr', _⟩ | hyo
      · rw [hqr, hqr']
      · rw [hxn, hgrown.new, hgrown.old hq' hyo] at heq
        exact absurd heq (Nat.ne_of_gt (hs.fits hq' hyo).block_lt)
    rcases (hgrown.mem q' y).mp hy with ⟨_, hyn⟩ | hyo
    · rw [hyn, hgrown.new, hgrown.old hq hxo] at heq
      exact absurd heq (Nat.ne_of_lt (hs.fits hq hxo).block_lt)
    · rw [hgrown.old hq hxo, hgrown.old hq' hyo] at heq
      exact hs.kind q q' hq hq' x hxo y hyo heq

end NewBlock

/-! ## Other changes of a tree -/

lemma Heap.Sound.recount (hs : h.Sound K) {K' : RegionId → Prop}
    (hK : ∀ r, (h.region r).phys ≠ [] → (K' r ↔ K r))
    (htree : ∀ r, K' r → h.Tree r) : h.Sound K' := by
  have hmem : ∀ {r x}, x ∈ (h.region r).phys → (K' r ↔ K r) := fun hx => hK _ (List.ne_nil_of_mem hx)
  refine ⟨hs.exact.congr fun x => ?_, htree, fun r q hr hq x hx y hy => ?_⟩
  · constructor
    · rintro ⟨r, hr, hx⟩
      exact ⟨r, (hmem hx).mp hr, hx⟩
    · rintro ⟨r, hr, hx⟩
      exact ⟨r, (hmem hx).mpr hr, hx⟩
  · exact hs.kind r q ((hmem hx).mp hr) ((hmem hy).mp hq) x hx y hy

lemma Heap.Sound.drop (hs : h.Sound K) (hempty : (h.region r).phys = []) : h.Sound fun q => K q ∧ q ≠ r := by
  refine hs.recount (fun q hq => ⟨fun hk => hk.1, fun hk => ⟨hk, ?_⟩⟩) fun q hq => hs.tree q hq.1
  rintro rfl
  exact hq hempty

lemma Heap.Sound.allocRegion (hs : h.Sound K) (x : VirRegion) : (h.newRegion x).Sound K := by
  have hold : ∀ q, K q → (h.newRegion x).region q = h.region q := by
    intro q hq
    have hne : q ≠ h.nextRegion := Nat.ne_of_lt (hs.tree q hq).lt
    simp [Heap.newRegion, hne]
  refine hs.keep (hs.exact.congr fun y => exists_congr fun q => and_congr_right fun hq => by rw [hold q hq])
    (fun q hq => ⟨_, List.Sublist.refl _, by rw [hold q hq]⟩) ?_ (fun _ _ _ _ heq => heq) (Nat.le_succ _)
  rintro y ⟨q, hq, hy⟩
  exact (hs.fits hq hy).keeps rfl rfl (Nat.le_refl _) (Nat.le_refl _)

lemma Heap.Sound.newRegion (hs : h.Sound K) {x : VirRegion} (hdvd : 4096 ∣ x.length.toNat) :
    (h.newRegion x).Sound fun q => q = h.nextRegion ∨ K q := by
  have hnew : (h.newRegion x).region h.nextRegion = { x with phys := [] } := by simp [Heap.newRegion]
  have hsound := hs.allocRegion x
  refine hsound.recount (fun q hq => ⟨fun hk => hk.resolve_left ?_, .inr⟩) fun q hq => ?_
  · rintro rfl
    exact hq (by rw [hnew])
  rcases hq with rfl | hq
  · refine ⟨fun y hy => ?_, ?_, ?_, Nat.lt_succ_self _⟩
    · rw [hnew] at hy
      nomatch hy
    · rw [hnew]
      exact List.Pairwise.nil
    · rw [hnew]
      exact hdvd
  · exact hsound.tree q hq

lemma Heap.Sound.retree (hs : h.Sound K) (hstore : h'.store = h.store)
    (hphys : ∀ q, (h'.region q).phys = (h.region q).phys)
    (hflags : ∀ q, (h'.region q).flags = (h.region q).flags)
    (hother : ∀ q, K q → q ≠ r → h'.Tree q) (htree : K r → h'.Tree r) : h'.Sound K := by
  have htarget : ∀ x, (h'.physr x).ph = (h.physr x).ph := fun x => congrFun (congrArg Store.target hstore) x
  refine ⟨?_, fun q hq => ?_, fun q q' hq hq' x hx y hy heq => ?_⟩
  · rw [hstore]
    exact hs.exact.congr fun y => exists_congr fun q => by rw [hphys q]
  · by_cases hqr : q = r
    · subst hqr
      exact htree hq
    · exact hother q hq hqr
  · rw [hphys] at hx hy
    rw [hflags, hflags]
    rw [htarget, htarget] at heq
    exact hs.kind q q' hq hq' x hx y hy heq

section Cut
variable {sublen : BitVec 32}

lemma cutFront_physr (h : Heap) (pr : PhysId) (sublen : BitVec 32) (x : PhysId) :
    (h.cutFront pr sublen).physr x =
      if x = pr then { h.physr x with offset := (h.physr x).offset + sublen } else h.physr x :=
  h.modPhys_physr pr (fun x => { x with offset := x.offset + sublen }) x

lemma cutFront_block (h : Heap) (pr : PhysId) (sublen : BitVec 32) (b : BlockId) :
    (h.cutFront pr sublen).block b =
      if b = (h.physr pr).ph then
        { h.block b with phys := (h.block b).phys + sublen, length := (h.block b).length - sublen }
      else h.block b :=
  Heap.modBlock_block ..

lemma store_cutFront (h : Heap) (pr : PhysId) (sublen : BitVec 32) :
    (h.cutFront pr sublen).store = h.store := by
  apply store_eq
  all_goals
    intro i
    simp only [cutFront_block, cutFront_physr]
    split_ifs <;> rfl

lemma Heap.Sound.alone (hs : h.Sound K) (hr : K r) (hpr : pr ∈ (h.region r).phys)
    (hone : (h.blockOf pr).refcount = 1)
    {x : PhysId} (hx : h.Refs K x) (heq : (h.physr x).ph = (h.physr pr).ph) : x = pr := by
  refine hs.exact.eq_of_one hx ⟨r, hr, hpr⟩ heq ?_
  have hcount : h.store.count (h.store.target x) = (h.block (h.physr x).ph).refcount := rfl
  rw [hcount, heq]
  exact congrArg BitVec.toNat hone

lemma Heap.Fits.cutFront_self (hf : h.Fits r pr) (hlt : h.start pr + sublen.toNat < h.stop pr) :
    (h.cutFront pr sublen).start pr = h.start pr + sublen.toNat ∧
      (h.cutFront pr sublen).stop pr = h.stop pr := by
  have hle := hf.le
  have hbound := (h.region r).length.isLt
  have hstart : (h.cutFront pr sublen).start pr = h.start pr + sublen.toNat := by
    unfold Heap.start at hlt ⊢
    rw [cutFront_physr, if_pos rfl]
    simp only [BitVec.toNat_add]
    exact Nat.mod_eq_of_lt (by omega)
  have hph : ((h.cutFront pr sublen).physr pr).ph = (h.physr pr).ph := by
    rw [cutFront_physr, if_pos rfl]
  refine ⟨hstart, ?_⟩
  unfold Heap.stop at hlt ⊢
  rw [hstart]
  unfold Heap.blockOf at hlt ⊢
  rw [hph, cutFront_block, if_pos rfl]
  have hsub : sublen ≤ (h.block (h.physr pr).ph).length := by
    rw [BitVec.le_def]
    omega
  simp only [BitVec.toNat_sub_of_le hsub]
  rw [BitVec.le_def] at hsub
  omega

lemma Heap.Sound.cutFront (hs : h.Sound K) (hr : K r) (hpr : pr ∈ (h.region r).phys)
    (hone : (h.blockOf pr).refcount = 1) (hdvd : 4096 ∣ sublen.toNat)
    (hlt : h.start pr + sublen.toNat < h.stop pr) :
    (h.cutFront pr sublen).Sound K := by
  have hother : ∀ q, K q → ∀ x ∈ (h.region q).phys, x ≠ pr → h.Keeps (h.cutFront pr sublen) x := by
    intro q hq x hx hxp
    refine (hs.fits hq hx).keeps (by rw [cutFront_physr, if_neg hxp]) ?_ (Nat.le_refl _) (Nat.le_refl _)
    rw [cutFront_block, if_neg fun heq => hxp (hs.alone hr hpr hone ⟨q, hq, hx⟩ heq)]
  refine hs.retree (r := r) (store_cutFront h pr sublen) (fun _ => rfl) (fun _ => rfl)
    (fun q hq hqr => ?_) fun hr => ?_
  · refine (hs.tree q hq).keep (List.Sublist.refl _) rfl (fun x hx => hother q hq x hx ?_) (Nat.le_refl _)
    rintro rfl
    exact hqr (hs.parent_eq hq hr hx hpr)
  have hf := hs.fits hr hpr
  obtain ⟨hstart, hstop⟩ := hf.cutFront_self hlt
  have hmono : ∀ x ∈ (h.region r).phys, h.start x ≤ (h.cutFront pr sublen).start x ∧
      (h.cutFront pr sublen).stop x = h.stop x := by
    intro x hx
    by_cases hxp : x = pr
    · subst hxp
      rw [hstart]
      exact ⟨Nat.le_add_right _ _, hstop⟩
    · have hk := hother r hr x hx hxp
      exact ⟨Nat.le_of_eq hk.start.symm, hk.stop⟩
  refine ⟨fun x hx => ?_, ?_, (hs.tree r hr).dvd, (hs.tree r hr).lt⟩
  · by_cases hxp : x = pr
    · subst hxp
      have hphysr := cutFront_physr h x sublen x
      rw [if_pos rfl] at hphysr
      refine Heap.fits_of hstart hstop hf.le hlt (Nat.dvd_add hf.start_dvd hdvd) hf.stop_dvd ?_ hf.phys_lt ?_
      · rw [hphysr]
        exact hf.parent
      · rw [hphysr]
        exact hf.block_lt
    · exact (hs.fits hr hx).keep (hother r hr x hx hxp) rfl
  · refine (hs.tree r hr).laid.imp_of_mem fun {x y} hx hy hxy => ?_
    rw [(hmono x hx).2]
    exact Nat.le_trans hxy (hmono y hy).1

end Cut

section Shift
variable {len : BitVec 32}

lemma shiftOffsets_spec (len : BitVec 32) (l : List PhysId) (h : Heap) :
    ∃ f, Heap.shiftOffsets len l h = { h with physr := f } ∧
    (l.Nodup → ∀ x, f x = if x ∈ l then { h.physr x with offset := (h.physr x).offset - len }
      else h.physr x) := by
  induction l generalizing h with
  | nil => exact ⟨h.physr, rfl, fun _ x => by simp⟩
  | cons a l ih =>
    obtain ⟨f, hf, hat⟩ := ih (h.modPhys a fun x => { x with offset := x.offset - len })
    refine ⟨f, hf, fun hl x => ?_⟩
    obtain ⟨ha, hl⟩ := List.nodup_cons.mp hl
    rw [hat hl x]
    by_cases hx : x = a
    · subst hx
      simp [ha, Heap.modPhys]
    · simp [hx, Heap.modPhys]

structure Shrunk (h h' : Heap) (r : RegionId) (len : BitVec 32) : Prop where
  block : h'.block = h.block
  nextPhys : h'.nextPhys = h.nextPhys
  nextBlock : h'.nextBlock = h.nextBlock
  nextRegion : h'.nextRegion = h.nextRegion
  region : ∀ q, h'.region q =
    if q = r then { h.region q with
      vaddr := (h.region q).vaddr + len, length := (h.region q).length - len }
    else h.region q
  physr : ∀ x, h'.physr x =
    if x ∈ (h.region r).phys then { h.physr x with offset := (h.physr x).offset - len } else h.physr x

lemma shrink_shrunk (len : BitVec 32) (hnd : (h.region r).phys.Nodup) : Shrunk h (h.shrink r len) r len := by
  obtain ⟨f, hf, hat⟩ := shiftOffsets_spec len (h.region r).phys
    (h.modRegion r fun x => { x with vaddr := x.vaddr + len, length := x.length - len })
  rw [Heap.shrink, hf]
  refine ⟨rfl, rfl, rfl, rfl, fun q => ?_, hat hnd⟩
  simp only [Heap.modRegion_region]

lemma Shrunk.ph (hsh : Shrunk h h' r len) (x : PhysId) : (h'.physr x).ph = (h.physr x).ph := by
  rw [hsh.physr]
  split_ifs <;> rfl

lemma Shrunk.phys (hsh : Shrunk h h' r len) (q : RegionId) : (h'.region q).phys = (h.region q).phys := by
  rw [hsh.region]
  split_ifs <;> rfl

lemma Shrunk.flags (hsh : Shrunk h h' r len) (q : RegionId) : (h'.region q).flags = (h.region q).flags := by
  rw [hsh.region]
  split_ifs <;> rfl

lemma Heap.Sound.shrink (hs : h.Sound K) (hr : K r) (hlen : ∀ x ∈ (h.region r).phys, len.toNat ≤ h.start x)
    (hle : len.toNat ≤ (h.region r).length.toNat) (hdvd : 4096 ∣ len.toNat) : (h.shrink r len).Sound K := by
  have hsh := shrink_shrunk len (hs.tree r hr).nodup
  have hblock' := hsh.block
  have hregion := hsh.region
  have hphysr' := hsh.physr
  have hph := hsh.ph
  have hwidth : ∀ x, ((h.shrink r len).blockOf x).length = (h.blockOf x).length := by
    intro x
    rw [Heap.blockOf, hph, hblock']
    rfl
  refine hs.retree (r := r) ?_ hsh.phys hsh.flags (fun q hq hqr => ?_) fun hr => ?_
  · refine store_eq (fun b => by rw [hblock']; rfl) (fun x => ?_) hph fun b => by rw [hblock']; rfl
    rw [hphysr']
    split_ifs <;> rfl
  · refine (hs.tree q hq).keep ?_ (by rw [hregion, if_neg hqr]) (fun x hx => ?_)
      (Nat.le_of_eq hsh.nextRegion.symm)
    · rw [hsh.phys]
    · rw [hsh.phys] at hx
      refine (hs.fits hq hx).keeps ?_ (by rw [hblock']) (Nat.le_of_eq hsh.nextPhys.symm)
        (Nat.le_of_eq hsh.nextBlock.symm)
      rw [hphysr', if_neg fun hxr => hqr (hs.parent_eq hq hr hx hxr)]
  · have hshift : ∀ x ∈ (h.region r).phys, (h.shrink r len).start x = h.start x - len.toNat ∧
        (h.shrink r len).stop x = h.stop x - len.toNat := by
      intro x hx
      have hlx := hlen x hx
      have hstart : (h.shrink r len).start x = h.start x - len.toNat := by
        rw [Heap.start, hphysr', if_pos hx]
        exact BitVec.toNat_sub_of_le (BitVec.le_def.mpr hlx)
      refine ⟨hstart, ?_⟩
      rw [Heap.stop, hstart, hwidth, Heap.stop]
      omega
    have hlength : ((h.shrink r len).region r).length.toNat = (h.region r).length.toNat - len.toNat := by
      rw [hregion, if_pos rfl]
      exact BitVec.toNat_sub_of_le (BitVec.le_def.mpr hle)
    refine ⟨fun x hx => ?_, ?_, ?_, Nat.lt_of_lt_of_eq (hs.tree r hr).lt hsh.nextRegion.symm⟩
    · rw [hsh.phys] at hx
      have hf := hs.fits hr hx
      obtain ⟨hstart, hstop⟩ := hshift x hx
      have hpos := hf.pos
      have hlx := hlen x hx
      refine Heap.fits_of hstart hstop (hlength ▸ Nat.sub_le_sub_right hf.le _) (by omega)
        (Nat.dvd_sub hf.start_dvd hdvd)
        (Nat.dvd_sub hf.stop_dvd hdvd) ?_ (Nat.lt_of_lt_of_eq hf.phys_lt hsh.nextPhys.symm) ?_
      · rw [hphysr', if_pos hx]
        exact hf.parent
      · rw [hph]
        exact Nat.lt_of_lt_of_eq hf.block_lt hsh.nextBlock.symm
    · rw [hsh.phys]
      refine (hs.tree r hr).laid.imp_of_mem fun {x y} hx hy hxy => ?_
      rw [(hshift x hx).2, (hshift y hy).1]
      exact Nat.sub_le_sub_right hxy _
    · rw [hlength]
      exact Nat.dvd_sub (hs.tree r hr).dvd hdvd

end Shift

end Nucleos.Vm
