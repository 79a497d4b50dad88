import Nucleos.Vm.Mirror

/-!
# A process has a block at most once

Blocks come into a tree new, as copies that are new, or by a fork, which gives the child one
physical region for each of the parent. No process therefore has two physical regions of the same
block, and the count of a block, a byte, cannot run over: there are fewer processes than that.
-/

namespace Nucleos.Vm

open IntrusiveList Sharing Run Relation

variable {s t u : State} {h h' : Heap} {K K' : RegionId → Prop} {p q : ProcId} {r vr : RegionId}
    {x pr : PhysId}

def Heap.Single (h : Heap) (K : RegionId → Prop) : Prop :=
  ∀ q q', K q → K q' → (h.region q).parent = (h.region q').parent → ∀ x ∈ (h.region q).phys,
    ∀ y ∈ (h.region q').phys,
    (h.physr x).ph = (h.physr y).ph → x = y

def Heap.Only (h : Heap) (K : RegionId → Prop) (x : PhysId) : Prop :=
  ∀ q, K q → ∀ y ∈ (h.region q).phys, (h.physr y).ph = (h.physr x).ph → y = x

lemma Heap.Single.keep (h' : Heap) (hs : h.Single K)
    (hnode : ∀ q, K' q → ∀ y ∈ (h'.region q).phys,
      (K q ∧ (h'.region q).parent = (h.region q).parent ∧ y ∈ (h.region q).phys ∧
      (h'.physr y).ph = (h.physr y).ph) ∨ h'.Only K' y) : h'.Single K' := by
  intro q q' hq hq' hp x hx y hy heq
  rcases hnode q hq x hx with ⟨hq₀, hparent, hx', hphx⟩ | honly
  · rcases hnode q' hq' y hy with ⟨hq₀', hparent', hy', hphy⟩ | honly
    · rw [hparent, hparent'] at hp
      rw [hphx, hphy] at heq
      exact hs q q' hq₀ hq₀' hp x hx' y hy' heq
    · exact honly q hq x hx heq
  · exact (honly q' hq' y hy heq.symm).symm

lemma Heap.Single.recount (hs : h.Single K) (hK : ∀ r, (h.region r).phys ≠ [] → K' r → K r) : h.Single K' :=
  fun q q' hq hq' hp x hx y hy =>
    hs q q' (hK q (List.ne_nil_of_mem hx) hq) (hK q' (List.ne_nil_of_mem hy) hq') hp x hx y hy

lemma withBlock_single {offset length : BitVec 32} {l₁ l₂ : List PhysId} (hone : h.Single K)
    (hs : h.Sound K) (hr : K r)
    (hgap : h.Gap r offset length l₁ l₂) (phys : BitVec 32) :
    (h.withBlock r offset length phys).Single K := by
  have hgrown := hs.grown phys hr hgap
  refine hone.keep _ fun q hq y hy => ?_
  rcases (hgrown.mem q y).mp hy with ⟨-, rfl⟩ | hy
  · refine .inr fun q' hq' z hz heq => (((hgrown.mem q' z).mp hz).resolve_right fun hz => ?_).2
    rw [hgrown.old hq' hz, hgrown.new] at heq
    exact Nat.ne_of_lt (hs.fits hq' hz).block_lt heq
  · exact .inl ⟨hq, by rw [hgrown.same], hy, hgrown.old hq hy⟩

variable {limit : Nat} {A : Prop}

lemma Update.single (h : Update r limit A s t) (hs : s.heap.Sound K) (hr : K r)
    (hone : s.heap.Single K) : t.heap.Single K := by
  cases h with
  | aside ha =>
    rw [ha.heap]
    exact hone
  | map pr _ => exact hone
  | add _ hgap _ => exact withBlock_single hone hs hr hgap _
  | @copy _ _ pr c base _ _ _ _ =>
    rw [copyBlock_heap]
    have hregion : (s.heap.moved c pr (base <<< 12)).region = s.heap.region := moved_region s.heap c pr _
    have hph := moved_ph s.heap c pr (base <<< 12)
    refine hone.keep (s.heap.moved c pr (base <<< 12)) fun q hq y hy => ?_
    rw [hregion] at hy
    by_cases hy' : y = pr
    · subst hy'
      refine .inr fun q' hq' z hz heq => ?_
      by_contra hz'
      rw [hph, hph, if_neg hz', if_pos rfl] at heq
      rw [hregion] at hz
      exact Nat.ne_of_lt (hs.fits hq' hz).block_lt heq
    · refine .inl ⟨hq, by rw [hregion], hy, ?_⟩
      rw [hph, if_neg hy']
  | @drop _ pr c _ _ _ =>
    have hregion : (s.heap.unref c pr).region = s.heap.region := unref_region s.heap c pr
    rw [dropRef_removed]
    refine hone.keep _ fun q hq y hy => .inl ⟨hq, ?_, ?_, (unref_physr s.heap c pr y).1⟩
    · have hsame : (s.heap.without r c pr).region q = _ := removePhys_same (s.heap.unref c pr) r pr q
      rw [hsame, hregion]
    rw [removePhys_phys, hregion] at hy
    split_ifs at hy
    · exact List.mem_of_mem_erase hy
    · exact hy
  | @cut _ pr sublen _ _ _ _ _ =>
    rw [cutBlock_heap]
    refine hone.keep _ fun q hq y hy => .inl ⟨hq, rfl, hy, ?_⟩
    rw [cutFront_physr]
    split_ifs <;> rfl

lemma Updates.single (h : Updates r limit A s t) (hs : s.heap.Sound K) (hr : K r)
    (hone : s.heap.Single K) : t.heap.Single K := by
  induction h with
  | refl => exact hone
  | @tail u u' hup hstep ih =>
    have hup' : Updates r limit A s u := hup
    exact hstep.single (hup'.sound hr hs) hr ih

/-! ## Few processes -/

/-- Every process has a block at most once, and only the processes there can be have memory. -/
structure State.Sparse (s : State) : Prop where
  single : s.heap.Single s.Held
  slots : ∀ p, (s.proc p).vmRegions ≠ [] → p < nrProcs

lemma State.Sparse.uncrowded (hs : s.Sparse)
    (hparent : ∀ p, ∀ r ∈ (s.proc p).vmRegions, (s.heap.region r).parent = p) :
    s.Uncrowded := by
  intro b k hnd hk
  have howner : ∀ x, ∃ p, x ∈ k → p < nrProcs ∧ ∃ r ∈ (s.proc p).vmRegions, x ∈ (s.heap.region r).phys := by
    intro x
    by_cases hx : x ∈ k
    · obtain ⟨⟨r, ⟨p, hr⟩, hxr⟩, -⟩ := hk x hx
      exact ⟨p, fun _ => ⟨hs.slots p (List.ne_nil_of_mem hr), r, hr, hxr⟩⟩
    · exact ⟨0, fun hx' => absurd hx' hx⟩
  choose owner howner using howner
  have hinj : ∀ x ∈ k, ∀ y ∈ k, owner x = owner y → x = y := by
    intro x hx y hy heq
    obtain ⟨-, r, hr, hxr⟩ := howner x hx
    obtain ⟨-, r', hr', hyr⟩ := howner y hy
    refine hs.single r r' ⟨_, hr⟩ ⟨_, hr'⟩ ?_ x hxr y hyr ((hk x hx).2.trans (hk y hy).2.symm)
    rw [hparent _ r hr, hparent _ r' hr', heq]
  have hsub : k.map owner ⊆ List.range nrProcs := by
    intro p hp
    obtain ⟨x, hx, rfl⟩ := List.mem_map.mp hp
    exact List.mem_range.mpr (howner x hx).1
  have hlen := (List.subperm_of_subset (hnd.map_on hinj) hsub).length_le
  rw [List.length_map, List.length_range] at hlen
  exact Nat.le_trans hlen (by decide)

lemma State.Sparse.frame (hs : s.Sparse) (hframe : Frame s t) (hsingle : t.heap.Single s.Held) :
    t.Sparse := by
  refine ⟨?_, fun p hp => hs.slots p ?_⟩
  · rw [hframe.held]
    exact hsingle
  · rw [hframe.vmRegions] at hp
    exact hp

lemma State.Sparse.aside (hs : s.Sparse) (ha : Aside s t) : t.Sparse := by
  refine hs.frame ha.frame ?_
  rw [ha.heap]
  exact hs.single

lemma State.Sparse.updates (hs : s.Sparse) (ht : s.Tidy) (hr : s.Held r) (h : Updates r limit A s t) :
    t.Sparse :=
  hs.frame h.frame (h.single ht.sound hr hs.single)

lemma State.Sparse.relist (hs : s.heap.Single K) (hheap : t.heap = s.heap)
    (hK : ∀ r, (s.heap.region r).phys ≠ [] → t.Held r → K r)
    (hslots : ∀ p, (t.proc p).vmRegions ≠ [] → p < nrProcs) : t.Sparse := by
  refine ⟨?_, hslots⟩
  rw [hheap]
  exact hs.recount hK

/-! ## The operations -/

lemma newRegion_single (hs : s.Tidy) (hsparse : s.Sparse) (y : VirRegion) :
    (s.heap.newRegion y).Single s.Building := by
  refine hsparse.single.keep _ fun q hq x hx => .inl ?_
  rcases hq with rfl | hq
  · rw [newRegion_new] at hx
    nomatch hx
  have hregion := hs.newRegion_region y hq
  rw [hregion] at hx
  exact ⟨hq, by rw [hregion], hx, rfl⟩

section Page
variable {minv maxv length what startv : BitVec 32} {flags : BitVec 16} {prealloc : Bool}

lemma pageRegion_single (hs : s.Tidy) (hsparse : s.Sparse) (p : ProcId) (hpos : 0 < length.toNat)
    (hdvd : 4096 ∣ length.toNat) :
    (s.pageRegion p startv length what flags).heap.Single s.Building := by
  have hsite := hs.site_newRegion p startv flags hdvd
  have hnew := newRegion_single hs hsparse ⟨startv, length, [], flags, vrtNone, p⟩
  unfold State.pageRegion
  simp only
  split_ifs
  · exact hnew
  · exact withBlock_single hnew hsite.sound hsite.mem (gap_newRegion s.heap p startv flags hpos hdvd) what

lemma mapPageRegion_sparse {res : Option RegionId} (hs : s.Tidy) (hsparse : s.Sparse)
    (hp : p < nrProcs) (hpos : 0 < length.toNat)
    (hdvd : 4096 ∣ length.toNat) (hwhat : what ≠ mapNone → prealloc = false)
    (h : mapPageRegion p minv maxv length what flags prealloc s = .ok (res, t)) : t.Sparse := by
  rcases mapPageRegion_spec hs hpos hdvd hwhat h
    with ⟨-, ha | ⟨y, ha⟩⟩ | ⟨startv, prev, u, hslot, -, hup, rfl⟩
  · exact hsparse.aside ha
  · refine State.Sparse.aside (s := s.modHeap fun h => h.newRegion y) ⟨?_, hsparse.slots⟩ ha
    exact (newRegion_single hs hsparse y).recount fun _ _ hq => .inr hq
  have hsite := hs.site_pageRegion p startv what flags hpos hdvd
  have hu := hup.single hsite.sound hsite.mem (pageRegion_single hs hsparse p hpos hdvd)
  refine State.Sparse.relist hu rfl (fun q _ hq => ?_) fun q hq => ?_
  · rw [held_linked hup hslot] at hq
    exact hq
  by_cases hqp : q = p
  · rw [hqp]
    exact hp
  refine hsparse.slots q ?_
  have hlist : ((u.link p s.heap.nextRegion prev).proc q).vmRegions = (s.proc q).vmRegions := by
    simp only [State.link, State.modProc, Function.update_of_ne hqp]
    exact vmRegions_paged hup q
  rw [hlist] at hq
  exact hq

end Page

variable {len : BitVec 32}

lemma unmapFront_sparse (hs : s.Tidy) (hsparse : s.Sparse) (hr : r ∈ (s.proc p).vmRegions)
    (hdvd : 4096 ∣ len.toNat)
    (h : unmapFront p r len s = .ok t) : t.Sparse := by
  have hheld : s.Held r := ⟨p, hr⟩
  cases unmapFront_gone hs hr hdvd h with
  | all hup hempty =>
    refine ⟨(hup.single hs.sound hheld hsparse.single).recount fun q _ hq => ?_, fun q hq =>
      hsparse.slots q fun hnil => hq ?_⟩
    · rw [hup.frame.held] at hq
      exact ((hs.held_unlink hr q).mp hq).1
    · rw [hup.frame.vmRegions, unlink_vmRegions, hnil]
      exact ite_self _
  | @front s₁ hup =>
    obtain ⟨hsingle, hslots⟩ := hsparse.updates hs hheld hup
    have htree : s₁.heap.Tree r := (hs.updates hr hup).sound.tree r (by rw [hup.frame.held]; exact hheld)
    have hsh := shrink_shrunk len htree.nodup
    refine ⟨hsingle.keep _ fun q hq y hy => .inl ⟨hq, ?_, ?_, hsh.ph y⟩, hslots⟩
    · have hregion : (s₁.modHeap fun h => h.shrink r len).heap.region q = _ := hsh.region q
      rw [hregion]
      split_ifs <;> rfl
    · have hphys : ((s₁.modHeap fun h => h.shrink r len).heap.region q).phys =
        (s₁.heap.region q).phys := hsh.phys q
      rw [hphys] at hy
      exact hy

lemma mapUnmapRegion_sparse (hs : s.Tidy) (hsparse : s.Sparse) (h : mapUnmapRegion p r len s = .ok (0, t)) :
    t.Sparse := by
  obtain ⟨hr, -, hdvd, -, u, hunmap, ha⟩ := mapUnmapRegion_inv h
  have hu := unmapFront_sparse hs hsparse hr hdvd hunmap
  exact (hu.frame (setPtes_frame u p _ _ _) hu.single).aside ha

variable {l : List RegionId}

lemma freeRegions_sparse (hs : s.Tidy) (hsparse : s.Sparse) (hregions : (s.proc p).vmRegions = l)
    (h : freeRegions p l s = .ok t) : t.Sparse := by
  refine (freeRegions_rule (fun {s t r} hf hsparse => ?_) hs hsparse hregions h).1
  have hsparse₁ := hsparse.updates hf.tidy ⟨p, hf.mem⟩ hf.updates
  refine State.Sparse.relist hsparse₁.single rfl (fun q _ hq => ?_) fun q hq =>
    hsparse₁.slots q fun hnil => hq ?_
  · rw [hf.updates.frame.held]
    exact ((hf.held_unlink q).mp hq).1
  · rw [unlink_vmRegions, hnil]
    exact ite_self _

/-! ## A fork -/

section Fork
variable {parent child : ProcId} {done : List RegionId}

/-- The regions in `done` have been copied, and nothing else has changed but counts and lists. -/
structure Copying (parent child : ProcId) (done : List RegionId) (s u : State) : Prop where
  source : ∀ r ∈ done, r ∈ (s.proc parent).vmRegions
  region : ∀ r, s.Held r → u.heap.region r = s.heap.region r
  physr : ∀ x, s.heap.Refs s.Held x → (u.heap.physr x).ph = (s.heap.physr x).ph ∧
    (u.heap.physr x).offset = (s.heap.physr x).offset
  block : ∀ b, (u.heap.block b).length = (s.heap.block b).length ∧
    (u.heap.block b).phys = (s.heap.block b).phys
  lists : ∀ q, q ≠ child → (u.proc q).vmRegions = (s.proc q).vmRegions
  haspt : ∀ q, (u.proc q).haspt = (s.proc q).haspt
  pte : ∀ q, (u.proc q).vmPt.pte = (s.proc q).vmPt.pte
  owner : ∀ r ∈ (u.proc child).vmRegions, (u.heap.region r).parent = child
  origin : ∀ r ∈ (u.proc child).vmRegions, ∀ y ∈ (u.heap.region r).phys,
    ∃ r₀ ∈ done, ∃ y₀ ∈ (s.heap.region r₀).phys, (u.heap.physr y).ph = (s.heap.physr y₀).ph
  single : ∀ r ∈ (u.proc child).vmRegions, ∀ r' ∈ (u.proc child).vmRegions, ∀ y ∈ (u.heap.region r).phys,
    ∀ y' ∈ (u.heap.region r').phys, (u.heap.physr y).ph = (u.heap.physr y').ph → y = y'

lemma Copying.refl (hchild : (s.proc child).vmRegions = []) : Copying parent child [] s s := by
  refine ⟨nofun, fun _ _ => rfl, fun _ _ => ⟨rfl, rfl⟩, fun _ => ⟨rfl, rfl⟩, fun _ _ => rfl, fun _ => rfl,
    fun _ => rfl, ?_, ?_, ?_⟩
  · rw [hchild]
    exact nofun
  · rw [hchild]
    exact nofun
  · rw [hchild]
    exact nofun

lemma Copying.aside (hc : Copying parent child done s t) (ha : Aside t u) :
    Copying parent child done s u := by
  obtain ⟨hsource, hregion, hphysr, hblock, hlists, hhaspt, hpte, howner, horigin, hsingle⟩ := hc
  have hlist : ∀ q, (u.proc q).vmRegions = (t.proc q).vmRegions := ha.frame.vmRegions
  constructor
  · exact hsource
  · rwa [ha.heap]
  · rwa [ha.heap]
  · rwa [ha.heap]
  · exact fun q hq => (hlist q).trans (hlists q hq)
  · exact fun q => (ha.haspt q).trans (hhaspt q)
  · exact fun q => (ha.pte q).trans (hpte q)
  · rwa [ha.heap, hlist]
  · rwa [ha.heap, hlist]
  · rwa [ha.heap, hlist]

lemma Copying.held (hc : Copying parent child done s u) (hchild : (s.proc child).vmRegions = [])
    (hr : s.Held r) : u.Held r := by
  obtain ⟨q, hq⟩ := hr
  refine ⟨q, ?_⟩
  rw [hc.lists q]
  · exact hq
  rintro rfl
  rw [hchild] at hq
  nomatch hq

lemma Copying.refs (hc : Copying parent child done s u) (hchild : (s.proc child).vmRegions = [])
    (hx : s.heap.Refs s.Held x) :
    u.heap.Refs u.Held x := by
  obtain ⟨q, hq, hxq⟩ := hx
  refine ⟨q, hc.held hchild hq, ?_⟩
  rw [hc.region q hq]
  exact hxq

lemma Recopied.single {dst : ProcId} (hc : Recopied h h' dst vr) (hnd : (h.region vr).phys.Nodup)
    (hone : ∀ x ∈ (h.region vr).phys, ∀ y ∈ (h.region vr).phys, (h.physr x).ph = (h.physr y).ph →
      x = y) {y y' : PhysId}
    (hy : y ∈ (h'.region h.nextRegion).phys) (hy' : y' ∈ (h'.region h.nextRegion).phys)
    (heq : (h'.physr y).ph = (h'.physr y').ph) : y = y' := by
  have hmap : (h.region vr).phys.map (fun x => (h.physr x).ph) = (h.news (h.region vr).phys).map
    fun y => (h'.physr y).ph := by
    rw [← List.forall₂_eq_eq_eq, List.forall₂_map_left_iff, List.forall₂_map_right_iff]
    exact hc.copies.imp fun x y hxy => hxy.1.symm
  have hnodup := hnd.map_on hone
  rw [hmap] at hnodup
  exact List.inj_on_of_nodup_map hnodup (hc.mem y hy) (hc.mem y' hy') heq

lemma Copying.step (hs : s.Tidy) (hone : s.heap.Single s.Held) (hchild : (s.proc child).vmRegions = [])
    (hvr : vr ∈ (s.proc parent).vmRegions) (hnot : vr ∉ done) (hb : u.Bounded)
    (hcp : Copying parent child done s u) :
    Copying parent child (vr :: done) s (u.copyRegion child vr) := by
  have hheld : s.Held vr := ⟨parent, hvr⟩
  have hvru := hcp.region vr hheld
  have hc : Recopied u.heap (u.copyRegion child vr).heap child vr :=
    copyRegion_recopied child fun x hx => hb.refs x ⟨vr, hcp.held hchild hheld, hx⟩
  -- what there was before stays
  have hregion : ∀ q, u.Held q → (u.copyRegion child vr).heap.region q = u.heap.region q := fun q hq =>
    hc.region q (Nat.ne_of_lt (hb.held q hq))
  have hold : ∀ {q y}, u.Held q → y ∈ (u.heap.region q).phys →
      (u.copyRegion child vr).heap.physr y =
        { u.heap.physr y with nextPhList := ((u.copyRegion child vr).heap.physr y).nextPhList } :=
    fun hq hy => hc.old _ (hb.refs _ ⟨_, hq, hy⟩)
  have hph : ∀ {q y}, u.Held q → y ∈ (u.heap.region q).phys →
      ((u.copyRegion child vr).heap.physr y).ph = (u.heap.physr y).ph := fun hq hy => by rw [hold hq hy]
  have hnodes : ∀ x ∈ (u.heap.region vr).phys, (u.heap.physr x).ph = (s.heap.physr x).ph := fun x hx =>
    (hcp.physr x ⟨vr, hheld, hvru ▸ hx⟩).1
  have hlist : ((u.copyRegion child vr).proc child).vmRegions = (u.proc child).vmRegions ++
    [u.heap.nextRegion] := by
    rw [copyRegion_vmRegions, if_pos rfl]
  -- a copy has an original
  have hnew : ∀ y ∈ ((u.copyRegion child vr).heap.region u.heap.nextRegion).phys,
      ∃ x ∈ (s.heap.region vr).phys, ((u.copyRegion child vr).heap.physr y).ph = (s.heap.physr x).ph := by
    intro y hy
    obtain ⟨x, hx, hxy, -⟩ := forall₂_mem_right hc.copies (hc.mem y hy)
    exact ⟨x, hvru ▸ hx, hxy.trans (hnodes x hx)⟩
  have hapart : ∀ r ∈ (u.proc child).vmRegions, ∀ y ∈ (u.heap.region r).phys,
      ∀ y' ∈ ((u.copyRegion child vr).heap.region u.heap.nextRegion).phys,
      (u.heap.physr y).ph ≠ ((u.copyRegion child vr).heap.physr y').ph := by
    intro r hr y hy y' hy' heq
    obtain ⟨r₀, hr₀, y₀, hy₀, hph₀⟩ := hcp.origin r hr y hy
    obtain ⟨x, hx, hph'⟩ := hnew y' hy'
    have hr₀' : s.Held r₀ := ⟨parent, hcp.source r₀ hr₀⟩
    have hparent : (s.heap.region r₀).parent = (s.heap.region vr).parent := by
      rw [hs.parent parent r₀ (hcp.source r₀ hr₀), hs.parent parent vr hvr]
    obtain rfl := hone r₀ vr hr₀' hheld hparent y₀ hy₀ x hx (hph₀.symm.trans (heq.trans hph'))
    exact hnot (hs.sound.parent_eq hr₀' hheld hy₀ hx ▸ hr₀)
  constructor
  · exact List.forall_mem_cons.mpr ⟨hvr, hcp.source⟩
  · exact fun r hr => (hregion r (hcp.held hchild hr)).trans (hcp.region r hr)
  · rintro x ⟨q, hq, hx⟩
    obtain ⟨hph₀, hoff₀⟩ := hcp.physr x ⟨q, hq, hx⟩
    rw [hold (hcp.held hchild hq) (by rw [hcp.region q hq]; exact hx)]
    exact ⟨hph₀, hoff₀⟩
  · exact fun b => ⟨(hc.block b).1.trans (hcp.block b).1, (hc.block b).2.trans (hcp.block b).2⟩
  · intro q hq
    rw [copyRegion_vmRegions, if_neg hq]
    exact hcp.lists q hq
  · exact fun q => (State.modProc_keep _ VmProc.haspt rfl q).trans (hcp.haspt q)
  · exact fun q => (State.modProc_keep _ (fun x => x.vmPt.pte) rfl q).trans (hcp.pte q)
  · intro r hr
    rw [hlist] at hr
    rcases List.mem_append.mp hr with hr | hr
    · rw [hregion r ⟨child, hr⟩]
      exact hcp.owner r hr
    · rw [List.mem_singleton.mp hr, hc.self]
  · intro r hr y hy
    rw [hlist] at hr
    rcases List.mem_append.mp hr with hr | hr
    · rw [hregion r ⟨child, hr⟩] at hy
      obtain ⟨r₀, hr₀, y₀, hy₀, hph₀⟩ := hcp.origin r hr y hy
      exact ⟨r₀, .tail vr hr₀, y₀, hy₀, (hph ⟨child, hr⟩ hy).trans hph₀⟩
    · obtain rfl := List.mem_singleton.mp hr
      obtain ⟨x, hx, hxy⟩ := hnew y hy
      exact ⟨vr, .head _, x, hx, hxy⟩
  · intro r hr r' hr' y hy y' hy' heq
    rw [hlist] at hr hr'
    rcases List.mem_append.mp hr with hr | hr <;> rcases List.mem_append.mp hr' with hr' | hr'
    · rw [hregion r ⟨child, hr⟩] at hy
      rw [hregion r' ⟨child, hr'⟩] at hy'
      rw [hph ⟨child, hr⟩ hy, hph ⟨child, hr'⟩ hy'] at heq
      exact hcp.single r hr r' hr' y hy y' hy' heq
    · obtain rfl := List.mem_singleton.mp hr'
      rw [hregion r ⟨child, hr⟩] at hy
      rw [hph ⟨child, hr⟩ hy] at heq
      exact absurd heq (hapart r hr y hy y' hy')
    · obtain rfl := List.mem_singleton.mp hr
      rw [hregion r' ⟨child, hr'⟩] at hy'
      rw [hph ⟨child, hr'⟩ hy'] at heq
      exact absurd heq.symm (hapart r' hr' y' hy' y hy)
    · obtain rfl := List.mem_singleton.mp hr
      obtain rfl := List.mem_singleton.mp hr'
      refine hc.single ?_ (fun x hx x' hx' hxx => ?_) hy hy' heq
      · rw [hvru]
        exact (hs.sound.tree vr hheld).nodup
      · rw [hnodes x hx, hnodes x' hx'] at hxx
        exact hone vr vr hheld hheld rfl x (hvru ▸ hx) x' (hvru ▸ hx') hxx

lemma copyRegions_copying (hs : s.Tidy) (hone : s.heap.Single s.Held) (hchild : (s.proc child).vmRegions = [])
    (hl : ∀ r ∈ l, r ∈ (s.proc parent).vmRegions ∧ r ∉ done) (hnd : l.Nodup) (hb : u.Bounded)
    (hcp : Copying parent child done s u)
    (h : copyRegions child l u = .ok (true, t)) : ∃ done', Copying parent child done' s t ∧ t.Bounded := by
  induction l generalizing u done with
  | nil =>
    cases h
    exact ⟨done, hcp, hb⟩
  | cons vr rest ih =>
    obtain ⟨u', ha, h⟩ := copyRegions_cons h
    obtain ⟨hvr, hnot⟩ := hl vr (.head _)
    obtain ⟨hnotin, hnd⟩ := List.nodup_cons.mp hnd
    have hbound := (hb.copyRegion child (hcp.held hchild ⟨parent, hvr⟩)).1
    refine ih (fun r hr => ⟨(hl r (.tail vr hr)).1, ?_⟩) hnd (ha.bounded hbound)
      ((hcp.step hs hone hchild hvr hnot hb).aside ha) h
    rintro (_ | ⟨_, hin⟩)
    · exact hnotin hr
    · exact (hl r (.tail vr hr)).2 hin

lemma Copying.parents (hs : s.Tidy) (hcp : Copying parent child done s t) :
    ∀ p, ∀ r ∈ (t.proc p).vmRegions, (t.heap.region r).parent = p := by
  intro p r hr
  by_cases hp : p = child
  · subst hp
    exact hcp.owner r hr
  rw [hcp.lists p hp] at hr
  rw [hcp.region r ⟨p, hr⟩]
  exact hs.parent p r hr

lemma Copying.sparse (hs : s.Tidy) (hsparse : s.Sparse) (hslot : child < nrProcs)
    (hcp : Copying parent child done s t) :
    t.Sparse := by
  have hparent := hcp.parents hs
  refine ⟨?_, fun q hq => ?_⟩
  · rintro q q' ⟨p, hq⟩ ⟨p', hq'⟩ hpar x hx y hy heq
    rw [hparent p q hq, hparent p' q' hq'] at hpar
    subst hpar
    by_cases hp : p = child
    · subst hp
      exact hcp.single q hq q' hq' x hx y hy heq
    rw [hcp.lists p hp] at hq hq'
    rw [hcp.region q ⟨p, hq⟩] at hx
    rw [hcp.region q' ⟨p, hq'⟩] at hy
    rw [(hcp.physr x ⟨q, ⟨p, hq⟩, hx⟩).1, (hcp.physr y ⟨q', ⟨p, hq'⟩, hy⟩).1] at heq
    refine hsparse.single q q' ⟨p, hq⟩ ⟨p, hq'⟩ ?_ x hx y hy heq
    rw [hs.parent p q hq, hs.parent p q' hq']
  · by_cases hqc : q = child
    · rw [hqc]
      exact hslot
    · rw [hcp.lists q hqc] at hq
      exact hsparse.slots q hq

end Fork

end Nucleos.Vm
