import Nucleos.Vm.Single

/-!
# Copy on write keeps processes apart

The calls into `region.c` as the rest of VM makes them: a fork first gets the child a page table of
its own, and an exit gives the page table up before the regions. Pages that a process may write are
then its own, whatever has been forked, touched, unmapped and freed before, except in regions that
are shared by design or show memory directly.
-/

namespace Nucleos.Vm

open Function IntrusiveList Sharing Run Relation

variable {s t u : State} {h h' : Heap} {R : RegionId → PhysId → Prop} {V V' : BitVec 32 → Prop}
    {p q : ProcId} {r r' : RegionId}
  {x y pr : PhysId} {ok : Bool}

/-! ## A fork writes the page table of the parent again -/

section Fork
variable {parent child : ProcId} {done : List RegionId}

structure Fills (R : RegionId → PhysId → Prop) (p : ProcId) (C : BitVec 32 → Prop) (s : State)
    (x : Bool × State) : Prop where
  heap : x.2.heap = s.heap
  denied : s.denied ≤ x.2.denied
  refused : x.1 = false → s.denied < x.2.denied
  mirrors : x.1 = true → ∀ {V V' : BitVec 32 → Prop}, s.Mirrors R p V' → (∀ v, V' v → V v ∨ C v) →
    x.2.Mirrors R p V

variable {C C' D : BitVec 32 → Prop}

lemma fills_nil (s : State) (hC : ∀ v, ¬ C v) : Fills R p C s (true, s) :=
  ⟨rfl, Nat.le_refl _, nofun, fun _ _ _ hm hV => hm.except fun v hv =>
    (hV v hv).resolve_right (hC v)⟩

lemma Fills.append {x : Bool × State} (h : Fills R p C s (true, u)) (h' : Fills R p C' u x)
    (hD : ∀ v, D v → C v ∨ C' v) :
    Fills R p D s x where
  heap := h'.heap.trans h.heap
  denied := Nat.le_trans h.denied h'.denied
  refused hf := Nat.lt_of_le_of_lt h.denied (h'.refused hf)
  mirrors hok V V' hm hV := by
    refine h'.mirrors hok (h.mirrors rfl hm fun v hv => ?_) fun v hv => hv
    rcases hV v hv with hv | hv
    · exact .inl (.inl hv)
    · exact (hD v hv).elim .inr fun hv => .inl (.inr hv)

lemma writeptBlocks_fills {l : List PhysId} (hR : ∀ x ∈ l, R r x)
    (hparent : (s.heap.region r).parent = p) :
    Fills R p (fun v => ∃ x ∈ l, ∃ i < pagesIn (s.heap.blockOf x).length,
      v = s.heap.pageIn r x i) s (writeptBlocks p r l s) := by
  induction l generalizing s with
  | nil => exact fills_nil s (by simp)
  | cons pr rest ih =>
    rw [writeptBlocks]
    rcases hmap : mapPhWritept p r pr s with ⟨got, s₁⟩
    rcases mapPhWritept_aside hmap with ⟨rfl, ha⟩ | ⟨rfl, ha, hden⟩
    · have hheap : s₁.heap = s.heap := ha.heap
      have hrest := ih (s := s₁) (fun x hx => hR x (List.mem_cons_of_mem pr hx))
        (by rw [hheap, hparent])
      subst hparent
      rw [hheap] at hrest
      refine Fills.append ⟨hheap, ha.denied, by simp, fun _ V V' hm hV => ?_⟩ hrest fun _ =>
        List.or_exists_of_exists_mem_cons
      exact (hm.mapPtes (hR pr (.head _)) fun v hv => (hV v hv).imp_right fun hpage =>
        ⟨rfl, hpage⟩).aside ha
    · exact ⟨ha.heap, ha.denied, fun _ => hden, by simp⟩

def Heap.Covers (h : Heap) (l : List RegionId) (v : BitVec 32) : Prop :=
  ∃ r ∈ l, ∃ x ∈ (h.region r).phys, ∃ i < pagesIn (h.blockOf x).length, v = h.pageIn r x i

variable {l : List RegionId}

lemma writeptRegions_fills (hR : ∀ r ∈ l, ∀ x ∈ (s.heap.region r).phys, R r x)
    (hparent : ∀ r ∈ l, (s.heap.region r).parent = p) :
    Fills R p (s.heap.Covers l) s (writeptRegions p l s) := by
  induction l generalizing s with
  | nil => exact fills_nil s (by simp [Heap.Covers])
  | cons r rest ih =>
    rw [List.forall_mem_cons] at hR hparent
    have hblocks := writeptBlocks_fills hR.1 hparent.1
    rw [writeptRegions]
    rcases hrun : writeptBlocks p r (s.heap.region r).phys s with ⟨got, s₁⟩
    rw [hrun] at hblocks
    have hheap : s₁.heap = s.heap := hblocks.heap
    cases got with
    | false => exact ⟨hheap, hblocks.denied, hblocks.refused, by simp⟩
    | true =>
      have hrest := ih (s := s₁) (by rw [hheap]; exact hR.2) (by rw [hheap]; exact hparent.2)
      rw [hheap] at hrest
      exact hblocks.append hrest fun _ => List.or_exists_of_exists_mem_cons

lemma Remaps.mirrors (hparent : ∀ r ∈ (s.proc p).vmRegions, (s.heap.region r).parent = p)
    (hR : ∀ r ∈ (s.proc p).vmRegions, ∀ x ∈ (s.heap.region r).phys, R r x) (hm : s.Mirrors R q V)
    (h : Remaps p s t) :
    t.Mirrors R q V := by
  induction h with
  | refl => exact hm
  | @tail u u' hup hstep ih =>
    have hup' : Remaps p s u := hup
    obtain ⟨hheap, hframe⟩ := hup'.heap
    cases hstep with
    | aside ha => exact ih.aside ha
    | @map r pr hr hpr =>
      rw [hframe.vmRegions] at hr
      rw [hheap] at hpr
      have hown : (u.heap.region r).parent = p := by
        rw [hheap]
        exact hparent r hr
      have hmapped := ih.mapPtes (hR r hr pr hpr) fun _ => .inl
      rw [hown] at hmapped
      exact hmapped

lemma Remaps.denied (h : Remaps p s t) : s.denied ≤ t.denied := by
  induction h with
  | refl => exact Nat.le_refl _
  | tail _ hstep ih =>
    cases hstep with
    | aside ha => exact Nat.le_trans ih ha.denied
    | map _ _ => exact ih

lemma Copying.count (hs : s.Tidy) (ht : t.Tidy) (hchild : (s.proc child).vmRegions = [])
    (hcp : Copying parent child done s t)
    (hr : r ∈ (s.proc q).vmRegions) (hq : q ≠ parent) (hx : x ∈ (s.heap.region r).phys)
    (hone : (s.heap.blockOf x).refcount = 1) :
    (t.heap.blockOf x).refcount = 1 := by
  have hheld : s.Held r := ⟨q, hr⟩
  have hph := (hcp.physr x ⟨r, hheld, hx⟩).1
  have hcount : (t.heap.blockOf x).refcount.toNat = 1 := by
    refine ht.sound.exact.one_of_alone (hcp.refs hchild ⟨r, hheld, hx⟩) ?_
    rintro y ⟨r', ⟨p', hr'⟩, hy⟩ heq
    have heq' : (t.heap.physr y).ph = (s.heap.physr x).ph := heq.trans hph
    by_cases hp' : p' = child
    · -- a copy would be one of the parent's
      subst hp'
      obtain ⟨r₀, hr₀, y₀, hy₀, hph₀⟩ := hcp.origin r' hr' y hy
      have hr₀' := hcp.source r₀ hr₀
      obtain rfl := hs.sound.alone hheld hx hone ⟨r₀, ⟨parent, hr₀'⟩, hy₀⟩ (hph₀.symm.trans heq')
      obtain rfl := hs.sound.parent_eq hheld ⟨parent, hr₀'⟩ hx hy₀
      exact absurd ((hs.parent q r hr).symm.trans (hs.parent parent r hr₀')) hq
    · rw [hcp.lists p' hp'] at hr'
      rw [hcp.region r' ⟨p', hr'⟩] at hy
      rw [(hcp.physr y ⟨r', ⟨p', hr'⟩, hy⟩).1] at heq'
      exact hs.sound.alone hheld hx hone ⟨r', ⟨p', hr'⟩, hy⟩ heq'
  exact BitVec.eq_of_toNat_eq hcount

lemma Copying.mirrors (hs : s.Tidy) (ht : t.Tidy) (hm : s.Mirrored)
    (hchild : (s.proc child).vmRegions = [])
    (hcp : Copying parent child done s t) :
    t.Mirrors (t.heap.Nodes t.Held) parent (t.heap.Covers (t.proc parent).vmRegions) := by
  refine (hm parent).follow hcp.haspt hcp.pte (fun _ hf => hf.elim) ?_
  rintro r x v f ⟨⟨q, hr⟩, hx⟩ ⟨i, hi, hv, hframe⟩
  have hqc : q ≠ child := by
    rintro rfl
    rw [hchild] at hr
    nomatch hr
  have hregion := hcp.region r ⟨q, hr⟩
  obtain ⟨hph, hoffset⟩ := hcp.physr x ⟨r, ⟨q, hr⟩, hx⟩
  have hr' : r ∈ (t.proc q).vmRegions := by
    rw [hcp.lists q hqc]
    exact hr
  have hx' : x ∈ (t.heap.region r).phys := by
    rw [hregion]
    exact hx
  have hblock : (s.heap.blockOf x).Same (t.heap.blockOf x) := by
    rw [Heap.blockOf, Heap.blockOf, hph]
    exact ⟨(hcp.block _).2, (hcp.block _).1⟩
  have htr : t.heap.Translates r x v f := by
    refine ⟨i, ?_, ?_, ?_⟩
    · rw [hblock.2]
      exact hi
    · rw [Heap.pageIn, hregion, hoffset]
      exact hv
    · rw [Heap.frameIn, hblock.1]
      exact hframe
  by_cases hqp : q = parent
  · subst hqp
    obtain ⟨j, hj, hv', -⟩ := htr
    exact .inl ⟨hs.parent q r hr, r, hr', x, hx', j, hj, hv'⟩
  refine .inr ⟨⟨⟨q, hr'⟩, hx'⟩, by rw [hregion], htr, writable_keep (by rw [hregion]) ?_⟩
  by_cases hone : (s.heap.blockOf x).refcount = 1
  · exact .inl ((hcp.count hs ht hchild hr hqp hx hone).trans hone.symm)
  · exact .inr hone

lemma copyRegions_denied (h : copyRegions child l s = .ok (true, t)) : s.denied ≤ t.denied := by
  induction l generalizing s with
  | nil =>
    cases h
    exact Nat.le_refl _
  | cons vr rest ih =>
    obtain ⟨u, ha, h⟩ := copyRegions_cons h
    have hle : s.denied ≤ u.denied := ha.denied
    exact Nat.le_trans hle (ih h)

lemma mapProcCopy_mirrored (hs : s.Tidy) (hsparse : s.Sparse) (hm : s.Mirrored)
    (hchild : (s.proc child).vmRegions = [])
    (hslot : child < nrProcs)
    (h : mapProcCopy child parent s = .ok (true, t)) (hden : t.denied ≤ s.denied) :
    t.Mirrored ∧ t.Sparse ∧ t.Uncrowded := by
  unfold mapProcCopy at h
  rw [modProc_of_empty hchild] at h
  obtain ⟨⟨ok, s₁⟩, hcopy, h⟩ := bind_eq_ok.mp h
  cases ok with
  | false => nomatch h
  | true =>
    obtain ⟨done, hcp, -⟩ := copyRegions_copying hs hsparse.single hchild
      (fun r hr => ⟨hr, List.not_mem_nil⟩) (hs.nodup parent)
      hs.bounded (Copying.refl hchild) hcopy
    have hsparse₁ := hcp.sparse hs hsparse hslot
    have hcrowd₁ := hsparse₁.uncrowded (hcp.parents hs)
    have htidy₁ := (copyRegions_rule (P := fun _ => True) hs (fun r hr => ⟨parent, hr⟩) hcopy
      hcrowd₁ trivial
      fun _ _ _ _ _ _ _ _ => trivial).1
    have hle := copyRegions_denied hcopy
    rcases hsrc : mapWritept parent s₁ with ⟨ok₁, s₂⟩
    rcases hdst : mapWritept child s₂ with ⟨ok₂, s₃⟩
    simp only [if_true, hsrc, hdst] at h
    obtain ⟨-, rfl⟩ := ok_pair_inj h
    have hremap₂ := mapWritept_remaps hsrc
    have hremap₃ := mapWritept_remaps hdst
    obtain ⟨hheap₂, hframe₂⟩ := hremap₂.heap
    obtain ⟨hheap₃, hframe₃⟩ := hremap₃.heap
    have hfill : Fills (s₁.heap.Nodes s₁.Held) parent _ s₁ (mapWritept parent s₁) :=
      writeptRegions_fills (fun r hr x hx => ⟨⟨parent, hr⟩, hx⟩) (htidy₁.parent parent)
    rw [hsrc] at hfill
    have hle₂ : s₁.denied ≤ s₂.denied := hfill.denied
    have hle₃ := hremap₃.denied
    have hok : ok₁ = true := by
      by_contra hne
      have hlt : s₁.denied < s₂.denied := hfill.refused (Bool.eq_false_iff.mpr hne)
      omega
    have hmirrors : s₃.Mirrors (s₁.heap.Nodes s₁.Held) parent fun _ => False := by
      refine hremap₃.mirrors (fun r hr => ?_) (fun r hr x hx => ?_)
        (hfill.mirrors hok (hcp.mirrors hs htidy₁ hm hchild) fun v hv => .inr hv)
      · rw [hframe₂.vmRegions] at hr
        rw [hheap₂]
        exact htidy₁.parent child r hr
      · rw [hframe₂.vmRegions] at hr
        rw [hheap₂] at hx
        exact ⟨⟨child, hr⟩, hx⟩
    have hheap := hheap₃.trans hheap₂
    have hheld := (hframe₂.trans hframe₃).held
    refine ⟨mirrored_of (p := parent) ?_,
      hsparse₁.frame (hframe₂.trans hframe₃) (by rw [hheap]; exact hsparse₁.single), ?_⟩
    · rw [hheap, hheld]
      exact hmirrors
    · rw [State.Uncrowded, hheap, hheld]
      exact hcrowd₁

structure State.SameMap (s t : State) : Prop where
  heap : t.heap = s.heap
  lists : ∀ q, (t.proc q).vmRegions = (s.proc q).vmRegions

namespace State.SameMap
variable (hr : s.SameMap t)
include hr

lemma held : t.Held = s.Held := by
  funext r
  exact propext (exists_congr fun q => by rw [hr.lists])

lemma sane (hs : s.Sane) (hfree : ∀ f, t.free f = true → s.free f = true) : t.Sane := by
  refine ⟨⟨?_, fun q r hq => ?_, fun q => ?_⟩, ?_, ?_⟩
  · rw [hr.held, hr.heap]
    exact hs.tidy.sound
  · rw [hr.lists] at hq
    rw [hr.heap]
    exact hs.tidy.parent q r hq
  · rw [hr.lists]
    exact hs.tidy.nodup q
  · rw [hr.held, hr.heap]
    exact hs.pure
  · rw [hr.held, hr.heap]
    exact hs.paged.keep hfree fun b hb => ⟨hb, rfl, rfl⟩

lemma sparse (hs : s.Sparse) : t.Sparse := by
  refine ⟨?_, fun q hq => hs.slots q ?_⟩
  · rw [hr.held, hr.heap]
    exact hs.single
  · rw [hr.lists] at hq
    exact hq

end State.SameMap

structure Readied (child : ProcId) (s t : State) : Prop where
  heap : t.heap = s.heap
  lists : ∀ q, (t.proc q).vmRegions = (s.proc q).vmRegions
  haspt : ∀ q, q ≠ child → (t.proc q).haspt = (s.proc q).haspt
  pte : ∀ q, q ≠ child → (t.proc q).vmPt.pte = (s.proc q).vmPt.pte
  empty : ∀ v, (t.proc child).vmPt.pte v = none
  free : ∀ f, t.free f = true → s.free f = true
  denied : s.denied ≤ t.denied

lemma forkSlot_readied (hchild : (s.proc child).vmRegions = [])
    (h : ptNew child (forkSlot parent child s) = (true, t)) :
    Readied child s t := by
  have hslot : ∀ u, Aside (forkSlot parent child s) u →
      Readied child s (u.modProc child fun x =>
        { x with ptDir := true, vmPt := PageTable.empty }) := by
    intro u ha
    have hother : ∀ q, q ≠ child → (forkSlot parent child s).proc q = s.proc q :=
      fun q hq => update_of_ne hq _ _
    refine ⟨ha.heap, fun q => ?_, fun q hq => ?_, fun q hq => ?_, fun v => ?_, ha.free, ha.denied⟩
    · by_cases hq : q = child
      · subst hq
        have hlist := ha.frame.vmRegions q
        simp only [forkSlot, State.modProc, update_self] at hlist ⊢
        rw [hlist, hchild]
      · simp only [State.modProc, update_of_ne hq]
        rw [ha.frame.vmRegions, hother q hq]
    · simp only [State.modProc, update_of_ne hq]
      rw [ha.haspt, hother q hq]
    · simp only [State.modProc, update_of_ne hq]
      rw [ha.pte, hother q hq]
    · simp only [State.modProc, update_self]
      rfl
  unfold ptNew at h
  simp only at h
  split at h
  · cases h
    exact hslot _ (Aside.refl _)
  split at h
  · cases h
  next u hslab =>
  cases h
  exact hslot u (slaballoc_true hslab)

lemma Readied.same (hr : Readied child s t) : s.SameMap t := ⟨hr.heap, hr.lists⟩

lemma Readied.mirrored (hr : Readied child s t) (hm : s.Mirrored) : t.Mirrored := by
  intro p q hq v e he
  rw [hr.same.held, hr.heap]
  have hqc : q ≠ child := by
    rintro rfl
    rw [hr.empty] at he
    nomatch he
  rw [hr.haspt q hqc] at hq
  rw [hr.pte q hqc] at he
  exact hm p q hq v e he

end Fork

/-! ## The calls as VM makes them -/

/-- The call with what `do_fork` and `free_proc` do around it. -/
def Op.perform (s : State) : Op → Except Stop (Bool × State)
  | .mapProcCopy dst src => forkMemory src dst (forkSlot src dst s)
  | .mapFreeProc p => do
    let s ← freeProc p s
    .ok (true, s)
  | op => op.exec s

def Op.OnSlots : Op → Prop
  | .mapPageRegion p _ _ _ _ _ _ => p < nrProcs
  | .mapProcCopy dst _ => dst < nrProcs
  | _ => True

/-- What forks and unmaps ask for they get: what they leave undone otherwise they do not undo. -/
def Op.Granted (s t : State) (ok : Bool) : Op → Prop
  | .mapProcCopy _ _ => ok = true ∧ t.denied = s.denied
  | .mapUnmapRegion _ _ _ => t.denied = s.denied
  | _ => True

/-- VM makes a call and goes on, whether or not it has succeeded. -/
structure Op.Serves (s : State) (op : Op) (t : State) : Prop where
  asserted : op.Asserted s
  slots : op.OnSlots
  perform : ∃ ok, op.perform s = .ok (ok, t) ∧ op.Granted s t ok

structure State.Private (s : State) : Prop where
  sane : s.Sane
  sparse : s.Sparse
  mirrored : s.Mirrored
  layout : s.Layout 1

lemma State.Private.updates {A : Prop} (hs : s.Private) (hr : r ∈ (s.proc p).vmRegions)
    (h : Updates r 0 A s t) : t.Private :=
  ⟨(hs.sane.updates hr h).1, hs.sparse.updates hs.sane.tidy ⟨p, hr⟩ h,
    hs.mirrored.updates hs.sane.tidy hr h,
    hs.layout.steady h.frame.steady⟩

variable {minv maxv length what : BitVec 32} {flags : BitVec 16} {prealloc : Bool}

lemma mapPageRegion_private {res : Option RegionId}
    (hs : s.Private) (hassert : (Op.mapPageRegion p minv maxv length what flags prealloc).Asserted
      s) (hslot : p < nrProcs)
    (h : mapPageRegion p minv maxv length what flags prealloc s = .ok (res, t)) : t.Private := by
  have hsane := (mapPageRegion_sane hs.sane hassert h).1
  obtain ⟨hpos, hdvd, -, hwhat⟩ := hassert
  have hpre : what ≠ mapNone → prealloc = false := fun hw => (hwhat hw).1
  exact ⟨hsane, mapPageRegion_sparse hs.sane.tidy hs.sparse hslot hpos hdvd hpre h,
    mapPageRegion_mirrored hs.sane.tidy hs.mirrored hpos hdvd hpre h,
      mapPageRegion_layout hs.layout (Nat.one_dvd _) hdvd hpos h⟩

variable {len : BitVec 32} {res : Int}

lemma mapUnmapRegion_refused (hs : s.Tidy) (h : mapUnmapRegion p r len s = .ok (res, t))
    (hden : t.denied = s.denied) : res = 0 ∨ t = s := by
  unfold mapUnmapRegion at h
  split at h
  · nomatch h
  next hr =>
  rcases ite_eq_iff.mp h with ⟨_, h⟩ | ⟨hlen, h⟩
  · exact Or.inr (ok_pair_inj h).2.symm
  split at h
  · exact .inr (ok_pair_inj h).2.symm
  obtain ⟨u, hunmap, h⟩ := bind_eq_ok.mp h
  have hdvd : 4096 ∣ len.toNat := by
    have hmod := congrArg BitVec.toNat (not_not.mp (not_or.mp hlen).2)
    rw [BitVec.toNat_umod, vmPageSize_toNat] at hmod
    exact Nat.dvd_of_mod_eq_zero hmod
  have hle := unmapFront_denied hs (not_not.mp hr) hdvd hunmap
  rcases hpt : ptWritemap p (s.heap.region r).vaddr (pagesIn len) (fun _ => none) u with ⟨got, u'⟩
  rw [hpt] at h
  rcases ptWritemap_aside hpt with ⟨rfl, -⟩ | ⟨rfl, -, hlt⟩
  · exact .inl (ok_pair_inj h).1.symm
  · cases h
    omega

lemma mapUnmapRegion_private (hs : s.Private) (h : mapUnmapRegion p r len s = .ok (res, t))
    (hden : t.denied = s.denied) : t.Private := by
  have htidy := hs.sane.tidy
  rcases mapUnmapRegion_refused htidy h hden with rfl | rfl
  · exact ⟨(mapUnmapRegion_sane hs.sane h hden).1, mapUnmapRegion_sparse htidy hs.sparse h,
      mapUnmapRegion_mirrored htidy hs.mirrored h,
      mapUnmapRegion_layout hs.layout h⟩
  · exact hs

lemma forkMemory_private {parent child : ProcId} (hs : s.Private)
    (hchild : (s.proc child).vmRegions = []) (hslot : child < nrProcs)
    (h : forkMemory parent child (forkSlot parent child s) = .ok (true, t))
    (hden : t.denied = s.denied) : t.Private := by
  have hlayout := forkMemory_layout (forkSlot_layout hs.layout parent child) h
  unfold forkMemory at h
  split at h
  · nomatch h
  next u hnew =>
  have hready := forkSlot_readied hchild hnew
  have hempty : (u.proc child).vmRegions = [] := (hready.lists child).trans hchild
  have hsane := hready.same.sane hs.sane hready.free
  have hle := hready.denied
  obtain ⟨hmirrored, hsparse, hcrowd⟩ :=
    mapProcCopy_mirrored hsane.tidy (hready.same.sparse hs.sparse)
    (hready.mirrored hs.mirrored) hempty
    hslot h (by omega)
  exact ⟨(mapProcCopy_sane hsane hempty h hcrowd).1, hsparse, hmirrored, hlayout⟩

lemma freeRegions_haspt {l : List RegionId} (hs : s.Tidy) (hregions : (s.proc p).vmRegions = l)
    (h : freeRegions p l s = .ok t)
    (q : ProcId) : (t.proc q).haspt = (s.proc q).haspt := by
  refine (freeRegions_rule (P := fun u => (u.proc q).haspt = (s.proc q).haspt)
    (fun {u v r} hf hu => ?_) hs rfl hregions h).1
  have hframe : (v.proc q).haspt = (u.proc q).haspt := by rw [hf.updates.frame.proc q]
  rw [← hu, ← hframe]
  exact v.modProc_keep VmProc.haspt rfl q

lemma dropPt_haspt (s : State) (p q : ProcId) :
    ((s.dropPt p).proc q).haspt = if q = p then false else (s.proc q).haspt := by
  rw [State.modProc_proc]
  split <;> rfl

lemma freeRegions_mirrored {l : List RegionId} (hs : s.Tidy)
    (hm : s.Mirrors (s.heap.Nodes s.Held) p fun _ => True)
    (hpt : (s.proc p).haspt = false) (hregions : (s.proc p).vmRegions = l)
    (h : freeRegions p l s = .ok t) : t.Mirrored := by
  have hfreed := freeRegions_mirrors hs hregions hm h
  have hhaspt := freeRegions_haspt hs hregions h
  refine mirrored_of (p := p) fun q hq v e he => .inr ?_
  rcases hfreed q hq v e he with ⟨rfl, -⟩ | hshow
  · rw [hhaspt, hpt] at hq
    nomatch hq
  · exact hshow

lemma dropPt_mirrors (hm : s.Mirrored) (p : ProcId) :
    (s.dropPt p).Mirrors (s.heap.Nodes s.Held) p fun _ => True := by
  intro q hq v e he
  rw [dropPt_haspt] at hq
  split_ifs at hq with hqp
  have hpte : ((s.dropPt p).proc q).vmPt.pte = (s.proc q).vmPt.pte := by
    simp [State.modProc, hqp]
  rw [hpte] at he
  exact .inr ((hm p q hq v e he).resolve_left fun hf => hf.2)

lemma freeProc_private (hs : s.Private) (h : freeProc p s = .ok t) : t.Private := by
  have hsame : s.SameMap (s.dropPt p) := ⟨rfl, s.modProc_keep VmProc.vmRegions rfl⟩
  have hsane := hsame.sane hs.sane fun f hf => hf
  have htidy := hsane.tidy
  have hmirrors : (s.dropPt p).Mirrors ((s.dropPt p).heap.Nodes (s.dropPt p).Held) p fun _ =>
    True := by
    rw [hsame.held]
    exact dropPt_mirrors hs.mirrored p
  have hlayout := mapFreeProc_layout (hs.layout.modProc p (f := fun x => { x with haspt := false })
    (.inr rfl) (hs.layout.stack p)) h
  have hfreed := (mapFreeProc_sane hsane h).1
  obtain ⟨s₁, hfree, h⟩ := bind_eq_ok.mp h
  cases h
  have hempty := (freeRegions_tidy htidy rfl hfree).2
  rw [modProc_of_empty hempty] at hfreed hlayout ⊢
  refine ⟨hfreed, freeRegions_sparse htidy (hsame.sparse hs.sparse) rfl hfree,
    freeRegions_mirrored htidy hmirrors ?_ rfl hfree, hlayout⟩
  rw [dropPt_haspt, if_pos rfl]

variable {op : Op}

lemma Op.Serves.private (hs : s.Private) (h : op.Serves s t) : t.Private := by
  obtain ⟨hassert, hslots, ok, hperform, hgranted⟩ := h
  have htidy := hs.sane.tidy
  cases op with
  | mapPageRegion p minv maxv length what flags prealloc =>
    obtain ⟨⟨res, s₁⟩, hpage, h⟩ := bind_eq_ok.mp hperform
    cases h
    exact mapPageRegion_private hs hassert hslots hpage
  | mapPf p r offset =>
    obtain ⟨hr, -, hf⟩ := hassert
    exact hs.updates hr (mapPf_updates (htidy.site hr) hf hperform).1
  | mapHandleMemory p r offset length write =>
    obtain ⟨hr, -, hoff, hlen, hin, hwr⟩ := hassert
    exact hs.updates hr (mapHandleMemory_updates (htidy.site hr) hin hoff hlen hwr hperform).1
  | mapProcCopy dst src =>
    obtain ⟨rfl, hden⟩ := hgranted
    exact forkMemory_private hs hassert hslots hperform hden
  | mapUnmapRegion p r len =>
    obtain ⟨⟨res, s₁⟩, hunmap, h⟩ := bind_eq_ok.mp hperform
    cases h
    exact mapUnmapRegion_private hs hunmap hgranted
  | mapFreeProc p =>
    obtain ⟨s₁, hfree, h⟩ := bind_eq_ok.mp hperform
    cases h
    exact freeProc_private hs hfree

/-- VM starts without memory to its processes and serves calls. -/
inductive Served : State → Prop where
  | boot {s : State} (h : s.Boot) (hpte : ∀ p v, (s.proc p).vmPt.pte v = none) : Served s
  | call {s t : State} {op : Op} (hs : Served s) (h : op.Serves s t) : Served t

lemma Served.private (hs : Served s) : s.Private := by
  induction hs with
  | @boot s h hpte =>
    have hheld : ∀ r, ¬ s.Held r := by
      rintro r ⟨p, hr⟩
      rw [h.regions p] at hr
      nomatch hr
    refine ⟨h.sane, ⟨fun q _ hq => absurd hq (hheld q),
      fun p hp => absurd (h.regions p) hp⟩, ?_, ?_⟩
    · intro p q _ v e he
      rw [hpte] at he
      nomatch he
    · refine ⟨Nat.one_dvd _, fun p => ?_, fun p q r hr => absurd ⟨p, hr⟩ (hheld r), fun r hr =>
        absurd hr (hheld r), fun p => Nat.one_dvd _⟩
      rw [State.ranges, h.regions p]
      exact laid_nil
  | call _ h ih => exact h.private ih

/-! ## Pages and frames -/

variable {j : Nat}

lemma pageOf_pageAt_toNat {a : BitVec 32} (hlt : a.toNat + 4096 * j < 2 ^ 32) :
    (pageOf (pageAt a j)).toNat = a.toNat / 4096 + j := by
  rw [pageOf, BitVec.toNat_ushiftRight, pageAt, BitVec.toNat_add, BitVec.toNat_ofNat,
    Nat.shiftRight_eq_div_pow]
  have hj : 4096 * j % 2 ^ 32 = 4096 * j := Nat.mod_eq_of_lt (by omega)
  rw [hj, Nat.mod_eq_of_lt hlt]
  omega

lemma pairwise_either {α : Type} {P : α → α → Prop} {l : List α} (h : l.Pairwise P) {a b : α}
    (ha : a ∈ l) (hb : b ∈ l) (hne : a ≠ b) :
    P a b ∨ P b a := by
  induction h with
  | nil => nomatch ha
  | cons hhead _ ih =>
    rcases List.mem_cons.mp ha with rfl | ha' <;> rcases List.mem_cons.mp hb with rfl | hb'
    · exact absurd rfl hne
    · exact .inl (hhead b hb')
    · exact .inr (hhead a ha')
    · exact ih ha' hb'

variable {i : Nat}

lemma page_index (hl : s.Layout 1) (hr : r ∈ (s.proc p).vmRegions) (hr' : r' ∈ (s.proc p).vmRegions)
    (hi : 4096 * i < (s.heap.region r).length.toNat)
    (hj : 4096 * j < (s.heap.region r').length.toNat)
    (heq : pageOf (pageAt (s.heap.region r).vaddr i) = pageOf (pageAt (s.heap.region r').vaddr j)) :
    r = r' ∧ i = j := by
  have hplaced := (hl.laid p).placed _
    (List.mem_map_of_mem (f := fun r => (s.heap.region r).range) hr)
  have hplaced' := (hl.laid p).placed _
    (List.mem_map_of_mem (f := fun r => (s.heap.region r).range) hr')
  have hwrap : (s.heap.region r).vaddr.toNat + (s.heap.region r).length.toNat < 2 ^ 32 :=
    hplaced.nowrap
  have hwrap' : (s.heap.region r').vaddr.toNat + (s.heap.region r').length.toNat < 2 ^ 32 :=
    hplaced'.nowrap
  have hwhole : 4096 ∣ (s.heap.region r).length.toNat := hplaced.whole
  have hwhole' : 4096 ∣ (s.heap.region r').length.toNat := hplaced'.whole
  have hpages := congrArg BitVec.toNat heq
  rw [pageOf_pageAt_toNat (by omega), pageOf_pageAt_toNat (by omega)] at hpages
  by_cases hrr : r = r'
  · subst hrr
    exact ⟨rfl, by omega⟩
  have hlaid := pairwise_either (List.pairwise_map.mp (hl.laid p).apart) hr hr' hrr
  simp only [VirRegion.range, Range.fin] at hlaid
  omega

lemma page_unique (hs : s.Tidy) (hl : s.Layout 1) (hr : r ∈ (s.proc p).vmRegions)
    (hr' : r' ∈ (s.proc p).vmRegions)
    (hx : x ∈ (s.heap.region r).phys) (hy : y ∈ (s.heap.region r').phys)
    (hi : i < pagesIn (s.heap.blockOf x).length)
    (hj : j < pagesIn (s.heap.blockOf y).length)
    (heq : s.heap.pageIn r x i = s.heap.pageIn r' y j) : r = r' ∧ x = y ∧ i = j := by
  have hfx := hs.sound.fits ⟨p, hr⟩ hx
  have hfy := hs.sound.fits ⟨p, hr'⟩ hy
  have hpx := page_lt_stop hfx hi
  have hpy := page_lt_stop hfy hj
  rw [pageIn_eq hfx, pageIn_eq hfy] at heq
  obtain ⟨rfl, hij⟩ := page_index hl hr hr' (Nat.lt_of_lt_of_le hpx hfx.le)
    (Nat.lt_of_lt_of_le hpy hfy.le) heq
  obtain rfl : x = y := by
    by_contra hne
    have hlaid := pairwise_either (hs.sound.tree r ⟨p, hr⟩).laid hx hy hne
    have hstart := hfx.start_dvd
    have hstart' := hfy.start_dvd
    omega
  exact ⟨rfl, rfl, by omega⟩

variable {b : PhysBlock}

lemma frame_has (hb : b.Whole) (hi : i < pagesIn b.length) : b.Has (pageOf (pageAt b.phys i)) := by
  obtain ⟨hphys, hlength, hbound⟩ := hb
  unfold pagesIn at hi
  rw [PhysBlock.Has, pageOf_pageAt_toNat (by omega)]
  omega

/-! ## Isolation -/

def State.Entry (s : State) (p : ProcId) (v : BitVec 32) (e : Pte) : Prop :=
  (s.proc p).haspt = true ∧ (s.proc p).vmPt.pte v = some e

def State.Through (s : State) (p : ProcId) (v : BitVec 32) (flags : BitVec 16) : Prop :=
  ∃ r ∈ (s.proc p).vmRegions, (s.heap.region r).flags &&& flags ≠ 0 ∧
    ∃ x ∈ (s.heap.region r).phys, ∃ i < pagesIn (s.heap.blockOf x).length, v = s.heap.pageIn r x i

lemma entry_shown {v : BitVec 32} {e : Pte} (hs : s.Tidy) (hm : s.Mirrored) (he : s.Entry p v e) :
    ∃ r ∈ (s.proc p).vmRegions,
    ∃ x ∈ (s.heap.region r).phys, ∃ i, i < pagesIn (s.heap.blockOf x).length ∧
      v = s.heap.pageIn r x i ∧ e.frame = s.heap.frameIn x i ∧
      (e.write = true → writable (s.heap.region r) (s.heap.blockOf x) = true) := by
  rcases hm p p he.1 v e he.2 with ⟨-, hf⟩ | ⟨r, x, i, ⟨⟨q, hr⟩, hx⟩, hparent, hi, hv,
    hframe, hwrite⟩
  · exact hf.elim
  · obtain rfl := (hs.parent q r hr).symm.trans hparent
    exact ⟨r, hr, x, hx, i, hi, hv, hframe, hwrite⟩

lemma refcount_of_writable {x : VirRegion} (hw : writable x b = true)
    (hflags : x.flags &&& (vrDirect ||| vrShared) = 0) :
    b.refcount = 1 := by
  unfold writable at hw
  rw [hflags] at hw
  simp only [bne_self_eq_false, Bool.false_or, Bool.and_eq_true, beq_iff_eq] at hw
  exact hw.2

/-- After any calls, failed ones included, in which forks and unmaps get the memory they ask for: a
page that a process may write, in a region that is neither shared nor direct, is in a block with a
count of one. And a frame that a process may write is seen by another only if its own region is
shared or direct, or the region of the other is direct. -/
theorem writable_pages_private (hs : Served s) :
    (∀ p v e, s.Entry p v e → e.write = true → ∀ r ∈ (s.proc p).vmRegions,
      (s.heap.region r).flags &&& (vrDirect ||| vrShared) = 0 →
      ∀ x ∈ (s.heap.region r).phys, ∀ i < pagesIn (s.heap.blockOf x).length,
        v = s.heap.pageIn r x i →
        (s.heap.blockOf x).refcount = 1) ∧
    (∀ p q v w e e', p ≠ q → s.Entry p v e → s.Entry q w e' → e.write = true → e.frame = e'.frame →
      s.Through p v (vrDirect ||| vrShared) ∨ s.Through q w vrDirect) := by
  obtain ⟨⟨htidy, hpure, hpaged⟩, -, hmirrored, hlayout⟩ := hs.private
  refine ⟨fun p v e he hw r hr hflags x hx i hi hv => ?_,
    fun p q v w e e' hpq he he' hw hframe => ?_⟩
  · obtain ⟨r', hr', y, hy, j, hj, hv', -, hwrite⟩ := entry_shown htidy hmirrored he
    obtain ⟨rfl, rfl, -⟩ := page_unique htidy hlayout hr hr' hx hy hi hj (hv.symm.trans hv')
    exact refcount_of_writable (hwrite hw) hflags
  obtain ⟨r, hr, x, hx, i, hi, hv, hfx, hwrite⟩ := entry_shown htidy hmirrored he
  obtain ⟨r', hr', y, hy, j, hj, hv', hfy, -⟩ := entry_shown htidy hmirrored he'
  by_cases hflags : (s.heap.region r).flags &&& (vrDirect ||| vrShared) = 0
  swap
  · exact .inl ⟨r, hr, hflags, x, hx, i, hi, hv⟩
  by_cases hdirect : (s.heap.region r').flags &&& vrDirect = 0
  swap
  · exact .inr ⟨r', hr', hdirect, y, hy, j, hj, hv'⟩
  -- both blocks back anonymous memory, and such blocks have no frame in common
  have hdirect₀ : (s.heap.region r).flags &&& vrDirect = 0 := by
    have hand := congrArg (· &&& vrDirect) hflags
    simp only [BitVec.and_assoc] at hand
    exact hand
  have hback : s.heap.Backs s.Held (s.heap.physr x).ph :=
    ⟨r, ⟨p, hr⟩, (hpure r ⟨p, hr⟩).mpr hdirect₀, x, hx, rfl⟩
  have hback' : s.heap.Backs s.Held (s.heap.physr y).ph :=
    ⟨r', ⟨q, hr'⟩, (hpure r' ⟨q, hr'⟩).mpr hdirect, y, hy, rfl⟩
  have hhas : (s.heap.blockOf x).Has e.frame := by
    rw [hfx]
    exact frame_has (hpaged.whole _ hback) hi
  have hhas' : (s.heap.blockOf y).Has e.frame := by
    rw [hframe, hfy]
    exact frame_has (hpaged.whole _ hback') hj
  have hph := hpaged.apart _ _ hback hback' e.frame hhas hhas'
  have hone := refcount_of_writable (hwrite hw) hflags
  obtain rfl := htidy.sound.alone ⟨p, hr⟩ hx hone ⟨r', ⟨q, hr'⟩, hy⟩ hph.symm
  obtain rfl := htidy.sound.parent_eq ⟨p, hr⟩ ⟨q, hr'⟩ hx hy
  exact absurd ((htidy.parent p r hr).symm.trans (htidy.parent q r hr')) hpq

/-- After any calls in which forks and unmaps get the memory they ask for, no process has a
page-table entry for a frame that the page allocator can give out, unless the entry belongs to a
direct region. -/
theorem mapped_frames_taken {v : BitVec 32} {e : Pte} (hs : Served s) (he : s.Entry p v e) :
    s.free e.frame = false ∨ s.Through p v vrDirect := by
  obtain ⟨⟨htidy, hpure, hpaged⟩, -, hmirrored, -⟩ := hs.private
  obtain ⟨r, hr, x, hx, i, hi, hv, hframe, -⟩ := entry_shown htidy hmirrored he
  by_cases hdirect : (s.heap.region r).flags &&& vrDirect = 0
  · have hback : s.heap.Backs s.Held (s.heap.physr x).ph :=
      ⟨r, ⟨p, hr⟩, (hpure r ⟨p, hr⟩).mpr hdirect, x, hx, rfl⟩
    refine .inl (hpaged.taken _ hback _ ?_)
    rw [hframe]
    exact frame_has (hpaged.whole _ hback) hi
  · exact .inr ⟨r, hr, hdirect, x, hx, i, hi, hv⟩

def Op.performed (s : State) (op : Op) : Bool × State :=
  match op.perform s with
  | .ok res => res
  | .error _ => (false, s)

def Op.returns (s : State) (op : Op) : Bool :=
  match op.perform s with
  | .ok _ => true
  | .error _ => false

lemma Op.perform_performed (h : op.returns s = true) : op.perform s = .ok (op.performed s) := by
  unfold Op.returns at h
  unfold Op.performed
  cases hperform : op.perform s with
  | error e => simp [hperform] at h
  | ok res => rfl

lemma Op.Serves.of_page {p : ProcId} (hslot : p < nrProcs)
    (hassert : (Op.mapPageRegion p minv maxv length what flags prealloc).Asserted s)
    (h : (Op.mapPageRegion p minv maxv length what flags prealloc).returns s = true) :
    (Op.mapPageRegion p minv maxv length what flags prealloc).Serves s
      ((Op.mapPageRegion p minv maxv length what flags prealloc).performed s).2 :=
  ⟨hassert, hslot, _, Op.perform_performed h, trivial⟩

lemma served_bootVm : Served bootVm := .boot boot_bootVm fun _ _ => rfl

lemma served_mapOne : Served (mapOne.performed bootVm).2 :=
  .call served_bootVm (.of_page (by decide) ⟨by decide, by decide, by decide,
    fun hw => absurd rfl hw⟩ (by decide +kernel))

lemma Served.fork (hs : Served s) (hempty : (s.proc 1).vmRegions = [])
    (hreturns : (Op.mapProcCopy 1 0).returns s = true)
    (hok : ((Op.mapProcCopy 1 0).performed s).1 = true ∧
      ((Op.mapProcCopy 1 0).performed s).2.denied = s.denied) :
    Served ((Op.mapProcCopy 1 0).performed s).2 :=
  have hserves : (Op.mapProcCopy 1 0).Serves s _ :=
    ⟨hempty, (by decide : (1 : Nat) < nrProcs), _, Op.perform_performed hreturns, hok⟩
  .call hs hserves

/-- A machine with more luck. -/
def luckyVm : State := { bootVm with luck := bootVm.luck ++ [some 0, some 17] }

def forkTouched : State := ((Op.mapProcCopy 1 0).performed (mapOne.performed luckyVm).2).2

/-- A process has touched a page, has forked and has written to it again. -/
def forkWritten : State := ((Op.mapPf 0 0 0).performed forkTouched).2

lemma served_forkWritten : Served forkWritten := by
  have hmapped : Served (mapOne.performed luckyVm).2 :=
    .call (.boot ⟨fun _ => rfl, fun _ => ⟨rfl, rfl⟩⟩ fun _ _ => rfl)
    (.of_page (by decide) ⟨by decide, by decide, by decide,
      fun hw => absurd rfl hw⟩ (by decide +kernel))
  have hforked : Served forkTouched :=
    hmapped.fork (by decide +kernel) (by decide +kernel) (by decide +kernel)
  have hserves : (Op.mapPf 0 0 0).Serves forkTouched forkWritten :=
    ⟨⟨by decide +kernel, by decide +kernel, by decide +kernel, fun _ _ _ => by decide +kernel⟩,
      trivial, _,
      Op.perform_performed (by decide +kernel), trivial⟩
  exact .call hforked hserves

/-- The page that was written after the fork has a block of its own, and the child has the old one
to itself. -/
theorem writable_pages_private_forked :
    ∃ s, Served s ∧ s.Entry 0 1 ⟨17, true⟩ ∧ s.Entry 1 1 ⟨16, true⟩ ∧
    (s.heap.blockOf 0).refcount = 1 := by
  have hentry : forkWritten.Entry 0 1 ⟨17, true⟩ := ⟨by decide +kernel, by decide +kernel⟩
  refine ⟨_, served_forkWritten, hentry, ⟨by decide +kernel, by decide +kernel⟩, ?_⟩
  exact (writable_pages_private served_forkWritten).1 0 1 _ hentry rfl 0 (by decide +kernel)
    (by decide +kernel) 0
    (by decide +kernel) 0 (by decide +kernel) (by decide +kernel)

theorem mapped_frames_taken_touched :
    ∃ s, Served s ∧ s.Entry 0 1 ⟨16, true⟩ ∧ (s.free 16 = false ∨ s.Through 0 1 vrDirect) := by
  have hentry : (mapOne.performed bootVm).2.Entry 0 1 ⟨16, true⟩ :=
    ⟨by decide +kernel, by decide +kernel⟩
  exact ⟨_, served_mapOne, hentry, mapped_frames_taken served_mapOne hentry⟩

lemma served_mapDevice : Served (mapDevice.performed bootVm).2 :=
  .call served_bootVm (.of_page (by decide) ⟨by decide, by decide, by decide,
    fun _ => ⟨rfl, by decide, fun hanon => absurd (by decide) hanon⟩⟩
    (by decide +kernel))

lemma served_forkDevice : Served ((Op.mapProcCopy 1 0).performed
    (mapDevice.performed bootVm).2).2 :=
  served_mapDevice.fork (by decide +kernel) (by decide +kernel) (by decide +kernel)

/-- The memory of a device stays writable for both sides of a fork, with a count of two. -/
theorem direct_page_shared_writable :
    ∃ s p v e r x i, Served s ∧ s.Entry p v e ∧ e.write = true ∧ r ∈ (s.proc p).vmRegions ∧
      (s.heap.region r).flags &&& vrShared = 0 ∧
      x ∈ (s.heap.region r).phys ∧ i < pagesIn (s.heap.blockOf x).length ∧ v = s.heap.pageIn r x i ∧
      (s.heap.blockOf x).refcount = 2 :=
  ⟨_, 0, 1, ⟨5, true⟩, 0, 0, 0, served_forkDevice, ⟨by decide +kernel, by decide +kernel⟩, rfl,
    by decide +kernel, by decide +kernel,
    by decide +kernel, by decide +kernel, by decide +kernel, by decide +kernel⟩

end Nucleos.Vm
