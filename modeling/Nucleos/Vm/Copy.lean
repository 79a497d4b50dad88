import Nucleos.Vm.Tidy

/-!
# Copying the regions of a process

A copied region first gets physical regions of its own that point to the blocks of the original
without being counted. When the copy is in the list of the new process, a second walk over both
trees puts them on the lists of their blocks and counts them. The invariant is broken between
the two walks and holds again after the second, if no count runs over.
-/

namespace Nucleos.Vm

open Function IntrusiveList Sharing Run Relation

variable {s t u : State} {h h' : Heap} {K : RegionId → Prop} {p : ProcId} {r nr vr : RegionId}
    {l : List PhysId} {ok : Bool}

/-! ## Lists in step -/

section Step
variable {α β : Type} {R S : α → β → Prop} {k : List α} {k' : List β}

lemma forall₂_imp_of_mem (h : List.Forall₂ R k k')
    (hRS : ∀ x ∈ k, ∀ y ∈ k', R x y → S x y) : List.Forall₂ S k k' := by
  induction h with
  | nil => exact .nil
  | cons hxy _ ih =>
    refine .cons (hRS _ (.head _) _ (.head _) hxy) (ih fun x hx y hy => ?_)
    exact hRS x (.tail _ hx) y (.tail _ hy)

lemma forall₂_mem_right (h : List.Forall₂ R k k') {y : β} (hy : y ∈ k') : ∃ x ∈ k, R x y := by
  induction h with
  | nil => nomatch hy
  | @cons x z k k' hxz _ ih =>
    rcases List.mem_cons.mp hy with rfl | hy
    · exact ⟨x, .head _, hxz⟩
    · obtain ⟨x', hx', hR⟩ := ih hy
      exact ⟨x', .tail x hx', hR⟩

lemma forall₂_pairwise (h : List.Forall₂ R k k') {P : α → α → Prop} {Q : β → β → Prop} (hP : k.Pairwise P)
    (hPQ : ∀ x x' y y', R x y → R x' y' → P x x' → Q y y') : k'.Pairwise Q := by
  induction h with
  | nil => exact .nil
  | @cons x y k k' hxy hrest ih =>
    obtain ⟨hx, hP⟩ := List.pairwise_cons.mp hP
    refine List.pairwise_cons.mpr ⟨fun y' hy' => ?_, ih hP⟩
    obtain ⟨x', hx', hR⟩ := forall₂_mem_right hrest hy'
    exact hPQ x x' y y' hxy hR (hx x' hx')

end Step

/-! ## The first walk -/

variable {x : PhysId} {dst : ProcId}

def Heap.copyAll (nr : RegionId) : List PhysId → Heap → Heap
  | [], h => h
  | pr :: rest, h => Heap.copyAll nr rest ((h.copyPhys nr pr).insertPhys nr h.nextPhys)

def Heap.news (h : Heap) (l : List PhysId) : List PhysId := List.range' h.nextPhys l.length

/-- What the first walk over the nodes `l` makes of a heap: nodes of the region `nr` that are like
the originals and on no list. -/
structure Copied (h h' : Heap) (nr : RegionId) (l : List PhysId) : Prop where
  copies : List.Forall₂ (fun x y => h'.physr y = ⟨(h.physr x).ph, nr, (h.physr x).offset, none⟩) l (h.news l)
  old : ∀ x < h.nextPhys, h'.physr x = h.physr x
  block : h'.block = h.block
  nextBlock : h'.nextBlock = h.nextBlock
  nextPhys : h'.nextPhys = h.nextPhys + l.length
  nextRegion : h'.nextRegion = h.nextRegion
  region : ∀ q, q ≠ nr → h'.region q = h.region q
  self : h'.region nr = { h.region nr with phys := (h'.region nr).phys }
  mem : ∀ y, y ∈ (h'.region nr).phys ↔ y ∈ (h.region nr).phys ∨ y ∈ h.news l

lemma mem_physrInsert (h : Heap) {pr y : PhysId} : y ∈ h.physrInsert pr l ↔ y = pr ∨ y ∈ l := by
  induction l with
  | nil => simp [Heap.physrInsert]
  | cons x l ih =>
    rw [Heap.physrInsert]
    split_ifs
    · exact List.mem_cons
    · rw [List.mem_cons, ih, List.mem_cons]
      exact or_left_comm

lemma copyPhys_new (h : Heap) (nr : RegionId) (pr : PhysId) :
    ((h.copyPhys nr pr).insertPhys nr h.nextPhys).physr h.nextPhys = ⟨(h.physr pr).ph, nr,
      (h.physr pr).offset, none⟩ := by
  simp [Heap.insertPhys, Heap.modRegion, Heap.copyPhys]

lemma copyPhys_old (h : Heap) (nr : RegionId) (pr : PhysId) (hx : x < h.nextPhys) :
    ((h.copyPhys nr pr).insertPhys nr h.nextPhys).physr x = h.physr x := by
  have hne : x ≠ h.nextPhys := Nat.ne_of_lt hx
  simp [Heap.insertPhys, Heap.modRegion, Heap.copyPhys, hne]

lemma copyPhys_region (h : Heap) (nr : RegionId) (pr : PhysId) (q : RegionId) :
    ((h.copyPhys nr pr).insertPhys nr h.nextPhys).region q =
      if q = nr then { h.region q with phys := (h.copyPhys nr pr).physrInsert h.nextPhys (h.region q).phys }
      else h.region q := by
  by_cases hq : q = nr
  · subst hq
    simp [Heap.insertPhys, Heap.modRegion, Heap.copyPhys]
  · simp [Heap.insertPhys, Heap.modRegion, Heap.copyPhys, hq]

lemma copyAll_copied (hl : ∀ x ∈ l, x < h.nextPhys) : Copied h (h.copyAll nr l) nr l := by
  induction l generalizing h with
  | nil => exact ⟨.nil, fun _ _ => rfl, rfl, rfl, rfl, rfl, fun _ _ => rfl, rfl,
      fun _ => by simp [Heap.news, Heap.copyAll]⟩
  | cons pr rest ih =>
    have hc := ih (h := (h.copyPhys nr pr).insertPhys nr h.nextPhys) fun x hx =>
      Nat.lt_succ_of_lt (hl x (.tail pr hx))
    have hold : ∀ x < h.nextPhys, (h.copyAll nr (pr :: rest)).physr x = h.physr x := fun x hx =>
      (hc.old x (Nat.lt_succ_of_lt hx)).trans (copyPhys_old h nr pr hx)
    refine ⟨.cons ?_ (forall₂_imp_of_mem hc.copies fun x hx y _ hy => ?_), hold, hc.block,
      hc.nextBlock, ?_, hc.nextRegion,
      fun q hq => ?_, ?_, fun y => ?_⟩
    · exact (hc.old h.nextPhys (Nat.lt_succ_self _)).trans (copyPhys_new h nr pr)
    · rw [copyPhys_old h nr pr (hl x (List.mem_cons_of_mem pr hx))] at hy
      exact hy
    · refine hc.nextPhys.trans ?_
      rw [List.length_cons]
      exact Nat.succ_add_eq_add_succ h.nextPhys rest.length
    · refine (hc.region q hq).trans ?_
      rw [copyPhys_region, if_neg hq]
    · refine hc.self.trans ?_
      rw [copyPhys_region, if_pos rfl]
      rfl
    have hnews : y ∈ h.news (pr :: rest) ↔ y = h.nextPhys ∨
      y ∈ ((h.copyPhys nr pr).insertPhys nr h.nextPhys).news rest :=
      List.mem_cons
    refine (hc.mem y).trans ?_
    rw [copyPhys_region, if_pos rfl, hnews]
    simp only [mem_physrInsert, or_assoc, or_left_comm]

lemma copyAll_phys (nr : RegionId) (hl : ∀ x ∈ l, x < h.nextPhys)
    (hsorted : l.Pairwise fun x y => (h.physr x).offset < (h.physr y).offset)
    (hbefore : ∀ y ∈ (h.region nr).phys, y < h.nextPhys ∧ ∀ x ∈ l, (h.physr y).offset < (h.physr x).offset) :
    ((h.copyAll nr l).region nr).phys = (h.region nr).phys ++ h.news l := by
  induction l generalizing h with
  | nil => exact (List.append_nil _).symm
  | cons pr rest ih =>
    have hpr := hl pr (.head _)
    obtain ⟨hfirst, hrest⟩ := List.pairwise_cons.mp hsorted
    have hstep : (((h.copyPhys nr pr).insertPhys nr h.nextPhys).region nr).phys =
      (h.region nr).phys ++ [h.nextPhys] := by
      rw [copyPhys_region, if_pos rfl]
      have hnew : ((h.copyPhys nr pr).physr h.nextPhys).offset = (h.physr pr).offset := by
        simp [Heap.copyPhys]
      have hins := physrInsert_split h.nextPhys (h.copyPhys nr pr)
        (fun y (hy : y ∈ (h.region nr).phys) hlt => ?_)
        fun y (hy : y ∈ []) => nomatch hy
      · rw [List.append_nil] at hins
        exact hins
      have hy' : (h.copyPhys nr pr).physr y = h.physr y := copyPhys_old h nr pr (hbefore y hy).1
      rw [hnew, hy'] at hlt
      exact absurd ((hbefore y hy).2 pr (.head _)) (BitVec.not_lt.mpr (BitVec.le_of_lt hlt))
    have hold : ∀ x ∈ pr :: rest, ((h.copyPhys nr pr).insertPhys nr h.nextPhys).physr x =
      h.physr x := fun x hx =>
      copyPhys_old h nr pr (hl x hx)
    have htail := ih (h := (h.copyPhys nr pr).insertPhys nr h.nextPhys)
      (fun x hx => Nat.lt_succ_of_lt (hl x (.tail pr hx))) ?_ ?_
    · refine htail.trans ?_
      rw [hstep, List.append_assoc]
      rfl
    · refine hrest.imp_of_mem fun {x y} hx hy hxy => ?_
      rw [hold x (List.mem_cons_of_mem pr hx), hold y (List.mem_cons_of_mem pr hy)]
      exact hxy
    rw [hstep]
    intro y hy
    rcases List.mem_append.mp hy with hy | hy
    · refine ⟨Nat.lt_succ_of_lt (hbefore y hy).1, fun x hx => ?_⟩
      rw [copyPhys_old h nr pr (hbefore y hy).1, hold x (List.mem_cons_of_mem pr hx)]
      exact (hbefore y hy).2 x (.tail pr hx)
    obtain rfl := List.mem_singleton.mp hy
    refine ⟨Nat.lt_succ_self _, fun x hx => ?_⟩
    rw [copyPhys_new, hold x (List.mem_cons_of_mem pr hx)]
    exact hfirst x hx

lemma copyBlocks_aside (h : copyBlocks nr l s = (true, t)) : Aside (s.modHeap (Heap.copyAll nr l)) t := by
  induction l generalizing s with
  | nil =>
    cases h
    exact Aside.refl _
  | cons pr rest ih =>
    rw [copyBlocks] at h
    split at h
    · nomatch h
    · next s₁ hslab =>
      exact ((slaballoc_true hslab).modHeap (Heap.copyAll nr (pr :: rest))).trans (ih h)

/-! ## The second walk -/

lemma shareBlock_physr (h : Heap) (pr x : PhysId) (b : BlockId) :
    (h.shareBlock pr b).physr x =
      { h.physr x with nextPhList := ((h.shareBlock pr b).physr x).nextPhList } := by
  by_cases hx : x = pr
  · subst hx
    simp [Heap.shareBlock, Heap.modBlock, Heap.modPhys]
  · simp [Heap.shareBlock, Heap.modBlock, Heap.modPhys, hx]

lemma shareBlock_block (h : Heap) (pr : PhysId) (b b' : BlockId) :
    ((h.shareBlock pr b).block b').length = (h.block b').length ∧
      ((h.shareBlock pr b).block b').phys = (h.block b').phys := by
  by_cases hb : b' = b
  · subst hb
    simp [Heap.shareBlock, Heap.modBlock, Heap.modPhys]
  · simp [Heap.shareBlock, Heap.modBlock, Heap.modPhys, hb]

structure Relisted (h h' : Heap) : Prop where
  physr : ∀ x, h'.physr x = { h.physr x with nextPhList := (h'.physr x).nextPhList }
  block : ∀ b, (h'.block b).length = (h.block b).length ∧ (h'.block b).phys = (h.block b).phys
  region : h'.region = h.region
  nextBlock : h'.nextBlock = h.nextBlock
  nextPhys : h'.nextPhys = h.nextPhys
  nextRegion : h'.nextRegion = h.nextRegion

lemma shareBlocks_relisted (origs news : List PhysId) (h : Heap) : Relisted h (shareBlocks origs news h) := by
  induction origs generalizing news h with
  | nil => exact ⟨fun _ => rfl, fun _ => ⟨rfl, rfl⟩, rfl, rfl, rfl, rfl⟩
  | cons orig origs ih =>
    cases news with
    | nil => exact ⟨fun _ => rfl, fun _ => ⟨rfl, rfl⟩, rfl, rfl, rfl, rfl⟩
    | cons new news =>
      obtain ⟨hphysr, hblock, hregion, hb, hp, hr⟩ := ih news (h.shareBlock new (h.physr orig).ph)
      refine ⟨fun x => ?_, fun b => ?_, hregion, hb, hp, hr⟩
      · refine (hphysr x).trans ?_
        rw [shareBlock_physr]
        rfl
      · obtain ⟨hlen, hphys⟩ := shareBlock_block h new (h.physr orig).ph b
        exact ⟨(hblock b).1.trans hlen, (hblock b).2.trans hphys⟩

lemma Relisted.ph (hl : Relisted h h') (x : PhysId) : (h'.physr x).ph = (h.physr x).ph := by
  rw [hl.physr]

/-- No block has more sharers among some physical regions than its count can hold. -/
def Heap.Crowd (h : Heap) (Ref : PhysId → Prop) : Prop :=
  ∀ b, ∀ k : List PhysId, k.Nodup → (∀ x ∈ k, Ref x ∧ (h.physr x).ph = b) → k.length ≤ 255

lemma Heap.Crowd.mono {Ref Ref' : PhysId → Prop} (hcrowd : h'.Crowd Ref')
    (hsub : ∀ x, Ref x → Ref' x ∧ (h'.physr x).ph = (h.physr x).ph) : h.Crowd Ref := by
  intro b k hnd hk
  refine hcrowd b k hnd fun x hx => ?_
  obtain ⟨href, hph⟩ := hk x hx
  obtain ⟨href', hph'⟩ := hsub x href
  exact ⟨href', hph'.trans hph⟩

lemma shareBlocks_exact (origs : List PhysId) {Ref : PhysId → Prop} {news : List PhysId}
    (hexact : Exact h.store Ref) (hnd : news.Nodup)
    (hnew : ∀ y ∈ news, ¬ Ref y) (hph : List.Forall₂ (fun x y => (h.physr y).ph = (h.physr x).ph) origs news)
    (hcrowd : h.Crowd fun x => x ∈ news ∨ Ref x) :
    Exact (shareBlocks origs news h).store fun x => x ∈ news ∨ Ref x := by
  induction origs generalizing h Ref news with
  | nil =>
    cases hph
    exact hexact.congr fun x => by simp
  | cons orig origs ih =>
    obtain ⟨new, news, hph₁, hrest, rfl⟩ := List.forall₂_cons_left_iff.mp hph
    obtain ⟨hnotin, hnd⟩ := List.nodup_cons.mp hnd
    have hsame : ∀ x, ((h.shareBlock new (h.physr orig).ph).physr x).ph = (h.physr x).ph :=
      fun x => by rw [shareBlock_physr]
    -- the nodes already on the list of the block, and the new one, are sharers
    have hroom : (h.store.count (h.store.target new)).toNat + 1 < 2 ^ 8 := by
      obtain ⟨k, hlinks, hmem, hcount⟩ := hexact (h.store.target new)
      have hle := hcrowd (h.store.target new) (new :: k)
        (List.nodup_cons.mpr ⟨fun hin => hnew new (.head _) ((hmem new).mp hin).1, hlinks.nodup⟩)
        (List.forall_mem_cons.mpr ⟨⟨.inl (.head _), rfl⟩, fun x hx => ((hmem x).mp hx).imp_left .inr⟩)
      rw [List.length_cons] at hle
      omega
    have hpush := hexact.push (hnew new (.head _)) hroom
    have htarget : h.store.target new = (h.physr orig).ph := hph₁
    rw [htarget, ← store_shareBlock] at hpush
    refine (ih hpush hnd (fun y hy => ?_) (hrest.imp fun x y hxy => ?_) ?_).congr fun x => ?_
    · rintro (rfl | hy')
      · exact hnotin hy
      · exact hnew y (.tail new hy) hy'
    · rw [hsame, hsame]
      exact hxy
    · refine hcrowd.mono fun x hx => ⟨?_, (hsame x).symm⟩
      rcases hx with hx | rfl | hx
      · exact .inl (.tail new hx)
      · exact .inl (.head _)
      · exact .inr hx
    · rw [List.mem_cons]
      tauto

/-! ## One region -/

def Heap.uncounted (h : Heap) (dst : ProcId) (vr : RegionId) : Heap :=
  ((h.newRegion (h.region vr)).copyAll h.nextRegion (h.region vr).phys).modRegion h.nextRegion fun x =>
    { x with parent := dst }

def Heap.copyRegion (h : Heap) (dst : ProcId) (vr : RegionId) : Heap :=
  shareBlocks ((h.uncounted dst vr).region vr).phys ((h.uncounted dst vr).region h.nextRegion).phys
    (h.uncounted dst vr)

def State.copyRegion (s : State) (dst : ProcId) (vr : RegionId) : State :=
  (s.modHeap fun h => h.copyRegion dst vr).modProc dst fun x =>
    { x with vmRegions := x.vmRegions ++ [s.heap.nextRegion] }

lemma Aside.relink (ha : Aside s t) (p : ProcId) (f : List RegionId → List RegionId) :
    Aside (s.modProc p fun x => { x with vmRegions := f x.vmRegions })
      (t.modProc p fun x => { x with vmRegions := f x.vmRegions }) := by
  refine ⟨ha.heap, fun q => ?_, fun q i hi => ?_, ha.free, ha.spent, ha.own, ha.denied⟩
  · by_cases hq : q = p
    · subst hq
      simp only [State.modProc, update_self]
      rw [ha.proc q]
    · simp only [State.modProc, update_of_ne hq]
      exact ha.proc q
  · by_cases hq : q = p
    · subst hq
      simp only [State.modProc, update_self] at hi ⊢
      exact ha.dir q i hi
    · simp only [State.modProc, update_of_ne hq] at hi ⊢
      exact ha.dir q i hi

lemma mapCopyRegion_some {new : RegionId} (h : mapCopyRegion p vr s = .ok (some new, t)) :
    new = s.heap.nextRegion ∧
      Aside (s.modHeap fun h => (h.newRegion (h.region vr)).copyAll h.nextRegion (h.region vr).phys) t := by
  unfold mapCopyRegion at h
  rcases slabs_cases h with ⟨u, -, -, h⟩ | ⟨s₂, ha, h⟩
  · nomatch h
  simp only at h
  split at h
  · next s₃ hcopy =>
    cases h
    have hblocks := copyBlocks_aside hcopy
    refine ⟨congrArg Heap.nextRegion ha.heap, ?_⟩
    rw [ha.heap] at hblocks
    exact (ha.modHeap fun h => (h.newRegion (h.region vr)).copyAll s.heap.nextRegion
      (s.heap.region vr).phys).trans hblocks
  · obtain ⟨⟨_, _⟩, _, h⟩ := bind_eq_ok.mp h
    nomatch h

lemma copyRegions_cons {rest : List RegionId} (h : copyRegions dst (vr :: rest) s = .ok (true, t)) :
    ∃ s', Aside (s.copyRegion dst vr) s' ∧ copyRegions dst rest s' = .ok (true, t) := by
  rw [copyRegions] at h
  obtain ⟨⟨copy, s₁⟩, hcopy, h⟩ := bind_eq_ok.mp h
  cases copy with
  | none =>
    obtain ⟨s₂, _, h⟩ := bind_eq_ok.mp h
    nomatch h
  | some newvr =>
    obtain ⟨rfl, ha⟩ := mapCopyRegion_some hcopy
    refine ⟨_, ?_, h⟩
    have hheap := ha.heap
    have hlinked := ((ha.modHeap fun h => h.modRegion s.heap.nextRegion fun x =>
      { x with parent := dst }).relink dst
      fun l => l ++ [s.heap.nextRegion])
    have hshared := hlinked.modHeap fun h =>
      shareBlocks (h.region vr).phys (h.region s.heap.nextRegion).phys h
    exact hshared

structure Recopied (h h' : Heap) (dst : ProcId) (vr : RegionId) : Prop where
  copies : List.Forall₂ (fun x y => (h'.physr y).ph = (h.physr x).ph ∧ (h'.physr y).parent = h.nextRegion ∧
    (h'.physr y).offset = (h.physr x).offset) (h.region vr).phys (h.news (h.region vr).phys)
  old : ∀ x < h.nextPhys, h'.physr x = { h.physr x with nextPhList := (h'.physr x).nextPhList }
  block : ∀ b, (h'.block b).length = (h.block b).length ∧ (h'.block b).phys = (h.block b).phys
  nextBlock : h'.nextBlock = h.nextBlock
  nextPhys : h'.nextPhys = h.nextPhys + (h.region vr).phys.length
  nextRegion : h'.nextRegion = h.nextRegion + 1
  region : ∀ q, q ≠ h.nextRegion → h'.region q = h.region q
  self : h'.region h.nextRegion =
    { h.region vr with phys := (h'.region h.nextRegion).phys, parent := dst }
  mem : ∀ y ∈ (h'.region h.nextRegion).phys, y ∈ h.news (h.region vr).phys

lemma copyRegion_relisted (h : Heap) (dst : ProcId) (vr : RegionId) :
    Relisted (h.uncounted dst vr) (h.copyRegion dst vr) :=
  shareBlocks_relisted _ _ _

lemma copyRegion_recopied (dst : ProcId) (hvr : ∀ x ∈ (h.region vr).phys, x < h.nextPhys) :
    Recopied h (h.copyRegion dst vr) dst vr := by
  have hc : Copied (h.newRegion (h.region vr)) _ h.nextRegion (h.region vr).phys := copyAll_copied hvr
  have hl := copyRegion_relisted h dst vr
  refine ⟨?_, fun x hx => ?_, fun b => ?_, hl.nextBlock.trans hc.nextBlock, hl.nextPhys.trans hc.nextPhys,
    hl.nextRegion.trans hc.nextRegion, fun q hq => ?_, ?_, fun y hy => ?_⟩
  · refine hc.copies.imp fun x y hxy => ?_
    rw [hl.physr y]
    have hy : (h.uncounted dst vr).physr y = _ := hxy
    rw [hy]
    exact ⟨rfl, rfl, rfl⟩
  · refine (hl.physr x).trans ?_
    have hx' : (h.uncounted dst vr).physr x = h.physr x := hc.old x hx
    rw [hx']
  · have hb : (h.uncounted dst vr).block b = h.block b := congrFun hc.block b
    obtain ⟨hlen, hphys⟩ := hl.block b
    rw [hb] at hlen hphys
    exact ⟨hlen, hphys⟩
  · rw [hl.region]
    have hq' : (h.uncounted dst vr).region q = _ := update_of_ne hq _ _
    rw [hq', hc.region q hq, newRegion_of_ne h _ hq]
  · rw [hl.region]
    have hself : (h.uncounted dst vr).region h.nextRegion = _ := update_self _ _ _
    rw [hself, hc.self, newRegion_new]

  · rw [hl.region] at hy
    have hself : (h.uncounted dst vr).region h.nextRegion = _ := update_self _ _ _
    rw [hself] at hy
    refine ((hc.mem y).mp hy).resolve_left fun hy => ?_
    rw [newRegion_new] at hy
    nomatch hy

lemma mem_news : x ∈ h.news l ↔ h.nextPhys ≤ x ∧ x < h.nextPhys + l.length := by
  simp [Heap.news]

lemma Recopied.stop_of_ph (hc : Recopied h h' dst vr) {y : PhysId} (hph : (h'.physr y).ph = (h.physr x).ph)
    (hoffset : (h'.physr y).offset = (h.physr x).offset) : h'.start y = h.start x ∧ h'.stop y = h.stop x := by
  have hstart : h'.start y = h.start x := congrArg BitVec.toNat hoffset
  refine ⟨hstart, ?_⟩
  rw [Heap.stop, hstart, Heap.blockOf, hph, (hc.block _).1]
  rfl

lemma Recopied.tree_old (hc : Recopied h h' dst vr) (ht : h.Tree r) : h'.Tree r := by
  have hr := hc.region r (Nat.ne_of_lt ht.lt)
  refine ht.keep (by rw [hr]) (by rw [hr]) (fun x hx => ?_) (by rw [hc.nextRegion]; exact Nat.le_succ _)
  rw [hr] at hx
  have hf := ht.fits x hx
  have hold := hc.old x hf.phys_lt
  have hph : (h'.physr x).ph = (h.physr x).ph := by rw [hold]
  obtain ⟨hstart, hstop⟩ := hc.stop_of_ph hph (by rw [hold])
  refine ⟨by rw [hold], hstart, hstop, ?_, ?_⟩
  · rw [hc.nextPhys]
    exact Nat.lt_add_right _ hf.phys_lt
  · rw [hph, hc.nextBlock]
    exact hf.block_lt

lemma Recopied.tree_new (hc : Recopied h h' dst vr) (ht : h.Tree vr)
    (hphys : (h'.region h.nextRegion).phys = h.news (h.region vr).phys) : h'.Tree h.nextRegion := by
  have hlength : (h'.region h.nextRegion).length = (h.region vr).length := by rw [hc.self]
  refine ⟨fun y hy => ?_, ?_, by rw [hlength]; exact ht.dvd, by rw [hc.nextRegion]; exact Nat.lt_succ_self _⟩
  · rw [hphys] at hy
    obtain ⟨x, hx, hph, hparent, hoffset⟩ := forall₂_mem_right hc.copies hy
    obtain ⟨hstart, hstop⟩ := hc.stop_of_ph hph hoffset
    obtain ⟨-, hpos, hle, hdvd₁, hdvd₂, -, hblock⟩ := ht.fits x hx
    refine ⟨hparent, by rwa [hstart, hstop], by rwa [hstop, hlength], by rwa [hstart], by rwa [hstop], ?_, ?_⟩
    · rw [hc.nextPhys]
      exact (mem_news.mp hy).2
    · rw [hph, hc.nextBlock]
      exact hblock
  · rw [hphys]
    refine forall₂_pairwise hc.copies ht.laid fun x x' y y' hxy hxy' hlaid => ?_
    rw [(hc.stop_of_ph hxy.1 hxy.2.2).2, (hc.stop_of_ph hxy'.1 hxy'.2.2).1]
    exact hlaid

lemma copyRegion_phys (dst : ProcId) (ht : h.Tree vr) :
    ((h.copyRegion dst vr).region h.nextRegion).phys = h.news (h.region vr).phys := by
  have hsorted : (h.region vr).phys.Pairwise fun x y => (h.physr x).offset < (h.physr y).offset := by
    refine ht.laid.imp_of_mem fun {x y} hx _ hxy => ?_
    have hpos := (ht.fits x hx).pos
    exact BitVec.lt_def.mpr (Nat.lt_of_lt_of_le hpos hxy)
  have hphys := copyAll_phys h.nextRegion (h := h.newRegion (h.region vr))
    (fun x hx => (ht.fits x hx).phys_lt) hsorted
    (by rw [newRegion_new]; exact nofun)
  rw [newRegion_new, List.nil_append] at hphys
  rw [(copyRegion_relisted h dst vr).region]
  have hself : (h.uncounted dst vr).region h.nextRegion = _ := update_self _ _ _
  rw [hself]
  exact hphys

lemma Heap.Sound.exact_copyRegion (hs : h.Sound K) (hvr : K vr)
    (hcrowd : (h.copyRegion dst vr).Crowd fun x => x ∈ h.news (h.region vr).phys ∨ h.Refs K x) :
    Exact (h.copyRegion dst vr).store fun x => x ∈ h.news (h.region vr).phys ∨ h.Refs K x := by
  have ht := hs.tree vr hvr
  have hc : Copied (h.newRegion (h.region vr)) _ h.nextRegion (h.region vr).phys :=
    copyAll_copied fun x hx => (ht.fits x hx).phys_lt
  have hl := copyRegion_relisted h dst vr
  have hlt : ∀ {x}, h.Refs K x → x < h.nextPhys := fun ⟨q, hq, hx⟩ => (hs.fits hq hx).phys_lt
  have hold : ∀ {x}, x < h.nextPhys → (h.uncounted dst vr).physr x = h.physr x := fun hx => hc.old _ hx
  have hexact : Exact (h.uncounted dst vr).store (h.Refs K) := by
    have hblock : (h.uncounted dst vr).block = h.block := hc.block
    refine hs.exact.retarget ?_ ?_ (fun x hx => ?_) fun x hx => ?_
    · exact congrArg (fun f : BlockId → PhysBlock => fun b => (f b).firstregion) hblock
    · exact congrArg (fun f : BlockId → PhysBlock => fun b => (f b).refcount) hblock
    · exact congrArg PhysRegion.nextPhList (hold (hlt hx))
    · exact congrArg PhysRegion.ph (hold (hlt hx))
  have horigs : ((h.uncounted dst vr).region vr).phys = (h.region vr).phys := by
    rw [← hl.region, (copyRegion_recopied dst fun x hx => (ht.fits x hx).phys_lt).region vr
      (Nat.ne_of_lt ht.lt)]
  have hnews : ((h.uncounted dst vr).region h.nextRegion).phys = h.news (h.region vr).phys := by
    rw [← hl.region, copyRegion_phys dst ht]
  have hshare := shareBlocks_exact (h.region vr).phys hexact List.nodup_range' (fun y hy href => ?_) ?_
    (hcrowd.mono fun x hx => ⟨hx, hl.ph x⟩)
  · rw [Heap.copyRegion, horigs, hnews]
    exact hshare
  · exact Nat.not_lt_of_le (mem_news.mp hy).1 (hlt href)
  refine forall₂_imp_of_mem hc.copies fun x hx y _ hxy => ?_
  have hy : (h.uncounted dst vr).physr y = _ := hxy
  rw [hy, hold (ht.fits x hx).phys_lt]
  rfl

lemma Recopied.refs (hc : Recopied h h' dst vr) (hK : ∀ q, K q → q ≠ h.nextRegion)
    (hphys : (h'.region h.nextRegion).phys = h.news (h.region vr).phys) (x : PhysId) :
    h'.Refs (fun q => q = h.nextRegion ∨ K q) x ↔ x ∈ h.news (h.region vr).phys ∨ h.Refs K x := by
  constructor
  · rintro ⟨q, rfl | hq, hx⟩
    · rw [hphys] at hx
      exact .inl hx
    · rw [hc.region q (hK q hq)] at hx
      exact .inr ⟨q, hq, hx⟩
  · rintro (hx | ⟨q, hq, hx⟩)
    · exact ⟨h.nextRegion, .inl rfl, by rw [hphys]; exact hx⟩
    · exact ⟨q, .inr hq, by rw [hc.region q (hK q hq)]; exact hx⟩

lemma Heap.Sound.copyRegion (hs : h.Sound K) (hvr : K vr)
    (hcrowd : (h.copyRegion dst vr).Crowd ((h.copyRegion dst vr).Refs fun q => q = h.nextRegion ∨ K q)) :
    (h.copyRegion dst vr).Sound fun q => q = h.nextRegion ∨ K q := by
  have ht := hs.tree vr hvr
  have hc := copyRegion_recopied dst fun x hx => (ht.fits x hx).phys_lt
  have hphys := copyRegion_phys dst ht
  have hK : ∀ q, K q → q ≠ h.nextRegion := fun q hq => Nat.ne_of_lt (hs.tree q hq).lt
  have hrefs := hc.refs hK hphys
  -- every node of the new heap has a node of the old one at the same block, in a region of the same
  -- kind
  have horigin : ∀ q, q = h.nextRegion ∨ K q → ∀ y ∈ ((h.copyRegion dst vr).region q).phys,
      ∃ r, K r ∧ ((h.copyRegion dst vr).region q).flags = (h.region r).flags ∧
        ∃ x ∈ (h.region r).phys, ((h.copyRegion dst vr).physr y).ph = (h.physr x).ph := by
    rintro q (rfl | hq) y hy
    · rw [hphys] at hy
      obtain ⟨x, hx, hph, -⟩ := forall₂_mem_right hc.copies hy
      exact ⟨vr, hvr, by rw [hc.self], x, hx, hph⟩
    · rw [hc.region q (hK q hq)] at hy
      exact ⟨q, hq, by rw [hc.region q (hK q hq)], y, hy, by rw [hc.old y (hs.fits hq hy).phys_lt]⟩
  refine ⟨(hs.exact_copyRegion hvr ?_).congr hrefs, ?_, ?_⟩
  · exact hcrowd.mono fun x hx => ⟨(hrefs x).mpr hx, rfl⟩
  · rintro q (rfl | hq)
    · exact hc.tree_new ht hphys
    · exact hc.tree_old (hs.tree q hq)
  intro r q hr hq x hx y hy heq
  obtain ⟨r', hr', hflags, x', hx', hphx⟩ := horigin r hr x hx
  obtain ⟨q', hq', hflags', y', hy', hphy⟩ := horigin q hq y hy
  rw [hflags, hflags']
  exact hs.kind r' q' hr' hq' x' hx' y' hy' (hphx.symm.trans (heq.trans hphy))

/-! ## All regions -/

section Regions
variable {dst : ProcId} {src : ProcId}

/-- The regions of processes and the nodes of their trees have been allocated. -/
structure State.Bounded (s : State) : Prop where
  held : ∀ r, s.Held r → r < s.heap.nextRegion
  refs : ∀ x, s.heap.Refs s.Held x → x < s.heap.nextPhys

def Extends (s t : State) : Prop :=
  ∀ x, s.heap.Refs s.Held x → t.heap.Refs t.Held x ∧ (t.heap.physr x).ph = (s.heap.physr x).ph

def State.Uncrowded (s : State) : Prop := s.heap.Crowd (s.heap.Refs s.Held)

lemma State.Tidy.bounded (hs : s.Tidy) : s.Bounded :=
  ⟨fun r hr => (hs.sound.tree r hr).lt, fun _ ⟨_, hr, hx⟩ => (hs.sound.fits hr hx).phys_lt⟩

lemma Aside.held (ha : Aside s t) : t.Held = s.Held := ha.frame.held

lemma Aside.bounded (ha : Aside s t) (hs : s.Bounded) : t.Bounded := by
  obtain ⟨hheld, hrefs⟩ := hs
  constructor
  · rwa [ha.held, ha.heap]
  · rwa [ha.held, ha.heap]

lemma copyRegion_vmRegions (s : State) (dst : ProcId) (vr : RegionId) (q : ProcId) :
    ((s.copyRegion dst vr).proc q).vmRegions =
      if q = dst then (s.proc q).vmRegions ++ [s.heap.nextRegion] else (s.proc q).vmRegions := by
  rw [State.copyRegion, State.modProc_proc]
  split <;> rfl

lemma adds_copyRegion (s : State) (dst : ProcId) (vr : RegionId) :
    Adds dst s.heap.nextRegion s (s.copyRegion dst vr) := by
  intro q
  rw [copyRegion_vmRegions]
  split_ifs
  · exact List.perm_append_singleton _ _
  · exact .refl _

lemma copyRegion_held (s : State) (dst : ProcId) (vr : RegionId) :
    (s.copyRegion dst vr).Held = fun q => q = s.heap.nextRegion ∨ s.Held q :=
  (adds_copyRegion s dst vr).held

lemma State.Bounded.copyRegion (dst : ProcId) (hs : s.Bounded) (hvr : s.Held vr) :
    (s.copyRegion dst vr).Bounded ∧ Extends s (s.copyRegion dst vr) := by
  have hc : Recopied s.heap (s.copyRegion dst vr).heap dst vr :=
    copyRegion_recopied dst fun x hx => hs.refs x ⟨vr, hvr, hx⟩
  have hK : ∀ q, s.Held q → (s.copyRegion dst vr).heap.region q = s.heap.region q := fun q hq =>
    hc.region q (Nat.ne_of_lt (hs.held q hq))
  refine ⟨⟨fun q hq => ?_, ?_⟩, fun x hx => ?_⟩
  · rw [copyRegion_held] at hq
    rw [hc.nextRegion]
    rcases hq with rfl | hq
    · exact Nat.lt_succ_self _
    · exact Nat.lt_succ_of_lt (hs.held q hq)
  · rw [copyRegion_held]
    rintro x ⟨q, rfl | hq, hx⟩
    · rw [hc.nextPhys]
      exact (mem_news.mp (hc.mem x hx)).2
    rw [hK q hq] at hx
    rw [hc.nextPhys]
    exact Nat.lt_add_right _ (hs.refs x ⟨q, hq, hx⟩)
  · refine ⟨?_, by rw [hc.old x (hs.refs x hx)]⟩
    obtain ⟨q, hq, hx⟩ := hx
    rw [copyRegion_held]
    exact ⟨q, .inr hq, by rw [hK q hq]; exact hx⟩

lemma Extends.aside (he : Extends s t) (ha : Aside t u) : Extends s u := by
  intro x hx
  rw [ha.held, ha.heap]
  exact he x hx

lemma Extends.uncrowded (he : Extends s t) (ht : t.Uncrowded) : s.Uncrowded := Heap.Crowd.mono ht he

lemma held_of_copyRegion (ha : Aside (s.copyRegion dst vr) t) (hr : s.Held r) : t.Held r := by
  rw [ha.held, copyRegion_held]
  exact .inr hr

lemma copyRegions_extends {l : List RegionId} (hs : s.Bounded) (hl : ∀ r ∈ l, s.Held r)
    (h : copyRegions dst l s = .ok (true, t)) : t.Bounded ∧ Extends s t := by
  induction l generalizing s with
  | nil =>
    cases h
    exact ⟨hs, fun x hx => ⟨hx, rfl⟩⟩
  | cons vr rest ih =>
    obtain ⟨s', ha, h⟩ := copyRegions_cons h
    obtain ⟨hb, he⟩ := hs.copyRegion dst (hl vr (.head _))
    obtain ⟨hbound, hrest⟩ := ih (ha.bounded hb) (fun r hr => held_of_copyRegion ha (hl r (.tail vr hr))) h
    refine ⟨hbound, fun x hx => ?_⟩
    obtain ⟨hx', hph⟩ := he.aside ha x hx
    obtain ⟨hx'', hph'⟩ := hrest x hx'
    exact ⟨hx'', hph'.trans hph⟩

lemma State.Tidy.copyRegion (hs : s.Tidy) (hvr : s.Held vr) (hcrowd : (s.copyRegion dst vr).Uncrowded) :
    (s.copyRegion dst vr).Tidy := by
  have hc : Recopied s.heap (s.copyRegion dst vr).heap dst vr :=
    copyRegion_recopied dst fun x hx => hs.bounded.refs x ⟨vr, hvr, hx⟩
  refine hs.adds (adds_copyRegion s dst vr) (fun r hr => ?_) ?_ (by rw [hc.self])
  · rw [hc.region r (Nat.ne_of_lt (hs.bounded.held r hr))]
  · rw [State.Uncrowded, copyRegion_held] at hcrowd
    exact hs.sound.copyRegion hvr hcrowd

lemma copyRegions_rule {P : State → Prop} {l : List RegionId} (hs : s.Tidy) (hl : ∀ r ∈ l, s.Held r)
    (h : copyRegions dst l s = .ok (true, t)) (hcrowd : t.Uncrowded) (hP : P s)
    (hstep : ∀ u u' vr, u.Tidy → u.Held vr → (u.copyRegion dst vr).Tidy →
      Aside (u.copyRegion dst vr) u' → P u → P u') :
    t.Tidy ∧ P t := by
  induction l generalizing s with
  | nil =>
    cases h
    exact ⟨hs, hP⟩
  | cons vr rest ih =>
    obtain ⟨s', ha, h⟩ := copyRegions_cons h
    have hvr := hl vr (.head _)
    have hheld : ∀ r ∈ rest, s'.Held r := fun r hr => held_of_copyRegion ha (hl r (.tail vr hr))
    -- the counts are safe here since the nodes counted now are still there at the end
    have hcrowd' := (copyRegions_extends (ha.bounded (hs.bounded.copyRegion dst hvr).1) hheld
      h).2.uncrowded hcrowd
    have huncrowded : (s.copyRegion dst vr).Uncrowded := by
      rw [State.Uncrowded, ha.held, ha.heap] at hcrowd'
      exact hcrowd'
    have htidy := hs.copyRegion hvr huncrowded
    exact ih (htidy.aside ha) hheld h (hstep s s' vr hs hvr htidy ha hP)

/-! ## The page tables -/

inductive Remap (p : ProcId) : State → State → Prop where
  | aside {s t : State} (h : Aside s t) : Remap p s t
  | map {s : State} {r : RegionId} {pr : PhysId} (hr : r ∈ (s.proc p).vmRegions)
      (hpr : pr ∈ (s.heap.region r).phys) :
      Remap p s (s.mapPtes p r pr)

abbrev Remaps (p : ProcId) : State → State → Prop := ReflTransGen (Remap p)

lemma Remap.heap (h : Remap p s t) : t.heap = s.heap ∧ Frame s t := by
  cases h with
  | aside h => exact ⟨h.heap, h.frame⟩
  | map _ _ => exact ⟨rfl, mapPtes_frame _ _ _ _⟩

lemma Remaps.heap (h : Remaps p s t) : t.heap = s.heap ∧ Frame s t := by
  induction h with
  | refl => exact ⟨rfl, Frame.refl s⟩
  | tail _ h ih => exact ⟨h.heap.1.trans ih.1, ih.2.trans h.heap.2⟩

lemma writeptBlocks_remaps (hr : r ∈ (s.proc p).vmRegions) (hl : ∀ x ∈ l, x ∈ (s.heap.region r).phys)
    (h : writeptBlocks p r l s = (ok, t)) : Remaps p s t := by
  induction l generalizing s with
  | nil =>
    cases h
    exact .refl
  | cons pr rest ih =>
    rw [writeptBlocks] at h
    rcases hmap : mapPhWritept p r pr s with ⟨done, s₁⟩
    rw [hmap] at h
    rcases mapPhWritept_aside hmap with ⟨rfl, ha⟩ | ⟨rfl, ha, -⟩
    · have hstep : Remaps p s s₁ := .tail (.single (.map hr (hl pr (.head _)))) (.aside ha)
      obtain ⟨hheap, hframe⟩ := hstep.heap
      refine hstep.trans (ih ?_ (fun x hx => ?_) h)
      · rw [hframe.vmRegions]
        exact hr
      · rw [hheap]
        exact hl x (.tail pr hx)
    · cases h
      exact .single (.aside ha)

lemma writeptRegions_remaps {l : List RegionId} (hl : ∀ r ∈ l, r ∈ (s.proc p).vmRegions)
    (h : writeptRegions p l s = (ok, t)) : Remaps p s t := by
  induction l generalizing s with
  | nil =>
    cases h
    exact .refl
  | cons r rest ih =>
    rw [writeptRegions] at h
    split at h
    · next s₁ hmap =>
      have hstep := writeptBlocks_remaps (hl r (.head _)) (fun _ hx => hx) hmap
      cases h
      exact hstep
    next s₁ hmap =>
    have hstep := writeptBlocks_remaps (hl r (.head _)) (fun _ hx => hx) hmap
    refine hstep.trans (ih (fun q hq => ?_) h)
    rw [hstep.heap.2.vmRegions]
    exact hl q (.tail r hq)

lemma mapWritept_remaps (h : mapWritept p s = (ok, t)) : Remaps p s t :=
    writeptRegions_remaps (fun _ hr => hr) h

lemma mapProcCopy_inv (h : mapProcCopy dst src s = .ok (ok, t)) :
    ∃ s₁ s₂, copyRegions dst (s.proc src).vmRegions (s.modProc dst fun x =>
      { x with vmRegions := [] }) = .ok (ok, s₁) ∧
      Remaps src s₁ s₂ ∧ Remaps dst s₂ t := by
  unfold mapProcCopy at h
  obtain ⟨⟨got, s₁⟩, hcopy, h⟩ := bind_eq_ok.mp h
  cases got with
  | false =>
    cases h
    exact ⟨t, t, hcopy, .refl, .refl⟩
  | true =>
    rcases hsrc : mapWritept src s₁ with ⟨ok₁, s₂⟩
    rcases hdst : mapWritept dst s₂ with ⟨ok₂, s₃⟩
    simp only [if_true, hsrc, hdst] at h
    cases h
    exact ⟨s₁, s₂, hcopy, mapWritept_remaps hsrc, mapWritept_remaps hdst⟩

lemma modProc_of_empty (hdst : (s.proc dst).vmRegions = []) :
    (s.modProc dst fun x => { x with vmRegions := [] }) = s := by
  rw [State.modProc, ← hdst]
  simp

lemma mapProcCopy_rule {P : State → Prop} (hs : s.Tidy) (hdst : (s.proc dst).vmRegions = [])
    (h : mapProcCopy dst src s = .ok (true, t)) (hcrowd : t.Uncrowded) (hP : P s)
    (hstep : ∀ u u' vr, u.Tidy → u.Held vr → (u.copyRegion dst vr).Tidy →
      Aside (u.copyRegion dst vr) u' → P u → P u')
    (hmap : ∀ u u' q, u.Tidy → Remap q u u' → P u → P u') : t.Tidy ∧ P t := by
  obtain ⟨s₁, s₂, hcopy, h₁, h₂⟩ := mapProcCopy_inv h
  rw [modProc_of_empty hdst] at hcopy
  have hremaps : ∀ {u u' q}, Remaps q u u' → u.Tidy → P u → u'.Tidy ∧ P u' := by
    intro u u' q hr hu hPu
    induction hr with
    | refl => exact ⟨hu, hPu⟩
    | @tail v v' _ hr ih =>
      obtain ⟨hheap, hframe⟩ := hr.heap
      exact ⟨ih.1.frame hframe (by rw [hheap]; exact ih.1.sound), hmap v v' q ih.1 hr ih.2⟩
  have hcrowd₁ : s₁.Uncrowded := by
    obtain ⟨hheap₁, hframe₁⟩ := h₁.heap
    obtain ⟨hheap₂, hframe₂⟩ := h₂.heap
    rw [State.Uncrowded, (hframe₁.trans hframe₂).held, hheap₂, hheap₁] at hcrowd
    exact hcrowd
  obtain ⟨htidy, hP₁⟩ := copyRegions_rule hs (fun r hr => ⟨src, hr⟩) hcopy hcrowd₁ hP hstep
  obtain ⟨htidy₂, hP₂⟩ := hremaps h₁ htidy hP₁
  exact hremaps h₂ htidy₂ hP₂

lemma State.Bounded.uncrowded (hs : s.Bounded) (hle : s.heap.nextPhys ≤ 255) : s.Uncrowded := by
  intro b k hnd hk
  have hsub : k ⊆ List.range s.heap.nextPhys := fun x hx => List.mem_range.mpr (hs.refs x (hk x hx).1)
  have hlen := (List.subperm_of_subset hnd hsub).length_le
  rw [List.length_range] at hlen
  exact Nat.le_trans hlen hle

lemma mapProcCopy_bounded (hs : s.Bounded) (hdst : (s.proc dst).vmRegions = [])
    (h : mapProcCopy dst src s = .ok (true, t)) : t.Bounded := by
  obtain ⟨s₁, s₂, hcopy, h₁, h₂⟩ := mapProcCopy_inv h
  rw [modProc_of_empty hdst] at hcopy
  obtain ⟨⟨hheld, hrefs⟩, -⟩ := copyRegions_extends hs (fun r hr => ⟨src, hr⟩) hcopy
  obtain ⟨hheap₁, hframe₁⟩ := h₁.heap
  obtain ⟨hheap₂, hframe₂⟩ := h₂.heap
  constructor
  · rwa [(hframe₁.trans hframe₂).held, hheap₂, hheap₁]
  · rwa [(hframe₁.trans hframe₂).held, hheap₂, hheap₁]

end Regions

end Nucleos.Vm
