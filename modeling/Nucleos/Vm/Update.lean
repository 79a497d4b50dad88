import Nucleos.Vm.Sound

/-!
# Work on the tree of a region as a sequence of updates

What page faults, memory requests and unmapping do to the blocks of a region is a sequence of
few kinds of updates, and allocations aside. The invariants are then shown for one update.
-/

namespace Nucleos.Vm

open IntrusiveList Sharing Run Relation

variable {s t u : State} {K : RegionId → Prop} {p : ProcId} {r : RegionId} {pr : PhysId} {b : Nat}
    {A : Prop}

structure Frame (s t : State) : Prop where
  region : ∀ r, t.heap.region r = { s.heap.region r with phys := (t.heap.region r).phys }
  proc : ∀ p, t.proc p = { s.proc p with vmPt := (t.proc p).vmPt }
  next : t.heap.nextRegion = s.heap.nextRegion

lemma Frame.refl (s : State) : Frame s s := ⟨fun _ => rfl, fun _ => rfl, rfl⟩

lemma Frame.trans (h₁ : Frame s t) (h₂ : Frame t u) : Frame s u where
  region r := by rw [h₂.region r, h₁.region r]
  proc p := by rw [h₂.proc p, h₁.proc p]
  next := h₂.next.trans h₁.next

lemma Aside.frame (h : Aside s t) : Frame s t where
  region r := by rw [h.heap]
  proc p := by rw [h.proc p]
  next := by rw [h.heap]

lemma setPtes_frame (s : State) (p : ProcId) (v : BitVec 32) (n : Nat) (entry : Nat → Option Pte) :
    Frame s (s.setPtes p v n entry) where
  region _ := rfl
  proc q := by
    rw [State.setPtes, State.modProc_proc]
    split <;> rfl
  next := rfl

lemma mapPtes_frame (s : State) (p : ProcId) (r : RegionId) (pr : PhysId) : Frame s (s.mapPtes p r pr) :=
  setPtes_frame _ _ _ _ _

lemma modHeap_frame (s : State) {f : Heap → Heap} (hregion : (f s.heap).region = s.heap.region)
    (hnext : (f s.heap).nextRegion = s.heap.nextRegion) : Frame s (s.modHeap f) where
  region r := by
    have hr : (s.modHeap f).heap.region = s.heap.region := hregion
    rw [hr]
  proc _ := rfl
  next := hnext

section
variable (s : State) (r : RegionId)

lemma settle_heap (b : BlockId) : (s.settle r b).heap = s.heap := by
  unfold State.settle
  split_ifs
  · rfl
  · rfl
  · split <;> rfl
  · rfl

lemma settle_frame (b : BlockId) : Frame s (s.settle r b) := by
  unfold State.settle
  split_ifs
  · exact ⟨fun _ => rfl, fun _ => rfl, rfl⟩
  · exact Frame.refl s
  · split
    · exact Frame.refl s
    · exact mapPtes_frame _ _ _ _
  · exact Frame.refl s

lemma settle_denied (b : BlockId) : (s.settle r b).denied = s.denied := by
  unfold State.settle
  split_ifs
  · rfl
  · rfl
  · split <;> rfl
  · rfl

lemma dropRef_heap (c : Cell BlockId PhysId) (pr : PhysId) :
    (s.dropRef r c pr).heap = s.heap.unref c pr :=
  settle_heap _ r _

lemma dropRef_frame (c : Cell BlockId PhysId) (pr : PhysId) : Frame s (s.dropRef r c pr) :=
  (modHeap_frame s (unref_region s.heap c pr) (unref_next s.heap c pr).2.2).trans
    (settle_frame (s.modHeap fun h => h.unref c pr) r _)

end

lemma Aside.removed {c : Cell BlockId PhysId} (h : Aside (s.dropRef r c pr) t) :
    (t.modHeap fun h => h.removePhys r pr).heap = s.heap.without r c pr :=
  congrArg (fun h => Heap.removePhys h r pr) (h.heap.trans (dropRef_heap s r c pr))

lemma dropRef_removed (s : State) (r : RegionId) (c : Cell BlockId PhysId) (pr : PhysId) :
    ((s.dropRef r c pr).modHeap fun h => h.removePhys r pr).heap = s.heap.without r c pr :=
  (Aside.refl _).removed

lemma copyBlock_heap (s : State) (p : ProcId) (r : RegionId) (c : Cell BlockId PhysId) (pr : PhysId)
    (base : BitVec 32) :
    (s.copyBlock p r c pr base).heap = (s.heap.unref c pr).rebase pr (base <<< 12) :=
  congrArg (fun h => Heap.rebase h pr (base <<< 12)) (dropRef_heap (s.takeMem base _) r c pr)

lemma addBlock_frame (s : State) (p : ProcId) (r : RegionId) (offset length phys : BitVec 32) :
    Frame s (s.addBlock p r offset length phys) := by
  refine ⟨fun q => ?_, (setPtes_frame _ _ _ _ _).proc, rfl⟩
  by_cases hq : q = r
  · subst hq
    simp [State.addBlock, State.modHeap, Heap.insertPhys, Heap.modRegion, State.mapPtes,
      State.setPtes, State.modProc, Heap.newBlock]
  · simp [State.addBlock, State.modHeap, Heap.insertPhys, Heap.modRegion, State.mapPtes,
      State.setPtes, State.modProc, Heap.newBlock, hq]

lemma takeMem_frame (s : State) (base : BitVec 32) (n : Nat) : Frame s (s.takeMem base n) :=
    ⟨fun _ => rfl, fun _ => rfl, rfl⟩

lemma copyBlock_frame (s : State) (p : ProcId) (r : RegionId) (c : Cell BlockId PhysId)
    (pr : PhysId) (base : BitVec 32) :
    Frame s (s.copyBlock p r c pr base) := by
  have hdrop := dropRef_frame (s.takeMem base (pagesIn (s.heap.blockOf pr).length)) r c pr
  have hrebase := modHeap_frame ((s.takeMem base (pagesIn (s.heap.blockOf pr).length)).dropRef r c pr)
    (f := fun h => h.rebase pr (base <<< 12)) rfl rfl
  exact (takeMem_frame s base _).trans ((hdrop.trans hrebase).trans (mapPtes_frame _ p r pr))

/-- The pages that a cut gives back; direct memory is not VM's to give. -/
def State.cutBlock (s : State) (r : RegionId) (pr : PhysId) (sublen : BitVec 32) : State :=
  (if (s.heap.region r).flags &&&
    vrDirect = 0 then freeMem (pageOf (s.heap.blockOf pr).phys) (pagesIn sublen) s
    else s).modHeap fun h => h.cutFront pr sublen

lemma cutBlock_frame (s : State) (r : RegionId) (pr : PhysId) (sublen : BitVec 32) :
    Frame s (s.cutBlock r pr sublen) := by
  unfold State.cutBlock
  split_ifs <;> exact ⟨fun _ => rfl, fun _ => rfl, rfl⟩

lemma cutBlock_heap (s : State) (r : RegionId) (pr : PhysId) (sublen : BitVec 32) :
    (s.cutBlock r pr sublen).heap = s.heap.cutFront pr sublen := by
  unfold State.cutBlock
  split_ifs <;> rfl

/-- One update of the tree of `r`. Blocks go below `limit` only, and come only if `fresh` allows
it. -/
inductive Update (r : RegionId) (limit : Nat) (fresh : Prop) : State → State → Prop where
  | aside {s t : State} (h : Aside s t) : Update r limit fresh s t
  | map {s : State} (pr : PhysId) (hpr : pr ∈ (s.heap.region r).phys) :
      Update r limit fresh s (s.mapPtes (s.heap.region r).parent r pr)
  | add (hfresh : fresh) {s : State} {offset length base : BitVec 32} {l₁ l₂ : List PhysId}
      (hgap : s.heap.Gap r offset length l₁ l₂)
      (hav : s.Avail base (pagesIn length)) :
      Update r limit fresh s
        ((s.takeMem base (pagesIn length)).addBlock (s.heap.region r).parent r offset length (base <<< 12))
  | copy (hfresh : fresh) {s : State} {pr : PhysId} {c : Cell BlockId PhysId} {base : BitVec 32}
      (hpr : pr ∈ (s.heap.region r).phys)
      (hc : s.heap.Finds pr c) (hshared : 1 < (s.heap.blockOf pr).refcount.toNat)
      (hav : s.Avail base (pagesIn (s.heap.blockOf pr).length)) :
      Update r limit fresh s (s.copyBlock (s.heap.region r).parent r c pr base)
  | drop {s : State} {pr : PhysId} {c : Cell BlockId PhysId} (hpr : pr ∈ (s.heap.region r).phys)
      (hc : s.heap.Finds pr c) (hlimit : s.heap.stop pr ≤ limit) :
      Update r limit fresh s ((s.dropRef r c pr).modHeap fun h => h.removePhys r pr)
  | cut {s : State} {pr : PhysId} {sublen : BitVec 32} (hpr : pr ∈ (s.heap.region r).phys)
      (hone : (s.heap.blockOf pr).refcount = 1) (hdvd : 4096 ∣ sublen.toNat)
      (hlt : s.heap.start pr + sublen.toNat < s.heap.stop pr) (hlimit : s.heap.start pr +
        sublen.toNat ≤ limit) :
      Update r limit fresh s (s.cutBlock r pr sublen)

abbrev Updates (r : RegionId) (limit : Nat) (fresh : Prop) : State → State → Prop :=
  ReflTransGen (Update r limit fresh)

lemma Update.frame (h : Update r b A s t) : Frame s t := by
  cases h with
  | aside h => exact h.frame
  | map pr _ => exact mapPtes_frame _ _ _ _
  | add _ _ _ => exact (takeMem_frame s _ _).trans (addBlock_frame _ _ _ _ _ _)
  | copy _ _ _ _ _ => exact copyBlock_frame _ _ _ _ _ _
  | @drop _ pr c _ _ _ =>
    refine (dropRef_frame s r c pr).trans ⟨fun q => ?_, fun _ => rfl, rfl⟩
    exact removePhys_same _ r pr q
  | cut _ _ _ _ _ => exact cutBlock_frame _ _ _ _

lemma Update.sound (h : Update r b A s t) (hr : K r) (hs : s.heap.Sound K) : t.heap.Sound K := by
  cases h with
  | aside h =>
    rw [h.heap]
    exact hs
  | map pr _ => exact hs
  | add _ hgap _ => exact hs.newBlock _ hr hgap
  | copy _ hpr hc _ _ =>
    rw [copyBlock_heap]
    exact hs.rebase hr hpr hc _
  | @drop _ pr c hpr hc _ =>
    rw [dropRef_removed]
    exact hs.remove hr hpr hc
  | @cut _ pr sublen hpr hone hdvd hlt _ =>
    rw [cutBlock_heap]
    exact hs.cutFront hr hpr hone hdvd hlt

lemma Updates.frame (h : Updates r b A s t) : Frame s t := by
  induction h with
  | refl => exact Frame.refl s
  | tail _ h ih => exact ih.trans h.frame

lemma Updates.sound (h : Updates r b A s t) (hr : K r) (hs : s.heap.Sound K) : t.heap.Sound K := by
  induction h with
  | refl => exact hs
  | tail _ h ih => exact h.sound hr ih

lemma Update.denied (h : Update r b A s t) : s.denied ≤ t.denied := by
  cases h with
  | aside h => exact h.denied
  | map pr _ | add _ _ _ => exact Nat.le_refl _
  | @copy _ _ pr c base _ _ _ _ =>
    exact Nat.le_of_eq (settle_denied ((s.takeMem base _).modHeap fun h => h.unref c pr) r _).symm
  | @drop _ pr c _ _ _ => exact Nat.le_of_eq (settle_denied (s.modHeap fun h => h.unref c pr) r _).symm
  | cut _ _ _ _ _ =>
    unfold State.cutBlock
    split_ifs <;> exact Nat.le_refl _

lemma Updates.denied (h : Updates r b A s t) : s.denied ≤ t.denied := by
  induction h with
  | refl => exact Nat.le_refl _
  | tail _ h ih => exact Nat.le_trans ih h.denied

/-! ## The functions as updates -/

section Single
variable {b : Nat} {A : Prop} {ok : Bool}

lemma Aside.updates (h : Aside s t) : Updates r b A s t := .single (.aside h)

lemma mapPhWritept_updates (hp : (s.heap.region r).parent = p) (hpr : pr ∈ (s.heap.region r).phys)
    (h : mapPhWritept p r pr s = (ok, t)) : Updates r b A s t ∧ (ok = false → s.denied < t.denied) := by
  subst hp
  rcases mapPhWritept_aside h with ⟨rfl, ha⟩ | ⟨-, ha, hden⟩
  · exact ⟨.tail (.single (.map pr hpr)) (.aside ha), nofun⟩
  · exact ⟨ha.updates, fun _ => hden⟩

lemma mapCopyPhBlock_updates (hp : (s.heap.region r).parent = p) (hpr : pr ∈ (s.heap.region r).phys)
    (hA : A) (hshared : 1 < (s.heap.blockOf pr).refcount.toNat) (h : mapCopyPhBlock p r pr s = .ok (ok, t)) :
    Updates r b A s t ∧ (ok = false → s.denied < t.denied) := by
  subst hp
  rcases mapCopyPhBlock_ok h with ⟨rfl, c, base, hc, hav, ha⟩ | ⟨-, ha, hden⟩
  · exact ⟨.tail (.single (.copy hA hpr hc hshared hav)) (.aside ha), nofun⟩
  · exact ⟨ha.updates, fun _ => hden⟩

lemma mapCopyPhBlock_heap (h : mapCopyPhBlock p r pr s = .ok (ok, t)) :
    t.heap.region = s.heap.region ∧ (ok = true → (t.heap.blockOf pr).refcount = 1) := by
  rcases mapCopyPhBlock_ok h with ⟨-, c, base, -, -, ha⟩ | ⟨rfl, ha, -⟩
  · rw [ha.heap, copyBlock_heap]
    exact ⟨unref_region s.heap c pr, fun _ => by simp [Heap.rebase, Heap.blockOf]⟩
  · rw [ha.heap]
    exact ⟨rfl, by simp⟩

lemma mapCopyPhBlock_keeps {q : RegionId} {x : PhysId} (hf : s.heap.Fits q x)
    (h : mapCopyPhBlock p r pr s = .ok (ok, t)) :
    s.heap.Keeps t.heap x := by
  rcases mapCopyPhBlock_ok h with ⟨-, c, base, -, -, ha⟩ | ⟨-, ha, -⟩
  · rw [ha.heap, copyBlock_heap]
    exact hf.keeps_unref.rebase _
  · rw [ha.heap]
    exact ⟨rfl, rfl, rfl, hf.phys_lt, hf.block_lt⟩

lemma mapNewPhysblock_updates {offset length : BitVec 32} {l₁ l₂ : List PhysId} {new : Option PhysId}
    (hp : (s.heap.region r).parent = p) (ht : s.heap.Tree r) (hA : A)
    (hgap : s.heap.Gap r offset length l₁ l₂)
    (h : mapNewPhysblock p r offset length mapNone s = (new, t)) :
    Updates r b A s t ∧ (new = none → s.denied < t.denied) ∧ ∃ l, (t.heap.region r).phys = l₁ ++ l ++ l₂ := by
  subst hp
  cases new with
  | none =>
    obtain ⟨ha, hden⟩ := mapNewPhysblock_none h
    refine ⟨ha.updates, fun _ => hden, [], ?_⟩
    rw [ha.heap, List.append_nil]
    exact hgap.split
  | some new =>
    obtain ⟨-, ⟨hw, -⟩ | ⟨-, base, hav, ha⟩⟩ := mapNewPhysblock_some h
    · exact absurd rfl hw
    refine ⟨.tail (.single (.add hA hgap hav)) (.aside ha), nofun, [s.heap.nextPhys], ?_⟩
    rw [ha.heap]
    have hregion := ht.region_newBlock (base <<< 12) hgap r
    rw [if_pos rfl] at hregion
    refine (congrArg VirRegion.phys hregion).trans ?_
    simp

end Single

structure Site (K : RegionId → Prop) (p : ProcId) (r : RegionId) (s : State) : Prop where
  sound : s.heap.Sound K
  mem : K r
  parent : (s.heap.region r).parent = p

lemma Site.tree (hs : Site K p r s) : s.heap.Tree r := hs.sound.tree r hs.mem

lemma Updates.site (h : Updates r b A s t) (hs : Site K p r s) : Site K p r t :=
  ⟨h.sound hs.mem hs.sound, hs.mem, by rw [h.frame.region r]; exact hs.parent⟩

lemma Updates.length (h : Updates r b A s t) : (t.heap.region r).length = (s.heap.region r).length := by
  rw [h.frame.region r]

lemma Updates.flags (h : Updates r b A s t) : (t.heap.region r).flags = (s.heap.region r).flags := by
  rw [h.frame.region r]

end Nucleos.Vm
