import Nucleos.Vm.Region

/-!
# What an operation leaves alone

Allocations that VM makes for itself change nothing that matters to the mappings: they use up
pages, create page tables and may be refused. `Aside` is that part of a step. Every operation
on a single block is a fixed change of the state and something aside.
-/

namespace Nucleos.Vm

open IntrusiveList Run

variable {s t u : State} {p : ProcId} {r : RegionId} {pr : PhysId}
    {base length what offset : BitVec 32} {n : Nat} {ok : Bool}

structure Aside (s t : State) : Prop where
  heap : t.heap = s.heap
  proc : ∀ p, t.proc p = { s.proc p with vmPt := ⟨(t.proc p).vmPt.dir, (s.proc p).vmPt.pte⟩ }
  dir : ∀ p i, (s.proc p).vmPt.dir i = true → (t.proc p).vmPt.dir i = true
  free : ∀ f, t.free f = true → s.free f = true
  spent : ∀ f, s.free f = true → t.free f = true ∨ t.own f = true
  own : ∀ f, s.own f = true → t.own f = true
  denied : s.denied ≤ t.denied

namespace Aside

lemma refl (s : State) : Aside s s :=
  ⟨rfl, fun _ => rfl, fun _ _ h => h, fun _ h => h, fun _ h => .inl h, fun _ h => h, Nat.le_refl _⟩

lemma trans (h₁ : Aside s t) (h₂ : Aside t u) : Aside s u where
  heap := h₂.heap.trans h₁.heap
  proc p := by
    rw [h₂.proc p, h₁.proc p]
  dir p i hi := h₂.dir p i (h₁.dir p i hi)
  free f hf := h₁.free f (h₂.free f hf)
  spent f hf := by
    rcases h₁.spent f hf with hf | hf
    · exact h₂.spent f hf
    · exact .inr (h₂.own f hf)
  own f hf := h₂.own f (h₁.own f hf)
  denied := Nat.le_trans h₁.denied h₂.denied

lemma vmRegions (h : Aside s t) (p : ProcId) : (t.proc p).vmRegions = (s.proc p).vmRegions := by
  rw [h.proc p]

lemma pte (h : Aside s t) (p : ProcId) : (t.proc p).vmPt.pte = (s.proc p).vmPt.pte := by
  rw [h.proc p]

lemma haspt (h : Aside s t) (p : ProcId) : (t.proc p).haspt = (s.proc p).haspt := by
  rw [h.proc p]

end Aside

lemma slaballoc_true (h : s.slaballoc = (true, t)) : Aside s t := by
  unfold State.slaballoc at h
  split at h
  case h_1 base l _ =>
    cases h
    refine ⟨rfl, fun _ => rfl, fun _ _ h => h, fun f hf => ?_, fun f hf => ?_, fun f hf => ?_, Nat.le_refl _⟩
    · exact (Bool.and_eq_true_iff.mp hf).1
    · by_cases hb : base ≠ 0 ∧ f = base
      · obtain ⟨hb, rfl⟩ := hb
        have hown : (s.own f || (decide (f ≠ 0) && s.free f && f == f)) = true := by
          rw [hf, decide_eq_true hb]
          simp
        exact .inr hown
      · exact .inl (by simpa [hf, or_iff_not_imp_left] using hb)
    · simp [hf]
  case h_2 => nomatch h
  case h_3 => nomatch h

lemma slaballoc_false (h : s.slaballoc = (false, t)) : Aside s t ∧ s.denied < t.denied := by
  unfold State.slaballoc at h
  split at h
  case h_1 => nomatch h
  all_goals
    cases h
    exact ⟨⟨rfl, fun _ => rfl, fun _ _ h => h, fun _ h => h, fun _ h => .inl h, fun _ h => h, Nat.le_succ _⟩,
      Nat.lt_succ_self _⟩

lemma slabs_cases {α : Type} {x : α} {fail go : State → α}
    (h : (match s.slaballoc with
      | (false, s) => fail s
      | (true, s) => match s.slaballoc with
        | (false, s) => fail s
        | (true, s) => go s) = x) :
    (∃ t, Aside s t ∧ s.denied < t.denied ∧ fail t = x) ∨ ∃ t, Aside s t ∧ go t = x := by
  split at h
  · next t ht =>
    obtain ⟨ha, hden⟩ := slaballoc_false ht
    exact .inl ⟨t, ha, hden, h⟩
  next u hu =>
  have ha := slaballoc_true hu
  split at h
  · next t ht =>
    obtain ⟨ha', hden⟩ := slaballoc_false ht
    exact .inl ⟨t, ha.trans ha', Nat.lt_of_le_of_lt ha.denied hden, h⟩
  · next t ht => exact .inr ⟨t, ha.trans (slaballoc_true ht), h⟩

def State.takeMem (s : State) (base : BitVec 32) (clicks : Nat) : State :=
  { s with free := fun f => s.free f && !(pageRange base clicks).contains f }

structure State.Avail (s : State) (base : BitVec 32) (n : Nat) : Prop where
  ne_zero : base ≠ 0
  bound : base.toNat + n ≤ numberPhysicalPages
  free : ∀ f ∈ pageRange base n, s.free f = true

lemma Aside.avail (h : Aside s t) (ha : t.Avail base n) : s.Avail base n :=
  ⟨ha.ne_zero, ha.bound, fun f hf => h.free f (ha.free f hf)⟩

lemma allocMem_some (h : allocMem n s = (some base, t)) : s.Avail base n ∧ Aside (s.takeMem base n) t := by
  unfold allocMem at h
  split at h
  case h_1 b l _ =>
    rcases ite_eq_iff.mp h with ⟨⟨hb, hle, hall⟩, h⟩ | ⟨_, h⟩
    · obtain ⟨hbase, rfl⟩ := Prod.mk.inj h
      cases hbase
      exact ⟨⟨hb, hle, List.all_eq_true.mp hall⟩,
        rfl, fun _ => rfl, fun _ _ h => h, fun _ h => h, fun _ h => .inl h, fun _ h => h, Nat.le_refl _⟩
    · nomatch h
  all_goals nomatch h

lemma allocMem_none (h : allocMem n s = (none, t)) : Aside s t ∧ s.denied < t.denied := by
  have hdenied : ∀ l, Aside s { s with luck := l, denied := s.denied + 1 } := fun l =>
    ⟨rfl, fun _ => rfl, fun _ _ h => h, fun _ h => h, fun _ h => .inl h, fun _ h => h, Nat.le_succ _⟩
  unfold allocMem at h
  split at h
  case h_1 =>
    split at h
    · nomatch h
    · cases h
      exact ⟨hdenied _, Nat.lt_succ_self _⟩
  all_goals
    cases h
    exact ⟨hdenied _, Nat.lt_succ_self _⟩

/-! ## Page tables -/

lemma aside_dir (s : State) (p : ProcId) (pde : Nat) :
    Aside s (s.modProc p fun x =>
      { x with vmPt := { x.vmPt with dir := Function.update x.vmPt.dir pde true } }) := by
  refine ⟨rfl, fun q => ?_, fun q i hi => ?_, fun _ h => h, fun _ h => .inl h, fun _ h => h, Nat.le_refl _⟩
  · rw [State.modProc_proc]
    split <;> rfl
  by_cases hq : q = p
  · subst hq
    by_cases hpde : i = pde
    · simp [State.modProc, hpde]
    · simpa [State.modProc, hpde] using hi
  · simpa [State.modProc, hq] using hi

lemma ptAlloc_aside {pde : Nat} (h : ptAlloc p n pde s = (ok, t)) :
    Aside s t ∧ (ok = false → s.denied < t.denied) := by
  induction n generalizing s pde with
  | zero =>
    obtain ⟨rfl, rfl⟩ := Prod.mk.inj h
    exact ⟨Aside.refl s, nofun⟩
  | succ n ih =>
    rw [ptAlloc] at h
    split at h
    · exact ih h
    split at h
    · next s₁ hs =>
      cases h
      exact ⟨(slaballoc_false hs).1, fun _ => (slaballoc_false hs).2⟩
    next s₁ hs =>
    have hone := (slaballoc_true hs).trans (aside_dir s₁ p pde)
    obtain ⟨hrest, hden⟩ := ih h
    exact ⟨hone.trans hrest, fun hok => Nat.lt_of_le_of_lt hone.denied (hden hok)⟩

def State.setPtes (s : State) (p : ProcId) (v : BitVec 32) (pages : Nat) (entry : Nat → Option Pte) : State :=
  s.modProc p fun x => { x with vmPt := { x.vmPt with pte := writePtes v entry pages x.vmPt.pte } }

lemma Aside.setPtes (h : Aside s t) (p : ProcId) (v : BitVec 32) (pages : Nat) (entry : Nat → Option Pte) :
    Aside (s.setPtes p v pages entry) (t.setPtes p v pages entry) := by
  refine ⟨h.heap, fun q => ?_, fun q i hi => ?_, h.free, h.spent, h.own, h.denied⟩
  · by_cases hq : q = p
    · subst hq
      simp only [State.setPtes, State.modProc, Function.update_self]
      rw [h.proc q]
    · simpa [State.setPtes, State.modProc, hq] using h.proc q
  · by_cases hq : q = p
    · subst hq
      simpa [State.setPtes, State.modProc] using h.dir q i (by simpa [State.setPtes, State.modProc] using hi)
    · simpa [State.setPtes, State.modProc, hq]
        using h.dir q i (by simpa [State.setPtes, State.modProc, hq] using hi)

lemma Aside.modHeap (h : Aside s t) (f : Heap → Heap) : Aside (s.modHeap f) (t.modHeap f) :=
  ⟨congrArg f h.heap, h.proc, h.dir, h.free, h.spent, h.own, h.denied⟩

lemma Aside.freeMem (h : Aside s t) (base : BitVec 32) (n : Nat) :
    Aside (freeMem base n s) (freeMem base n t) := by
  refine ⟨h.heap, h.proc, h.dir, fun f hf => ?_, fun f hf => ?_, h.own, h.denied⟩
  · rcases Bool.or_eq_true_iff.mp hf with hf | hf
    · exact Bool.or_eq_true_iff.mpr (.inl (h.free f hf))
    · exact Bool.or_eq_true_iff.mpr (.inr hf)
  · rcases Bool.or_eq_true_iff.mp hf with hf | hf
    · exact (h.spent f hf).imp_left fun hf => Bool.or_eq_true_iff.mpr (.inl hf)
    · exact .inl (Bool.or_eq_true_iff.mpr (.inr hf))

lemma Aside.takeMem (h : Aside s t) (base : BitVec 32) (n : Nat) :
    Aside (s.takeMem base n) (t.takeMem base n) := by
  refine ⟨h.heap, h.proc, h.dir, fun f hf => ?_, fun f hf => ?_, h.own, h.denied⟩
  · obtain ⟨hf, hn⟩ := Bool.and_eq_true_iff.mp hf
    exact Bool.and_eq_true_iff.mpr ⟨h.free f hf, hn⟩
  · obtain ⟨hf, hn⟩ := Bool.and_eq_true_iff.mp hf
    exact (h.spent f hf).imp_left fun hf => Bool.and_eq_true_iff.mpr ⟨hf, hn⟩

lemma ptWritemap_aside {v : BitVec 32} {pages : Nat} {entry : Nat → Option Pte}
    (h : ptWritemap p v pages entry s = (ok, t)) :
    (ok = true ∧ Aside (s.setPtes p v pages entry) t) ∨ (ok = false ∧ Aside s t ∧ s.denied < t.denied) := by
  unfold ptWritemap at h
  rcases ha : ptAlloc p (pdeOf (pageAt v pages) + 1 - pdeOf v) (pdeOf v) s with ⟨got, s₁⟩
  rw [ha] at h
  obtain ⟨haside, hden⟩ := ptAlloc_aside ha
  cases got with
  | false =>
    cases h
    exact .inr ⟨rfl, haside, hden rfl⟩
  | true =>
    cases h
    exact .inl ⟨rfl, haside.setPtes p v pages entry⟩

def State.mapPtes (s : State) (p : ProcId) (r : RegionId) (pr : PhysId) : State :=
  s.setPtes p ((s.heap.region r).vaddr + (s.heap.physr pr).offset)
    (pagesIn (s.heap.blockOf pr).length) fun i =>
    some ⟨pageOf (pageAt (s.heap.blockOf pr).phys i), writable (s.heap.region r) (s.heap.blockOf pr)⟩

lemma Aside.mapPtes (h : Aside s t) (p : ProcId) (r : RegionId) (pr : PhysId) :
    Aside (s.mapPtes p r pr) (t.mapPtes p r pr) := by
  unfold State.mapPtes
  rw [h.heap]
  exact h.setPtes _ _ _ _

lemma mapPhWritept_aside (h : mapPhWritept p r pr s = (ok, t)) :
    (ok = true ∧ Aside (s.mapPtes p r pr) t) ∨ (ok = false ∧ Aside s t ∧ s.denied < t.denied) :=
  ptWritemap_aside h

/-! ## Work on one block -/

/-- What is left to do for a block that has lost a physical region of `r`: its pages are returned
with the last reference, and a sole remaining reference may become writable. -/
def State.settle (s : State) (r : RegionId) (b : BlockId) : State :=
  if (s.heap.block b).refcount = 0 then
    if (s.heap.region r).flags &&& vrAnon ≠ 0 then
      freeMem (pageOf (s.heap.block b).phys) (pagesIn (s.heap.block b).length) s
    else s
  else if writable (s.heap.region r) (s.heap.block b) then
    match (s.heap.block b).firstregion with
    | none => s
    | some first =>
      s.mapPtes (s.heap.region (s.heap.physr first).parent).parent (s.heap.physr first).parent first
  else s

lemma Aside.settle (h : Aside s t) (r : RegionId) (b : BlockId) : Aside (s.settle r b) (t.settle r b) := by
  unfold State.settle
  rw [h.heap]
  split_ifs
  · exact h.freeMem _ _
  · exact h
  · split
    · exact h
    · exact h.mapPtes _ _ _
  · exact h

/-- `pb_unreferenced` without its allocations; `c` is the cell that leads to the physical region. -/
def State.dropRef (s : State) (r : RegionId) (c : Cell BlockId PhysId) (pr : PhysId) : State :=
  (s.modHeap fun h => h.unref c pr).settle r (s.heap.physr pr).ph

lemma Aside.dropRef (h : Aside s t) (r : RegionId) (c : Cell BlockId PhysId) (pr : PhysId) :
    Aside (s.dropRef r c pr) (t.dropRef r c pr) := by
  unfold State.dropRef
  rw [h.heap]
  exact (h.modHeap _).settle _ _

def Heap.Finds (h : Heap) (pr : PhysId) (c : Cell BlockId PhysId) : Prop :=
  h.store.lists.walk (· == pr) (h.nextPhys + 1) (.head (h.physr pr).ph) = some c

lemma pbUnreferenced_ok (h : pbUnreferenced r pr s = .ok t) :
    ∃ c, s.heap.Finds pr c ∧ Aside (s.dropRef r c pr) t := by
  unfold pbUnreferenced at h
  cases hw : s.heap.store.lists.walk (· == pr) (s.heap.nextPhys + 1) (.head (s.heap.physr pr).ph) with
  | none => simp [hw] at h
  | some c =>
    refine ⟨c, hw, ?_⟩
    simp only [hw] at h
    simp only [State.dropRef, State.settle]
    split at h
    · next hz =>
      rw [if_pos hz]
      split at h
      · next ha =>
        rw [if_pos ha]
        cases h
        exact Aside.refl _
      next ha =>
      rw [if_neg ha]
      split at h
      · cases h
        exact Aside.refl _
      · cases h
    · next hz =>
      rw [if_neg hz]
      split at h
      · next hwr =>
        rw [if_pos hwr]
        cases hfirst : ((s.modHeap fun h => h.unref c pr).heap.block (s.heap.physr pr).ph).firstregion with
        | none =>
          rw [hfirst] at h
          cases h
        | some first =>
          rw [hfirst] at h
          dsimp only at h ⊢
          generalize hpt : mapPhWritept _ _ first _ = res at h
          obtain ⟨got, u⟩ := res
          rcases mapPhWritept_aside hpt with ⟨rfl, ha⟩ | ⟨rfl, -⟩
          · cases h
            exact ha
          · cases h
      · next hwr =>
        rw [if_neg hwr]
        cases h
        exact Aside.refl _

/-- `map_new_physblock` without its allocations. -/
def State.addBlock (s : State) (p : ProcId) (r : RegionId) (offset length phys : BitVec 32) : State :=
  ((s.modHeap fun h => h.newBlock r offset length phys).mapPtes p r s.heap.nextPhys).modHeap fun h =>
    h.insertPhys r s.heap.nextPhys

lemma Aside.addBlock (h : Aside s t) (p : ProcId) (r : RegionId) (offset length phys : BitVec 32) :
    Aside (s.addBlock p r offset length phys) (t.addBlock p r offset length phys) := by
  unfold State.addBlock
  rw [h.heap]
  exact ((h.modHeap _).mapPtes _ _ _).modHeap _

lemma newFrames_some {mem : BitVec 32} (h : newFrames length what s = (some mem, t)) :
    (what ≠ mapNone ∧ mem = what ∧ t = s) ∨
      (what = mapNone ∧ ∃ base : BitVec 32, mem = base <<< 12 ∧ s.Avail base (pagesIn length) ∧
        Aside (s.takeMem base (pagesIn length)) t) := by
  unfold newFrames at h
  split_ifs at h with hw
  · refine .inr ⟨hw, ?_⟩
    split at h
    · nomatch h
    next base s₁ ha =>
    obtain ⟨hm, rfl⟩ := Prod.mk.inj h
    obtain ⟨hav, haside⟩ := allocMem_some ha
    exact ⟨base, (Option.some.inj hm).symm, hav, haside⟩
  · obtain ⟨hm, rfl⟩ := Prod.mk.inj h
    exact .inl ⟨hw, (Option.some.inj hm).symm, rfl⟩

lemma newFrames_none (h : newFrames length what s = (none, t)) : Aside s t ∧ s.denied < t.denied := by
  unfold newFrames at h
  split at h
  · split at h
    · next s₁ ha =>
      cases h
      exact allocMem_none ha
    · nomatch h
  · nomatch h

lemma mapNewPhysblock_inv {new : PhysId} (h : mapNewPhysblock p r offset length what s = (some new, t)) :
    ∃ s₂ s₃ s₄ mem, Aside s s₂ ∧ newFrames length what s₂ = (some mem, s₃) ∧ new = s₃.heap.nextPhys ∧
      mapPhWritept p r new (s₃.modHeap fun h => h.newBlock r offset length mem) = (true, s₄) ∧
      t = s₄.modHeap fun h => h.insertPhys r new := by
  unfold mapNewPhysblock at h
  rcases slabs_cases h with ⟨u, -, -, h⟩ | ⟨s₂, ha, h⟩
  · nomatch h
  split at h
  · nomatch h
  next mem s₃ h₃ =>
  simp only at h
  split at h
  · nomatch h
  next s₄ h₄ =>
  cases h
  exact ⟨s₂, s₃, s₄, mem, ha, h₃, rfl, h₄, rfl⟩

lemma mapNewPhysblock_some {new : PhysId} (h : mapNewPhysblock p r offset length what s = (some new, t)) :
    new = s.heap.nextPhys ∧
      ((what ≠ mapNone ∧ Aside (s.addBlock p r offset length what) t) ∨
        (what = mapNone ∧ ∃ base : BitVec 32, s.Avail base (pagesIn length) ∧
          Aside ((s.takeMem base (pagesIn length)).addBlock p r offset length (base <<< 12)) t)) := by
  obtain ⟨s₂, s₃, s₄, mem, haside, h₃, rfl, h₄, rfl⟩ := mapNewPhysblock_inv h
  have hpt : Aside (s₃.addBlock p r offset length mem) (s₄.modHeap fun h =>
    h.insertPhys r s₃.heap.nextPhys) := by
    rcases mapPhWritept_aside h₄ with ⟨_, ha⟩ | ⟨hf, _⟩
    · exact ha.modHeap _
    · nomatch hf
  rcases newFrames_some h₃ with ⟨hw, rfl, rfl⟩ | ⟨hw, base, rfl, hav, ha⟩
  · refine ⟨congrArg _ haside.heap, .inl ⟨hw, ?_⟩⟩
    exact (haside.addBlock p r offset length mem).trans hpt
  · refine ⟨congrArg _ (ha.heap.trans haside.heap), .inr ⟨hw, base, haside.avail hav, ?_⟩⟩
    exact (((haside.takeMem base (pagesIn length)).trans ha).addBlock p r offset length
      (base <<< 12)).trans hpt

lemma Aside.give_back (hav : s.Avail base n) (h : Aside (s.takeMem base n) t) :
    Aside s (Vm.freeMem base n t) := by
  refine ⟨h.heap, h.proc, h.dir, fun f hf => ?_, fun f hf => ?_, h.own, h.denied⟩
  · rcases Bool.or_eq_true_iff.mp hf with hf | hf
    · exact (Bool.and_eq_true_iff.mp (h.free f hf)).1
    · exact hav.free f (List.contains_iff_mem.mp hf)
  by_cases hin : (pageRange base n).contains f = true
  · exact .inl (Bool.or_eq_true_iff.mpr (.inr hin))
  · have hkept : (s.takeMem base n).free f = true :=
      Bool.and_eq_true_iff.mpr ⟨hf, by simpa using hin⟩
    exact (h.spent f hkept).imp_left fun hf => Bool.or_eq_true_iff.mpr (.inl hf)

lemma pageOf_shiftLeft (h : base.toNat < numberPhysicalPages) : pageOf (base <<< 12) = base := by
  unfold numberPhysicalPages at h
  unfold pageOf
  bv_omega

lemma State.Avail.pageRange_shiftLeft (h : s.Avail base n) :
    pageRange (pageOf (base <<< 12)) n = pageRange base n := by
  cases n with
  | zero => rfl
  | succ n =>
    have hb := h.bound
    rw [pageOf_shiftLeft (by omega)]

lemma mapNewPhysblock_none (h : mapNewPhysblock p r offset length what s = (none, t)) :
    Aside s t ∧ s.denied < t.denied := by
  unfold mapNewPhysblock at h
  rcases slabs_cases h with ⟨u, ha, hden, h⟩ | ⟨s₂, haside, h⟩
  · cases h
    exact ⟨ha, hden⟩
  split at h
  · next s₃ h₃ =>
    cases h
    obtain ⟨ha₃, hden⟩ := newFrames_none h₃
    exact ⟨haside.trans ha₃, Nat.lt_of_le_of_lt haside.denied hden⟩
  next mem s₃ h₃ =>
  simp only at h
  split at h
  swap
  · nomatch h
  next s₄ h₄ =>
  cases h
  obtain ⟨hf, -⟩ | ⟨-, ha₄, hden⟩ := mapPhWritept_aside h₄
  · nomatch hf
  -- the new objects are freed, so what the page tables left behind is aside
  have hback : Aside s₃ (s₄.modHeap fun _ => s₃.heap) := ha₄.modHeap fun _ => s₃.heap
  rcases newFrames_some h₃ with ⟨hw, rfl, rfl⟩ | ⟨hw, base, rfl, hav, ha⟩
  · rw [if_neg hw]
    exact ⟨haside.trans hback, Nat.lt_of_le_of_lt haside.denied hden⟩
  rw [if_pos hw, freeMem, hav.pageRange_shiftLeft]
  exact ⟨haside.trans (Aside.give_back hav (ha.trans hback)),
    Nat.lt_of_le_of_lt (Nat.le_trans haside.denied ha.denied) hden⟩

/-- `map_copy_ph_block` without its allocations. -/
def State.copyBlock (s : State) (p : ProcId) (r : RegionId) (c : Cell BlockId PhysId) (pr : PhysId)
    (base : BitVec 32) : State :=
  (((s.takeMem base (pagesIn (s.heap.blockOf pr).length)).dropRef r c pr).modHeap fun h =>
    h.rebase pr (base <<< 12)).mapPtes p r pr

lemma Aside.copyBlock (h : Aside s t) (p : ProcId) (r : RegionId) (c : Cell BlockId PhysId) (pr : PhysId)
    (base : BitVec 32) : Aside (s.copyBlock p r c pr base) (t.copyBlock p r c pr base) := by
  unfold State.copyBlock
  rw [h.heap]
  exact (((h.takeMem _ _).dropRef _ _ _).modHeap _).mapPtes _ _ _

lemma mapCopyPhBlock_ok (h : mapCopyPhBlock p r pr s = .ok (ok, t)) :
    (ok = true ∧ ∃ c base, s.heap.Finds pr c ∧ s.Avail base (pagesIn (s.heap.blockOf pr).length) ∧
      Aside (s.copyBlock p r c pr base) t) ∨ (ok = false ∧ Aside s t ∧ s.denied < t.denied) := by
  unfold mapCopyPhBlock at h
  split at h
  · next s₁ h₁ =>
    cases h
    exact .inr ⟨rfl, slaballoc_false h₁⟩
  next s₁ h₁ =>
  have ha₁ := slaballoc_true h₁
  split at h
  · next s₂ h₂ =>
    cases h
    obtain ⟨ha₂, hden⟩ := allocMem_none h₂
    exact .inr ⟨rfl, ha₁.trans ha₂, Nat.lt_of_le_of_lt ha₁.denied hden⟩
  next base s₂ h₂ =>
  obtain ⟨s₃, h₃, h⟩ := bind_eq_ok.mp h
  obtain ⟨hav, ha₂⟩ := allocMem_some h₂
  obtain ⟨c, hc, ha₃⟩ := pbUnreferenced_ok h₃
  rcases h₄ : mapPhWritept p r pr (s₃.modHeap fun h => h.rebase pr (base <<< 12)) with ⟨got, s₄⟩
  rw [h₄] at h
  cases got with
  | false => nomatch h
  | true =>
  cases h
  obtain ⟨-, ha₄⟩ | ⟨hf, -⟩ := mapPhWritept_aside h₄
  · refine .inl ⟨rfl, c, base, ?_, ?_, ?_⟩
    · rw [← ha₁.heap]
      rw [ha₂.heap] at hc
      exact hc
    · rw [← ha₁.heap]
      exact ha₁.avail hav
    · refine (ha₁.copyBlock p r c pr base).trans (Aside.trans ?_ ha₄)
      exact (((ha₂.dropRef r c pr).trans ha₃).modHeap _).mapPtes _ _ _
  · nomatch hf

end Nucleos.Vm
