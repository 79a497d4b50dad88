import Nucleos.Lib.Run
import Nucleos.Lib.Sharing

/-!
# Regions, physical blocks and page tables

The data of the memory server, from `region.h` and `vm.h`. Structures that VM allocates from
its slabs are numbered and a pointer to one is its number; numbers are not used again. The
regions of a process are a list of such numbers, and the AVL tree of a region is the list of
its nodes in the order of their offsets. Addresses, lengths and counts have the width they
have in the source.

Whether an allocation succeeds, and which free pages it yields, is decided outside: `luck`
has one entry for every allocation still to come.
-/

namespace Nucleos.Vm

open Function IntrusiveList

abbrev ProcId := Nat
abbrev RegionId := Nat
abbrev PhysId := Nat
abbrev BlockId := Nat

def vmPageSize : BitVec 32 := 4096
def mapNone : BitVec 32 := 0xFFFFFFFE
def vmDatatop : BitVec 32 := 0xFFFFF000

def vrWritable : BitVec 16 := 0x001
def vrPhys64k : BitVec 16 := 0x004
def vrLower16mb : BitVec 16 := 0x008
def vrLower1mb : BitVec 16 := 0x010
def vrShared : BitVec 16 := 0x040
def vrAnon : BitVec 16 := 0x100
def vrDirect : BitVec 16 := 0x200

def vrtNone : BitVec 32 := 0xBEEF0000
def vrtHeap : BitVec 32 := 0xBEEF0001

def enomem : Int := 12
def einval : Int := 22

structure PhysBlock where
  length : BitVec 32
  phys : BitVec 32
  refcount : BitVec 8
  firstregion : Option PhysId
  deriving DecidableEq

structure PhysRegion where
  ph : BlockId
  parent : RegionId
  offset : BitVec 32
  nextPhList : Option PhysId
  deriving DecidableEq

structure VirRegion where
  vaddr : BitVec 32
  length : BitVec 32
  phys : List PhysId
  flags : BitVec 16
  tag : BitVec 32
  parent : ProcId
  deriving DecidableEq

structure Pte where
  frame : BitVec 32
  write : Bool
  deriving DecidableEq

/-- `dir` tells which page tables exist, `pte` is indexed by virtual page. -/
structure PageTable where
  dir : Nat → Bool
  pte : BitVec 32 → Option Pte

def PageTable.empty : PageTable := ⟨fun _ => false, fun _ => none⟩

structure MemMap where
  memVir : BitVec 32
  memPhys : BitVec 32
  memLen : BitVec 32
  deriving DecidableEq

structure VmProc where
  inuse : Bool
  haspt : Bool
  hasDma : Bool
  vmRegions : List RegionId
  vmPt : PageTable
  /-- The slot has a page directory, which is never given back. -/
  ptDir : Bool
  segT : MemMap
  segD : MemMap
  segS : MemMap
  vmStacktop : BitVec 32
  vmHeap : Option RegionId

structure Heap where
  block : BlockId → PhysBlock
  physr : PhysId → PhysRegion
  region : RegionId → VirRegion
  nextBlock : Nat
  nextPhys : Nat
  nextRegion : Nat

structure State where
  heap : Heap
  proc : ProcId → VmProc
  /-- The pages the page allocator can give out. -/
  free : BitVec 32 → Bool
  /-- The pages VM has taken for its slabs and page tables. -/
  own : BitVec 32 → Bool
  luck : List (Option (BitVec 32))
  /-- How many allocations have been refused; VM does not keep this. -/
  denied : Nat

/-- Why VM does not return: it panics, it loops for ever or it follows a pointer to nothing. -/
inductive Stop where
  | panic (why : String)
  | hang
  | fault
  deriving DecidableEq

lemma update_map {α β : Type} [DecidableEq α] (f : α → β) (a : α) (g : β → β) (x : α) :
    update f a (g (f a)) x = if x = a then g (f x) else f x := by
  rw [update_apply]
  split_ifs with hx
  · rw [hx]
  · rfl

namespace Heap
variable (h : Heap)

def modBlock (b : BlockId) (f : PhysBlock → PhysBlock) : Heap :=
  { h with block := update h.block b (f (h.block b)) }

def modPhys (pr : PhysId) (f : PhysRegion → PhysRegion) : Heap :=
  { h with physr := update h.physr pr (f (h.physr pr)) }

def modRegion (r : RegionId) (f : VirRegion → VirRegion) : Heap :=
  { h with region := update h.region r (f (h.region r)) }

lemma modBlock_block (b : BlockId) (f : PhysBlock → PhysBlock) (x : BlockId) :
    (h.modBlock b f).block x = if x = b then f (h.block x) else h.block x := update_map ..

lemma modPhys_physr (pr : PhysId) (f : PhysRegion → PhysRegion) (x : PhysId) :
    (h.modPhys pr f).physr x = if x = pr then f (h.physr x) else h.physr x := update_map ..

lemma modRegion_region (r : RegionId) (f : VirRegion → VirRegion) (q : RegionId) :
    (h.modRegion r f).region q = if q = r then f (h.region q) else h.region q := update_map ..

def blockOf (pr : PhysId) : PhysBlock := h.block (h.physr pr).ph

def store : Sharing.Store BlockId PhysId 8 where
  lists := ⟨fun b => (h.block b).firstregion, fun pr => (h.physr pr).nextPhList⟩
  target pr := (h.physr pr).ph
  count b := (h.block b).refcount

def writeCell : Cell BlockId PhysId → Option PhysId → Heap
  | .head b, v => h.modBlock b fun x => { x with firstregion := v }
  | .next pr, v => h.modPhys pr fun x => { x with nextPhList := v }

def physrInsert (pr : PhysId) : List PhysId → List PhysId
  | [] => [pr]
  | x :: l => if (h.physr pr).offset < (h.physr x).offset then pr :: x :: l else x :: physrInsert pr l

end Heap

namespace State
variable (s : State)

def modHeap (f : Heap → Heap) : State := { s with heap := f s.heap }

def modProc (p : ProcId) (f : VmProc → VmProc) : State :=
  { s with proc := update s.proc p (f (s.proc p)) }

lemma modProc_proc (p q : ProcId) (f : VmProc → VmProc) :
    (s.modProc p f).proc q = if q = p then f (s.proc q) else s.proc q :=
  update_map ..

lemma modProc_keep {α : Type} (g : VmProc → α) {p : ProcId} {f : VmProc → VmProc}
    (h : g (f (s.proc p)) = g (s.proc p)) (q : ProcId) :
    g ((s.modProc p f).proc q) = g (s.proc q) := by
  rw [modProc_proc]
  split
  · next hq => exact hq ▸ h
  · rfl

/-- An allocation of VM for itself: a slab object or a page table. It takes a page when `luck`
names a free one, and fits into a page taken before otherwise. -/
def slaballoc : Bool × State :=
  match s.luck with
  | some base :: l =>
    (true, { s with
      luck := l
      free := fun f => s.free f && !(base ≠ 0 && f == base)
      own := fun f => s.own f || (base ≠ 0 && s.free f && f == base) })
  | none :: l => (false, { s with luck := l, denied := s.denied + 1 })
  | [] => (false, { s with denied := s.denied + 1 })

end State

def pageOf (a : BitVec 32) : BitVec 32 := a >>> 12

def pagesIn (length : BitVec 32) : Nat := length.toNat / 4096

def pageAt (a : BitVec 32) (i : Nat) : BitVec 32 := a + BitVec.ofNat 32 (4096 * i)

def pageRange (base : BitVec 32) (n : Nat) : List (BitVec 32) :=
  (List.range n).map fun i => base + BitVec.ofNat 32 i

def numberPhysicalPages : Nat := 0x100000

/-- `ALLOC_MEM`: some pages in a row that are free; page 0 is `NO_MEM`. -/
def allocMem (clicks : Nat) (s : State) : Option (BitVec 32) × State :=
  match s.luck with
  | some base :: l =>
    if base ≠ 0 ∧ base.toNat + clicks ≤ numberPhysicalPages ∧ (pageRange base clicks).all s.free then
      (some base, { s with luck := l, free := fun f => s.free f && !(pageRange base clicks).contains f })
    else (none, { s with luck := l, denied := s.denied + 1 })
  | none :: l => (none, { s with luck := l, denied := s.denied + 1 })
  | [] => (none, { s with denied := s.denied + 1 })

def freeMem (base : BitVec 32) (clicks : Nat) (s : State) : State :=
  { s with free := fun f => s.free f || (pageRange base clicks).contains f }

/-- The first loop of `pt_writemap`: `n` page tables from `pde` on have to exist. -/
def ptAlloc (p : ProcId) : Nat → Nat → State → Bool × State
  | 0, _, s => (true, s)
  | n + 1, pde, s =>
    if (s.proc p).vmPt.dir pde then ptAlloc p n (pde + 1) s
    else
      match s.slaballoc with
      | (false, s) => (false, s)
      | (true, s) =>
        ptAlloc p n (pde + 1) (s.modProc p fun x =>
          { x with vmPt := { x.vmPt with dir := update x.vmPt.dir pde true } })

def writePtes (v : BitVec 32) (entry : Nat → Option Pte) :
    Nat → (BitVec 32 → Option Pte) → BitVec 32 → Option Pte
  | 0, pte => pte
  | n + 1, pte => update (writePtes v entry n pte) (pageOf (pageAt v n)) (entry n)

def pdeOf (v : BitVec 32) : Nat := v.toNat / 0x400000

/-- `pt_writemap` without `WMF_FREE`: `pages` entries from the address `v` on. -/
def ptWritemap (p : ProcId) (v : BitVec 32) (pages : Nat) (entry : Nat → Option Pte) (s : State) :
    Bool × State :=
  match ptAlloc p (pdeOf (pageAt v pages) + 1 - pdeOf v) (pdeOf v) s with
  | (false, s) => (false, s)
  | (true, s) =>
    (true, s.modProc p fun x => { x with vmPt := { x.vmPt with pte := writePtes v entry pages x.vmPt.pte } })

def writable (r : VirRegion) (pb : PhysBlock) : Bool :=
  r.flags &&& (vrDirect ||| vrShared) != 0 || (r.flags &&& vrWritable != 0 && pb.refcount == 1)

def mapPhWritept (p : ProcId) (r : RegionId) (pr : PhysId) (s : State) : Bool × State :=
  let vr := s.heap.region r
  let pb := s.heap.blockOf pr
  ptWritemap p (vr.vaddr + (s.heap.physr pr).offset) (pagesIn pb.length)
    (fun i => some ⟨pageOf (pageAt pb.phys i), writable vr pb⟩) s

end Nucleos.Vm
