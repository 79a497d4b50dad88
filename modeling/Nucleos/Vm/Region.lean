import Nucleos.Vm.Heap

/-!
# Operations on regions

The functions of `region.c`. A result `false` stands for `-ENOMEM`, or for a null pointer where
the source returns a pointer. An object that is freed where it was allocated leaves the heap as
it was; any other is simply no longer referred to. The copy of memory from one block to another
does not fail.
-/

namespace Nucleos.Vm

open Function IntrusiveList

def maxOf (a b : BitVec 32) : BitVec 32 := if a > b then a else b

def minOf (a b : BitVec 32) : BitVec 32 := if a < b then a else b

/-- One use of `FREEVRANGE`: the start of a free range that is long enough. -/
def freevrange (minv maxv length rangestart rangeend : BitVec 32) : Option (BitVec 32) :=
  let frstart := maxOf rangestart minv
  let frend := minOf rangeend maxv
  if frend > frstart ∧ frend - frstart ≥ length then some frstart else none

def Heap.rangeLimit (h : Heap) : List RegionId → BitVec 32
  | [] => vmDatatop
  | n :: _ => (h.region n).vaddr

/-- The search behind the regions of a list, with the region the slot comes after. -/
def findBehind (h : Heap) (minv maxv length : BitVec 32) :
    List RegionId → Option (BitVec 32 × Option RegionId)
  | [] => none
  | vr :: rest =>
    match freevrange minv maxv length ((h.region vr).vaddr + (h.region vr).length) (h.rangeLimit rest) with
    | some startv => some (startv, some vr)
    | none => findBehind h minv maxv length rest

def regionFindSlot (h : Heap) (regions : List RegionId) (minv maxv length : BitVec 32) :
    Option (BitVec 32 × Option RegionId) :=
  -- `maxv` 0 asks for the mapping right at `minv`
  let limit := if maxv = 0 then minv + length else maxv
  if maxv = 0 ∧ limit ≤ minv then none
  else
    match freevrange minv limit length 0 (h.rangeLimit regions) with
    | some startv => some (startv, none)
    | none => findBehind h minv limit length regions

def insertAfter (r q : RegionId) : List RegionId → List RegionId
  | [] => []
  | x :: l => if x = q then x :: r :: l else x :: insertAfter r q l

def linkRegion (r : RegionId) (prev : Option RegionId) (l : List RegionId) : List RegionId :=
  match prev with
  | none => r :: l
  | some q => insertAfter r q l

/-- Take a physical region off its block: the count goes down, and it leaves the list at the cell
that points to it. -/
def Heap.unref (h : Heap) (c : Cell BlockId PhysId) (pr : PhysId) : Heap :=
  let h := h.modBlock (h.physr pr).ph fun x => { x with refcount := x.refcount - 1 }
  if h.store.lists.read c = some pr then h.writeCell c (h.physr pr).nextPhList else h

def pbUnreferenced (r : RegionId) (pr : PhysId) (s : State) : Except Stop State :=
  let b := (s.heap.physr pr).ph
  match s.heap.store.lists.walk (· == pr) (s.heap.nextPhys + 1) (.head b) with
  | none => .error .hang
  | some c =>
    let s := s.modHeap fun h => h.unref c pr
    let vr := s.heap.region r
    let pb := s.heap.block b
    if pb.refcount = 0 then
      if vr.flags &&& vrAnon ≠ 0 then .ok (freeMem (pageOf pb.phys) (pagesIn pb.length) s)
      else if vr.flags &&& vrDirect ≠ 0 then .ok s
      else .error (.panic "strange phys flags")
    else if writable vr pb then
      match pb.firstregion with
      | none => .error .fault
      | some first =>
        let parent := (s.heap.physr first).parent
        match mapPhWritept (s.heap.region parent).parent parent first s with
        | (true, s) => .ok s
        | (false, _) => .error (.panic "pb_unreferenced: writept")
    else .ok s

/-- A new block of the given frames with one new physical region of `r`, not yet in its tree. -/
def Heap.newBlock (h : Heap) (r : RegionId) (offset length phys : BitVec 32) : Heap :=
  { h with
    block := update h.block h.nextBlock ⟨length, phys, 1, some h.nextPhys⟩
    physr := update h.physr h.nextPhys ⟨h.nextBlock, r, offset, none⟩
    nextBlock := h.nextBlock + 1
    nextPhys := h.nextPhys + 1 }

def Heap.insertPhys (h : Heap) (r : RegionId) (pr : PhysId) : Heap :=
  h.modRegion r fun x => { x with phys := h.physrInsert pr x.phys }

def newFrames (length what : BitVec 32) (s : State) : Option (BitVec 32) × State :=
  if what = mapNone then
    match allocMem (pagesIn length) s with
    | (none, s) => (none, s)
    | (some base, s) => (some (base <<< 12), s)
  else (some what, s)

def mapNewPhysblock (p : ProcId) (r : RegionId) (offset length what : BitVec 32) (s : State) :
    Option PhysId × State :=
  match s.slaballoc with
  | (false, s) => (none, s)
  | (true, s) =>
    match s.slaballoc with
    | (false, s) => (none, s)
    | (true, s) =>
      match newFrames length what s with
      | (none, s) => (none, s)
      | (some mem, s) =>
        let pr := s.heap.nextPhys
        match mapPhWritept p r pr (s.modHeap fun h => h.newBlock r offset length mem) with
        | (false, t) =>
          let t := t.modHeap fun _ => s.heap
          (none, if what = mapNone then freeMem (pageOf mem) (pagesIn length) t else t)
        | (true, t) => (some pr, t.modHeap fun h => h.insertPhys r pr)

/-- Give a physical region a block of its own in the frames at `phys`. -/
def Heap.rebase (h : Heap) (pr : PhysId) (phys : BitVec 32) : Heap :=
  { h with
    block := update h.block h.nextBlock ⟨(h.blockOf pr).length, phys, 1, some pr⟩
    physr := update h.physr pr { h.physr pr with ph := h.nextBlock, nextPhList := none }
    nextBlock := h.nextBlock + 1 }

def mapCopyPhBlock (p : ProcId) (r : RegionId) (pr : PhysId) (s : State) : Except Stop (Bool × State) :=
  match s.slaballoc with
  | (false, s) => .ok (false, s)
  | (true, s) =>
    match allocMem (pagesIn (s.heap.blockOf pr).length) s with
    | (none, s) => .ok (false, s)
    | (some base, s) => do
      let s ← pbUnreferenced r pr s
      match mapPhWritept p r pr (s.modHeap fun h => h.rebase pr (base <<< 12)) with
      | (true, s) => .ok (true, s)
      | (false, _) => .error (.panic "map_copy_ph_block: map_ph_writept failed")

def Heap.removePhys (h : Heap) (r : RegionId) (pr : PhysId) : Heap :=
  h.modRegion r fun x => { x with phys := x.phys.erase pr }

/-- Cut `sublen` bytes off the front of the block of a physical region. -/
def Heap.cutFront (h : Heap) (pr : PhysId) (sublen : BitVec 32) : Heap :=
  (h.modPhys pr fun x => { x with offset := x.offset + sublen }).modBlock (h.physr pr).ph fun x =>
    { x with phys := x.phys + sublen, length := x.length - sublen }

def ownBlock (p : ProcId) (r : RegionId) (pr : PhysId) (s : State) : Except Stop (Bool × State) :=
  if (s.heap.blockOf pr).refcount > 1 then mapCopyPhBlock p r pr s else .ok (true, s)

/-- The loop of `map_subfree` from some node of the tree on. After a block is taken out the search
starts again at the first node; one that was cut before then ends it. -/
def subfreeFrom (p : ProcId) (r : RegionId) (len : BitVec 32) :
    List PhysId → Bool → State → Except Stop (Bool × State)
  | [], _, s => .ok (true, s)
  | pr :: rest, cut, s => do
    let x := s.heap.physr pr
    let pb := s.heap.blockOf pr
    if x.offset ≥ len then .ok (true, s)
    else if x.offset + pb.length ≤ len then
      let s ← pbUnreferenced r pr s
      let s := s.modHeap fun h => h.removePhys r pr
      if cut then .ok (true, s) else subfreeFrom p r len rest false s
    else
      let sublen := len - x.offset
      let (ok, s) ← ownBlock p r pr s
      if ok then
        let s := if (s.heap.region r).flags &&& vrDirect = 0 then
            freeMem (pageOf (s.heap.blockOf pr).phys) (pagesIn sublen) s
          else s
        subfreeFrom p r len rest true (s.modHeap fun h => h.cutFront pr sublen)
      else .ok (false, s)

def mapSubfree (p : ProcId) (r : RegionId) (len : BitVec 32) (s : State) : Except Stop (Bool × State) :=
  subfreeFrom p r len (s.heap.region r).phys false s

def mapFree (p : ProcId) (r : RegionId) (s : State) : Except Stop (Bool × State) :=
  mapSubfree p r (s.heap.region r).length s

def freeRegions (p : ProcId) : List RegionId → State → Except Stop State
  | [], s => .ok s
  | r :: rest, s => do
    let (_, s) ← mapFree p r s
    freeRegions p rest (s.modProc p fun x => { x with vmRegions := rest })

def mapFreeProc (p : ProcId) (s : State) : Except Stop State := do
  let s ← freeRegions p (s.proc p).vmRegions s
  .ok (s.modProc p fun x => { x with vmRegions := [] })

/-- `map_lookup`, which panics when the process has no regions at all. -/
def mapLookup (p : ProcId) (addr : BitVec 32) (s : State) : Except Stop (Option RegionId) :=
  if (s.proc p).vmRegions = [] then .error (.panic "process has no regions")
  else
    .ok ((s.proc p).vmRegions.find? fun r =>
      addr ≥ (s.heap.region r).vaddr && addr < (s.heap.region r).vaddr + (s.heap.region r).length)

def Heap.physrLessEqual (h : Heap) (offset : BitVec 32) (l : List PhysId) : Option PhysId :=
  (l.filter fun pr => (h.physr pr).offset ≤ offset).getLast?

def mapPf (p : ProcId) (r : RegionId) (offset : BitVec 32) (s : State) : Except Stop (Bool × State) :=
  let virpage := offset - offset % vmPageSize
  let covering := (s.heap.physrLessEqual offset (s.heap.region r).phys).filter fun pr =>
    offset < (s.heap.physr pr).offset + (s.heap.blockOf pr).length
  match covering with
  | some pr =>
    if writable (s.heap.region r) (s.heap.blockOf pr) then .ok (mapPhWritept p r pr s)
    else mapCopyPhBlock p r pr s
  | none =>
    match mapNewPhysblock p r virpage vmPageSize mapNone s with
    | (some _, s) => .ok (true, s)
    | (none, s) => .ok (false, s)

def Heap.rangeStart (h : Heap) (offset : BitVec 32) : Option PhysId → BitVec 32
  | none => offset
  | some x => maxOf offset ((h.physr x).offset + (h.blockOf x).length)

def Heap.rangeEnd (h : Heap) (fin : BitVec 32) : Option PhysId → BitVec 32
  | none => fin
  | some x => minOf fin (h.physr x).offset

/-- `FREE_RANGE_HERE`: memory for what lies between two nodes. The middle result counts a change. -/
def freeRangeHere (p : ProcId) (r : RegionId) (offset length : BitVec 32) (r1 r2 : Option PhysId)
    (s : State) :
    Bool × Nat × State :=
  let start := s.heap.rangeStart offset r1
  let fin := s.heap.rangeEnd (offset + length) r2
  if start < fin then
    match mapNewPhysblock p r start (fin - start) mapNone s with
    | (none, s) => (false, 0, s)
    | (some _, s) => (true, 1, s)
  else (true, 0, s)

def handleBlock (p : ProcId) (r : RegionId) (write : Bool) (pr : PhysId) (s : State) :
    Except Stop (Bool × Nat × State) :=
  if write then
    if writable (s.heap.region r) (s.heap.blockOf pr) then
      match mapPhWritept p r pr s with
      | (ok, s) => .ok (ok, 1, s)
    else do
      let (ok, s) ← mapCopyPhBlock p r pr s
      .ok (ok, 1, s)
  else .ok (true, 0, s)

/-- The loop of `map_handle_memory` over the nodes it meets, with the number of changes. -/
def handleBlocks (p : ProcId) (r : RegionId) (offset length : BitVec 32) (write : Bool) :
    List PhysId → Nat → State → Except Stop (Bool × Nat × State)
  | [], changes, s => .ok (true, changes, s)
  | pr :: rest, changes, s => do
    let (ok, n, s) ← handleBlock p r write pr s
    if ok then
      match freeRangeHere p r offset length (some pr) rest.head? s with
      | (false, _, s) => .ok (false, changes, s)
      | (true, m, s) =>
        match rest with
        | [] => .ok (true, changes + n + m, s)
        | x :: rest =>
          if (s.heap.physr x).offset ≥ offset + length then .ok (true, changes + n + m, s)
          else handleBlocks p r offset length write (x :: rest) (changes + n + m) s
    else .ok (false, changes, s)

/-- The nodes from the last one at or below an offset on, or all when there is none. -/
def Heap.fromLessEqual (h : Heap) (offset : BitVec 32) : List PhysId → List PhysId
  | [] => []
  | x :: rest =>
    match rest with
    | [] => [x]
    | y :: rest => if (h.physr y).offset ≤ offset then h.fromLessEqual offset (y :: rest) else x :: y :: rest

def passFirst (p : ProcId) (r : RegionId) (offset length : BitVec 32) (nodes : List PhysId) (s : State) :
    Bool × Nat × List PhysId × State :=
  match nodes with
  | [] => (true, 0, [], s)
  | x :: rest =>
    if (s.heap.physr x).offset + (s.heap.blockOf x).length ≤ offset then
      match freeRangeHere p r offset length none rest.head? s with
      | (ok, m, s) => (ok, m, rest, s)
    else (true, 0, x :: rest, s)

def mapHandleMemory (p : ProcId) (r : RegionId) (offset length : BitVec 32) (write : Bool) (s : State) :
    Except Stop (Bool × State) :=
  let nodes := s.heap.fromLessEqual offset (s.heap.region r).phys
  match freeRangeHere p r offset length none nodes.head? s with
  | (false, _, s) => .ok (false, s)
  | (true, n, s) =>
    match passFirst p r offset length nodes s with
    | (false, _, _, s) => .ok (false, s)
    | (true, m, nodes, s) => do
      let (ok, changes, s) ← handleBlocks p r offset length write nodes (n + m) s
      if ok then
        if changes < 1 then .error (.panic "no changes in map_handle_memory") else .ok (true, s)
      else .ok (false, s)

def Heap.newRegion (h : Heap) (x : VirRegion) : Heap :=
  { h with
    region := update h.region h.nextRegion { x with phys := [] }
    nextRegion := h.nextRegion + 1 }

def mapWhat (p : ProcId) (r : RegionId) (length what : BitVec 32) (s : State) : Bool × State :=
  if what ≠ mapNone then
    match mapNewPhysblock p r 0 length what s with
    | (none, s) => (false, s)
    | (some pr, s) => mapPhWritept p r pr s
  else (true, s)

def preallocate (p : ProcId) (r : RegionId) (length : BitVec 32) (flags : BitVec 16)
    (prealloc : Bool) (s : State) :
    Except Stop (Bool × State) :=
  if flags &&& vrAnon ≠ 0 ∧ prealloc then mapHandleMemory p r 0 length true s else .ok (true, s)

def mapPageRegion (p : ProcId) (minv maxv length what : BitVec 32) (flags : BitVec 16)
    (prealloc : Bool) (s : State) :
    Except Stop (Option RegionId × State) :=
  match regionFindSlot s.heap (s.proc p).vmRegions minv maxv length with
  | none => .ok (none, s)
  | some (startv, prev) =>
    match s.slaballoc with
    | (false, s) => .ok (none, s)
    | (true, s) =>
      match s.slaballoc with
      | (false, s) => .ok (none, s)
      | (true, s) => do
        let r := s.heap.nextRegion
        let s := s.modHeap fun h => h.newRegion ⟨startv, length, [], flags, vrtNone, p⟩
        match mapWhat p r length what s with
        | (false, s) => .ok (none, s)
        | (true, s) =>
          let (ok, s) ← preallocate p r length flags prealloc s
          if ok then .ok (some r, s.modProc p fun x => { x with vmRegions := linkRegion r prev x.vmRegions })
          else .ok (none, s)

def Heap.copyPhys (h : Heap) (r : RegionId) (pr : PhysId) : Heap :=
  { h with
    physr := update h.physr h.nextPhys ⟨(h.physr pr).ph, r, (h.physr pr).offset, none⟩
    nextPhys := h.nextPhys + 1 }

def copyBlocks (r : RegionId) : List PhysId → State → Bool × State
  | [], s => (true, s)
  | pr :: rest, s =>
    match s.slaballoc with
    | (false, s) => (false, s)
    | (true, s) => copyBlocks r rest (s.modHeap fun h => (h.copyPhys r pr).insertPhys r h.nextPhys)

def mapCopyRegion (p : ProcId) (vr : RegionId) (s : State) : Except Stop (Option RegionId × State) :=
  match s.slaballoc with
  | (false, s) => .ok (none, s)
  | (true, s) =>
    match s.slaballoc with
    | (false, s) => .ok (none, s)
    | (true, s) =>
      let newvr := s.heap.nextRegion
      match copyBlocks newvr (s.heap.region vr).phys (s.modHeap fun h => h.newRegion (h.region vr)) with
      | (true, s) => .ok (some newvr, s)
      | (false, s) => do
        let (_, s) ← mapFree p newvr s
        .ok (none, s)

def Heap.shareBlock (h : Heap) (pr : PhysId) (b : BlockId) : Heap :=
  (h.modPhys pr fun x => { x with nextPhList := (h.block b).firstregion }).modBlock b fun x =>
    { x with firstregion := some pr, refcount := x.refcount + 1 }

/-- The parallel walk of `map_proc_copy` over the trees of a region and its copy. -/
def shareBlocks : List PhysId → List PhysId → Heap → Heap
  | orig :: origs, new :: news, h => shareBlocks origs news (h.shareBlock new (h.physr orig).ph)
  | _, _, h => h

def writeptBlocks (p : ProcId) (r : RegionId) : List PhysId → State → Bool × State
  | [], s => (true, s)
  | pr :: rest, s =>
    match mapPhWritept p r pr s with
    | (false, s) => (false, s)
    | (true, s) => writeptBlocks p r rest s

def writeptRegions (p : ProcId) : List RegionId → State → Bool × State
  | [], s => (true, s)
  | r :: rest, s =>
    match writeptBlocks p r (s.heap.region r).phys s with
    | (false, s) => (false, s)
    | (true, s) => writeptRegions p rest s

def mapWritept (p : ProcId) (s : State) : Bool × State := writeptRegions p (s.proc p).vmRegions s

def copyRegions (dst : ProcId) : List RegionId → State → Except Stop (Bool × State)
  | [], s => .ok (true, s)
  | vr :: rest, s => do
    let (copy, s) ← mapCopyRegion dst vr s
    match copy with
    | none =>
      let s ← mapFreeProc dst s
      .ok (false, s)
    | some newvr =>
      let s := s.modHeap fun h => h.modRegion newvr fun x => { x with parent := dst }
      let s := s.modProc dst fun x => { x with vmRegions := x.vmRegions ++ [newvr] }
      copyRegions dst rest
        (s.modHeap (shareBlocks (s.heap.region vr).phys (s.heap.region newvr).phys))

/-- `map_proc_copy`; whether the page tables could be written is not looked at. -/
def mapProcCopy (dst src : ProcId) (s : State) : Except Stop (Bool × State) := do
  let (ok, s) ← copyRegions dst (s.proc src).vmRegions (s.modProc dst fun x => { x with vmRegions := [] })
  if ok then
    let (_, s) := mapWritept src s
    let (_, s) := mapWritept dst s
    .ok (true, s)
  else .ok (false, s)

def nextRegion (r : RegionId) (l : List RegionId) : Option RegionId :=
  (l.dropWhile (· ≠ r)).tail.head?

def mapRegionExtend (p : ProcId) (r : RegionId) (delta : BitVec 32) (s : State) : Bool × State :=
  let fin := (s.heap.region r).vaddr + (s.heap.region r).length
  if delta = 0 then (true, s)
  else if fin + delta ≤ fin then (false, s)
  else
    let fits := match nextRegion r (s.proc p).vmRegions with
      | none => true
      | some n => fin + delta ≤ (s.heap.region n).vaddr
    if fits then (true, s.modHeap fun h => h.modRegion r fun x => { x with length := x.length + delta })
    else (false, s)

def Heap.shiftOffsets (len : BitVec 32) : List PhysId → Heap → Heap
  | [], h => h
  | pr :: rest, h => Heap.shiftOffsets len rest (h.modPhys pr fun x => { x with offset := x.offset - len })

/-- The region loses `len` bytes at its front; its blocks stay where they are. -/
def Heap.shrink (h : Heap) (r : RegionId) (len : BitVec 32) : Heap :=
  Heap.shiftOffsets len (h.region r).phys
    (h.modRegion r fun x => { x with vaddr := x.vaddr + len, length := x.length - len })

/-- The part of `map_unmap_region` that takes the memory away: the whole region goes, or it loses
its first `len` bytes. -/
def unmapFront (p : ProcId) (r : RegionId) (len : BitVec 32) (s : State) : Except Stop State :=
  if len = (s.heap.region r).length then do
    let (_, s) ← mapFree p r (s.modProc p fun x => { x with vmRegions := x.vmRegions.erase r })
    .ok s
  else do
    let (_, s) ← mapSubfree p r len s
    .ok (s.modHeap fun h => h.shrink r len)

def mapUnmapRegion (p : ProcId) (r : RegionId) (len : BitVec 32) (s : State) : Except Stop (Int × State) :=
  let vr := s.heap.region r
  if r ∉ (s.proc p).vmRegions then .error (.panic "map_unmap_region: region not found\n")
  else if len > vr.length ∨ len % vmPageSize ≠ 0 then .ok (-einval, s)
  else if vr.flags &&& (vrAnon ||| vrDirect) = 0 then .ok (-einval, s)
  else do
    let s ← unmapFront p r len s
    match ptWritemap p vr.vaddr (pagesIn len) (fun _ => none) s with
    | (true, s) => .ok (0, s)
    | (false, s) => .ok (-enomem, s)

/-- The loop of `map_remap`: each block is counted once more and mapped. -/
def remapBlocks (p : ProcId) (r : RegionId) : List PhysId → State → Except Stop State
  | [], s => .ok s
  | pr :: rest, s =>
    let b := (s.heap.physr pr).ph
    match mapPhWritept p r pr (s.modHeap fun h => h.modBlock b fun x =>
      { x with refcount := x.refcount + 1 }) with
    | (false, _) => .error (.panic "map_remap: map_ph_writept failed")
    | (true, s) => remapBlocks p r rest s

def roundUp (len : BitVec 32) : BitVec 32 :=
  if len % vmPageSize ≠ 0 then len + (vmPageSize - len % vmPageSize) else len

def archVir2map (x : VmProc) (addr : BitVec 32) : BitVec 32 := addr + x.segD.memPhys <<< 12

def mapRemap (d : ProcId) (da size : BitVec 32) (region : RegionId) (s : State) :
    Except Stop (Int × BitVec 32 × State) :=
  let dstAddr := archVir2map (s.proc d) (if da = 0 then (s.proc d).vmStacktop else da)
  let size := roundUp size
  match regionFindSlot s.heap (s.proc d).vmRegions dstAddr vmDatatop size with
  | none => .ok (-enomem, 0, s)
  | some (startv, prev) =>
    if da ≠ 0 ∧ startv ≠ dstAddr then .ok (-einval, 0, s)
    else do
      let (copy, s) ← mapCopyRegion d region s
      match copy with
      | none => .ok (-enomem, 0, s)
      | some vr =>
        let s := s.modHeap fun h => h.modRegion vr fun x =>
          { x with
            vaddr := startv, length := size, flags := (h.region region).flags, tag := vrtNone, parent := d }
        let s := s.modProc d fun x => { x with vmRegions := linkRegion vr prev x.vmRegions }
        let s ← remapBlocks d vr (s.heap.region vr).phys s
        .ok (0, startv, s)

end Nucleos.Vm
