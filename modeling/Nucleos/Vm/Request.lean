import Nucleos.Vm.Shape

/-!
# Requests to the memory server

`do_mmap`, `do_munmap`, `do_remap`, `do_brk` and `do_fork`. A process is named by its slot, and a
request that names a slot not in use is one whose endpoint `vm_isokendpt` does not accept. What
the kernel answers, the stack pointer and the address of a message, comes with the request;
`sys_fork`, `sys_abscopy` and `pt_bind` do not fail.
-/

namespace Nucleos.Vm

open IntrusiveList Run

def nrProcs : Nat := 100
def vmProcNr : ProcId := 8

def enxio : Int := 6
def efault : Int := 14
def enosys : Int := 38

def mapSharedFlag : BitVec 32 := 0x001
def mapAnonymous : BitVec 32 := 0x004
def mapPrealloc : BitVec 32 := 0x008
def mapLower16m : BitVec 32 := 0x020
def mapAlign64k : BitVec 32 := 0x040
def mapLower1m : BitVec 32 := 0x080

def sizeofMsg : BitVec 32 := 44

def archVir2mapText (x : VmProc) (addr : BitVec 32) : BitVec 32 := addr + x.segT.memPhys <<< 12

def archMap2vir (x : VmProc) (addr : BitVec 32) : BitVec 32 := addr - x.segD.memPhys <<< 12

/-- The loop of `handle_memory`. Every round takes something off `len`, which bounds the rounds. -/
def handleFrom (p : ProcId) (write : Bool) : Nat → BitVec 32 → BitVec 32 → State → Except Stop (Int × State)
  | 0, _, _, s => .ok (0, s)
  | n + 1, mem, len, s =>
    if len = 0 then .ok (0, s)
    else do
      match ← mapLookup p mem s with
      | none => .ok (-efault, s)
      | some r =>
        let region := s.heap.region r
        if region.flags &&& vrWritable = 0 ∧ write then .ok (-efault, s)
        else
          let offset := mem - region.vaddr
          let sublen := if offset + len > region.length then region.length - offset else len
          let (ok, s) ← mapHandleMemory p r offset sublen write s
          if ok then handleFrom p write n (mem + sublen) (len - sublen) s else .ok (-enomem, s)

def handleMemory (p : ProcId) (mem len : BitVec 32) (write : Bool) (s : State) : Except Stop (Int × State) :=
  let o := mem % vmPageSize
  let len := roundUp (len + o)
  handleFrom p write len.toNat (mem - o) len s

def mmapFlags (flags : BitVec 32) : BitVec 16 :=
  let orIf (m : BitVec 32) (v : BitVec 16) : BitVec 16 := if flags &&& m ≠ 0 then v else 0
  vrAnon ||| vrWritable ||| orIf mapLower16m vrLower16mb ||| orIf mapLower1m vrLower1mb |||
    orIf mapAlign64k vrPhys64k ||| orIf mapSharedFlag vrShared

def doMmap (p : ProcId) (fd : Int) (flags addr len : BitVec 32) (s : State) :
    Except Stop (Int × BitVec 32 × State) :=
  let x := s.proc p
  if !x.inuse then .error (.panic "do_mmap: message from strange source")
  else if !x.haspt then .ok (-enxio, 0, s)
  else if fd = -1 ∨ flags &&& mapAnonymous ≠ 0 then
    if fd ≠ -1 then .ok (-einval, 0, s)
    else do
      let (got, s) ← mapPageRegion p (archVir2map x (if addr ≠ 0 then addr else x.vmStacktop))
        vmDatatop (roundUp len)
        mapNone (mmapFlags flags) (flags &&& mapPrealloc ≠ 0) s
      match got with
      | none => .ok (-enomem, 0, s)
      | some r => .ok (0, archMap2vir x (s.heap.region r).vaddr, s)
  else .ok (-enosys, 0, s)

def doMunmap (p : ProcId) (text : Bool) (addr len : BitVec 32) (s : State) : Except Stop (Int × State) :=
  let x := s.proc p
  if !x.inuse then .error (.panic "do_mmap: message from strange source")
  else if !x.haspt then .ok (-enxio, s)
  else do
    let addr := if text then archVir2mapText x addr else archVir2map x addr
    match ← mapLookup p addr s with
    | none => .ok (-efault, s)
    | some r =>
      let len := roundUp len
      if addr ≠ (s.heap.region r).vaddr ∨ len > (s.heap.region r).length ∨ len < vmPageSize
        then .ok (-efault, s)
      else
        let (res, s) ← mapUnmapRegion p r len s
        if res ≠ 0 then .error (.panic "do_munmap: map_unmap_region failed") else .ok (0, s)

def doRemap (d src : ProcId) (da sa size : BitVec 32) (s : State) : Except Stop (Int × BitVec 32 × State) :=
  if !(s.proc d).inuse then .ok (-einval, 0, s)
  else if !(s.proc src).inuse then .ok (-einval, 0, s)
  else do
    match ← mapLookup src (archVir2map (s.proc src) sa) s with
    | none => .ok (-einval, 0, s)
    | some region =>
      let (res, startv, s) ← mapRemap d da size region s
      .ok (res, if res = 0 then archMap2vir (s.proc d) startv else 0, s)

def safetyClicks : BitVec 32 := 1

/-- The end of `adjust`: the heap region follows the data segment when that grows. A heap that has
been unmapped has left a pointer behind. -/
def growHeap (p : ProcId) (oldClicks dataClicks : BitVec 32) (s : State) : Except Stop (Int × State) :=
  if (s.proc p).haspt ∧ p ≠ vmProcNr then
    match (s.proc p).vmHeap with
    | none => .ok (0, s)
    | some heap =>
      if oldClicks < dataClicks then
        if heap ∉ (s.proc p).vmRegions then .error .fault
        else
          match mapRegionExtend p heap ((dataClicks - oldClicks) <<< 12) s with
          | (true, s) => .ok (0, s)
          | (false, s) => .ok (-enomem, s)
      -- `map_region_shrink` does nothing
      else .ok (0, s)
  else .ok (0, s)

def adjust (p : ProcId) (dataClicks sp : BitVec 32) (s : State) : Except Stop (Int × State) :=
  let memDp := (s.proc p).segD
  let memSp := (s.proc p).segS
  let spClick := sp >>> 12
  if spClick ≥ memSp.memVir + memSp.memLen then .ok (-enomem, s)
  else
    let spDelta := memSp.memVir - spClick
    let grown := BitVec.slt 0 spDelta
    let spLower := if grown then spClick else memSp.memVir
    let gapBase := memDp.memVir + dataClicks + safetyClicks
    if spLower < gapBase then .ok (-enomem, s)
    else
      let memDp' := { memDp with memLen := dataClicks }
      let memSp' := if grown then
          ⟨memSp.memVir - spDelta, memSp.memPhys - spDelta, memSp.memLen + spDelta⟩
        else memSp
      -- segments that do not fit are put back
      if memDp'.memVir + memDp'.memLen > memSp'.memVir then .ok (-enomem, s)
      else growHeap p memDp.memLen dataClicks (s.modProc p fun x => { x with segD := memDp', segS := memSp' })

/-- `do_brk` and `real_brk`; `sp` is the stack pointer the kernel reports. -/
def doBrk (p : ProcId) (v sp : BitVec 32) (s : State) : Except Stop (Int × State) :=
  if !(s.proc p).inuse then .ok (-einval, s)
  else
    let newClicks := (v + 4095).sshiftRight 12
    if newClicks < (s.proc p).segD.memVir then .ok (-enomem, s)
    else adjust p (newClicks - (s.proc p).segD.memVir) sp s

/-! ## Fork -/

/-- `pt_new`; a directory, once there, stays with the slot. -/
def ptNew (p : ProcId) (s : State) : Bool × State :=
  let clear (s : State) : State := s.modProc p fun x => { x with ptDir := true, vmPt := PageTable.empty }
  if (s.proc p).ptDir then (true, clear s)
  else
    match s.slaballoc with
    | (false, s) => (false, s)
    | (true, s) => (true, clear s)

def ptIdentity (p : ProcId) (s : State) : Bool × State :=
  match ptNew p s with
  | (false, s) => (false, s)
  | (true, s) => (true, s.modProc p fun x =>
      { x with vmPt := { x.vmPt with pte := fun v => some ⟨v, true⟩ } })

/-- The slot of the child as a copy of the parent, with its own page table. -/
def forkSlot (parent child : ProcId) (s : State) : State :=
  s.modProc child fun c =>
    { s.proc parent with vmRegions := [], vmPt := c.vmPt, ptDir := c.ptDir, haspt := true }

/-- A page table for the child and copies of the regions of the parent. `pt_free` takes the page
tables back when that fails; which of VM's own pages these are is not kept. -/
def forkMemory (parent child : ProcId) (s : State) : Except Stop (Bool × State) :=
  match ptNew child s with
  | (false, s) => .ok (false, s)
  | (true, s) => mapProcCopy child parent s

def mapRegionLookupTag (p : ProcId) (tag : BitVec 32) (s : State) : Option RegionId :=
  (s.proc p).vmRegions.find? fun r => (s.heap.region r).tag == tag

def forkHeap (parent child : ProcId) (s : State) : State :=
  if (s.proc parent).vmHeap.isSome then
    s.modProc child fun x => { x with vmHeap := mapRegionLookupTag child vrtHeap s }
  else s

/-- The memory of a child whose parent has no page table: data and stack in one piece. -/
def forkImage (parent child : ProcId) (s : State) : Bool × State :=
  let x := s.proc parent
  let progClicks := x.segS.memLen + (x.segS.memVir - x.segD.memVir)
  match allocMem progClicks.toNat s with
  | (none, s) => (false, s)
  | (some childBase, s) =>
    ptIdentity child (s.modProc child fun c =>
      { c with
        segT := { c.segT with memPhys := childBase }
        segD := { c.segD with memPhys := childBase }
        segS := { c.segS with memPhys := childBase + (x.segS.memVir - x.segD.memVir) } })

/-- The messages of both are made writable; whether that works is not looked at. -/
def forkMessages (parent child : ProcId) (msgaddr : BitVec 32) (s : State) : Except Stop State := do
  let (_, s) ← handleMemory child (archVir2map (s.proc child) msgaddr) sizeofMsg true s
  let (_, s) ← handleMemory parent (archVir2map (s.proc parent) msgaddr) sizeofMsg true s
  .ok s

/-- `do_fork`; `msgaddr` is what `sys_fork` reports. -/
def doFork (parent child : ProcId) (msgaddr : BitVec 32) (s : State) : Except Stop (Int × State) :=
  if !(s.proc parent).inuse then .ok (-einval, s)
  else if child ≥ nrProcs then .ok (-einval, s)
  else if (s.proc parent).hasDma then .ok (-einval, s)
  else if (s.proc parent).haspt then do
    let (ok, s) ← forkMemory parent child (forkSlot parent child s)
    if ok then
      let s ← forkMessages parent child msgaddr (forkHeap parent child s)
      .ok (0, s)
    else .ok (-enomem, s)
  else
    match forkImage parent child (forkSlot parent child s) with
    | (false, s) => .ok (-enomem, s)
    | (true, s) => .ok (0, s)

/-! ## Requests -/

inductive Request where
  | mmap (p : ProcId) (fd : Int) (flags addr len : BitVec 32)
  | remap (d src : ProcId) (da sa size : BitVec 32)
  | munmap (p : ProcId) (text : Bool) (addr len : BitVec 32)
  | brk (p : ProcId) (v sp : BitVec 32)
  | fork (parent child : ProcId) (msgaddr : BitVec 32)
  deriving DecidableEq

def Request.exec (s : State) : Request → Except Stop (Int × State)
  | .mmap p fd flags addr len => do
    let (res, _, s) ← doMmap p fd flags addr len s
    .ok (res, s)
  | .remap d src da sa size => do
    let (res, _, s) ← doRemap d src da sa size s
    .ok (res, s)
  | .munmap p text addr len => doMunmap p text addr len s
  | .brk p v sp => doBrk p v sp s
  | .fork parent child msgaddr => doFork parent child msgaddr s

def Request.step (s : State) (q : Request) : Except Stop State := do
  let (_, s) ← q.exec s
  .ok s

end Nucleos.Vm
