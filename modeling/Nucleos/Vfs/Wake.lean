import Nucleos.Kernel.Proc
import Nucleos.Vfs.Files

/-!
# How blocked processes are resumed

A process whose call cannot be finished waits for a driver, for a pipe, for a lock, for another
opener or for one of several files. It is resumed by a message of a driver, by a call of another
process, by the clock or by the process manager. The main loop hands a message of a driver's kind on
by its type alone. -/

namespace Nucleos.Vfs.Wake

open Function Run

def vfsProcNr : Int := 1
def endptNone : Int := 0x6ace
def grantInvalid : Int := -1
def nrDevices : Nat := 32
def maxSelects : Nat := 25

def nrRead : Nat := 3
def nrWrite : Nat := 4
def nrFcntl : Nat := 47
def nrSelect : Nat := 64

/-- The calls that can hang on a pipe: `read`, `write`, `open` and `creat`. -/
def pipeCalls : List Nat := [nrRead, nrWrite, 5, 8]

def eio : Int := 5
def eagain : Int := 11
def erestart : Int := 41

abbrev Major := Fin nrDevices
abbrev SelSlot := Fin maxSelects

/-- Reading, writing and errors, one bit each. -/
abbrev Ops := BitVec 3

def selRd : Ops := 1
def selWr : Ops := 2

inductive BlockedOn where
  | none
  | pipe
  | lock
  | popen
  | select
  | dopen
  | other
deriving DecidableEq, Repr

structure Fproc where
  live : Bool
  endpoint : Int
  blockedOn : BlockedOn
  revived : Bool
  task : Int
  grant : Int
  /-- The two halves of `fp_fd`. -/
  callNr : Nat
  fdNr : Fd
  nbytes : Int
  suspReopen : Bool
  filp : Fd → Option FilpNr

structure Vnode where
  charSpecial : Bool
  /-- The mode has a bit of those of the block and character special types. -/
  special : Bool
  major : Nat
  minor : Nat

structure Filp where
  count : Int
  vno : Option VnodeNr
  needsReopen : Bool
  oReopen : Bool
  selectors : Int
  update : Bool
  busy : Bool
  pipeSelectOps : Ops

structure Dmap where
  driver : Int
  asyncDriver : Bool
  selFilp : Option FilpNr

structure SelectEntry where
  requestor : Bool
  reqEndpt : Int
  want : Fd → Ops
  ready : Fd → Ops
  filps : Fd → Option FilpNr
  deferred : Bool
  deferredFd : Nat
  nfds : Nat
  nreadyfds : Nat
  block : Bool
  expiry : Int

structure State where
  fproc : Proc → Fproc
  filp : FilpNr → Filp
  vnode : VnodeNr → Vnode
  dmap : Major → Dmap
  selecttab : SelSlot → SelectEntry
  reviving : Int
  suspCount : Int
  sent : List (Int × Int)

inductive WakeStop where
  | panic
  | fault
  | notNow
deriving DecidableEq, Repr

namespace State

def setProc (p : Proc) (rfp : Fproc) (s : State) : State := { s with fproc := update s.fproc p rfp }
def setFilp (f : FilpNr) (fp : Filp) (s : State) : State := { s with filp := update s.filp f fp }
def setEntry (i : SelSlot) (e : SelectEntry) (s : State) :
    State := { s with selecttab := update s.selecttab i e }
def reply (whom result : Int) (s : State) : State := { s with sent := (whom, result) :: s.sent }

/-- `isokendpt`, with the slot. -/
def slotOf (e : Int) (s : State) : Option Proc :=
  let p := Kernel.endpointP e
  if e = endptNone then none
  else if h : 0 ≤ p ∧ p < nrProcs then
    let slot : Proc := ⟨p.toNat, by omega⟩
    if (s.fproc slot).endpoint = e then some slot else none
  else none

def dropOpen (p : Proc) (returned : Int) (s : State) : Except WakeStop State :=
  let rfp := s.fproc p
  match rfp.filp rfp.fdNr with
  | none => .error .fault
  | some f =>
    if (s.filp f).count ≠ 1 then .error .panic
    else
      let s := s.setProc p { rfp with blockedOn := .none, filp := update rfp.filp rfp.fdNr none }
      .ok ((s.setFilp f { s.filp f with count := 0, vno := none }).reply rfp.endpoint returned)

def awaken (blockedOn : BlockedOn) (p : Proc) (returned : Int) (s : State) : Except WakeStop State :=
  let rfp := s.fproc p
  match blockedOn with
  | .none => .ok s
  | .pipe | .lock => .ok { s with
    fproc := update s.fproc p { rfp with revived := true }, reviving := s.reviving + 1 }
  | .dopen =>
    if returned < 0 then s.dropOpen p returned
    else .ok ((s.setProc p { rfp with blockedOn := .none }).reply rfp.endpoint rfp.fdNr.val)
  | .popen => .ok ((s.setProc p { rfp with blockedOn := .none }).reply rfp.endpoint rfp.fdNr.val)
  | .select => .ok ((s.setProc p { rfp with blockedOn := .none }).reply rfp.endpoint returned)
  | .other =>
    -- A grant issued for the transfer is revoked.
    let grant := if grantInvalid < rfp.grant then grantInvalid else rfp.grant
    .ok ((s.setProc p { rfp with blockedOn := .none, nbytes := returned, grant }).reply rfp.endpoint returned)

def revive (e returned : Int) (s : State) : Except WakeStop State :=
  match s.slotOf e with
  | none => .ok s
  | some p =>
    if (s.fproc p).blockedOn = .none ∨ (s.fproc p).revived = true then .ok s
    else s.awaken (s.fproc p).blockedOn p returned

def suspendedEp (driver g : Int) (s : State) : Option Int :=
  ((List.finRange nrProcs).find? fun p =>
    (s.fproc p).live && (s.fproc p).blockedOn = .other && (s.fproc p).task = driver &&
      (s.fproc p).grant = g).map
    fun p => (s.fproc p).endpoint

def revivedEp (source endpt grant : Int) (s : State) : Option Int :=
  if endpt = vfsProcNr then s.suspendedEp source grant else some endpt

def devRevive (source endpt status grant : Int) (s : State) : Except WakeStop State :=
  match s.revivedEp source endpt grant with
  | none => .ok s
  | some e => s.revive e status

/-! ## Select -/

/-- Note the operations of a descriptor that are ready and wanted. -/
def ops2tab (ops : Ops) (fd : Fd) (e : SelectEntry) : SelectEntry :=
  let new := ops &&& e.want fd &&& ~~~ e.ready fd
  { e with
    ready := update e.ready fd (e.ready fd ||| new)
    nreadyfds := e.nreadyfds + ((List.finRange 3).filter fun b => new.getLsbD b.val).length }

def cancelFd (i : SelSlot) (s : State) (fd : Fd) : State :=
  match (s.selecttab i).filps fd with
  | none => s
  | some f =>
    if (s.selecttab i).nfds ≤ fd.val ∨ (s.filp f).selectors < 1 then s
    else
      (s.setFilp f { s.filp f with selectors := (s.filp f).selectors - 1 }).setEntry i
        { s.selecttab i with filps := update (s.selecttab i).filps fd none }

def selectCancelAll (i : SelSlot) (s : State) : State :=
  let s := (List.finRange openMax).foldl (cancelFd i) s
  s.setEntry i { s.selecttab i with expiry := 0 }

def selectWakeup (i : SelSlot) (r : Int) (s : State) : Except WakeStop State := do
  let s ← s.revive (s.selecttab i).reqEndpt r
  return s.setEntry i { s.selecttab i with requestor := false }

def selectReturn (i : SelSlot) (r : Int) (s : State) : Except WakeStop State :=
  let s := s.selectCancelAll i
  s.selectWakeup i (if r ≠ 0 then r else (s.selecttab i).nreadyfds)

def noteReadyFd (f : FilpNr) (ops : Ops) (x : SelectEntry × Bool) (fd : Fd) : SelectEntry × Bool :=
  if fd.val < x.1.nfds ∧ x.1.filps fd = some f ∧ x.1.want fd &&&
    ops ≠ 0 then (ops2tab ops fd x.1, true) else x

def noteReady (f : FilpNr) (ops : Ops) (e : SelectEntry) : SelectEntry × Bool :=
  (List.finRange openMax).foldl (noteReadyFd f ops) (e, false)

def callbackEntry (f : FilpNr) (ops : Ops) (s : State) (i : SelSlot) : Except WakeStop State :=
  if (s.selecttab i).requestor then
    let x := noteReady f ops (s.selecttab i)
    if x.2 then (s.setEntry i x.1).selectReturn i 0 else .ok s
  else .ok s

def selectCallback (f : FilpNr) (ops : Ops) (s : State) : Except WakeStop State :=
  (List.finRange maxSelects).foldlM (callbackEntry f ops) s

def charDev (f : FilpNr) (s : State) : Option (Nat × Nat) :=
  match (s.filp f).vno with
  | none => none
  | some v => if (s.vnode v).charSpecial then some ((s.vnode v).major, (s.vnode v).minor) else none

def selectMajors : List Nat := [4, 7, 15]

def notifyFd (major minor : Nat) (ops : Ops) (i : SelSlot) (s : State) (fd : Fd) : Except WakeStop State :=
  let e := s.selecttab i
  match e.filps fd with
  | none => .ok s
  | some f =>
    if fd.val < e.nfds ∧ s.charDev f = some (major, minor) ∧ ops &&&
      e.want fd ≠ 0 then s.selectCallback f (ops &&& e.want fd)
    else .ok s

def notifyEntry (major minor : Nat) (ops : Ops) (s : State) (i : SelSlot) : Except WakeStop State :=
  if (s.selecttab i).requestor then (List.finRange openMax).foldlM (notifyFd major minor ops i) s else .ok s

def selectNotified (major minor : Nat) (ops : Ops) (s : State) : Except WakeStop State :=
  if major ∈ selectMajors then
    (List.finRange maxSelects).foldlM (notifyEntry major minor ops) s
  else .ok s

/-- A descriptor of the entry still waits for the first answer of its driver. -/
def awaiting (e : SelectEntry) (s : State) : Option Fd :=
  (List.finRange openMax).find? fun fd => e.deferredFd ≤ fd.val &&
    match e.filps fd with
    | none => false
    | some f => (s.filp f).update || (s.filp f).busy

def restartProc (i : SelSlot) (s : State) : Except WakeStop State :=
  let e := s.selecttab i
  let pending := if e.deferred then s.awaiting e else none
  match pending with
  | some fd => .ok (s.setEntry i { e with deferredFd := fd.val })
  | none =>
    let s := s.setEntry i { e with deferred := false }
    if 0 < e.nreadyfds ∨ e.block = false then s.selectWakeup i e.nreadyfds else .ok s

def statusFd (f : FilpNr) (status : Int) (i : SelSlot) (s : State) (fd : Fd) : Except WakeStop State :=
  if (s.selecttab i).filps fd = some f then
    let s := if status < 0 then s else s.setEntry i (ops2tab (BitVec.ofInt 3 status) fd (s.selecttab i))
    s.restartProc i
  else .ok s

def statusEntry (f : FilpNr) (status : Int) (s : State) (i : SelSlot) : Except WakeStop State :=
  if (s.selecttab i).requestor then (List.finRange openMax).foldlM (statusFd f status i) s else .ok s

def filpStatus (f : FilpNr) (status : Int) (s : State) : Except WakeStop State :=
  (List.finRange maxSelects).foldlM (statusEntry f status) s

def majorOf (driver : Int) (s : State) : Option Major :=
  (List.finRange nrDevices).find? fun d => (s.dmap d).driver = driver

/-- The filp is no longer busy; `close_filp` of the last reference comes with the calls of
processes. -/
def answered (d : Major) (f : FilpNr) (s : State) : State :=
  let s := s.setFilp f { s.filp f with busy := false, count := (s.filp f).count - 1 }
  { s with dmap := update s.dmap d { s.dmap d with selFilp := none } }

def selectReply1 (source : Int) (minor : Nat) (status : Int) (s : State) : Except WakeStop State :=
  match s.majorOf source with
  | none => .ok s
  | some d =>
    match (s.dmap d).selFilp with
    | none => .ok s
    | some f =>
      if (s.filp f).busy = false then .error .panic
      else
        match s.charDev f with
        | none => .error .panic
        | some dev =>
          if dev ≠ (d.val, minor) then .ok s
          else if status = 0 then .ok (s.answered d f)
          else (s.answered d f).filpStatus f status

def noteDevFd (dev : Nat × Nat) (status : Int) (s : State) (e : SelectEntry) (fd : Fd) : SelectEntry :=
  match e.filps fd with
  | none => e
  | some f => if s.charDev f = some dev ∧ 0 ≤ status then ops2tab (BitVec.ofInt 3 status) fd e else e

def noteDev (dev : Nat × Nat) (status : Int) (s : State) (e : SelectEntry) : SelectEntry :=
  (List.finRange openMax).foldl (noteDevFd dev status s) e

def reply2Entry (dev : Nat × Nat) (status : Int) (s : State) (i : SelSlot) : Except WakeStop State :=
  if (s.selecttab i).requestor then
    let e := s.noteDev dev status (s.selecttab i)
    let s := s.setEntry i e
    if 0 < e.nreadyfds then s.restartProc i else .ok s
  else .ok s

def selectReply2 (source : Int) (minor : Nat) (status : Int) (s : State) : Except WakeStop State :=
  match s.majorOf source with
  | none => .ok s
  | some d => (List.finRange maxSelects).foldlM (reply2Entry (d.val, minor) status) s

def timeoutEntry (due : SelSlot → Bool) (s : State) (i : SelSlot) : Except WakeStop State :=
  if due i ∧ (s.selecttab i).requestor ∧ 0 < (s.selecttab i).expiry then
    (s.setEntry i { s.selecttab i with expiry := 0 }).selectReturn i 0
  else .ok s

def expireTimers (due : SelSlot → Bool) (s : State) : Except WakeStop State :=
  (List.finRange maxSelects).foldlM (timeoutEntry due) s

inductive Answer where
  | revive (endpt status grant : Int)
  | ioReady (minor : Nat) (ops : Ops)
  | noStatus

def devStatus (source : Int) (answer : Answer) (s : State) : Except WakeStop State :=
  match s.majorOf source with
  | none => .ok s
  | some d =>
    if (s.dmap d).asyncDriver then .ok s
    else
      match answer with
      | .revive endpt status grant => s.devRevive source endpt status grant
      | .ioReady minor ops => s.selectNotified d.val minor ops
      | .noStatus => .ok s

/-! ## Pipes, locks and drivers that go away -/

def releaseFilp (vp : VnodeNr) (op : Ops) (s : State) (f : FilpNr) : Except WakeStop State :=
  if (s.filp f).count < 1 ∨ (s.filp f).pipeSelectOps &&& op = 0 ∨ (s.filp f).vno ≠ some vp then .ok s
  else do
    let s ← s.selectCallback f op
    return s.setFilp f { s.filp f with pipeSelectOps := (s.filp f).pipeSelectOps &&& ~~~ op }

/-- One process of the search for those that hang on the pipe; the number is how many may still be
released. -/
def releaseProc (vp : VnodeNr) (callNr : Nat) (x : Nat × State) (p : Proc) : Except WakeStop (Nat × State) :=
  let rp := x.2.fproc p
  if x.1 = 0 then .ok x
  else if rp.live ∧ rp.blockedOn ≠ .none ∧ rp.revived = false ∧ rp.callNr = callNr then
    match rp.filp rp.fdNr with
    | none => .error .fault
    | some f =>
      if (x.2.filp f).vno ≠ some vp then .ok x
      else do
        let s ← x.2.revive rp.endpoint 0
        if s.suspCount - 1 < 0 then .error .panic
        else .ok (x.1 - 1, { s with suspCount := s.suspCount - 1 })
  else .ok x

def releaseFilps (vp : VnodeNr) (callNr : Nat) (s : State) : Except WakeStop State :=
  let op := if callNr = nrRead then selRd else selWr
  if callNr = nrRead ∨ callNr = nrWrite then (List.finRange nrFilps).foldlM (releaseFilp vp op) s else .ok s

def release (vp : VnodeNr) (callNr : Nat) (count : Nat) (s : State) : Except WakeStop State := do
  let s ← s.releaseFilps vp callNr
  let x ← (List.finRange nrProcs).foldlM (releaseProc vp callNr) (count, s)
  return x.2

def lockRevive (s : State) : Except WakeStop State :=
  Vfs.lockRevive (fun s p => (s.fproc p).live ∧ (s.fproc p).blockedOn = .lock) (fun p s =>
    s.revive (s.fproc p).endpoint 0) s

def unsuspendProc (driver : Int) (s : State) (p : Proc) : Except WakeStop State :=
  if (s.fproc p).live ∧ (s.fproc p).blockedOn = .other ∧ (s.fproc p).task = driver
    then s.revive (s.fproc p).endpoint (-eagain)
  else .ok s

def watchesDriver (driver : Int) (fd : Fd) (e : SelectEntry) (s : State) : Bool :=
  match e.filps fd with
  | none => false
  | some f =>
    match (s.filp f).vno with
    | none => false
    | some v => if h : (s.vnode v).major < nrDevices then (s.dmap ⟨(s.vnode v).major, h⟩).driver =
        driver else false

def unsuspendFd (driver : Int) (i : SelSlot) (s : State) (fd : Fd) : Except WakeStop State :=
  if fd.val < (s.selecttab i).nfds ∧ s.watchesDriver driver fd (s.selecttab i)
    then s.selectReturn i (-eagain) else .ok s

def unsuspendEntry (driver : Int) (s : State) (i : SelSlot) : Except WakeStop State :=
  if (s.selecttab i).requestor then (List.finRange openMax).foldlM (unsuspendFd driver i) s else .ok s

def unsuspendByEndpt (driver : Int) (s : State) : Except WakeStop State := do
  let s ← (List.finRange nrProcs).foldlM (unsuspendProc driver) s
  (List.finRange maxSelects).foldlM (unsuspendEntry driver) s

def selectForget (e : Int) (s : State) : State :=
  match (List.finRange maxSelects).find? fun i => (s.selecttab i).requestor &&
    (s.selecttab i).reqEndpt = e with
  | none => s
  | some i =>
    let s := s.selectCancelAll i
    s.setEntry i { s.selecttab i with requestor := false }

def interrupt (p : Proc) (status : Int) (s : State) : State :=
  let rfp := s.fproc p
  (s.setProc p { rfp with blockedOn := .none }).reply rfp.endpoint status

/-- What becomes of a call that is interrupted; `cancel` is what the driver answers to a `CANCEL`,
none if it will revive the process later. -/
def abortCall (blockedOn : BlockedOn) (wasreviving : Bool) (p : Proc) (e : Int)
    (cancel : Option Int) (s : State) : State :=
  let rfp := s.fproc p
  match blockedOn with
  | .none | .dopen => s
  | .pipe | .popen => { s.interrupt p (-eintr) with
    suspCount := if wasreviving then s.suspCount else s.suspCount - 1 }
  | .lock => s.interrupt p (-eintr)
  | .select => (s.selectForget e).interrupt p (-eintr)
  | .other =>
    if rfp.suspReopen then (s.setProc p { rfp with suspReopen := false }).interrupt p (-eintr)
    else
      match cancel with
      | none => s
      | some status =>
        let grant := if grantInvalid < rfp.grant then grantInvalid else rfp.grant
        (s.setProc p { rfp with grant }).interrupt p (if status = -eagain then -eintr else status)

def unpause (e : Int) (cancel : Option Int) (s : State) : State :=
  match s.slotOf e with
  | none => s
  | some p =>
    if (s.fproc p).blockedOn = .none then s
    else
      let wasreviving := (s.fproc p).revived
      let blockedOn := (s.fproc p).blockedOn
      let s := { s.setProc p { s.fproc p with revived := false } with
        reviving := if wasreviving then s.reviving - 1 else s.reviving }
      s.abortCall blockedOn wasreviving p e cancel

/-! ## Drivers that come back -/

def invalidate (f : FilpNr) (s : State) : State :=
  let s := { s with fproc := fun p =>
    let rfp := s.fproc p
    if rfp.live then { rfp with filp := fun fd => if rfp.filp fd = some f then none else rfp.filp fd }
    else rfp }
  s.setFilp f { s.filp f with count := 0 }

/-- Reopen the files of a major one after the other; true once the driver has one to answer. -/
def reopenFilp (maj : Nat) (reopened : FilpNr → Bool) (x : Bool × State) (f : FilpNr) : Bool × State :=
  let s := x.2
  if x.1 ∨ (s.filp f).count < 1 ∨ (s.filp f).needsReopen = false ∨
    (s.charDev f).map Prod.fst ≠ some maj then x
  else if (s.filp f).oReopen = false then (false, s.invalidate f)
  else if reopened f then (true, s)
  else (false, s.invalidate f)

def restartProcOf (driver : Int) (s : State) (p : Proc) : Except WakeStop State :=
  let rfp := s.fproc p
  if rfp.live ∧ rfp.blockedOn = .other ∧ rfp.task = driver ∧ rfp.suspReopen then
    .ok ((s.setProc p { rfp with suspReopen := false, blockedOn := .none }).reply rfp.endpoint (-erestart))
  else .ok s

/-- The second loop of `restart_reopen`, with its test as it is. -/
def restartOpenOf (maj : Nat) (s : State) (p : Proc) : Except WakeStop State :=
  let rfp := s.fproc p
  if rfp.live = false ∨ rfp.blockedOn = .dopen ∨ rfp.suspReopen = false then .ok s
  else
    match rfp.filp rfp.fdNr with
    | none => .ok ((s.setProc p { rfp with blockedOn := .none }).reply rfp.endpoint (-eio))
    | some f =>
      if (s.filp f).vno = none then .error .panic
      else if (s.charDev f).map Prod.fst ≠ some maj then .ok s
      else .ok ((s.setProc p { rfp with blockedOn := .none }).reply rfp.endpoint rfp.fdNr.val)

/-- Reopen the files of a major; true if the driver has to answer first. -/
def reopenFilps (maj : Major) (reopened : FilpNr → Bool) (s : State) : Bool × State :=
  (List.finRange nrFilps).foldl (reopenFilp maj.val reopened) (false, s)

def restartProcs (maj : Major) (s : State) : Except WakeStop State := do
  let s ← (List.finRange nrProcs).foldlM (restartProcOf (s.dmap maj).driver) s
  (List.finRange nrProcs).foldlM (restartOpenOf maj.val) s

def restartReopen (maj : Major) (reopened : FilpNr → Bool) (s : State) : Except WakeStop State :=
  let x := s.reopenFilps maj reopened
  if x.1 then .ok x.2 else x.2.restartProcs maj

def markOpen (maj : Major) (s : State) (p : Proc) : Except WakeStop State :=
  let rfp := s.fproc p
  if rfp.live ∧ rfp.blockedOn = .dopen then
    match rfp.filp rfp.fdNr with
    | none => .error .fault
    | some f =>
      if (s.filp f).vno = none then .error .panic
      else if (s.charDev f).map Prod.fst ≠ some maj.val then .ok s
      else .ok (s.setProc p { rfp with suspReopen := true })
  else .ok s

def onMajor (maj : Major) (s : State) (f : FilpNr) : Bool :=
  match (s.filp f).vno with
  | none => false
  | some v => decide (1 ≤ (s.filp f).count) && (s.vnode v).special && decide ((s.vnode v).major = maj.val)

def markFiles (maj : Major) (s : State) : State :=
  { s with filp := fun f => { s.filp f with needsReopen := (s.filp f).needsReopen || s.onMajor maj f } }

def devUp (maj : Major) (reopened : FilpNr → Bool) (s : State) : Except WakeStop State := do
  let s ← (List.finRange nrProcs).foldlM (markOpen maj) s
  if (List.finRange nrFilps).any (s.onMajor maj) then (s.markFiles maj).restartReopen maj reopened else .ok s

def reopenReply (source : Int) (filpNo : Nat) (status : Int) (reopened : FilpNr → Bool)
    (s : State) : Except WakeStop State :=
  if h : filpNo < nrFilps then
    let f : FilpNr := ⟨filpNo, h⟩
    if (s.filp f).count < 1 ∨ (s.filp f).needsReopen = false then .ok s
    else
      match s.charDev f with
      | none => .ok s
      | some (maj, _) =>
        if hm : maj < nrDevices then
          if (s.dmap ⟨maj, hm⟩).driver ≠ source ∨ status ≠ 0 then .ok s
          else (s.setFilp f { s.filp f with needsReopen := false }).restartReopen ⟨maj, hm⟩ reopened
        else .error .fault
  else .ok s

/-! ## Calls and the main loop -/

/-- What calls do that open, close, read, write and lock files. -/
inductive Effect where
  | release (vp : VnodeNr) (callNr count : Nat)
  | lockRevive
  | tables (filp : FilpNr → Filp) (vnode : VnodeNr → Vnode) (dmap : Major → Dmap) (fds : Proc → Fd →
      Option FilpNr)

/-- What a call of a process does besides its own work. -/
inductive Deed where
  | effect (e : Effect)
  | suspend (why : BlockedOn) (callNr : Nat) (fd : Fd) (nbytes : Int)
  | waitFor (driver : Int) (grant : Int) (callNr : Nat) (fd : Fd) (nbytes : Int) (reopen : Bool)
  | select (e : SelectEntry) (fd : Fd)
  | devUp (maj : Major) (reopened : FilpNr → Bool)

/-- What the process manager asks for; the effects are those of the files that an exit closes. -/
inductive PmDeed where
  | unpause (e : Int) (cancel : Option Int)
  | unsuspendByEndpt (e : Int)
  | fork (parent p : Proc) (child : Int)
  | effect (e : Effect)
  | exit (p : Proc) (cancel : Option Int)

inductive Event where
  | devRevive (source endpt status grant : Int)
  | reopenReply (source : Int) (filpNo : Nat) (status : Int) (reopened : FilpNr → Bool)
  | closeReply (source : Int)
  | selectReply1 (source : Int) (minor : Nat) (status : Int)
  | selectReply2 (source : Int) (minor : Nat) (status : Int)
  | clock (due : SelSlot → Bool)
  | devStatus (source : Int) (answer : Answer)
  | pm (d : PmDeed)
  | act (who : Proc) (d : Deed)
  /-- `get_work` takes up the call of a process that was revived. -/
  | retry (p : Proc)

def suspend (p : Proc) (why : BlockedOn) (callNr : Nat) (fd : Fd) (nbytes : Int) (s : State) : State :=
  let rfp := s.fproc p
  -- `pipe_suspend` leaves the flag of a reopen as it is.
  let suspReopen := if why = .pipe then rfp.suspReopen else false
  { s.setProc p { rfp with blockedOn := why, callNr, fdNr := fd, nbytes, suspReopen } with
    suspCount := if why = .pipe ∨ why = .popen then s.suspCount + 1 else s.suspCount }

/-- The entry of a select that has to wait goes into the first free slot. -/
def doSelect (p : Proc) (e : SelectEntry) (fd : Fd) (s : State) : Except WakeStop State :=
  match (List.finRange maxSelects).find? fun i => (s.selecttab i).requestor = false with
  | none => .ok s
  | some i =>
    .ok ((s.setEntry i { e with
      requestor := true, reqEndpt := (s.fproc p).endpoint, nreadyfds := 0 }).suspend p .select nrSelect fd 0)

def onDevice (p : Proc) (s : State) : Option Bool :=
  match (s.fproc p).filp (s.fproc p).fdNr with
  | none => none
  | some f => (s.filp f).vno.map fun v => (s.vnode v).charSpecial

def effect (e : Effect) (s : State) : Except WakeStop State :=
  match e with
  | .release vp callNr count =>
    -- It is called for pipes.
    if callNr ∈ pipeCalls ∧ (s.vnode vp).charSpecial = false then s.release vp callNr count
      else .error .notNow
  | .lockRevive => s.lockRevive
  | .tables filp vnode dmap fds =>
    let s' := { s with filp, vnode, dmap, fproc := fun p => { s.fproc p with filp := fds p } }
    -- A process that waits at a file holds on to it.
    if ∀ p, (s.fproc p).blockedOn ≠ .none → s'.onDevice p = s.onDevice p then .ok s' else .error .notNow

def deed (who : Proc) (d : Deed) (s : State) : Except WakeStop State :=
  if (s.fproc who).live = false ∨ (s.fproc who).blockedOn ≠ .none then .error .notNow
  else
    match d with
    | .effect e => s.effect e
    | .suspend why callNr fd nbytes =>
      if why = .pipe ∨ (why = .lock ∧ callNr = nrFcntl) ∨ why = .popen ∨
        why = .dopen then .ok (s.suspend who why callNr fd nbytes)
      else .error .notNow
    | .waitFor driver grant callNr fd nbytes reopen =>
      let s := s.suspend who .other callNr fd nbytes
      let s := s.setProc who { s.fproc who with task := driver, grant, suspReopen := reopen }
      -- Reads and writes are handed to a driver for a character special file only.
      if callNr ∈ pipeCalls ∧ s.onDevice who = some false then .error .notNow else .ok s
    | .select e fd => s.doSelect who e fd
    | .devUp maj reopened => s.devUp maj reopened

def pmDeed (d : PmDeed) (s : State) : Except WakeStop State :=
  match d with
  | .unpause e cancel => .ok (s.unpause e cancel)
  | .unsuspendByEndpt e => s.unsuspendByEndpt e
  | .effect e => s.effect e
  | .fork parent p child =>
    -- The parent is in a call of its own to PM.
    if (s.fproc parent).live = false ∨ (s.fproc parent).blockedOn ≠ .none ∨ child = endptNone ∨
      Kernel.endpointP child ≠ p.val then
      .error .notNow
    else if (s.fproc p).live ∨ grantInvalid < (s.fproc parent).grant then .error .panic
    else .ok (s.setProc p { s.fproc parent with live := true, endpoint := child })
  | .exit p cancel =>
    let e := (s.fproc p).endpoint
    if (s.fproc p).live = false then .error .notNow
    else do
      let s ← (s.unpause e cancel).unsuspendByEndpt e
      return s.setProc p { s.fproc p with live := false, endpoint := endptNone }

def step (s : State) : Event → Except WakeStop State
  | .devRevive source endpt status grant => s.devRevive source endpt status grant
  | .reopenReply source filpNo status reopened => s.reopenReply source filpNo status reopened
  | .closeReply _ => .ok s
  | .selectReply1 source minor status => s.selectReply1 source minor status
  | .selectReply2 source minor status => s.selectReply2 source minor status
  | .clock due => s.expireTimers due
  | .devStatus source answer => s.devStatus source answer
  | .pm d => s.pmDeed d
  | .act who d => s.deed who d
  | .retry p =>
    let rp := s.fproc p
    if rp.live ∧ rp.revived then
      .ok { s.setProc p { rp with blockedOn := .none, revived := false } with reviving := s.reviving - 1 }
    else .error .notNow

end State

end Nucleos.Vfs.Wake
