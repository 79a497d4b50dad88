import Nucleos.Kernel.Proc

/-!
# Message passing

The routines of `proc.c` behind the IPC trap, and those of `system.c`, `do_exit.c` and
`do_irqctl.c` that use them. A routine maps a state to its C result and the new state.
A loop over a linked list gets as much fuel as the list could have links without coming
back to one of them, so running out of fuel is running for ever.
-/

namespace Nucleos.Kernel

open IntrusiveList

def kipcSend : Nat := 1
def kipcReceive : Nat := 2
def kipcSendrec : Nat := 3
def kipcNotify : Nat := 4
def kipcSenda : Nat := 5
def kipcServicesCount : Nat := 5
def kipcFlgNonblock : BitVec 32 := 1

def amfValid : BitVec 32 := 1
def amfDone : BitVec 32 := 2
def amfNotify : BitVec 32 := 4
def amfNoreply : BitVec 32 := 8

def sigtrap : Nat := 5
def sigksig : Nat := 30
def signdelay : Nat := 31

def sizeofMsg : Nat := 44
def sizeofAsynmsg : Nat := 56

/-- What the kernel finds in user memory during one kernel entry. -/
structure Env where
  /-- `umap_local` of a data range: the range lies in the process's segment. -/
  umapLocal : Slot → Nat → Nat → Bool
  /-- The message at an address of the process, `none` when copying it faults. -/
  message : Slot → Nat → Option Msg
  /-- `data_copy` from, and to, an address of the process. -/
  canRead : Slot → Nat → Bool
  canWrite : Slot → Nat → Bool

def deposit (ep : Int) (m : Msg) (dst : Slot) (s : State) : State :=
  s.modProc dst fun p =>
    { p with pDelivermsg := { m with mSource := ep }, pMiscFlags := p.pMiscFlags ||| mfDelivermsg }

def queueMess (ep : Int) (m : Option Msg) (dst : Slot) (s : State) : Except Stop (Int × State) :=
  match m with
  | some m => .ok (0, deposit ep m dst s)
  | none => if (s.proc dst).syscall0x80 then .error .fault else .ok (-efault, s)

def notifyFrom (p : Int) : Int := ((0x1000 ||| (p + nrTasks).toNat : Nat) : Int)

def buildNotifyMessage (src : Int) (dst : Slot) (s : State) : Except Stop (Msg × State) :=
  let m := { Msg.zero with mType := notifyFrom src, mData5 := s.uptime }
  if src = hardware then do
    let i ← s.privOf dst
    .ok ({ m with mData4 := (s.priv i).sIntPending }, s.modPriv i fun v => { v with sIntPending := 0 })
  else if src = system then do
    let i ← s.privOf dst
    .ok ({ m with mData4 := (s.priv i).sSigPending }, s.modPriv i fun v => { v with sSigPending := 0 })
  else .ok (m, s)

def miniNotify (caller : Slot) (dstE : Int) (s : State) : Except Stop (Int × State) :=
  match s.isokendpt dstE with
  | none => .ok (-edeadsrcdst, s)
  | some dst =>
    if s.willReceive dst (s.proc caller).pEndpoint && !s.mfIsset dst mfReplyPend then do
      let (m, s) ← buildNotifyMessage (procNr caller) dst s
      let (r, s) ← queueMess (s.proc caller).pEndpoint (some m) dst s
      if r ≠ 0 then .error (.panic "mini_notify: local QueueMess failed")
      else
        .ok (0, ((s.rtsUnset dst rtsReceiving).record (.notify caller dst)).record
          (.notified (procNr caller) dst m.mData4))
    else do
      let srcId ← s.privOf caller
      let i ← s.privOf dst
      .ok (0, (s.modPriv i fun v =>
        { v with sNotifyPending := setSysBit v.sNotifyPending (s.priv srcId).sId }).record
          (.notify caller dst))

def sendSig (nr : Int) (sigNr : Nat) (s : State) : Except Stop State :=
  match procAddr nr with
  | none => .error (.panic "send_sig to empty process")
  | some rp =>
    if s.isemptyp rp then .error (.panic "send_sig to empty process")
    else do
      let i ← s.privOf rp
      let s := (s.modPriv i fun v => { v with sSigPending := v.sSigPending ||| 1#32 <<< sigNr }).record
        (.sig rp (1#32 <<< sigNr))
      let task ← slotOf system
      let (_, s) ← miniNotify task (s.proc rp).pEndpoint s
      .ok s

def causeSig (rp : Slot) (sigNr : Nat) (s : State) : Except Stop State :=
  if procNr rp = pmProcNr then .error (.panic "cause_sig: PM gets signal")
  else if (s.proc rp).pPending.getLsbD sigNr then .ok s
  else
    let s := s.modProc rp fun p => { p with pPending := p.pPending ||| 1#32 <<< sigNr }
    if s.rtsIsset rp rtsSignaled then .ok s
    else sendSig pmProcNr sigksig (s.rtsSet rp (rtsSignaled ||| rtsSigPending))

def sigDelayDone (rp : Slot) (s : State) : Except Stop State :=
  causeSig rp signdelay (s.mfUnset rp mfSigDelay)

/-- What a process in the chain of `deadlock` waits for: nothing, any process, or one process. -/
def dependency (xp : Slot) (s : State) : Except Stop (Option (Option Slot)) :=
  if s.rtsIsset xp rtsReceiving then
    if (s.proc xp).pGetfromE = endptAny then .ok (some none)
    else do
      let p ← s.okendpt (s.proc xp).pGetfromE
      .ok (some (some p))
  else if s.rtsIsset xp rtsSending then do
    let p ← s.okendpt (s.proc xp).pSendtoE
    .ok (some (some p))
  else .ok none

def deadlockLoop (function : Nat) (cp : Slot) (s : State) :
    Nat → Nat → Option Slot → Except Stop Nat
  | _, _, none => .ok 0
  | 0, _, some _ => .error .hang
  | fuel + 1, groupSize, some xp => do
    match ← dependency xp s with
    | none => .ok 0
    | some srcDst =>
      if srcDst = some cp then
        -- The function number is magically converted to flags.
        if groupSize + 1 = 2 ∧
            ((s.proc xp).pRtsFlags ^^^ (BitVec.ofNat 16 function <<< 2)) &&& rtsSending ≠ 0 then
          .ok 0
        else .ok (groupSize + 1)
      else deadlockLoop function cp s fuel (groupSize + 1) srcDst

def deadlock (function : Nat) (cp : Slot) (srcDst : Option Slot) (s : State) : Except Stop Nat :=
  deadlockLoop function cp s State.queueFuel 1 srcDst

/-- The message `mini_send` takes: prepared by the kernel for a call through `int 0x80`, in the
caller's memory otherwise. The outer `none` is a buffer outside the segment. -/
def sendSource (env : Env) (caller : Slot) (mPtr : Nat) (s : State) : Option (Option Msg) :=
  if (s.proc caller).syscall0x80 then some (some (s.proc caller).pSendmsg)
  else if env.umapLocal caller mPtr sizeofMsg then some (env.message caller mPtr)
  else none

def markSending (caller : Slot) (dstE : Int) (m : Msg) (s : State) : State :=
  s.modProc caller fun p =>
    { p with pSendmsg := m, pRtsFlags := p.pRtsFlags ||| rtsSending, pSendtoE := dstE }

def blockSend (caller dst : Slot) (dstE : Int) (m : Msg) (s : State) : Except Stop State :=
  match (markSending caller dstE m s).queues.walk (fun _ => false) State.queueFuel (.head dst) with
  | none => .error .hang
  | some xpp =>
    .ok (((markSending caller dstE m s).writeCell xpp (some caller)).writeCell (.next caller) none)

def miniSend (env : Env) (caller : Slot) (dstE : Int) (mPtr : Nat) (flags : BitVec 32) (s : State) :
    Except Stop (Int × State) :=
  match sendSource env caller mPtr s with
  | none => .ok (-efault, s)
  | some buffer => do
    let dst ← slotOf (endpointP dstE)
    if s.rtsIsset dst rtsNoEndpoint then .ok (-edstdied, s)
    else if s.willReceive dst (s.proc caller).pEndpoint then do
      let (r, t) ← queueMess (s.proc caller).pEndpoint buffer dst s
      if r ≠ 0 then .ok (r, t)
      else
        .ok (0, (t.rtsUnset dst rtsReceiving).record (.sent caller dst (t.proc dst).pDelivermsg))
    else if flags &&& kipcFlgNonblock ≠ 0 then .ok (-enotready, s)
    else do
      let group ← deadlock kipcSend caller (some dst) s
      if group ≠ 0 then .ok (-elocked, s)
      else
        match buffer with
        | none => .ok (-efault, s)
        | some m => do
          let t ← blockSend caller dst dstE m s
          .ok (0, t)

/-- The scan of `mini_receive` over the pending notifications. Of every chunk only the lowest bit
is looked at. -/
def findNotify (s : State) (map : SysMap) (src : Option Slot) :
    List (Fin nrSysChunks) → Option PrivId
  | [] => none
  | c :: rest =>
    if map c = 0 then findNotify s map src rest
    else
      let srcId := c.val * bitchunkBits + ChunkMap.lowest (map c)
      if h : srcId < nrSysProcs then
        match src with
        | none => some ⟨srcId, h⟩
        | some p =>
          if procNr p ≠ (s.priv ⟨srcId, h⟩).sProcNr then findNotify s map src rest
          else some ⟨srcId, h⟩
      else none

def takeNotify (caller : Slot) (i id : PrivId) (s : State) : Except Stop State := do
  let s := s.modPriv i fun v => { v with sNotifyPending := unsetSysBit v.sNotifyPending id }
  let nr := (s.priv id).sProcNr
  let (m, s) ← buildNotifyMessage nr caller s
  let src ← slotOf nr
  let (r, s) ← queueMess (s.proc src).pEndpoint (some m) caller s
  if r ≠ 0 then .error (.panic "mini_receive: local QueueMess failed")
  else .ok (s.record (.notified nr caller m.mData4))

def receiveNotify (caller : Slot) (src : Option Slot) (s : State) : Except Stop (Option State) :=
  if s.mfIsset caller mfReplyPend then .ok none
  else do
    let i ← s.privOf caller
    match findNotify s (s.priv i).sNotifyPending src (List.finRange nrSysChunks) with
    | none => .ok none
    | some id => do
      let t ← takeNotify caller i id s
      .ok (some t)

def accepts (src : Option Slot) (p : Slot) : Bool := src.all (· == p)

def checkSigDelay (q : Slot) (s : State) : Except Stop State :=
  if s.mfIsset q mfSigDelay then sigDelayDone q s else .ok s

def takeCaller (caller : Slot) (xpp : Cell Slot Slot) (q : Slot) (s : State) : Except Stop State := do
  let s := (deposit (s.proc q).pEndpoint (s.proc q).pSendmsg caller s).record
    (.sent q caller (s.proc q).pSendmsg)
  let s ← checkSigDelay q s
  .ok ((s.rtsUnset q rtsSending).writeCell xpp (s.proc q).pQLink)

def receiveCaller (caller : Slot) (src : Option Slot) (s : State) : Except Stop (Option State) :=
  match s.queues.walk (accepts src) State.queueFuel (.head caller) with
  | none => .error .hang
  | some xpp =>
    match s.queues.read xpp with
    | none => .ok none
    | some q => do
      let t ← takeCaller caller xpp q s
      .ok (some t)

end Nucleos.Kernel
