import Nucleos.Kernel.Call

/-!
# The kernel as a machine

The trap, the end of a process and the interrupt handler, then the kernel as a whole: one
action is one entry into the kernel, or something that happens outside it between two
entries. An action that is not possible in a state leaves the state alone.
-/

namespace Nucleos.Kernel

open IntrusiveList

/-- The check of the endpoint argument. The inner error is the result of the refused call; the slot
is missing for `ENDPT_ANY` and for `KIPC_SENDA`, which has no endpoint argument. -/
def checkEndpt (caller : Slot) (callType : Nat) (endpt : Int) (s : State) :
    Except Stop (Except Int (Option Slot)) :=
  if callType = kipcSenda then .ok (.ok none)
  else if endpt = endptAny then
    if callType ≠ kipcReceive then .ok (.error (-einval)) else .ok (.ok none)
  else
    match s.isokendpt endpt with
    | none => .ok (.error (-edeadsrcdst))
    | some p =>
      if callType ≠ kipcReceive then do
        let allowed ← s.maySendTo caller p
        if !allowed then .ok (.error (-ecalldenied)) else .ok (.ok (some p))
      else .ok (.ok (some p))

def performCall (env : Env) (caller : Slot) (callType : Nat) (flags : BitVec 32) (endpt : Int)
    (msg : Nat) (s : State) : Except Stop (Int × State) :=
  if callType = kipcSendrec then do
    let (r, t) ← miniSend env caller endpt msg flags (s.mfSet caller mfReplyPend)
    if r ≠ 0 then .ok (r, t) else miniReceive env caller endpt msg 0 t
  else if callType = kipcSend then miniSend env caller endpt msg flags s
  else if callType = kipcReceive then
    miniReceive env caller endpt msg 0 (s.mfUnset caller mfReplyPend)
  else if callType = kipcNotify then miniNotify caller endpt s
  else if callType = kipcSenda then miniSenda env caller msg flags.toNat s
  else .ok (-ebadcall, s)

/-- `kipc_call` after the part that concerns tracing. -/
def checkedCall (env : Env) (caller : Slot) (callType : Nat) (flags : BitVec 32) (endpt : Int)
    (msg : Nat) (s : State) : Except Stop (Int × State) := do
  match ← checkEndpt caller callType endpt s with
  | .error r => .ok (r, s)
  | .ok srcDst =>
    if callType > kipcServicesCount then .ok (-etrapdenied, s)
    else do
      let i ← s.privOf caller
      if !(s.priv i).sTrapMask.getLsbD callType then .ok (-etrapdenied, s)
      else if callType ≠ kipcSendrec ∧ callType ≠ kipcReceive ∧ callType ≠ kipcSenda ∧
          srcDst.any (fun p => iskerneln (procNr p)) then .ok (-etrapdenied, s)
      else if callType = kipcSenda ∧ flags.toNat > 16 * (nrTasks + nrProcs) then .ok (-edom, s)
      else performCall env caller callType flags endpt msg s

def kipcCall (env : Env) (caller : Slot) (callType : Nat) (flags : BitVec 32) (endpt : Int)
    (msg : Nat) (s : State) : Except Stop (Int × State) :=
  if s.mfIsset caller mfScTrace && !s.mfIsset caller mfScDefer then do
    let t ← causeSig caller sigtrap ((s.mfUnset caller mfScTrace).mfSet caller mfScDefer)
    .ok ((t.proc caller).retreg, t)
  else if s.mfIsset caller mfScDefer then
    checkedCall env caller callType flags endpt msg
      ((s.mfUnset caller mfScDefer).mfSet caller mfScActive)
  else checkedCall env caller callType flags endpt msg s

def leaveQueue (rc : Slot) (s : State) : Except Stop State :=
  if s.rtsIsset rc rtsSending then do
    let target ← s.okendpt (s.proc rc).pSendtoE
    match s.queues.walk (· == rc) State.queueFuel (.head target) with
    | none => .error .hang
    | some xpp =>
      match s.queues.read xpp with
      | none => .ok (s.rtsUnset rc rtsSending)
      | some _ => .ok ((s.writeCell xpp (s.proc rc).pQLink).rtsUnset rc rtsSending)
  else .ok s

/-- A process that is blocked on the exiting one is let go with an error. -/
def partnerDied (rc rp : Slot) (flag : BitVec 16) (partner : Proc → Int) (r : Int) (s : State) : State :=
  if s.rtsIsset rp flag && partner (s.proc rp) == (s.proc rc).pEndpoint then
    (s.modProc rp fun p => { p with retreg := r }).rtsUnset rp flag
  else s

def clearOther (rc : Slot) (s : State) (rp : Slot) : Except Stop State :=
  if s.isemptyp rp then .ok s
  else do
    let i ← s.privOf rp
    let j ← s.privOf rc
    let s := s.modPriv i fun v =>
      { v with sNotifyPending := unsetSysBit v.sNotifyPending (s.priv j).sId }
    let s := partnerDied rc rp rtsReceiving Proc.pGetfromE (-esrcdied) s
    .ok (partnerDied rc rp rtsSending Proc.pSendtoE (-edstdied) s)

def clearEndpoint (rc : Slot) (s : State) : Except Stop State :=
  if s.isemptyp rc then .error (.panic "clear_proc: empty process")
  else if (s.proc rc).pEndpoint = pmProcNr ∨ (s.proc rc).pEndpoint = vfsProcNr ∨
      (s.proc rc).pEndpoint = vmProcNr then .error (.panic "system process died")
  else do
    let s := s.rtsSet rc rtsNoEndpoint
    let i ← s.privOf rc
    let s := if (s.priv i).sFlags &&& sysProc ≠ 0 then s.modPriv i fun v => { v with sAsynsize := 0 }
      else s
    let s ← leaveQueue rc s
    let s ← (List.finRange (nrTasks + nrProcs)).foldlM (clearOther rc) (s.rtsUnset rc rtsReceiving)
    .ok (s.record (.gone rc))

def clearProc (rc : Slot) (s : State) : Except Stop State :=
  if s.isemptyp rc then .ok s
  else do
    let s ← clearEndpoint rc s
    let i ← s.privOf rc
    let s := s.modProc rc fun p => { p with pRtsFlags := rtsSlotFree }
    .ok (if (s.priv i).sFlags &&& sysProc ≠ 0 then s.modPriv i fun v => { v with sProcNr := endptNone }
      else s)

def genericHandler (procNrE : Int) (notifyId : Nat) (s : State) : Except Stop State :=
  match s.isokendpt procNrE with
  | none => .error (.panic "invalid interrupt handler")
  | some rp => do
    let i ← s.privOf rp
    let s := (s.modPriv i fun v => { v with sIntPending := v.sIntPending ||| 1#32 <<< notifyId }).record
      (.intr rp (1#32 <<< notifyId))
    let task ← slotOf hardware
    let (_, s) ← miniNotify task procNrE s
    .ok s

/-- The runtime and misc flags that message passing owns; other kernel code changes only the
rest. -/
def ipcRtsFlags : BitVec 16 := rtsSlotFree ||| rtsSending ||| rtsReceiving ||| rtsNoEndpoint
def ipcMiscFlags : BitVec 16 := mfReplyPend ||| mfAsynmsg ||| mfDelivermsg

inductive Action where
  | trap (p : Slot) (callType : BitVec 8) (flags : BitVec 32) (endpt : Int) (msg : Nat) (env : Env)
  /-- A system call through `int 0x80`: the kernel builds the message and sends it. -/
  | scall (p : Slot) (m : Msg) (endpt : Int) (env : Env)
  /-- `schedcheck` performs the call that tracing had deferred. -/
  | resume (p : Slot) (callType : BitVec 8) (flags : BitVec 32) (endpt : Int) (msg : Nat) (env : Env)
  /-- `schedcheck` hands the queued message to the process. -/
  | deliver (p : Slot)
  /-- `do_kill` with `SIGKILL`, and `do_exit`. -/
  | kill (p : Slot)
  | exit (p : Slot)
  | interrupt (procNrE : Int) (notifyId : Fin 32)
  | taskNotify (task : Slot) (dstE : Int)
  | signal (p : Slot) (sigNr : Fin 32)
  | taskSignal (p : Slot) (sigNr : Fin 32)
  /-- The system task answers a request; it sends to a process that waits for it only. -/
  | reply (dst : Slot) (m : Msg)
  | write (p : Slot) (a : Nat) (e : AsynMsg)
  /-- Stopping, tracing, paging and so on: everything the rest of the kernel does to the flags. -/
  | control (p : Slot) (rts misc : BitVec 16)
  | tick (uptime : BitVec 32)

/-- The process runs in user mode, so everything `schedcheck` does before that is done. -/
def State.running (s : State) (p : Slot) : Bool :=
  s.procIsRunnable p && !s.mfIsset p mfDelivermsg && !s.mfIsset p mfScDefer

def trapCall (env : Env) (p : Slot) (callType : Nat) (flags : BitVec 32) (endpt : Int) (msg : Nat)
    (s : State) : Except Stop State := do
  let (r, t) ← kipcCall env p callType flags endpt msg s
  .ok (t.modProc p fun x => { x with retreg := r })

def kernelEnv (m : Msg) : Env where
  umapLocal _ _ _ := true
  message _ _ := some m
  canRead _ _ := true
  canWrite _ _ := true

def step (s : State) : Action → Except Stop State
  | .trap p callType flags endpt msg env =>
    if s.running p then
      trapCall env p callType.toNat flags endpt msg (s.modProc p fun x => { x with syscall0x80 := false })
    else .ok s
  | .scall p m endpt env =>
    if s.running p && endpt != endptAny then
      trapCall env p kipcSendrec 0 endpt 0
        (s.modProc p fun x => { x with syscall0x80 := true, pSendmsg := m })
    else .ok s
  | .resume p callType flags endpt msg env =>
    if s.procIsRunnable p && !s.mfIsset p mfDelivermsg && s.mfIsset p mfScDefer then do
      let t ← trapCall env p callType.toNat flags endpt msg s
      if t.mfIsset p mfSigDelay && !t.rtsIsset p rtsSending then sigDelayDone p t else .ok t
    else .ok s
  | .deliver p => if s.procIsRunnable p then .ok (s.mfUnset p mfDelivermsg) else .ok s
  | .kill p =>
    if s.isemptyp p || iskerneln (procNr p) then .ok s
    else do
      let t ← causeSig p 9 s
      clearEndpoint p t
  | .exit p => if iskerneln (procNr p) then .ok s else clearProc p s
  | .interrupt procNrE notifyId => genericHandler procNrE notifyId.val s
  | .taskNotify task dstE =>
    if iskerneln (procNr task) then do
      let (_, t) ← miniNotify task dstE s
      .ok t
    else .ok s
  | .signal p sigNr => if s.isemptyp p then .ok s else causeSig p sigNr.val s
  | .taskSignal p sigNr => if s.isemptyp p then .ok s else sendSig (procNr p) sigNr.val s
  | .reply dst m => do
    let task ← slotOf system
    if s.willReceive dst (s.proc task).pEndpoint then do
      let (_, t) ← miniSend (kernelEnv m) task (s.proc dst).pEndpoint 0 0 s
      .ok t
    else .ok s
  | .write p a e => .ok ((modEntry p a (fun _ => e) s).record (.wrote p a))
  | .control p rts misc =>
    if s.isemptyp p then .ok s
    else .ok (s.modProc p fun x => { x with
      pRtsFlags := (x.pRtsFlags &&& ipcRtsFlags) ||| (rts &&& ~~~ipcRtsFlags)
      pMiscFlags := (x.pMiscFlags &&& ipcMiscFlags) ||| (misc &&& ~~~ipcMiscFlags) })
  | .tick uptime => .ok { s with uptime := uptime }

end Nucleos.Kernel
