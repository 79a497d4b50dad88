import Nucleos.Kernel.Kipc

/-!
# Asynchronous sends, the trap, and the end of a process

The second half of `proc.c`: the table of asynchronous sends with its eager and its lazy
delivery, `mini_receive` as a whole and the trap itself; then `clear_endpoint` and
`clear_proc`, which take a process out of message passing, and the interrupt handler.
-/

namespace Nucleos.Kernel

open IntrusiveList

def entryAddr (tableV i : Nat) : Nat := tableV + i * sizeofAsynmsg

def offDst : Nat := 4
def offResult : Nat := 8
def offMsg : Nat := 12

def badFlags (flags : BitVec 32) : Bool :=
  flags &&& ~~~(amfValid ||| amfDone ||| amfNotify ||| amfNoreply) != 0 || flags &&& amfValid == 0

def modEntry (p : Slot) (a : Nat) (f : AsynMsg → AsynMsg) (s : State) : State :=
  { s with
    tables := Function.update s.tables p (Function.update (s.tables p) a (f (s.tables p a))) }

def completeEntry (env : Env) (p : Slot) (a : Nat) (result : Int) (flags : BitVec 32) (s : State) :
    Int × State :=
  if !env.canWrite p (a + offResult) then (-efault, s)
  else
    let s := modEntry p a (fun e => { e with result := result }) s
    if !env.canWrite p a then (-efault, s)
    else (0, modEntry p a (fun e => { e with flags := flags ||| amfDone }) s)

/-- How the loop of `mini_senda` leaves an entry: go on, go on with the table still in use, or
return. -/
inductive Scanned where
  | next (s : State)
  | pending (s : State)
  | exit (r : Int) (s : State)

def finishEntry (env : Env) (p : Slot) (a : Nat) (result : Int) (flags : BitVec 32) (s : State) :
    Scanned :=
  match completeEntry env p a result flags s with
  | (r, s) => if r ≠ 0 then .exit r s else .next s

/-- One turn of the loop of `mini_senda`, for the entry at address `a`. -/
def sendaEntry (env : Env) (caller : Slot) (a : Nat) (s : State) : Except Stop Scanned :=
  let e := s.tables caller a
  if !env.canRead caller a then .ok (.exit (-efault) s)
  else if e.flags = 0 then .ok (.next s)
  else if badFlags e.flags then .ok (.exit (-einval) s)
  else if e.flags &&& amfDone ≠ 0 then .ok (.next s)
  else if !env.canRead caller (a + offDst) then .ok (.exit (-efault) s)
  else
    match s.isokendpt e.dst with
    | none => .ok (finishEntry env caller a (-edeadsrcdst) e.flags s)
    | some dst =>
      if iskerneln (procNr dst) then .ok (finishEntry env caller a (-ecalldenied) e.flags s)
      else do
        let allowed ← s.maySendTo caller dst
        if !allowed then .ok (finishEntry env caller a (-ecalldenied) e.flags s)
        else if s.rtsIsset dst rtsNoEndpoint then .ok (finishEntry env caller a (-edstdied) e.flags s)
        else if s.willReceive dst (s.proc caller).pEndpoint &&
            (e.flags &&& amfNoreply == 0 || !s.mfIsset dst mfReplyPend) then do
          let msg := if env.canRead caller (a + offMsg) then some e.msg else none
          let (r, t) ← queueMess (s.proc caller).pEndpoint msg dst s
          if r = 0 then
            .ok (finishEntry env caller a r e.flags ((t.rtsUnset dst rtsReceiving).record
              (.asyn caller dst a e (s.mfIsset dst mfReplyPend))))
          else .ok (finishEntry env caller a r e.flags t)
        else .ok (.pending (s.mfSet dst mfAsynmsg))

def sendaLoop (env : Env) (caller : Slot) (tableV : Nat) :
    Nat → Nat → Bool → State → Except Stop (Int × Bool × State)
  | 0, _, done, s => .ok (0, done, s)
  | n + 1, i, done, s => do
    match ← sendaEntry env caller (entryAddr tableV i) s with
    | .next s => sendaLoop env caller tableV n (i + 1) done s
    | .pending s => sendaLoop env caller tableV n (i + 1) false s
    | .exit r s => .ok (r, done, s)

def miniSenda (env : Env) (caller : Slot) (table count : Nat) (s : State) :
    Except Stop (Int × State) := do
  let i ← s.privOf caller
  if (s.priv i).sFlags &&& sysProc = 0 then .ok (-eperm, s)
  else
    let s := (s.modPriv i fun v => { v with sAsyntab := 2 ^ 32 - 1, sAsynsize := 0 }).record
      (.asynClear caller)
    if count = 0 then .ok (0, s)
    else if !env.umapLocal caller table (count * sizeofAsynmsg) then .ok (-efault, s)
    else if count > 16 * (nrTasks + nrProcs) then .ok (-edom, s)
    else do
      let (r, done, s) ← sendaLoop env caller table count 0 true s
      if r ≠ 0 then .ok (r, s)
      else if done then .ok (0, s.record (.asynAccept caller table count))
      else .ok (0, (s.modPriv i fun v => { v with sAsyntab := table, sAsynsize := count }).record
        (.asynAccept caller table count))

def tryScan (env : Env) (src dst : Slot) (i : PrivId) (tableV : Nat) :
    Nat → Nat → Bool → Bool → State → Except Stop (Int × Bool × State)
  | 0, _, done, postponed, s =>
    .ok (-eagain, postponed, if done then s.modPriv i fun v => { v with sAsynsize := 0 } else s)
  | n + 1, k, done, postponed, s =>
    let a := entryAddr tableV k
    let e := s.tables src a
    if !env.canRead src a then .ok (-efault, postponed, s)
    else if e.flags = 0 then tryScan env src dst i tableV n (k + 1) done postponed s
    else if badFlags e.flags then
      .ok (-einval, postponed, s.modPriv i fun v => { v with sAsynsize := 0 })
    else if e.flags &&& amfDone ≠ 0 then tryScan env src dst i tableV n (k + 1) done postponed s
    else if !env.canRead src (a + offDst) then .ok (-efault, postponed, s)
    else if e.dst ≠ (s.proc dst).pEndpoint then
      tryScan env src dst i tableV n (k + 1) false postponed s
    else if e.flags &&& amfNoreply ≠ 0 && s.mfIsset dst mfReplyPend then
      tryScan env src dst i tableV n (k + 1) false true s
    else if !env.canRead src (a + offMsg) then .ok (-efault, postponed, s)
    else do
      let (r, t) ← queueMess (s.proc src).pEndpoint (some e.msg) dst s
      let t := t.record (.asyn src dst a e (s.mfIsset dst mfReplyPend))
      .ok ((completeEntry env src a r e.flags t).1, postponed,
        (completeEntry env src a r e.flags t).2)

def tryOne (env : Env) (src dst : Slot) (s : State) : Except Stop (Int × Bool × State) := do
  let i ← s.privOf src
  if (s.priv i).sId = userPrivId then .ok (-eagain, false, s)
  else if (s.priv i).sAsynsize = 0 then .ok (-eagain, false, s)
  else do
    let allowed ← s.maySendTo src dst
    if !allowed then .ok (-eagain, false, s)
    else tryScan env src dst i (s.priv i).sAsyntab (s.priv i).sAsynsize 0 true false s

def tryPrivs (env : Env) (caller : Slot) :
    List PrivId → Bool → State → Except Stop (Int × State)
  | [], postponed, s => .ok (-esrch, if postponed then s else s.mfUnset caller mfAsynmsg)
  | i :: rest, postponed, s =>
    if (s.priv i).sProcNr = endptNone then tryPrivs env caller rest postponed s
    else do
      let src ← slotOf (s.priv i).sProcNr
      let (r, postponed', s) ← tryOne env src caller s
      if r = 0 then .ok (0, s) else tryPrivs env caller rest (postponed || postponed') s

def tryAsync (env : Env) (caller : Slot) (s : State) : Except Stop (Int × State) :=
  tryPrivs env caller (List.finRange nrSysProcs) false s

def trySource (env : Env) (caller : Slot) (s : State) : Option Slot → Except Stop (Int × State)
  | some p => do
    let (r, _, t) ← tryOne env p caller s
    .ok (r, t)
  | none => tryAsync env caller s

/-- The last resort of `mini_receive`: a message of some asynchronous table. -/
def receiveAsyn (env : Env) (caller : Slot) (src : Option Slot) (s : State) :
    Except Stop (Bool × State) :=
  if s.mfIsset caller mfAsynmsg then do
    let (r, t) ← trySource env caller s src
    .ok (decide (r = 0), t)
  else .ok (false, s)

def receivePending (env : Env) (caller : Slot) (src : Option Slot) (s : State) :
    Except Stop (Bool × State) := do
  match ← receiveNotify caller src s with
  | some t => .ok (true, t)
  | none =>
    match ← receiveCaller caller src s with
    | some t => .ok (true, t)
    | none => receiveAsyn env caller src s

def markReceiving (caller : Slot) (srcE : Int) (s : State) : State :=
  s.modProc caller fun p => { p with pGetfromE := srcE, pRtsFlags := p.pRtsFlags ||| rtsReceiving }

def blockReceive (caller : Slot) (srcE : Int) (src : Option Slot) (flags : BitVec 32) (s : State) :
    Except Stop (Int × State) :=
  if flags &&& kipcFlgNonblock = 0 then do
    let group ← deadlock kipcReceive caller src s
    if group ≠ 0 then .ok (-elocked, s)
    else .ok (0, markReceiving caller srcE s)
  else .ok (-enotready, s)

def receiveSource (srcE : Int) (s : State) : Except Stop (Option Slot) :=
  if srcE = endptAny then .ok none
  else do
    let p ← s.okendpt srcE
    .ok (some p)

def miniReceive (env : Env) (caller : Slot) (srcE : Int) (mPtr : Nat) (flags : BitVec 32)
    (s : State) : Except Stop (Int × State) :=
  if !(s.proc caller).syscall0x80 && !env.umapLocal caller mPtr sizeofMsg then .ok (-efault, s)
  else do
    let src ← receiveSource srcE s
    if src.any fun p => s.rtsIsset p rtsNoEndpoint then .ok (-esrcdied, s)
    else if s.rtsIsset caller rtsSending then blockReceive caller srcE src flags s
    else do
      let (found, t) ← receivePending env caller src s
      if found then .ok (0, t) else blockReceive caller srcE src flags t

end Nucleos.Kernel
