import Nucleos.Lib.ChunkMap
import Nucleos.Lib.IntrusiveList
import Nucleos.Lib.Run

/-!
# Process table, privilege structures and endpoints

The part of the kernel state that message passing reads and writes, from `proc.h`,
`priv.h`, `kipc.h` and `endpoint.h`. A pointer to a process is a slot of the process
table, a pointer to a privilege structure an index of the privilege table, and a null
pointer is `none`. The run queues are left out: a process is runnable exactly when its
`p_rts_flags` are zero, and any runnable process may be the next to run.
-/

namespace Nucleos.Kernel

open IntrusiveList

abbrev nrTasks : Nat := 4
abbrev nrProcs : Nat := 100
abbrev nrSysProcs : Nat := 32
abbrev bitchunkBits : Nat := 16
abbrev nrSysChunks : Nat := 2

abbrev Slot := Fin (nrTasks + nrProcs)
abbrev PrivId := Fin nrSysProcs
scoped instance : NeZero (nrTasks + nrProcs) := ⟨by decide⟩
scoped instance : NeZero nrSysProcs := ⟨by decide⟩

abbrev SysMap := ChunkMap.Map nrSysChunks bitchunkBits

def endptAny : Int := 0x7ace
def endptNone : Int := 0x6ace
def endptSelf : Int := 0x8ace

def idle : Int := -4
def clock : Int := -3
def system : Int := -2
def hardware : Int := -1
def pmProcNr : Int := 0
def vfsProcNr : Int := 1
def vmProcNr : Int := 8

def rtsSlotFree : BitVec 16 := 0x01
def rtsProcStop : BitVec 16 := 0x02
def rtsSending : BitVec 16 := 0x04
def rtsReceiving : BitVec 16 := 0x08
def rtsSignaled : BitVec 16 := 0x10
def rtsSigPending : BitVec 16 := 0x20
def rtsPStop : BitVec 16 := 0x40
def rtsNoPriv : BitVec 16 := 0x80
def rtsNoEndpoint : BitVec 16 := 0x100
def rtsVminhibit : BitVec 16 := 0x200

def mfReplyPend : BitVec 16 := 0x001
def mfAsynmsg : BitVec 16 := 0x010
def mfDelivermsg : BitVec 16 := 0x040
def mfSigDelay : BitVec 16 := 0x080
def mfScActive : BitVec 16 := 0x100
def mfScDefer : BitVec 16 := 0x200
def mfScTrace : BitVec 16 := 0x400

def preemptible : BitVec 16 := 0x02
def billable : BitVec 16 := 0x04
def sysProc : BitVec 16 := 0x10
def userPrivId : PrivId := 15

def eperm : Int := 1
def esrch : Int := 3
def eagain : Int := 11
def enomem : Int := 12
def efault : Int := 14
def ebusy : Int := 16
def einval : Int := 22
def enospc : Int := 28
def edom : Int := 33
def elocked : Int := 101
def ebadcall : Int := 102
def ecalldenied : Int := 104
def edeadsrcdst : Int := 105
def enotready : Int := 106
def esrcdied : Int := 108
def edstdied : Int := 109
def etrapdenied : Int := 110

/-- `kipc_msg_t`; the kernel looks into the two header words and two data words only. -/
structure Msg where
  mSource : Int
  mType : Int
  mData1 : BitVec 32
  mData2 : BitVec 32
  mData3 : BitVec 32
  mData4 : BitVec 32
  mData5 : BitVec 32
  mData6 : BitVec 32
  mData7 : BitVec 32
  mData8 : BitVec 32
  mData9 : BitVec 32
  deriving DecidableEq

def Msg.zero : Msg := ⟨0, 0, 0, 0, 0, 0, 0, 0, 0, 0, 0⟩

structure AsynMsg where
  flags : BitVec 32
  dst : Int
  result : Int
  msg : Msg
  deriving DecidableEq

structure Proc where
  retreg : Int
  pPriv : Option PrivId
  pRtsFlags : BitVec 16
  pMiscFlags : BitVec 16
  pCallerQ : Option Slot
  pQLink : Option Slot
  pGetfromE : Int
  pSendtoE : Int
  pPending : BitVec 32
  pEndpoint : Int
  pSendmsg : Msg
  pDelivermsg : Msg
  syscall0x80 : Bool

structure Priv where
  sProcNr : Int
  sId : PrivId
  sFlags : BitVec 16
  sAsyntab : Nat
  sAsynsize : Nat
  sTrapMask : BitVec 16
  sIpcTo : SysMap
  sNotifyPending : SysMap
  sIntPending : BitVec 32
  sSigPending : BitVec 32

/-- Why a kernel routine does not return: it panics, it loops for ever, or it follows a
pointer that does not point into a table. -/
inductive Stop where
  | panic (why : String)
  | hang
  | fault
  deriving DecidableEq

/-- What happened so far, newest first. The kernel keeps no such record; no routine reads it. -/
inductive Event where
  | sent (src dst : Slot) (m : Msg)
  | notify (src dst : Slot)
  | notified (src : Int) (dst : Slot) (arg : BitVec 32)
  | asyn (src dst : Slot) (entry : Nat) (e : AsynMsg) (replyPend : Bool)
  | intr (dst : Slot) (bits : BitVec 32)
  | sig (dst : Slot) (bits : BitVec 32)
  | gone (p : Slot)
  /-- `mini_senda` has given up the table that the process had left before. -/
  | asynClear (p : Slot)
  /-- `mini_senda` has gone through the whole table and returns 0. -/
  | asynAccept (p : Slot) (table count : Nat)
  | wrote (p : Slot) (a : Nat)
  deriving DecidableEq

structure State where
  proc : Slot → Proc
  priv : PrivId → Priv
  /-- User memory of each process, read as one table entry at each byte address. -/
  tables : Slot → Nat → AsynMsg
  uptime : BitVec 32
  history : List Event

def procNr (rp : Slot) : Int := (rp.val : Int) - nrTasks

def procAddr (n : Int) : Option Slot :=
  if h : (n + nrTasks).toNat < nrTasks + nrProcs ∧ 0 ≤ n + nrTasks then
    some ⟨(n + nrTasks).toNat, h.1⟩
  else none

variable {n : Int} {p : Slot}

lemma procAddr_eq_some : procAddr n = some p ↔ procNr p = n := by
  unfold procAddr procNr
  constructor
  · intro h
    split at h
    · rename_i hb
      cases h
      simp only
      omega
    · cases h
  · intro h
    have hp := p.isLt
    have hn : (n + nrTasks).toNat = p.val := by omega
    rw [dif_pos ⟨by omega, by omega⟩, Option.some.injEq]
    exact Fin.ext hn

@[simp] lemma procAddr_procNr (p : Slot) : procAddr (procNr p) = some p :=
  procAddr_eq_some.mpr rfl

lemma procNr_injective {q : Slot} (h : procNr p = procNr q) : p = q := by
  have := procAddr_procNr q
  rw [← h, procAddr_procNr] at this
  exact Option.some.inj this

lemma procNr_ne_none (p : Slot) : procNr p ≠ endptNone := by
  have hp := p.isLt
  simp only [procNr, endptNone, nrTasks, nrProcs] at hp ⊢
  omega

def slotOf (n : Int) : Except Stop Slot :=
  match procAddr n with
  | some p => .ok p
  | none => .error .fault

lemma slotOf_eq_ok : slotOf n = .ok p ↔ procNr p = n := by
  rw [← procAddr_eq_some]
  unfold slotOf
  cases procAddr n <;> simp

@[simp] lemma slotOf_procNr (p : Slot) : slotOf (procNr p) = .ok p := slotOf_eq_ok.mpr rfl

def maxNrTasks : Int := 1023
def maxMagicProc : Int := 0x8ace
def endpointGenerationSize : Int := maxNrTasks + maxMagicProc + 1

/-- `_ENDPOINT_P`; `%` of C truncates. -/
def endpointP (e : Int) : Int := (e + maxNrTasks).tmod endpointGenerationSize - maxNrTasks

def iskerneln (n : Int) : Bool := n < 0

/-- `get_sys_bit`, `set_sys_bit` and `unset_sys_bit`. -/
def getSysBit (m : SysMap) (b : PrivId) : Bool := ChunkMap.get m b.val
def setSysBit (m : SysMap) (b : PrivId) : SysMap := ChunkMap.set m b.val
def unsetSysBit (m : SysMap) (b : PrivId) : SysMap := ChunkMap.unset m b.val

lemma sysBit_chunk (b : PrivId) : b.val / bitchunkBits < nrSysChunks := by
  have : b.val < 32 := b.isLt
  simp only [bitchunkBits, nrSysChunks]
  omega

lemma getSysBit_set (m : SysMap) (a b : PrivId) :
    getSysBit (setSysBit m a) b = (decide (b = a) || getSysBit m b) := by
  unfold getSysBit setSysBit
  rw [ChunkMap.get_set m (by decide) (sysBit_chunk a)]
  simp [Fin.ext_iff]

lemma getSysBit_unset (m : SysMap) (a b : PrivId) :
    getSysBit (unsetSysBit m a) b = (decide (b ≠ a) && getSysBit m b) := by
  unfold getSysBit unsetSysBit
  rw [ChunkMap.get_unset m (by decide)]
  simp [Fin.ext_iff]

namespace State

def modProc (s : State) (rp : Slot) (f : Proc → Proc) : State :=
  { s with proc := Function.update s.proc rp (f (s.proc rp)) }

def modPriv (s : State) (i : PrivId) (f : Priv → Priv) : State :=
  { s with priv := Function.update s.priv i (f (s.priv i)) }

def record (s : State) (e : Event) : State := { s with history := e :: s.history }

variable (s : State)

lemma modProc_proc (rp q : Slot) (f : Proc → Proc) :
    (s.modProc rp f).proc q = if q = rp then f (s.proc q) else s.proc q := by
  by_cases h : q = rp
  · subst h
    simp [modProc]
  · simp [modProc, h]

lemma modPriv_priv (i j : PrivId) (f : Priv → Priv) :
    (s.modPriv i f).priv j = if j = i then f (s.priv j) else s.priv j := by
  by_cases h : j = i
  · subst h
    simp [modPriv]
  · simp [modPriv, h]

variable {α : Type*} {rp : Slot}

lemma modProc_keep (g : Proc → α) {f : Proc → Proc} (h : g (f (s.proc rp)) = g (s.proc rp)) (q : Slot) :
    g ((s.modProc rp f).proc q) = g (s.proc q) := by
  rw [modProc_proc]
  split
  · next hq => exact hq ▸ h
  · rfl

variable {i : PrivId}

lemma modPriv_keep (g : Priv → α) {f : Priv → Priv} (h : g (f (s.priv i)) = g (s.priv i)) (j : PrivId) :
    g ((s.modPriv i f).priv j) = g (s.priv j) := by
  rw [modPriv_priv]
  split
  · next hj => exact hj ▸ h
  · rfl

@[simp] lemma modProc_priv (rp : Slot) (f : Proc → Proc) : (s.modProc rp f).priv = s.priv := rfl
@[simp] lemma modProc_tables (rp : Slot) (f : Proc → Proc) : (s.modProc rp f).tables = s.tables := rfl
@[simp] lemma modProc_history (rp : Slot) (f : Proc → Proc) : (s.modProc rp f).history = s.history := rfl
@[simp] lemma modPriv_proc (i : PrivId) (f : Priv → Priv) : (s.modPriv i f).proc = s.proc := rfl
@[simp] lemma modPriv_tables (i : PrivId) (f : Priv → Priv) : (s.modPriv i f).tables = s.tables := rfl
@[simp] lemma modPriv_history (i : PrivId) (f : Priv → Priv) : (s.modPriv i f).history = s.history := rfl
@[simp] lemma record_proc (e : Event) : (s.record e).proc = s.proc := rfl
@[simp] lemma record_priv (e : Event) : (s.record e).priv = s.priv := rfl
@[simp] lemma record_tables (e : Event) : (s.record e).tables = s.tables := rfl
@[simp] lemma record_history (e : Event) : (s.record e).history = e :: s.history := rfl

def rtsIsset (rp : Slot) (f : BitVec 16) : Bool := ChunkMap.isset (s.proc rp).pRtsFlags f

def mfIsset (rp : Slot) (f : BitVec 16) : Bool := ChunkMap.isset (s.proc rp).pMiscFlags f

def rtsSet (rp : Slot) (f : BitVec 16) : State :=
  s.modProc rp fun p => { p with pRtsFlags := p.pRtsFlags ||| f }

def rtsUnset (rp : Slot) (f : BitVec 16) : State :=
  s.modProc rp fun p => { p with pRtsFlags := p.pRtsFlags &&& ~~~f }

def mfSet (rp : Slot) (f : BitVec 16) : State :=
  s.modProc rp fun p => { p with pMiscFlags := p.pMiscFlags ||| f }

def mfUnset (rp : Slot) (f : BitVec 16) : State :=
  s.modProc rp fun p => { p with pMiscFlags := p.pMiscFlags &&& ~~~f }

def isemptyp (rp : Slot) : Bool := (s.proc rp).pRtsFlags == rtsSlotFree

def procIsRunnable (rp : Slot) : Bool := (s.proc rp).pRtsFlags == 0

def isokendpt (e : Int) : Option Slot :=
  match procAddr (endpointP e) with
  | none => none
  | some p => if s.isemptyp p then none else if (s.proc p).pEndpoint = e then some p else none

/-- `okendpt`: the same, where a dead endpoint is fatal. -/
def okendpt (e : Int) : Except Stop Slot :=
  match s.isokendpt e with
  | some p => .ok p
  | none => .error (.panic "invalid endpoint ")

def privOf (rp : Slot) : Except Stop PrivId :=
  match (s.proc rp).pPriv with
  | some i => .ok i
  | none => .error .fault

def maySendTo (rp dst : Slot) : Except Stop Bool := do
  let i ← s.privOf rp
  let j ← s.privOf dst
  return getSysBit (s.priv i).sIpcTo (s.priv j).sId

/-- `WILLRECEIVE`: the target waits for a message of this endpoint and does not itself send. -/
def willReceive (target : Slot) (e : Int) : Bool :=
  s.rtsIsset target rtsReceiving && !s.rtsIsset target rtsSending &&
    ((s.proc target).pGetfromE == endptAny || (s.proc target).pGetfromE == e)

variable {e : Int}

lemma isokendpt_eq_some : s.isokendpt e = some p ↔
    endpointP e = procNr p ∧ s.isemptyp p = false ∧ (s.proc p).pEndpoint = e := by
  unfold isokendpt
  constructor
  · intro h
    cases hp : procAddr (endpointP e) with
    | none => simp [hp] at h
    | some q =>
      simp only [hp] at h
      split at h
      · cases h
      split at h
      · cases h
        exact ⟨(procAddr_eq_some.mp hp).symm, Bool.eq_false_iff.mpr ‹_›, ‹_›⟩
      · cases h
  · rintro ⟨he, hp, hep⟩
    rw [procAddr_eq_some.mpr he.symm]
    simp [hp, hep]

lemma okendpt_eq_ok : s.okendpt e = .ok p ↔ s.isokendpt e = some p := by
  unfold okendpt
  cases s.isokendpt e <;> simp

lemma privOf_eq_ok : s.privOf rp = .ok i ↔ (s.proc rp).pPriv = some i := by
  unfold privOf
  cases (s.proc rp).pPriv <;> simp

def queues : Lists Slot Slot where
  head d := (s.proc d).pCallerQ
  next p := (s.proc p).pQLink

def writeCell (s : State) : Cell Slot Slot → Option Slot → State
  | .head d, v => s.modProc d fun p => { p with pCallerQ := v }
  | .next q, v => s.modProc q fun p => { p with pQLink := v }

lemma queues_writeCell (c : Cell Slot Slot) (v : Option Slot) :
    (s.writeCell c v).queues = s.queues.write c v := by
  cases c with
  | head d | next d =>
    simp only [writeCell, queues, Lists.write, Lists.mk.injEq]
    constructor
    all_goals
      funext x
      by_cases h : x = d <;> simp [modProc_proc, h]

def queueFuel : Nat := nrTasks + nrProcs + 1

end State

end Nucleos.Kernel
