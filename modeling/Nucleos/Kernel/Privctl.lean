import Nucleos.Kernel.Step

/-!
# Privilege structures

`do_privctl` gives a blocked process a privilege structure of its own: it claims a free slot, copies
the structure of the caller into it, resets some fields, and only then checks the description that
the caller has supplied. Processes come from the boot image and from `do_fork`, and the slot of a
system process is free again when it exits.
-/

namespace Nucleos.Kernel

open Function Run

abbrev nrBootProcs : Nat := 16
abbrev nrIoRange : Nat := 32
abbrev nrMemRange : Nat := 10
abbrev nrIrq : Nat := 4
abbrev callMaskSize : Nat := 3

def rsProcNr : Int := 2
def nullPrivId : Int := -1

def dynPrivId : BitVec 16 := 0x08
def checkIoPort : BitVec 16 := 0x20
def checkIrq : BitVec 16 := 0x40
def checkMem : BitVec 16 := 0x80

def idlF : BitVec 16 := sysProc ||| billable
def tskF : BitVec 16 := sysProc
def rsysF : BitVec 16 := sysProc ||| preemptible
def defSysF : BitVec 16 := rsysF ||| dynPrivId

def cskT : BitVec 16 := 1#16 <<< kipcReceive
def tskT : BitVec 16 := 0
def rsysT : BitVec 16 := BitVec.allOnes 16
def defSysT : BitVec 16 := rsysT

abbrev Targets := PrivId → Bool

def tskM : Targets := fun _ => false
def rsysM : Targets := fun _ => true
def defSysM : Targets := fun i => rsysM i && i ≠ userPrivId

def tmrNever : Int := 2 ^ 31 - 1

/-- `timer_t`; the link of the queue of the clock task is left out. -/
structure Timer where
  tmrExpTime : Int
  tmrArg : Int
  deriving DecidableEq

def Timer.Pending (now : BitVec 32) (t : Timer) : Prop := t.tmrExpTime ≠ tmrNever ∧ now.toNat < t.tmrExpTime

instance (now : BitVec 32) (t : Timer) : Decidable (t.Pending now) := inferInstanceAs (Decidable (_ ∧ _))

structure Range where
  base : BitVec 32
  limit : BitVec 32
  deriving DecidableEq

/-- The fields of a privilege structure that message passing does not look at. -/
structure Rights where
  sKCallMask : Fin callMaskSize → BitVec 16
  sAlarmTimer : Timer
  sNrIoRange : Int
  sIoTab : Fin nrIoRange → Range
  sNrMemRange : Int
  sMemTab : Fin nrMemRange → Range
  sNrIrq : Int
  sIrqTab : Fin nrIrq → Int
  sGrantTable : Nat
  sGrantEntries : Int

structure PrivArg where
  sId : Int
  sFlags : BitVec 16
  sTrapMask : BitVec 16
  sIpcTo : SysMap
  rights : Rights

abbrev Copied (α : Type) := Except { r : Int // r ≠ 0 } α

inductive PrivRequest where
  | allow
  | disallow
  | setSys (arg : Option (Copied PrivArg))
  | setUser
  /-- The result of the copy is not looked at. -/
  | addIo (range : Range)
  | addMem (range : Copied Range)
  | addIrq (irq : Int)
  | queryMem (start len : BitVec 32)
  | other

structure PrivMsg where
  ctlEndpt : Int
  ctlRequest : PrivRequest

structure PrivState where
  kernel : State
  rights : PrivId → Rights

namespace State
variable (s : State)

def freePriv (i : PrivId) : Bool := (s.priv i).sProcNr == endptNone

def canReply (i : PrivId) : Bool := (s.priv i).sTrapMask &&& ~~~ (1#16 <<< kipcReceive) ≠ 0

def setSendtoBit (n id : PrivId) : State :=
  if s.freePriv id ∨ (s.priv n).sId = id then s.modPriv n fun v =>
    { v with sIpcTo := unsetSysBit v.sIpcTo id }
  else
    let s := s.modPriv n fun v => { v with sIpcTo := setSysBit v.sIpcTo id }
    if s.canReply id then s.modPriv id fun v => { v with sIpcTo := setSysBit v.sIpcTo (s.priv n).sId } else s

def unsetSendtoBit (n id : PrivId) : State :=
  let s := s.modPriv n fun v => { v with sIpcTo := unsetSysBit v.sIpcTo id }
  s.modPriv id fun v => { v with sIpcTo := unsetSysBit v.sIpcTo (s.priv n).sId }

def sendtoBit (n : PrivId) (m : Targets) (s : State) (id : PrivId) : State :=
  if m id then s.setSendtoBit n id else s.unsetSendtoBit n id

def fillTargets (n : PrivId) (m : Targets) : State := (List.finRange nrSysProcs).foldl (sendtoBit n m) s

def staticPriv (id : Int) : Option PrivId :=
  if h : 0 ≤ id ∧ id < nrBootProcs then some ⟨id.toNat,
    by simp only [nrBootProcs, nrSysProcs] at h ⊢; omega⟩ else none

def findPriv (id : Int) : Except Int PrivId :=
  if id = nullPrivId then
    match (List.finRange nrSysProcs).find? fun i => nrBootProcs ≤ i.val ∧ s.freePriv i with
    | some i => .ok i
    | none => .error (-enospc)
  else
    match staticPriv id with
    | none => .error (-einval)
    | some i => if s.freePriv i then .ok i else .error (-ebusy)

def claimPriv (rc : Slot) (i : PrivId) : State :=
  (s.modProc rc fun p => { p with pPriv := some i }).modPriv i fun v =>
    { v with sProcNr := procNr rc, sAsyntab := 2 ^ 32 - 1, sAsynsize := 0 }

end State

def copyTab {n : Nat} {α : Type} (nr : Int) (new old : Fin n → α) : Fin n → α :=
  fun i => if (i.val : Int) < nr then new i else old i

/-- A table of resources is copied when its flag is set and its count fits; the error keeps what was
copied before. -/
def copyTable (flag : BitVec 16) (nr : Int) (max : Nat) (fill : Rights → Rights) (a : PrivArg) (r : Rights) :
    Except Rights Rights :=
  if a.sFlags &&& flag = 0 then .ok r
  else if nr < 0 ∨ max < nr then .error r
  else .ok (fill r)

def copyIrqs (a : PrivArg) : Rights → Except Rights Rights :=
  copyTable checkIrq a.rights.sNrIrq nrIrq
    (fun r => { r with
      sNrIrq := a.rights.sNrIrq, sIrqTab := copyTab a.rights.sNrIrq a.rights.sIrqTab r.sIrqTab }) a

def copyIoRanges (a : PrivArg) : Rights → Except Rights Rights :=
  copyTable checkIoPort a.rights.sNrIoRange nrIoRange
    (fun r => { r with
      sNrIoRange := a.rights.sNrIoRange, sIoTab := copyTab a.rights.sNrIoRange a.rights.sIoTab r.sIoTab }) a

def copyMemRanges (a : PrivArg) : Rights → Except Rights Rights :=
  copyTable checkMem a.rights.sNrMemRange nrMemRange
    (fun r => { r with
      sNrMemRange := a.rights.sNrMemRange, sMemTab :=
        copyTab a.rights.sNrMemRange a.rights.sMemTab r.sMemTab }) a

def copyResources (a : PrivArg) (r : Rights) : Except Rights Rights := do
  let r ← copyIrqs a r
  let r ← copyIoRanges a r
  copyMemRanges a r

namespace PrivState
variable (s : PrivState)

def setRights (i : PrivId) (r : Rights) : PrivState := { s with rights := update s.rights i r }

def modKernel (f : State → State) : PrivState := { s with kernel := f s.kernel }

def inheritPriv (rp : Slot) (n j : PrivId) : PrivState :=
  { kernel := s.kernel.modPriv n fun v =>
      { s.kernel.priv j with
        sId := v.sId
        sProcNr := procNr rp
        sNotifyPending := fun _ => 0
        sIntPending := 0
        sSigPending := 0
        sFlags := defSysF
        sTrapMask := defSysT }
    rights := update s.rights n
      { s.rights j with
        sKCallMask := fun _ => BitVec.allOnes 16
        sNrIoRange := 0
        sNrMemRange := 0
        sNrIrq := 0
        sGrantTable := 0
        sGrantEntries := 0 } }

/-- Override the defaults by what the caller has supplied, and fill in the targets. -/
def overridePriv (n : PrivId) (a : PrivArg) : Int × PrivState :=
  let s := s.modKernel fun k => k.modPriv n fun v => { v with sFlags := a.sFlags }
  match copyResources a (s.rights n) with
  | .error r => (-einval, s.setRights n r)
  | .ok r =>
    let s := s.setRights n { r with sKCallMask := a.rights.sKCallMask }
    let k := s.kernel.modPriv n fun v => { v with sTrapMask := a.sTrapMask }
    (0, { s with kernel := k.fillTargets n (getSysBit a.sIpcTo) })

/-- `SYS_PRIV_SET_SYS` from the call of `get_priv` on, which has found slot `n`. -/
def installPriv (who rp : Slot) (a : Option PrivArg) (n : PrivId) : Except Stop (Int × PrivState) := do
  let s := s.modKernel fun k => k.claimPriv rp n
  let j ← s.kernel.privOf who
  let s := s.inheritPriv rp n j
  match a with
  | none => return (0, s.modKernel fun k => k.fillTargets n defSysM)
  | some a => return s.overridePriv n a

def privIdOf : Option PrivArg → Int
  | none => nullPrivId
  | some a => if a.sFlags &&& dynPrivId = 0 then a.sId else nullPrivId

def privSetSys (who rp : Slot) (arg : Option (Copied PrivArg)) : Except Stop (Int × PrivState) :=
  if s.kernel.rtsIsset rp rtsNoPriv = false then .ok (-eperm, s)
  else
    let get (a : Option PrivArg) : Except Stop (Int × PrivState) :=
      match s.kernel.findPriv (privIdOf a) with
      | .error r => .ok (r, s)
      | .ok n => s.installPriv who rp a n
    match arg with
    | none => get none
    | some (.error r) => .ok (r, s)
    | some (.ok a) => get (some a)

def privAllow (rp : Slot) : Except Stop (Int × PrivState) :=
  if s.kernel.rtsIsset rp rtsNoPriv = false then .ok (-eperm, s)
  else do
    let i ← s.kernel.privOf rp
    if s.kernel.freePriv i then return (-eperm, s)
    return (0, s.modKernel fun k => k.rtsUnset rp rtsNoPriv)

def addResource (rp : Slot) (flag : BitVec 16) (count : Rights → Int) (max : Nat) (add : Rights → Rights) :
    Except Stop (Int × PrivState) :=
  if s.kernel.rtsIsset rp rtsNoPriv then .ok (-eperm, s)
  else do
    let i ← s.kernel.privOf rp
    if (s.kernel.priv i).sFlags &&& sysProc = 0 then return (-eperm, s)
    let s := s.modKernel fun k => k.modPriv i fun v => { v with sFlags := v.sFlags ||| flag }
    if max ≤ count (s.rights i) then return (-enomem, s)
    return (0, s.setRights i (add (s.rights i)))

def privAddIo (rp : Slot) (x : Range) : Except Stop (Int × PrivState) :=
  s.addResource rp checkIoPort Rights.sNrIoRange nrIoRange fun r =>
    { r with
      sNrIoRange := r.sNrIoRange + 1, sIoTab := fun i => if (i.val : Int) = r.sNrIoRange then x else r.sIoTab i }

def privAddMem (rp : Slot) (x : Range) : Except Stop (Int × PrivState) :=
  s.addResource rp checkMem Rights.sNrMemRange nrMemRange fun r =>
    { r with
      sNrMemRange := r.sNrMemRange + 1, sMemTab := fun i => if (i.val : Int) = r.sNrMemRange then x else r.sMemTab i }

def privAddIrq (rp : Slot) (x : Int) : Except Stop (Int × PrivState) :=
  s.addResource rp checkIrq Rights.sNrIrq nrIrq fun r =>
    { r with sNrIrq := r.sNrIrq + 1, sIrqTab := fun i => if (i.val : Int) = r.sNrIrq then x else r.sIrqTab i }

/-- The copy of a memory range fails after the checks and before anything changes. -/
def privCopyMem (rp : Slot) : Copied Range → Except Stop (Int × PrivState)
  | .ok x => s.privAddMem rp x
  | .error r =>
    if s.kernel.rtsIsset rp rtsNoPriv then .ok (-eperm, s)
    else do
      let i ← s.kernel.privOf rp
      if (s.kernel.priv i).sFlags &&& sysProc = 0 then return (-eperm, s)
      return (r, s)

def privQueryMem (rp : Slot) (addr len : BitVec 32) : Int :=
  let limit := addr + len - 1
  if limit < addr then -eperm
  else
    match (s.kernel.proc rp).pPriv with
    | none => -eperm
    | some i =>
      if (s.kernel.priv i).sFlags &&& sysProc = 0 then -eperm
      else if (List.finRange nrMemRange).any fun k => ((k.val : Int) < (s.rights i).sNrMemRange) ∧
          ((s.rights i).sMemTab k).base ≤ addr ∧ limit ≤ ((s.rights i).sMemTab k).limit then 0
      else -eperm

def privTarget (who : Slot) (e : Int) : Option Slot :=
  if e = endptSelf then some who else s.kernel.isokendpt e

def privRequest (who rp : Slot) : PrivRequest → Except Stop (Int × PrivState)
  | .allow => s.privAllow rp
  | .disallow =>
    if s.kernel.rtsIsset rp rtsNoPriv then .ok (-eperm, s)
    else .ok (0, s.modKernel fun k => k.rtsSet rp rtsNoPriv)
  | .setSys arg => s.privSetSys who rp arg
  | .setUser =>
    if s.kernel.rtsIsset rp rtsNoPriv = false then .ok (-eperm, s)
    else .ok (0, s.modKernel fun k => k.modProc rp fun p => { p with pPriv := some userPrivId })
  | .addIo x => s.privAddIo rp x
  | .addMem x => s.privCopyMem rp x
  | .addIrq x => s.privAddIrq rp x
  | .queryMem addr len => .ok (s.privQueryMem rp addr len, s)
  | .other => .ok (-einval, s)

def doPrivctl (who : Slot) (m : PrivMsg) : Except Stop (Int × PrivState) := do
  let i ← s.kernel.privOf who
  if (s.kernel.priv i).sFlags &&& sysProc = 0 then return (-eperm, s)
  match s.privTarget who m.ctlEndpt with
  | none => return (-einval, s)
  | some rp => s.privRequest who rp m.ctlRequest

end PrivState

/-! ## Where processes and structures come from -/

def endpointG (e : Int) : Int := (e + maxNrTasks).tdiv endpointGenerationSize
def endpointMaxGeneration : Int := (2 ^ 31 - 1 : Int).tdiv endpointGenerationSize - 1
def endpointOf (g p : Int) : Int := g * endpointGenerationSize + p

def nextGeneration (e : Int) : Int := if endpointMaxGeneration ≤ endpointG e + 1 then 1 else endpointG e + 1

def mfTimers : BitVec 16 := 0x006

def Proc.forked (parent old : Proc) (child : Slot) (noPriv vminhibit : Bool) : Proc :=
  { parent with
    pEndpoint := endpointOf (nextGeneration old.pEndpoint) (procNr child)
    retreg := 0
    pMiscFlags := parent.pMiscFlags &&& ~~~ (mfTimers ||| mfScTrace)
    pPriv := if noPriv then some userPrivId else parent.pPriv
    pRtsFlags := (parent.pRtsFlags ||| (if noPriv then rtsNoPriv else 0) |||
      (if vminhibit then rtsVminhibit else 0)) &&&
      ~~~ (rtsSignaled ||| rtsSigPending ||| rtsPStop)
    pPending := 0 }

/-- `do_fork`; the memory map of the child is left out, `map` is what installing it returns. -/
def doFork (prEndpt : Int) (child : Slot) (vminhibit : Bool) (map : Int) (s : State) :
    Except Stop (Int × State) :=
  match s.isokendpt prEndpt with
  | none => .ok (-einval, s)
  | some rpp =>
    if s.isemptyp child = false then .ok (-einval, s)
    else if s.rtsIsset rpp rtsReceiving = false then .ok (-einval, s)
    else do
      let i ← s.privOf rpp
      if 0 < (s.priv i).sAsynsize then return (-einval, s)
      let noPriv : Bool := (s.priv i).sFlags &&& sysProc ≠ 0
      return (map, s.modProc child fun old => (s.proc rpp).forked old child noPriv vminhibit)

def clearedProc (p : Slot) : Proc where
  retreg := 0
  pPriv := none
  pRtsFlags := rtsSlotFree
  pMiscFlags := 0
  pCallerQ := none
  pQLink := none
  pGetfromE := 0
  pSendtoE := 0
  pPending := 0
  pEndpoint := endpointOf 0 (procNr p)
  pSendmsg := Msg.zero
  pDelivermsg := Msg.zero
  syscall0x80 := false

def clearedPriv (i : PrivId) : Priv where
  sProcNr := endptNone
  sId := i
  sFlags := 0
  sAsyntab := 0
  sAsynsize := 0
  sTrapMask := 0
  sIpcTo _ := 0
  sNotifyPending _ := 0
  sIntPending := 0
  sSigPending := 0

def clearedRights : Rights where
  sKCallMask _ := 0
  sAlarmTimer := ⟨0, 0⟩
  sNrIoRange := 0
  sIoTab _ := ⟨0, 0⟩
  sNrMemRange := 0
  sMemTab _ := ⟨0, 0⟩
  sNrIrq := 0
  sIrqTab _ := 0
  sGrantTable := 0
  sGrantEntries := 0

def cleared : PrivState where
  kernel := ⟨clearedProc, clearedPriv, fun _ _ => ⟨0, 0, 0, Msg.zero⟩, 0, []⟩
  rights _ := clearedRights

namespace PrivState

def bootRights (rp : Slot) (flags trap : BitVec 16) (targets : Targets) (kcalls : BitVec 16)
    (s : PrivState) : PrivState :=
  match s.kernel.findPriv (procNr rp + nrTasks) with
  | .error _ => s
  | .ok n =>
    let k := (s.kernel.claimPriv rp n).modPriv n fun v => { v with sFlags := flags, sTrapMask := trap }
    { kernel := k.fillTargets n targets
      rights := update s.rights n { s.rights n with sKCallMask := fun _ => kcalls } }

def bootFlags (rp : Slot) (k : State) : State :=
  let k := if procNr rp = hardware ∨ procNr rp = idle then k.rtsSet rp rtsProcStop else k
  k.rtsUnset rp rtsSlotFree

def bootOne (s : PrivState) (rp : Slot) : PrivState :=
  let s :=
    if iskerneln (procNr rp) then
      s.bootRights rp (if procNr rp = idle then idlF else tskF) (if procNr rp = clock ∨
        procNr rp = system then cskT else tskT)
        tskM 0
    else if procNr rp = rsProcNr then s.bootRights rp rsysF rsysT rsysM (BitVec.allOnes 16)
    else s.modKernel fun k => k.rtsSet rp rtsNoPriv
  s.modKernel (bootFlags rp)

def bootImage : List Slot := (List.finRange (nrTasks + nrProcs)).take nrBootProcs

def bootPrivs : PrivState := bootImage.foldl bootOne cleared

end PrivState

/-! ## The system -/

inductive PrivEvent where
  | fork (prEndpt : Int) (child : Slot) (vminhibit : Bool) (map : Int)
  | privctl (who : Slot) (m : PrivMsg)
  | setalarm (who : Slot) (time : Int) (absolute : Bool)
  | exit (rc : Slot)

namespace PrivState

/-- `do_setalarm`; the time left on the previous alarm goes back to the caller and is not kept. -/
def doSetalarm (who : Slot) (time : Int) (absolute : Bool) (s : PrivState) :
    Except Stop (Int × PrivState) := do
  let i ← s.kernel.privOf who
  if (s.kernel.priv i).sFlags &&& sysProc = 0 then return (-eperm, s)
  let now : Int := s.kernel.uptime.toNat
  let time := if time = 0 then tmrNever else if absolute then time else time + now
  return (0, s.setRights i { s.rights i with sAlarmTimer := ⟨time, (s.kernel.proc who).pEndpoint⟩ })

def clearProc (rc : Slot) (s : PrivState) : Except Stop PrivState := do
  let k ← Kernel.clearProc rc s.kernel
  match (s.kernel.proc rc).pPriv with
  | none => return { s with kernel := k }
  | some i =>
    if s.kernel.isemptyp rc then return { s with kernel := k }
    let idle := { (s.rights i).sAlarmTimer with tmrExpTime := tmrNever }
    return ({ s with kernel := k } : PrivState).setRights i { s.rights i with sAlarmTimer := idle }

def step (s : PrivState) : PrivEvent → Except Stop PrivState
  | .fork e child vminhibit map => do
    let (_, k) ← doFork e child vminhibit map s.kernel
    return { s with kernel := k }
  | .privctl who m => do
    let (_, s) ← s.doPrivctl who m
    return s
  | .setalarm who time absolute => do
    let (_, s) ← s.doSetalarm who time absolute
    return s
  | .exit rc => s.clearProc rc

end PrivState

/-! ## What a request for a privilege structure does -/

def CountFits (flags flag : BitVec 16) (nr : Int) (max : Nat) : Prop := flags &&& flag ≠ 0 → 0 ≤ nr ∧ nr ≤ max

structure PrivArg.Fits (a : PrivArg) : Prop where
  irqs : CountFits a.sFlags checkIrq a.rights.sNrIrq nrIrq
  ioRanges : CountFits a.sFlags checkIoPort a.rights.sNrIoRange nrIoRange
  memRanges : CountFits a.sFlags checkMem a.rights.sNrMemRange nrMemRange

def Copies (fits : Prop) (copy : Rights → Except Rights Rights) : Prop :=
  ∀ r, (fits ∧ ∃ r', copy r = .ok r' ∧ r'.sAlarmTimer = r.sAlarmTimer) ∨ (¬ fits ∧ copy r = .error r)

lemma copies_copyTable {flag : BitVec 16} {nr : Int} {max : Nat} {fill : Rights → Rights} (a : PrivArg)
    (hfill : ∀ r, (fill r).sAlarmTimer = r.sAlarmTimer) :
    Copies (CountFits a.sFlags flag nr max) (copyTable flag nr max fill a) := by
  intro r
  unfold copyTable CountFits
  by_cases hflag : a.sFlags &&& flag = 0
  · exact .inl ⟨fun hne => absurd hflag hne, r, if_pos hflag, rfl⟩
  rw [if_neg hflag]
  by_cases hnr : nr < 0 ∨ max < nr
  · exact .inr ⟨fun hfit => absurd (hfit hflag) (by omega), if_pos hnr⟩
  · exact .inl ⟨fun _ => by omega, fill r, if_neg hnr, hfill r⟩

lemma copies_irqs (a : PrivArg) : Copies (CountFits a.sFlags checkIrq a.rights.sNrIrq nrIrq) (copyIrqs a) :=
  copies_copyTable a fun _ => rfl

lemma copies_ioRanges (a : PrivArg) :
    Copies (CountFits a.sFlags checkIoPort a.rights.sNrIoRange nrIoRange) (copyIoRanges a) :=
  copies_copyTable a fun _ => rfl

lemma copies_memRanges (a : PrivArg) :
    Copies (CountFits a.sFlags checkMem a.rights.sNrMemRange nrMemRange) (copyMemRanges a) :=
  copies_copyTable a fun _ => rfl

lemma copyResources_cases (a : PrivArg) (r : Rights) :
    (a.Fits ∧ ∃ r', copyResources a r = .ok r' ∧ r'.sAlarmTimer = r.sAlarmTimer) ∨
      (¬ a.Fits ∧ ∃ r', copyResources a r = .error r' ∧ r'.sAlarmTimer = r.sAlarmTimer) := by
  unfold copyResources
  rcases copies_irqs a r with ⟨hirq, r₁, h₁, e₁⟩ | ⟨hirq, h₁⟩
  swap
  · exact .inr ⟨fun h => hirq h.irqs, r, by rw [h₁]; rfl, rfl⟩
  rcases copies_ioRanges a r₁ with ⟨hio, r₂, h₂, e₂⟩ | ⟨hio, h₂⟩
  swap
  · refine .inr ⟨fun h => hio h.ioRanges, r₁, ?_, e₁⟩
    simp only [h₁, h₂, bind, Except.bind]
  rcases copies_memRanges a r₂ with ⟨hmem, r₃, h₃, e₃⟩ | ⟨hmem, h₃⟩
  · refine .inl ⟨⟨hirq, hio, hmem⟩, r₃, ?_, e₃.trans (e₂.trans e₁)⟩
    simp only [h₁, h₂, h₃, bind, Except.bind]
  · refine .inr ⟨fun h => hmem h.memRanges, r₂, ?_, e₂.trans e₁⟩
    simp only [h₁, h₂, h₃, bind, Except.bind]

namespace PrivState

structure Claims (s : PrivState) (who : Slot) (m : PrivMsg) (rp : Slot) (a : Option PrivArg)
    (n : PrivId) : Prop where
  caller : ∃ i, (s.kernel.proc who).pPriv = some i ∧ (s.kernel.priv i).sFlags &&& sysProc ≠ 0
  target : s.privTarget who m.ctlEndpt = some rp
  request : m.ctlRequest = .setSys (a.map .ok)
  blocked : s.kernel.rtsIsset rp rtsNoPriv = true
  found : s.kernel.findPriv (privIdOf a) = .ok n

lemma Claims.unique {s : PrivState} {who : Slot} {m : PrivMsg} {rp rp' : Slot}
    {a a' : Option PrivArg} {n n' : PrivId}
    (h : s.Claims who m rp a n) (h' : s.Claims who m rp' a' n') : rp = rp' ∧ a = a' ∧ n = n' := by
  have harg : a = a' := by
    have hmap := PrivRequest.setSys.inj (h.request.symm.trans h'.request)
    exact Option.map_injective (fun _ _ => Except.ok.inj) hmap
  subst harg
  exact ⟨Option.some.inj (h.target.symm.trans h'.target), rfl, Except.ok.inj (h.found.symm.trans h'.found)⟩

def Source (s : PrivState) (who rp : Slot) (n j : PrivId) : Prop :=
  ((s.kernel.claimPriv rp n).proc who).pPriv = some j

structure Installed (s : PrivState) (rp : Slot) (n j : PrivId) (k : State) : Prop where
  proc : k.proc = (s.kernel.claimPriv rp n).proc
  others : ∀ i, i ≠ n → k.priv i = s.kernel.priv i
  new : ∃ flags trap, k.priv n = { (s.kernel.claimPriv rp n).priv j with
    sId := (s.kernel.priv n).sId, sProcNr := procNr rp, sNotifyPending := fun _ => 0,
    sIntPending := 0, sSigPending := 0, sFlags := flags, sTrapMask := trap }

variable {s s' : PrivState} {who rp : Slot} {m : PrivMsg} {a : Option PrivArg} {n : PrivId} {r : Int}

lemma claimPriv_others (k : State) {i : PrivId} (hi : i ≠ n) : (k.claimPriv rp n).priv i = k.priv i := by
  rw [State.claimPriv, State.modPriv_priv, if_neg hi, State.modProc_priv]

lemma Installed.modPriv {j : PrivId} {k : State} (h : s.Installed rp n j k) {f : Priv → Priv}
    (hf : ∀ v, ∃ flags trap, f v = { v with sFlags := flags, sTrapMask := trap }) :
    s.Installed rp n j (k.modPriv n f) := by
  refine ⟨h.proc, fun i hi => ?_, ?_⟩
  · rw [State.modPriv_priv, if_neg hi]
    exact h.others i hi
  obtain ⟨flags, trap, hnew⟩ := h.new
  obtain ⟨flags', trap', hf⟩ := hf (k.priv n)
  exact ⟨flags', trap', by rw [State.modPriv_priv, if_pos rfl, hf, hnew]⟩

lemma inheritPriv_installed (s : PrivState) (rp : Slot) (n j : PrivId) :
    s.Installed rp n j ((s.modKernel fun k => k.claimPriv rp n).inheritPriv rp n j).kernel := by
  refine ⟨rfl, fun i hi => ?_, defSysF, defSysT, ?_⟩
  · simp only [inheritPriv, modKernel]
    rw [State.modPriv_priv, if_neg hi]
    exact claimPriv_others s.kernel hi
  simp only [inheritPriv, modKernel]
  have hid : ((s.kernel.claimPriv rp n).priv n).sId = (s.kernel.priv n).sId := by
    rw [State.claimPriv, State.modPriv_priv, if_pos rfl, State.modProc_priv]
  rw [State.modPriv_priv, if_pos rfl, hid]

lemma installPriv_spec (hok : s.installPriv who rp a n = .ok (r, s')) : ∃ j k, s.Source who rp n j ∧
    s.Installed rp n j k ∧ (s'.rights n).sAlarmTimer = (s.rights j).sAlarmTimer ∧
    ((∀ x ∈ a, x.Fits) ∧ r = 0 ∧ (∃ targets, s'.kernel = k.fillTargets n targets) ∨
      ¬ (∀ x ∈ a, x.Fits) ∧ r = -einval ∧ s'.kernel = k ∧ (k.priv n).sTrapMask = defSysT) := by
  obtain ⟨j, hj, hok⟩ := bind_eq_ok.mp hok
  have hsource : s.Source who rp n j := (State.privOf_eq_ok _).mp hj
  have hinst := inheritPriv_installed s rp n j
  have halarm : (((s.modKernel fun k => k.claimPriv rp n).inheritPriv rp n j).rights n).sAlarmTimer =
      (s.rights j).sAlarmTimer := by
    simp only [inheritPriv, modKernel, update_self]
  cases a with
  | none =>
    cases hok
    exact ⟨j, _, hsource, hinst, halarm, .inl ⟨nofun, rfl, defSysM, rfl⟩⟩
  | some x =>
    generalize hu : (s.modKernel fun k => k.claimPriv rp n).inheritPriv rp n j = u at hok hinst halarm
    have htrap : (u.kernel.priv n).sTrapMask = defSysT := by
      rw [← hu]
      simp only [inheritPriv, modKernel]
      rw [State.modPriv_priv, if_pos rfl]
    have hflag := hinst.modPriv (f := fun v => { v with sFlags := x.sFlags }) fun v => ⟨_, _, rfl⟩
    have hok := Except.ok.inj hok
    unfold overridePriv at hok
    simp only [modKernel] at hok
    rcases copyResources_cases x (u.rights n) with ⟨hfit, r', hr, hal⟩ | ⟨hfit, r', hr, hal⟩
    · simp only [hr] at hok
      cases hok
      refine ⟨j, _, hsource, hflag.modPriv (f := fun v => { v with sTrapMask := x.sTrapMask })
        fun v => ⟨_, _, rfl⟩, ?_,
        .inl ⟨fun y hy => Option.some.inj hy ▸ hfit, rfl, _, rfl⟩⟩
      simp only [setRights, update_self]
      exact hal.trans halarm
    · simp only [hr] at hok
      cases hok
      refine ⟨j, _, hsource, hflag, ?_, .inr ⟨fun hall => hfit (hall x rfl), rfl, rfl, ?_⟩⟩
      · simp only [setRights, update_self]
        exact hal.trans halarm
      · rw [State.modPriv_priv, if_pos rfl]
        exact htrap

lemma findPriv_error {k : State} {id r : Int} (h : k.findPriv id = .error r) : r ≠ 0 := by
  unfold State.findPriv at h
  split at h
  · split at h
    · nomatch h
    · rw [← Except.error.inj h]
      decide
  split at h
  · rw [← Except.error.inj h]
    decide
  split at h
  · nomatch h
  · rw [← Except.error.inj h]
    decide

lemma findPriv_free {k : State} {id : Int} (h : k.findPriv id = .ok n) : k.freePriv n = true := by
  unfold State.findPriv at h
  split at h
  · split at h
    · next i hf =>
      cases h
      have hfound := List.find?_some (p := fun i => decide (nrBootProcs ≤ i.val ∧ k.freePriv i = true)) hf
      exact (of_decide_eq_true hfound).2
    · nomatch h
  · split at h
    · nomatch h
    · split at h
      · next hfree => exact Except.ok.inj h ▸ hfree
      · nomatch h

lemma doPrivctl_setSys {arg : Option (Copied PrivArg)} (hm : m.ctlRequest = .setSys arg)
    (hok : s.doPrivctl who m = .ok (r, s')) : (r ≠ 0 ∧ s' = s ∧ ∀ rp a n, ¬ s.Claims who m rp a n) ∨
      ∃ rp a n, s.Claims who m rp a n ∧ s.installPriv who rp a n = .ok (r, s') := by
  obtain ⟨i, hi, hok⟩ := bind_eq_ok.mp hok
  have hi := (State.privOf_eq_ok _).mp hi
  split_ifs at hok with hsys
  · cases hok
    refine .inl ⟨by decide, rfl, fun rp a n hc => ?_⟩
    obtain ⟨i', hi', hsys'⟩ := hc.caller
    obtain rfl := Option.some.inj (hi.symm.trans hi')
    exact hsys' hsys
  split at hok
  · next ht =>
    cases hok
    exact .inl ⟨by decide, rfl, fun rp a n hc => nomatch ht.symm.trans hc.target⟩
  next rp ht =>
  simp only [privRequest, hm, privSetSys] at hok
  have hrp : ∀ {rp' a n}, s.Claims who m rp' a n → rp' = rp :=
    fun hc => Option.some.inj (hc.target.symm.trans ht)
  have harg : ∀ {rp' a n}, s.Claims who m rp' a n → arg = a.map .ok := fun hc =>
    PrivRequest.setSys.inj (hm.symm.trans hc.request)
  split_ifs at hok with hblock
  · cases hok
    refine .inl ⟨by decide, rfl, fun rp' a n hc => ?_⟩
    have := hc.blocked
    rw [hrp hc, hblock] at this
    nomatch this
  -- The two cases that call `get_priv` differ in the id they ask for.
  have hget : ∀ a : Option PrivArg, arg = a.map .ok → (match s.kernel.findPriv (privIdOf a) with
      | .error r => Except.ok (r, s)
      | .ok n => s.installPriv who rp a n) = .ok (r, s') →
      (r ≠ 0 ∧ s' = s ∧ ∀ rp a n, ¬ s.Claims who m rp a n) ∨
        ∃ rp a n, s.Claims who m rp a n ∧ s.installPriv who rp a n = .ok (r, s') := by
    intro a ha hok
    split at hok
    · next e hf =>
      cases hok
      refine .inl ⟨findPriv_error hf, rfl, fun rp' a' n hc => ?_⟩
      obtain rfl : a' = a := Option.map_injective (fun _ _ => Except.ok.inj) ((harg hc).symm.trans ha)
      nomatch hf.symm.trans hc.found
    · next n hf =>
        exact .inr ⟨rp, a, n, ⟨⟨i, hi, hsys⟩, ht, ha ▸ hm, Bool.eq_true_of_not_eq_false hblock, hf⟩,
          hok⟩
  cases arg with
  | none => exact hget none rfl hok
  | some x =>
    cases x with
    | ok x => exact hget (some x) rfl hok
    | error e =>
      cases hok
      refine .inl ⟨e.2, rfl, fun rp' a n hc => ?_⟩
      have hmap := harg hc
      cases a with
      | none => nomatch hmap
      | some x => nomatch Option.some.inj hmap

end PrivState

end Nucleos.Kernel
