import Nucleos.Vfs.FileRun

/-!
# Stat and mount

Two more handlers that hold vnodes while they work, and calls as a process sees them: an open may
be suspended and end much later.
-/

namespace Nucleos.Vfs

open Run

inductive PathFlag where
  | noflags
  | retSymlink
deriving DecidableEq, Repr

structure StatReq where
  name : Int
  ans : PathFlag → Except Int Node
  stat : Int
  buffer : Bool
  copied : Bool

def statWith (flag : PathFlag) (req : StatReq) (s : Files) : Except VfsPanic (Int × Files) :=
  if req.name < 0 then .ok (req.name, s)
  else
    match advance (req.ans flag) s with
    | (.error r, s) => .ok (r, s)
    | (.ok vp, s) =>
      if req.stat = 0 ∧ req.buffer = false then .ok (-efault, s)
      else do
        let s ← putVnode vp s
        .ok (if req.stat = 0 ∧ req.copied = false then -efault else req.stat, s)

def doStat : StatReq → Files → Except VfsPanic (Int × Files) := statWith .noflags

def doLstat : StatReq → Files → Except VfsPanic (Int × Files) := statWith .retSymlink

/-! ## Mount -/

def vfsProcNr : Proc := ⟨1, one_lt_nrProcs⟩

structure MountReq where
  superUser : Bool
  fsE : Int
  loggedIn : Bool
  name1 : Int
  special : Except Int Node
  sdev : Nat
  rootDev : Option Nat
  name2 : Int
  isroot : Bool
  allowNewroot : Bool
  point : Except Int Node
  mountpoint : Int
  driver : Bool
  label : Bool
  readsuper : Except Int Node

def nameToDev (req : MountReq) (s : Files) : Except VfsPanic (Except Int Nat × Files) :=
  match advance req.special s with
  | (.error r, s) => .ok (.error r, s)
  | (.ok vp, s) => do
    let t ← putVnode vp s
    .ok (if (s.vnode vp).node.fmode ≠ .blockSpecial then .error (-enotblk) else .ok req.sdev, t)

def findMounted (dev : Nat) (s : Files) : Option MntNr :=
  (List.finRange nrMnts).find? fun m => (s.vmnt m).mDev = some dev

def findFreeMnt (s : Files) : Option MntNr := (List.finRange nrMnts).find? fun m => (s.vmnt m).mDev = none

def isDir (v : VnodeNr) (s : Files) : Bool := (s.vnode v).node.fmode = .directory

def remountOn (m : MntNr) (vp : VnodeNr) (req : MountReq) (s : Files) : Except VfsPanic (Int × Files) :=
  if (s.vnode vp).vRefCount ≠ 1 then do
    let s ← putVnode vp s
    .ok (-ebusy, s)
  else if req.mountpoint ≠ 0 then do
    let s ← putVnode vp s
    .ok (req.mountpoint, s)
  else
    match (s.vmnt m).mRootNode with
    | none => .error .badVp
    | some root =>
      if isDir vp s = false ∧ isDir root s = true then do
        let s ← putVnode vp s
        .ok (-eisdir, s)
      else .ok (0, s.setVmnt m { s.vmnt m with mMountedOn := some vp })

def remount (m : MntNr) (req : MountReq) (s : Files) : Except VfsPanic (Int × Files) :=
  if (s.vmnt m).mMountedOn.isSome ∨ (s.vmnt m).mMountedOn = (s.proc vfsProcNr).fpRd then .ok (-ebusy, s)
  else if req.rootDev = (s.vmnt m).mDev then .error .badRoot
  else if req.name2 < 0 then .ok (req.name2, s)
  else
    match advance req.point s with
    | (.error r, s) => .ok (r, s)
    | (.ok vp, s) => remountOn m vp req s

def makeRoot (root : VnodeNr) (p : Proc) (d : DirSlot) (s : Files) : Except VfsPanic Files :=
  match (s.proc p).dir d with
  | none => .ok s
  | some old => do
    let s ← putVnode old s
    .ok ((dupVnode root s).setProc p ((s.proc p).setDir d (some root)))

def replaceRoots (root : VnodeNr) (s : Files) : Except VfsPanic Files :=
  (List.finRange nrProcs).foldlM (fun s p => if (s.proc p).live then do
    let s ← makeRoot root p .rd s
    makeRoot root p .wd s
  else .ok s) s

def mountRoot (m : MntNr) (vp : Option VnodeNr) (root : VnodeNr) (dev : Nat) (n : Node)
    (s : Files) : Except VfsPanic (Int × Files) :=
  let s := (s.setVnode root ⟨n, (s.vnode root).vMapped, 1, 1⟩).setVmnt m { s.vmnt m with mDev := some dev }
  match vp with
  | none => do
    let s ← replaceRoots root (s.setVmnt m ⟨some dev, some root, none⟩)
    .ok (0, s)
  | some vp =>
    if isDir vp s = false ∧ isDir root s = true then do
      let s ← putVnode vp s
      let s ← putVnode root s
      .ok (-eisdir, s.setVmnt m { s.vmnt m with mDev := none })
    else .ok (0, s.setVmnt m ⟨some dev, some root, some vp⟩)

def mountOn (vp : Option VnodeNr) (dev : Nat) (req : MountReq) (s : Files) : Except VfsPanic (Int × Files) :=
  match s.getFreeVnode with
  | none => .ok (-enfile, s)
  | some root =>
    if req.driver = false then .ok (-einval, s)
    else if req.label = false then .error .noLabel
    else
      match req.readsuper with
      | .error r => do
        let s ← match vp with
          | some vp => putVnode vp s
          | none => .ok s
        .ok (r, s)
      | .ok n =>
        match findFreeMnt s with
        | none => .error .noVmnt
        | some m => mountRoot m vp root dev n s

def mountNew (dev : Nat) (req : MountReq) (s : Files) : Except VfsPanic (Int × Files) :=
  if req.name2 < 0 then .ok (req.name2, s)
  else if req.isroot ∧ req.allowNewroot then mountOn none dev req s
  else
    match advance req.point s with
    | (.error r, s) => .ok (r, s)
    | (.ok vp, s) =>
      if req.mountpoint ≠ 0 then do
        let s ← putVnode vp s
        .ok (req.mountpoint, s)
      else mountOn (some vp) dev req s

def mountDev (req : MountReq) (x : Except Int Nat) (s : Files) : Except VfsPanic (Int × Files) :=
  match x with
  | .error r => .ok (r, s)
  | .ok dev =>
    match findMounted dev s with
    | some m => remount m req s
    | none => mountNew dev req s

def mountFs (req : MountReq) (s : Files) : Except VfsPanic (Int × Files) :=
  if req.superUser = false then .ok (-eperm, s)
  else if req.fsE ≤ 0 then .ok (-einval, s)
  else if req.loggedIn = false then .ok (suspended, s)
  else if req.name1 < 0 then .ok (req.name1, s)
  else do
    let x ← nameToDev req s
    mountDev req x.1 x.2

/-! ## Calls from begin to end -/

/-- What becomes of an open that is suspended. -/
inductive Later where
  | waits
  | signal
  | reply (returned : Int)

inductive FileCall where
  | openFile (req : OpenReq) (later : Later)
  | pipe (newnode : Except Int Node) (copied : Bool)
  | stat (req : StatReq)
  | lstat (req : StatReq)
  | mount (req : MountReq)

def finishOpen (who : Proc) (later : Later) (x : Int × Files) : Except VfsPanic (Int × Files) :=
  match later, (x.2.proc who).blockedOn with
  | .signal, some (.popen _) => .ok (unpauseOpen who x.2)
  | .reply returned, some (.dopen fd) => reviveDopen who fd returned x.2
  | _, _ => .ok x

def runCall (who : Proc) (s : Files) : FileCall → Except VfsPanic (Int × Files)
  | .openFile req later => do
    let x ← commonOpen who req s
    if x.1 = suspended then finishOpen who later x else .ok x
  | .pipe newnode copied => scallPipe who newnode copied s
  | .stat req => doStat req s
  | .lstat req => doLstat req s
  | .mount req => mountFs req s

end Nucleos.Vfs
