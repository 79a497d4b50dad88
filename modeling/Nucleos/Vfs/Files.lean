import Nucleos.Vfs.Pipe

/-!
# Descriptors, filps and vnodes

A descriptor of a process points to a filp, and a filp to a vnode. Both count those that point to
them. A vnode is also counted for the root and the working directory of a process and for a mounted
file system. The handlers take references while they work and give back those that they do not
leave behind. What file systems, drivers and the memory of processes answer comes with the request.
-/

namespace Nucleos.Vfs

open Function Run

def nrVnodes : Nat := 512
def nrFilps : Nat := 512
def nrMnts : Nat := 8

abbrev VnodeNr := Fin nrVnodes
abbrev FilpNr := Fin nrFilps

lemma nrVnodes_pos : 0 < nrVnodes := by decide
lemma nrFilps_pos : 0 < nrFilps := by decide
abbrev MntNr := Fin nrMnts

inductive FileType where
  | regular
  | directory
  | charSpecial
  | blockSpecial
  | namedPipe
  | symlink
deriving DecidableEq, Repr

def enoent : Int := 2
def enxio : Int := 6
def ebusy : Int := 16
def eexist : Int := 17
def enotdir : Int := 20
def eisdir : Int := 21
def enfile : Int := 23
def emfile : Int := 24
def enotblk : Int := 15
def eperm : Int := 1
def eintr : Int := 4

structure Node where
  fsE : Int
  inodeNr : Nat
  fmode : FileType

structure Vnode where
  node : Node
  vMapped : Bool
  vRefCount : Nat
  vFsCount : Nat

structure Filp where
  filpCount : Nat
  filpVno : Option VnodeNr
  rBit : Bool
  wBit : Bool

/-- An open for which the caller is suspended, with its descriptor. -/
inductive OpenWait where
  | popen (fd : Fd)
  | dopen (fd : Fd)

structure Fproc where
  live : Bool
  fpFilp : Fd → Option FilpNr
  fpFilpInuse : Fd → Bool
  fpRd : Option VnodeNr
  fpWd : Option VnodeNr
  blockedOn : Option OpenWait

structure Vmnt where
  mDev : Option Nat
  mRootNode : Option VnodeNr
  mMountedOn : Option VnodeNr

structure Files where
  proc : Proc → Fproc
  filp : FilpNr → Filp
  vnode : VnodeNr → Vnode
  vmnt : MntNr → Vmnt

inductive VfsPanic where
  | badRefCount
  | badFsCount
  | badVp
  | badFilpCount
  | forkOnTop
  | badRoot
  | noLabel
  | noVmnt
deriving DecidableEq, Repr

def Files.setProc (s : Files) (p : Proc) (x : Fproc) : Files := { s with proc := update s.proc p x }
def Files.setFilp (s : Files) (f : FilpNr) (x : Filp) : Files := { s with filp := update s.filp f x }
def Files.setVnode (s : Files) (v : VnodeNr) (x : Vnode) : Files := { s with vnode := update s.vnode v x }
def Files.setVmnt (s : Files) (m : MntNr) (x : Vmnt) : Files := { s with vmnt := update s.vmnt m x }

/-! ## Vnodes -/

def Files.getFreeVnode (s : Files) : Option VnodeNr :=
  (List.finRange nrVnodes).find? fun v => (s.vnode v).vRefCount = 0

def Files.findVnode (s : Files) (n : Node) : Option VnodeNr :=
  (List.finRange nrVnodes).find? fun v =>
    0 < (s.vnode v).vRefCount ∧ (s.vnode v).node.inodeNr = n.inodeNr ∧ (s.vnode v).node.fsE = n.fsE

def dupVnode (v : VnodeNr) (s : Files) : Files :=
  s.setVnode v { s.vnode v with vRefCount := (s.vnode v).vRefCount + 1 }

def putVnode (v : VnodeNr) (s : Files) : Except VfsPanic Files :=
  let x := s.vnode v
  if 1 < x.vRefCount then
    .ok (s.setVnode v { x with
      vRefCount := x.vRefCount - 1, vFsCount := if 256 < x.vFsCount then 1 else x.vFsCount })
  else if x.vRefCount = 0 then .error .badRefCount
  else if x.vFsCount = 0 then .error .badFsCount
  else .ok (s.setVnode v { x with vMapped := false, vRefCount := 0, vFsCount := 0 })

def advance (ans : Except Int Node) (s : Files) : Except Int VnodeNr × Files :=
  match s.getFreeVnode with
  | none => (.error (-enfile), s)
  | some new =>
    match ans with
    | .error r => (.error r, s)
    | .ok n =>
      match s.findVnode n with
      | some v => (.ok v, s.setVnode v { s.vnode v with
          vRefCount := (s.vnode v).vRefCount + 1, vFsCount := (s.vnode v).vFsCount + 1 })
      | none => (.ok new, s.setVnode new ⟨n, false, 1, 1⟩)

/-- Where the directory of the last component is: the path has but one component, or what `lookup`
answers for the rest. -/
inductive DirAnswer where
  | here
  | looked (ans : Except Int Node)

def lastDir (who : Proc) (dir : DirAnswer) (s : Files) : Except VfsPanic (Except Int VnodeNr × Files) :=
  match dir with
  | .here =>
    match (s.proc who).fpWd with
    | some vp => .ok (.ok vp, dupVnode vp s)
    | none => .error .badVp
  | .looked ans => .ok (advance ans s)

def newIn (dirp : VnodeNr) (last made : Except Int Node) (s : Files) :
    Except VfsPanic ((Option VnodeNr × Int) × Files) :=
  match advance last s with
  | (.ok vp, s) => do
    let s ← putVnode dirp s
    .ok ((some vp, -eexist), s)
  | (.error r, s) =>
    if r = -enoent then
      match s.getFreeVnode, made with
      | some new, .ok n => do
        let s ← putVnode dirp (s.setVnode new ⟨n, false, 1, 1⟩)
        .ok ((some new, 0), s)
      | some _, .error r => do
        let s ← putVnode dirp s
        .ok ((none, r), s)
      | none, _ => do
        let s ← putVnode dirp s
        .ok ((none, -enfile), s)
    else do
      let s ← putVnode dirp s
      .ok ((none, r), s)

def newNode (who : Proc) (dir : DirAnswer) (last made : Except Int Node) (s : Files) :
    Except VfsPanic ((Option VnodeNr × Int) × Files) := do
  let x ← lastDir who dir s
  match x.1 with
  | .error r => .ok ((none, r), x.2)
  | .ok dirp => newIn dirp last made x.2

/-! ## Descriptors -/

def getFd (who : Proc) (start : Nat) (s : Files) : Except Int (Fd × FilpNr) :=
  match (List.finRange openMax).find? fun fd : Fd => start ≤ fd.val ∧
    (s.proc who).fpFilp fd = none ∧ (s.proc who).fpFilpInuse fd = false with
  | none => .error (-emfile)
  | some fd =>
    match (List.finRange nrFilps).find? fun f => (s.filp f).filpCount = 0 with
    | none => .error (-enfile)
    | some f => .ok (fd, f)

def findFilp (vp : VnodeNr) (rBit : Bool) (s : Files) : Option FilpNr :=
  (List.finRange nrFilps).find? fun f =>
    (s.filp f).filpCount ≠ 0 ∧ (s.filp f).filpVno = some vp ∧
      (if rBit then (s.filp f).rBit = true else (s.filp f).wBit = true)

def Files.setFd (s : Files) (who : Proc) (fd : Fd) (f : Option FilpNr) (inuse : Bool) : Files :=
  s.setProc who { s.proc who with
    fpFilp := update (s.proc who).fpFilp fd f
    fpFilpInuse := update (s.proc who).fpFilpInuse fd inuse }

def Files.setCount (s : Files) (f : FilpNr) (n : Nat) : Files := s.setFilp f { s.filp f with filpCount := n }

/-- What `dev_open` answers; a device that clones itself comes with the node of the clone. -/
inductive DevAnswer where
  | done (r : Int)
  | suspend
  | cloned (n : Node)

/-- What an open is asked for, and the answers to it; `map` and `trunc` are the errors of the file
systems, 0 if there is none. -/
structure OpenReq where
  name : Int
  bits : Option (Bool × Bool)
  creat : Bool
  excl : Bool
  nonblock : Bool
  dir : DirAnswer
  last : Except Int Node
  made : Except Int Node
  forbidden : Int
  regular : Int
  dev : DevAnswer
  block : Int
  map : Nat
  trunc : Nat

def cloneOpcl (f : FilpNr) (n : Node) (s : Files) : Except VfsPanic Files :=
  match (s.filp f).filpVno with
  | none => .error .badVp
  | some old => do
    let s ← putVnode old s
    let vp := s.getFreeVnode.getD old
    .ok ((s.setVnode vp ⟨n, (s.vnode vp).vMapped, 1, 1⟩).setFilp f { s.filp f with filpVno := some vp })

/-- `pipe_open`. Whom it revives is left to `OpenWait` ending at any time. -/
def pipeOpen (who : Proc) (fd : Fd) (vp : VnodeNr) (rBit wBit nonblock : Bool) (s : Files) : Int × Files :=
  if rBit ∧ wBit then (-enxio, s)
  else
    match findFilp vp wBit s with
    | some _ => (0, s)
    | none =>
      if nonblock then (if wBit then -enxio else 0, s)
      else (suspended, s.setProc who { s.proc who with blockedOn := some (.popen fd) })

def shareFilp (who : Proc) (fd : Fd) (f : FilpNr) (vp : VnodeNr) (rBit : Bool) (s : Files) :
    Except VfsPanic Files :=
  let s := s.setCount f 0
  match findFilp vp rBit s with
  | some f' => putVnode vp ((s.setFd who fd (some f') ((s.proc who).fpFilpInuse fd)).setCount f'
      ((s.filp f').filpCount + 1))
  | none => .ok (s.setCount f 1)

def mapFifo (vp : VnodeNr) (req : OpenReq) (s : Files) : Int × Files :=
  let r : Int := if (s.vnode vp).vMapped then 0 else -req.map
  let s := if r = 0 then s.setVnode vp { s.vnode vp with vMapped := true } else s
  (if r = 0 ∧ (s.vnode vp).vRefCount = 1 then -req.trunc else r, s)

def openFifo (who : Proc) (fd : Fd) (f : FilpNr) (vp : VnodeNr) (rBit wBit : Bool) (req : OpenReq)
    (s : Files) :
    Except VfsPanic (Int × Files) :=
  let x := mapFifo vp req s
  let y := if x.1 = 0 then pipeOpen who fd vp rBit wBit req.nonblock x.2 else x
  if y.1 ≠ -enxio then do
    let s ← shareFilp who fd f vp rBit y.2
    .ok (y.1, s)
  else .ok y

def openNode (who : Proc) (fd : Fd) (f : FilpNr) (vp : VnodeNr) (rBit wBit : Bool) (req : OpenReq)
    (s : Files) :
    Except VfsPanic (Int × Files) :=
  if req.forbidden ≠ 0 then .ok (req.forbidden, s)
  else
    match (s.vnode vp).node.fmode with
    | .regular => .ok (req.regular, s)
    | .directory => .ok (if wBit then -eisdir else 0, s)
    | .charSpecial =>
      match req.dev with
      | .done r => .ok (r, s)
      | .suspend => .ok (suspended, s.setProc who { s.proc who with blockedOn := some (.dopen fd) })
      | .cloned n => do
        let s ← cloneOpcl f n s
        .ok (0, s)
    | .blockSpecial => .ok (req.block, s)
    | .namedPipe => openFifo who fd f vp rBit wBit req s
    | .symlink => .ok (0, s)

def unclaim (who : Proc) (fd : Fd) (f : FilpNr) (vp : VnodeNr) (s : Files) : Except VfsPanic Files := do
  let s ← putVnode vp ((s.setFd who fd none false).setCount f 0)
  .ok (s.setFilp f { s.filp f with filpVno := none })

def claim (who : Proc) (fd : Fd) (f : FilpNr) (vp : VnodeNr) (rBit wBit : Bool) (s : Files) : Files :=
  (s.setFd who fd (some f) true).setFilp f ⟨1, some vp, rBit, wBit⟩

def openExisting (who : Proc) (fd : Fd) (f : FilpNr) (vp : VnodeNr) (rBit wBit : Bool)
    (req : OpenReq) (exist : Bool) (r : Int) (s : Files) :
    Except VfsPanic (Int × Files) :=
  if exist then openNode who fd f vp rBit wBit req s else .ok (r, s)

def openVnode (who : Proc) (fd : Fd) (f : FilpNr) (vp : VnodeNr) (rBit wBit : Bool) (req : OpenReq)
    (exist : Bool) (r : Int) (s : Files) :
    Except VfsPanic (Int × Files) := do
  let x ← openExisting who fd f vp rBit wBit req exist r (claim who fd f vp rBit wBit s)
  if x.1 = 0 then .ok (fd.val, x.2)
  else if x.1 = suspended then .ok x
  else do
    let s ← unclaim who fd f vp x.2
    .ok (x.1, s)

def openNew (who : Proc) (fd : Fd) (f : FilpNr) (rBit wBit : Bool) (req : OpenReq)
    (x : Option VnodeNr × Int) (s : Files) :
    Except VfsPanic (Int × Files) :=
  if x.2 ≠ 0 ∧ x.2 ≠ -eexist then .ok (x.2, s)
  else
    match x.1 with
    | none => .error .badVp
    | some vp => openVnode who fd f vp rBit wBit req (x.2 ≠ 0 ∧ req.excl = false) x.2 s

def commonOpen (who : Proc) (req : OpenReq) (s : Files) : Except VfsPanic (Int × Files) :=
  if req.name < 0 then .ok (req.name, s)
  else
    match req.bits with
    | none => .ok (-einval, s)
    | some (rBit, wBit) =>
      match getFd who 0 s with
      | .error r => .ok (r, s)
      | .ok (fd, f) =>
        if req.creat then do
          let x ← newNode who req.dir req.last req.made s
          openNew who fd f rBit wBit req x.1 x.2
        else
          match advance req.last s with
          | (.error r, s) => .ok (r, s)
          | (.ok vp, s) => openVnode who fd f vp rBit wBit req true 0 s

def reviveDopen (who : Proc) (fd : Fd) (returned : Int) (s : Files) : Except VfsPanic (Int × Files) :=
  let s := s.setProc who { s.proc who with blockedOn := none }
  if 0 ≤ returned then .ok (fd.val, s)
  else
    match (s.proc who).fpFilp fd with
    | none => .error .badVp
    | some f =>
      if (s.filp f).filpCount ≠ 1 then .error .badFilpCount
      else
        match (s.filp f).filpVno with
        | none => .error .badVp
        | some vp => do
          let s ← unclaim who fd f vp s
          .ok (returned, s)

def unpauseOpen (who : Proc) (s : Files) : Int × Files :=
  match (s.proc who).blockedOn with
  | some (.popen _) => (-eintr, s.setProc who { s.proc who with blockedOn := none })
  | _ => (0, s)

def pipeEnd (who : Proc) (fd : Fd) (f : FilpNr) (reading : Bool) (s : Files) : Files :=
  (s.setFd who fd (some f) true).setFilp f { s.filp f with filpCount := 1, rBit := reading, wBit := !reading }

def dropEnd (who : Proc) (fd : Fd) (f : FilpNr) (s : Files) : Files :=
  (s.setFd who fd none false).setCount f 0

def Files.setVno (s : Files) (f : FilpNr) (vp : VnodeNr) : Files :=
  s.setFilp f { s.filp f with filpVno := some vp }

def scallPipe (who : Proc) (newnode : Except Int Node) (copied : Bool) (s : Files) :
    Except VfsPanic (Int × Files) :=
  match s.getFreeVnode with
  | none => .ok (-enfile, s)
  | some vp =>
    match getFd who 0 s with
    | .error r => .ok (r, s)
    | .ok (fd₀, f₀) =>
      let s₀ := pipeEnd who fd₀ f₀ true s
      match getFd who 0 s₀ with
      | .error r => .ok (r, dropEnd who fd₀ f₀ s₀)
      | .ok (fd₁, f₁) =>
        let s₁ := pipeEnd who fd₁ f₁ false s₀
        match newnode with
        | .error r => .ok (r, dropEnd who fd₁ f₁ (dropEnd who fd₀ f₀ s₁))
        | .ok n => .ok (if copied then 0 else -efault,
            (dupVnode vp ((s₁.setVnode vp ⟨n, true, 1, 1⟩).setVno f₀ vp)).setVno f₁ vp)

/-- `do_dup` without the bit for `dup2`, and `F_DUPFD`, which does not note the descriptor as in
use. -/
def dupFd (who : Proc) (fd : Fd) (start : Nat) (note : Bool) (s : Files) : Int × Files :=
  match (s.proc who).fpFilp fd with
  | none => (-ebadf, s)
  | some f =>
    match getFd who start s with
    | .error r => (r, s)
    | .ok (fd', _) => (fd'.val, (s.setFd who fd' (some f) (note ||
        (s.proc who).fpFilpInuse fd')).setCount f ((s.filp f).filpCount + 1))

def closeFilpOf (f : FilpNr) (s : Files) : Except VfsPanic Files :=
  let s := s.setCount f ((s.filp f).filpCount - 1)
  if (s.filp f).filpCount = 0 then
    match (s.filp f).filpVno with
    | none => .error .badVp
    | some vp => putVnode vp s
  else .ok s

def closeFile (who : Proc) (fd : Fd) (s : Files) : Except VfsPanic (Int × Files) :=
  match (s.proc who).fpFilp fd with
  | none => .ok (-ebadf, s)
  | some f => do
    let s ← closeFilpOf f s
    .ok (0, s.setFd who fd none false)

def dup2Fd (who : Proc) (fd fd' : Fd) (s : Files) : Except VfsPanic (Int × Files) :=
  match (s.proc who).fpFilp fd with
  | none => .ok (-ebadf, s)
  | some f =>
    if fd = fd' then .ok (fd'.val, s)
    else do
      let x ← closeFile who fd' s
      .ok (fd'.val, (x.2.setFd who fd' (some f) true).setCount f ((x.2.filp f).filpCount + 1))

/-! ## Directories -/

inductive DirSlot where
  | rd
  | wd
deriving DecidableEq, Repr

instance : Fintype DirSlot := ⟨{.rd, .wd}, fun d => by cases d <;> decide⟩

def Fproc.dir (x : Fproc) : DirSlot → Option VnodeNr
  | .rd => x.fpRd
  | .wd => x.fpWd

def Fproc.setDir (x : Fproc) (d : DirSlot) (v : Option VnodeNr) : Fproc :=
  match d with
  | .rd => { x with fpRd := v }
  | .wd => { x with fpWd := v }

def changeInto (who : Proc) (d : DirSlot) (vp : VnodeNr) (forbidden : Int) (s : Files) :
    Except VfsPanic (Int × Files) :=
  let r := if (s.vnode vp).node.fmode ≠ .directory then -enotdir else forbidden
  if r ≠ 0 then do
    let s ← putVnode vp s
    .ok (r, s)
  else
    match (s.proc who).dir d with
    | none => .error .badVp
    | some old => do
      let s ← putVnode old s
      .ok (0, s.setProc who ((s.proc who).setDir d (some vp)))

def change (who : Proc) (d : DirSlot) (ans : Except Int Node) (forbidden : Int) (s : Files) :
    Except VfsPanic (Int × Files) :=
  match advance ans s with
  | (.error r, s) => .ok (r, s)
  | (.ok vp, s) => changeInto who d vp forbidden s

def doFchdir (who : Proc) (fd : Fd) (forbidden : Int) (s : Files) : Except VfsPanic (Int × Files) :=
  match (s.proc who).fpFilp fd with
  | none => .ok (-ebadf, s)
  | some f =>
    match (s.filp f).filpVno with
    | none => .error .badVp
    | some vp => changeInto who .wd vp forbidden (dupVnode vp s)

/-! ## Processes -/

def dupDir (v : Option VnodeNr) (s : Files) : Files :=
  match v with
  | some v => dupVnode v s
  | none => s

def forkFiles (parent child : Proc) (s : Files) : Except VfsPanic Files :=
  if (s.proc child).live then .error .forkOnTop
  else
    let s := s.setProc child (s.proc parent)
    let s := (List.finRange openMax).foldl (fun t fd => match (t.proc child).fpFilp fd with
      | some f => t.setCount f ((t.filp f).filpCount + 1)
      | none => t) s
    .ok (dupDir (s.proc child).fpWd (dupDir (s.proc child).fpRd s))

def putDir (who : Proc) (d : DirSlot) (s : Files) : Except VfsPanic Files :=
  match (s.proc who).dir d with
  | some v => do
    let s ← putVnode v s
    .ok (s.setProc who ((s.proc who).setDir d none))
  | none => .ok s

def exitFiles (who : Proc) (s : Files) : Except VfsPanic Files := do
  let s := s.setProc who { s.proc who with blockedOn := none }
  let s ← (List.finRange openMax).foldlM (fun s fd => (closeFile who fd s).map Prod.snd) s
  let s ← putDir who .rd s
  let s ← putDir who .wd s
  .ok (s.setProc who { s.proc who with live := false })

/-! ## Calls -/

inductive FileAct where
  | openFile (p : Proc) (req : OpenReq)
  | pipe (p : Proc) (newnode : Except Int Node) (copied : Bool)
  | dup (p : Proc) (fd : Fd) (start : Nat) (note : Bool)
  | dup2 (p : Proc) (fd fd' : Fd)
  | close (p : Proc) (fd : Fd)
  | change (p : Proc) (d : DirSlot) (ans : Except Int Node) (forbidden : Int)
  | fchdir (p : Proc) (fd : Fd) (forbidden : Int)
  | fork (parent child : Proc)
  | exit (p : Proc)
  | wake (p : Proc)
  | device (p : Proc) (returned : Int)

/-- Why a run of successful calls does not go on. -/
inductive VfsStop where
  | failed (r : Int)
  | panic (e : VfsPanic)
deriving DecidableEq, Repr

def succeeded (x : Except VfsPanic (Int × Files)) : Except VfsStop Files :=
  match x with
  | .ok (r, t) => if r < 0 ∧ r ≠ suspended then .error (.failed r) else .ok t
  | .error e => .error (.panic e)

def Fproc.ready (x : Fproc) : Prop := x.live = true ∧ x.blockedOn.isNone = true

instance (x : Fproc) : Decidable x.ready := inferInstanceAs (Decidable (_ ∧ _))

/-- The calls that have to do with references. A process that waits for an answer makes none, and
whom a call wakes is left open. -/
def Files.step (s : Files) : FileAct → Except VfsStop Files
  | .openFile p req => if (s.proc p).ready then succeeded (commonOpen p req s) else .ok s
  | .pipe p newnode copied => if (s.proc p).ready then succeeded (scallPipe p newnode copied s) else .ok s
  | .dup p fd start note => if (s.proc p).ready then succeeded (.ok (dupFd p fd start note s)) else .ok s
  | .dup2 p fd fd' => if (s.proc p).ready then succeeded (dup2Fd p fd fd' s) else .ok s
  | .close p fd => if (s.proc p).ready then succeeded (closeFile p fd s) else .ok s
  | .change p d ans forbidden => if (s.proc p).ready then succeeded (Vfs.change p d ans forbidden s)
      else .ok s
  | .fchdir p fd forbidden => if (s.proc p).ready then succeeded (doFchdir p fd forbidden s) else .ok s
  | .fork parent child => if (s.proc parent).ready
      then succeeded ((forkFiles parent child s).map fun t => (0, t)) else .ok s
  | .exit p => if (s.proc p).live then succeeded ((exitFiles p s).map fun t => (0, t)) else .ok s
  | .wake p =>
    match (s.proc p).blockedOn with
    | some (.popen _) => .ok (s.setProc p { s.proc p with blockedOn := none })
    | _ => .ok s
  | .device p returned =>
    match (s.proc p).blockedOn with
    | some (.dopen fd) => succeeded (reviveDopen p fd returned s)
    | _ => .ok s

end Nucleos.Vfs
