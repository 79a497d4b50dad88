import Nucleos.Lib.RefCount
import Nucleos.Vfs.LockRun

/-!
# Pipes

The data of a pipe are in a block of PipeFS that is filled from the front and never wraps: the
positions go back to zero when the last byte has been read. VFS has the positions and the size, and
PipeFS the size once more. A write that does not fit is suspended, one larger than the block after
as much as there is room for, and is taken up again when a reader has been there.
-/

namespace Nucleos.Vfs

open Function Run

inductive RwFlag where
  | reading
  | writing
deriving DecidableEq, Repr

def pipeBuf : Nat := 7168

def efault : Int := 14
def efbig : Int := 27
def epipe : Int := 32

def suspended : Int := -998

abbrev Fd := Fin openMax

lemma nrProcs_pos : 0 < nrProcs := by decide
lemma one_lt_nrProcs : 1 < nrProcs := by decide
lemma openMax_pos : 0 < openMax := by decide
lemma one_lt_openMax : 1 < openMax := by decide

/-- A pipe by the order in which they are made; the vnodes that they occupy are used again. -/
abbrev PipeId := Nat

/-- The filp of one end of a pipe. Processes that have the end open share it. -/
abbrev FilpId := PipeId × RwFlag

structure PipeNode where
  iSize : Nat
  bCount : Nat
  bData : Nat → UInt8

structure PipeFilp where
  filpCount : Nat
  nonblock : Bool

/-- Bytes that went into a pipe together: which write they belong to, how many bytes that write
was for, and how far into its buffer they start. -/
structure Chunk where
  serial : Nat
  request : Nat
  offset : Nat
  bytes : List UInt8

/-- What has passed through a pipe. No code reads this. -/
structure Traffic where
  chunks : List Chunk
  delivered : List UInt8

structure Pipe where
  vSize : Nat
  vPipeRdPos : Nat
  vPipeWrPos : Nat
  filp : RwFlag → PipeFilp
  node : PipeNode
  traffic : Traffic

structure PipeWait where
  fd : Fd
  rw : RwFlag
  fpBuffer : Nat
  fpNbytes : Nat
  revived : Bool

/-- The read or write that a process made last. No code reads this. -/
structure RwCall where
  serial : Nat
  buffer : Nat
  request : Nat

structure PipeProc where
  live : Bool
  fpFilp : Fd → Option FilpId
  blocked : Option PipeWait
  fpCumIoPartial : Nat
  call : RwCall

structure PipeState where
  proc : Proc → PipeProc
  pipe : PipeId → Pipe
  pipes : Nat
  suspCount : Int
  calls : Nat

inductive PipePanic where
  | cumIoPartial
  | suspCount
  | forkOnTop
deriving DecidableEq, Repr

def PipeState.setProc (s : PipeState) (p : Proc) (x : PipeProc) : PipeState :=
  { s with proc := update s.proc p x }

def PipeState.setPipe (s : PipeState) (vp : PipeId) (x : Pipe) : PipeState :=
  { s with pipe := update s.pipe vp x }

/-! ## PipeFS -/

/-- A copy between PipeFS and a process: what the memory of the process holds by then and whether
the copy goes through. -/
structure Copy where
  mem : Nat → UInt8
  ok : Bool

structure FsReply where
  res : Int
  newPos : Nat
  nbytes : Nat

def slice (d : Nat → UInt8) (start len : Nat) : List UInt8 := (List.range len).map fun i => d (start + i)

def PipeNode.getBlock (n : PipeNode) : PipeNode :=
  if n.bCount = 0 then { n with bCount := 1, bData := fun _ => 0 } else { n with bCount := n.bCount + 1 }

/-- `put_block`, which looks the block up with `get_block` and so has to take back two. -/
def PipeNode.putBlock (n : PipeNode) : PipeNode :=
  { n.getBlock with bCount := n.getBlock.bCount - 1 - 1 }

def PipeNode.store (n : PipeNode) (position nrbytes : Nat) (mem : Nat → UInt8) (buf : Nat) : PipeNode :=
  { n with bData := fun i =>
      if position ≤ i ∧ i < position + nrbytes then mem (buf + (i - position)) else n.bData i }

def PipeNode.resize (n : PipeNode) (rw : RwFlag) (position : Nat) : PipeNode :=
  match rw with
  | .writing => if n.iSize < position then { n with iSize := position } else n
  | .reading => if n.iSize ≤ position then { n with iSize := 0 } else n

def fsReadwrite (rw : RwFlag) (c : Copy) (buf position nrbytes : Nat) (n : PipeNode) : FsReply × PipeNode :=
  -- `nrbytes` is unsigned, and a request for more than the block passes this test
  if rw = .writing ∧ (BitVec.ofNat 32 pipeBuf - BitVec.ofNat 32 nrbytes).toNat < position
    then (⟨-efbig, position, 0⟩, n)
  -- PipeFS has no memory of that size behind the block, so that such a copy fails
  else if c.ok = true ∧ position + nrbytes ≤ pipeBuf then
    let n := match rw with
      | .reading => n.getBlock
      | .writing => n.getBlock.store position nrbytes c.mem buf
    (⟨0, position + nrbytes, nrbytes⟩, (n.resize rw (position + nrbytes)).putBlock)
  else (⟨-efault, position, 0⟩, (n.getBlock.resize rw position).putBlock)

/-! ## VFS -/

/-- `pipe_check`: the answer and the call whose sleepers it wakes. Off its own end a write
also raises `SIGPIPE`. -/
def pipeCheck (p : Pipe) (rw : RwFlag) (nonblock : Bool) (bytes pos : Nat) : Int × Option RwFlag :=
  match rw with
  | .reading =>
    if p.vSize ≤ pos then
      if (p.filp .writing).filpCount ≠ 0 then (if nonblock then -eagain else suspended,
        some .writing) else (0, none)
    else (bytes, none)
  | .writing =>
    if (p.filp .reading).filpCount = 0 then (-epipe, none)
    -- the sum is one of signed words
    else if (pipeBuf : Int) < (BitVec.ofNat 32 (pos + bytes)).toInt then
      if nonblock then
        if bytes ≤ pipeBuf then (-eagain, none)
        else if pos < pipeBuf then ((pipeBuf - pos : Nat), some .reading) else (-eagain, none)
      else if pipeBuf < bytes then
        if pos < pipeBuf then ((pipeBuf - pos : Nat), some .reading) else (suspended, none)
      else (suspended, none)
    else (bytes, if pos = 0 then some .reading else none)

def PipeProc.hangsOn (p : PipeProc) (vp : PipeId) (call : RwFlag) : Bool :=
  match p.blocked with
  | some w => p.live && !w.revived && decide (w.rw = call) && decide ((p.fpFilp w.fd).map Prod.fst = some vp)
  | none => false

/-- `revive` of a process that hangs on a pipe, counted off as `release` does. -/
def PipeState.revive (s : PipeState) (q : Proc) : PipeState :=
  { s.setProc q { s.proc q with blocked := (s.proc q).blocked.map fun w => { w with revived := true } } with
    suspCount := s.suspCount - 1 }

def release (vp : PipeId) (call : RwFlag) : List Proc → Int → PipeState → Except PipePanic PipeState
  | [], _, s => .ok s
  | q :: rest, count, s =>
    if count ≤ 0 then .ok s
    else if (s.proc q).hangsOn vp call then
      if (s.revive q).suspCount < 0 then .error .suspCount else release vp call rest (count - 1) (s.revive q)
    else release vp call rest count s

def releaseAny (vp : PipeId) (call : Option RwFlag) (s : PipeState) : Except PipePanic PipeState :=
  match call with
  | some call => release vp call (List.finRange nrProcs) s.suspCount s
  | none => .ok s

def pipeSuspend (who : Proc) (rw : RwFlag) (fd : Fd) (buf size : Nat) (s : PipeState) : PipeState :=
  { s.setProc who { s.proc who with blocked := some ⟨fd, rw, buf, size, false⟩ } with
    suspCount := s.suspCount + 1 }

def PipeState.setPartial (s : PipeState) (who : Proc) (n : Nat) : PipeState :=
  s.setProc who { s.proc who with fpCumIoPartial := n }

def Pipe.moved (p : Pipe) (rw : RwFlag) (position : Nat) (rep : FsReply) (node : PipeNode) : Pipe :=
  let position := if 0 ≤ rep.res then rep.newPos else position
  match rw with
  | .writing => { p with
    node := node, vSize := if p.vSize < position then position else p.vSize, vPipeWrPos := position }
  | .reading =>
    if p.vSize ≤ position then { p with node := node, vSize := 0, vPipeRdPos := 0, vPipeWrPos := 0 }
    else { p with node := node, vPipeRdPos := position }

def Pipe.note (p : Pipe) (rw : RwFlag) (call : RwCall) (buf : Nat) (bytes : List UInt8) : Pipe :=
  match rw with
  | .writing => { p with traffic := { p.traffic with
      chunks := p.traffic.chunks ++ [⟨call.serial, call.request, buf - call.buffer, bytes⟩] } }
  | .reading => { p with traffic := { p.traffic with delivered := p.traffic.delivered ++ bytes } }

def Pipe.position (p : Pipe) : RwFlag → Nat
  | .reading => p.vPipeRdPos
  | .writing => p.vPipeWrPos

def Pipe.carried (p : Pipe) (rw : RwFlag) (c : Copy) (buf n : Nat) : List UInt8 :=
  match rw with
  | .reading => slice p.node.bData p.vPipeRdPos n
  | .writing => slice c.mem buf n

def transfer (who : Proc) (rw : RwFlag) (fd : Fd) (f : FilpId) (buf reqSize got : Nat) (c : Copy)
    (s : PipeState) : Int × PipeState :=
  let p := s.pipe f.1
  let size := if rw = .reading ∧ p.vSize < p.position rw + got then p.vSize - p.position rw else got
  let rep := fsReadwrite rw c buf (p.position rw) size p.node
  let p' := p.moved rw (p.position rw) rep.1 rep.2
  if rep.1.res = 0 then
    let s := s.setPipe f.1 (p'.note rw (s.proc who).call buf (p.carried rw c buf rep.1.nbytes))
    let cumIo := (s.proc who).fpCumIoPartial + rep.1.nbytes
    if got < reqSize ∧ (p.filp f.2).nonblock = false then
      (suspended, pipeSuspend who rw fd (buf + rep.1.nbytes) (reqSize - rep.1.nbytes)
        (s.setPartial who cumIo))
    else (cumIo, s.setPartial who 0)
  else (rep.1.res, s.setPipe f.1 p')

def rwPipe (who : Proc) (rw : RwFlag) (fd : Fd) (f : FilpId) (buf reqSize : Nat) (c : Copy) (s : PipeState) :
    Except PipePanic (Int × PipeState) := do
  let p := s.pipe f.1
  let chk := pipeCheck p rw (p.filp f.2).nonblock reqSize (p.position rw)
  let s ← releaseAny f.1 chk.2 s
  if chk.1 ≤ 0 then .ok (chk.1, if chk.1 = suspended then pipeSuspend who rw fd buf reqSize s else s)
  else .ok (transfer who rw fd f buf reqSize chk.1.toNat c s)

def readWrite (who : Proc) (rw : RwFlag) (fd : Fd) (buf : Nat) (nbytes : BitVec 32) (c : Copy)
    (s : PipeState) :
    Except PipePanic (Int × PipeState) :=
  if nbytes.toInt < 0 then .ok (-einval, s)
  else
    match (s.proc who).fpFilp fd with
    | none => .ok (-ebadf, s)
    | some f =>
      if f.2 ≠ rw then .ok (-ebadf, s)
      else if nbytes = 0 then .ok (0, s)
      else if (s.proc who).fpCumIoPartial ≠ 0 then .error .cumIoPartial
      else
        let s := { s.setProc who { s.proc who with call := ⟨s.calls, buf, nbytes.toNat⟩ } with
          calls := s.calls + 1 }
        rwPipe who rw fd f buf nbytes.toNat c s

def resume (who : Proc) (c : Copy) (s : PipeState) : Except PipePanic (Int × PipeState) :=
  match (s.proc who).blocked with
  | some w =>
    match w.revived, (s.proc who).fpFilp w.fd with
    | true, some f => rwPipe who w.rw w.fd f w.fpBuffer w.fpNbytes c
        (s.setProc who { s.proc who with blocked := none })
    | _, _ => .ok (suspended, s)
  | none => .ok (suspended, s)

def unpause (who : Proc) (s : PipeState) : PipeState :=
  match (s.proc who).blocked with
  | none => s
  | some w =>
    { s.setProc who { s.proc who with blocked := none } with
      suspCount := if w.revived then s.suspCount else s.suspCount - 1 }

def Pipe.setCount (p : Pipe) (rw : RwFlag) (n : Nat) : Pipe :=
  { p with filp := update p.filp rw { p.filp rw with filpCount := n } }

/-- `put_vnode` for an end that nobody has open any more, after `truncate_vnode` to the size that
the pipe has, which PipeFS does only for the size zero. -/
def Pipe.put (p : Pipe) : Pipe :=
  let p := if p.vSize = 0 then { p with node := { p.node with iSize := 0 } } else p
  if (p.filp .reading).filpCount = 0 ∧ (p.filp .writing).filpCount = 0
    then { p with node := { p.node with iSize := 0 }.putBlock } else p

def closeFilp (f : FilpId) (s : PipeState) : Except PipePanic PipeState := do
  let s ← release f.1 (match f.2 with | .reading => .writing | .writing => .reading)
    (List.finRange nrProcs) nrProcs s
  let p := (s.pipe f.1).setCount f.2 (((s.pipe f.1).filp f.2).filpCount - 1)
  .ok (s.setPipe f.1 (if (p.filp f.2).filpCount = 0 then p.put else p))

def closePipe (who : Proc) (fd : Fd) (s : PipeState) : Except PipePanic PipeState :=
  match (s.proc who).fpFilp fd with
  | none => .ok s
  | some f => do
    let s ← closeFilp f s
    .ok (s.setProc who { s.proc who with fpFilp := update (s.proc who).fpFilp fd none })

def PipeState.share (s : PipeState) (who : Proc) (fd : Fd) (f : FilpId) : PipeState :=
  (s.setPipe f.1 ((s.pipe f.1).setCount f.2 (((s.pipe f.1).filp f.2).filpCount + 1))).setProc who
    { s.proc who with fpFilp := update (s.proc who).fpFilp fd (some f) }

def pmFork (parent child : Proc) (s : PipeState) : Except PipePanic PipeState :=
  if (s.proc child).live then .error .forkOnTop
  else
    let s' := s.setProc child { s.proc parent with fpFilp := fun _ => none }
    .ok ((List.finRange openMax).foldl (fun t fd => match (s.proc parent).fpFilp fd with
      | some f => t.share child fd f
      | none => t) s')

def freeProc (who : Proc) (s : PipeState) : Except PipePanic PipeState := do
  let s ← (List.finRange openMax).foldlM (fun s fd => closePipe who fd s) (unpause who s)
  .ok (s.setProc who { s.proc who with live := false })

inductive PipeAct where
  | pipe (p : Proc) (fd fd' : Fd)
  | rw (p : Proc) (rw : RwFlag) (fd : Fd) (buf : Nat) (nbytes : BitVec 32) (c : Copy)
  | resume (p : Proc) (c : Copy)
  | unpause (p : Proc)
  | close (p : Proc) (fd : Fd)
  | dup (p : Proc) (fd fd' : Fd)
  | setfl (p : Proc) (fd : Fd) (nonblock : Bool)
  | fork (parent child : Proc)
  | exit (p : Proc)

/-- The calls that have to do with pipes. A process can make one when it is not waiting for the
answer to another; what cannot be done leaves the state alone. -/
def PipeState.step (s : PipeState) : PipeAct → Except PipePanic PipeState
  | .pipe p fd fd' =>
    if (s.proc p).live ∧ (s.proc p).blocked.isNone ∧ fd ≠ fd' ∧ (s.proc p).fpFilp fd = none ∧
      (s.proc p).fpFilp fd' = none then
      .ok { (s.share p fd (s.pipes, .reading)).share p fd' (s.pipes, .writing) with pipes := s.pipes + 1 }
    else .ok s
  | .rw p rw fd buf nbytes c =>
    if (s.proc p).live ∧ (s.proc p).blocked.isNone then do
      let x ← readWrite p rw fd buf nbytes c s
      .ok x.2
    else .ok s
  | .resume p c => do
    let x ← Vfs.resume p c s
    .ok x.2
  | .unpause p => .ok (Vfs.unpause p s)
  | .close p fd => if (s.proc p).live ∧ (s.proc p).blocked.isNone then closePipe p fd s else .ok s
  | .dup p fd fd' =>
    match (s.proc p).fpFilp fd with
    | some f => if (s.proc p).live ∧ (s.proc p).blocked.isNone ∧ (s.proc p).fpFilp fd' = none
        then .ok (s.share p fd' f) else .ok s
    | none => .ok s
  | .setfl p fd nonblock =>
    match (s.proc p).fpFilp fd with
    | some f =>
      if (s.proc p).live ∧ (s.proc p).blocked.isNone then
        let x := s.pipe f.1
        .ok (s.setPipe f.1 { x with filp := update x.filp f.2 { x.filp f.2 with nonblock := nonblock } })
      else .ok s
    | none => .ok s
  | .fork parent child => if (s.proc parent).live ∧ (s.proc parent).blocked.isNone
      then pmFork parent child s else .ok s
  | .exit p => if (s.proc p).live then freeProc p s else .ok s

def freshPipe : Pipe where
  vSize := 0
  vPipeRdPos := 0
  vPipeWrPos := 0
  filp := fun _ => ⟨0, false⟩
  node := ⟨0, 1, fun _ => 0⟩
  traffic := ⟨[], []⟩

def pipeBoot (live : Proc → Bool) : PipeState where
  proc := fun p => ⟨live p, fun _ => none, none, 0, ⟨0, 0, 0⟩⟩
  pipe := fun _ => freshPipe
  pipes := 0
  suspCount := 0
  calls := 0

/-! ## What the calls can do -/

variable {s t u : PipeState} {who p q : Proc} {rw : RwFlag} {fd : Fd} {f : FilpId}
    {buf reqSize got : Nat} {c : Copy}

@[simp] lemma setProc_pipe (s : PipeState) (p : Proc) (x : PipeProc) : (s.setProc p x).pipe = s.pipe := rfl
@[simp] lemma setPipe_proc (s : PipeState) (vp : PipeId) (x : Pipe) : (s.setPipe vp x).proc = s.proc := rfl

lemma setProc_proc (s : PipeState) (p : Proc) (x : PipeProc) (q : Proc) :
    (s.setProc p x).proc q = if q = p then x else s.proc q := by
  simp [PipeState.setProc, update_apply]

lemma setPipe_pipe (s : PipeState) (vp : PipeId) (x : Pipe) (vp' : PipeId) :
    (s.setPipe vp x).pipe vp' = if vp' = vp then x else s.pipe vp' := by
  simp [PipeState.setPipe, update_apply]

def PipeWait.still (w : PipeWait) : PipeWait := { w with revived := false }

structure Released (s t : PipeState) : Prop where
  pipe : t.pipe = s.pipe
  pipes : t.pipes = s.pipes
  calls : t.calls = s.calls
  proc : ∀ q, ∃ b, t.proc q = { s.proc q with blocked := b } ∧
    b.map PipeWait.still = (s.proc q).blocked.map PipeWait.still

lemma Released.refl (s : PipeState) : Released s s := ⟨rfl, rfl, rfl, fun _ => ⟨_, rfl, rfl⟩⟩

lemma Released.trans (h : Released s t) (h' : Released t u) : Released s u := by
  refine ⟨h'.pipe.trans h.pipe, h'.pipes.trans h.pipes, h'.calls.trans h.calls, fun q => ?_⟩
  obtain ⟨b, hb, hstill⟩ := h.proc q
  obtain ⟨b', hb', hstill'⟩ := h'.proc q
  refine ⟨b', ?_, ?_⟩
  · rw [hb', hb]
  · rw [hstill', hb]
    exact hstill

lemma Released.proc_of_none (h : Released s t) (hq : (s.proc q).blocked = none) : t.proc q = s.proc q := by
  obtain ⟨b, hb, hstill⟩ := h.proc q
  rw [hq] at hstill
  rw [hb, Option.map_eq_none_iff.mp hstill, ← hq]

lemma Released.call (h : Released s t) (q : Proc) : (t.proc q).call = (s.proc q).call := by
  obtain ⟨b, hb, _⟩ := h.proc q
  rw [hb]

lemma Released.hangs (h : Released s t) (hq : (t.proc q).blocked ≠ none) : (s.proc q).blocked ≠ none := by
  intro hnone
  rw [h.proc_of_none hnone] at hq
  exact hq hnone

lemma revive_released (s : PipeState) (q : Proc) : Released s (s.revive q) := by
  refine ⟨rfl, rfl, rfl, fun q' => ?_⟩
  simp only [PipeState.revive, setProc_proc]
  split_ifs with hq
  · subst hq
    refine ⟨_, rfl, ?_⟩
    rw [Option.map_map]
    rfl
  · exact ⟨_, rfl, rfl⟩

lemma release_released {vp : PipeId} {call : RwFlag} {l : List Proc} {count : Int}
    (h : release vp call l count s = .ok t) :
    Released s t := by
  induction l generalizing s count with
  | nil => exact Except.ok.inj h ▸ .refl s
  | cons q rest ih =>
    unfold release at h
    split at h
    · exact Except.ok.inj h ▸ .refl s
    split at h
    · split at h
      · nomatch h
      · exact (revive_released s q).trans (ih h)
    · exact ih h

lemma releaseAny_released {vp : PipeId} {call : Option RwFlag} (h : releaseAny vp call s = .ok t) :
    Released s t := by
  cases call with
  | none => exact Except.ok.inj h ▸ .refl s
  | some call => exact release_released h

def Allowed (p : Pipe) (rw : RwFlag) (reqSize got : Nat) : Prop :=
  match rw with
  | .reading => got = reqSize ∧ p.vPipeRdPos < p.vSize
  | .writing => got = reqSize ∨ pipeBuf < reqSize ∧ p.vPipeWrPos + got = pipeBuf

lemma pipeCheck_reading {p : Pipe} {nonblock : Bool} {pos : Nat}
    (h : 0 < (pipeCheck p .reading nonblock reqSize pos).1) :
    (pipeCheck p .reading nonblock reqSize pos).1 = reqSize ∧ pos < p.vSize := by
  unfold pipeCheck at h ⊢
  by_cases hempty : p.vSize ≤ pos
  · simp only [if_pos hempty] at h
    split_ifs at h <;> exact absurd h (by decide)
  · simp only [if_neg hempty, true_and]
    omega

lemma pipeCheck_writing (p : Pipe) (nonblock : Bool) (pos : Nat) (hreq : 0 < reqSize) {r : Int}
    (hr : (pipeCheck p .writing nonblock reqSize pos).1 = r) :
    r < 0 ∨ 0 < r ∧ (r = reqSize ∨ pipeBuf < reqSize ∧ pos + r.toNat = pipeBuf) := by
  subst hr
  have hagain : -eagain < 0 := by decide
  have hsuspend : suspended < 0 := by decide
  have hpipe : -epipe < 0 := by decide
  simp only [pipeCheck]
  split_ifs
  · exact .inl hpipe
  · exact .inl hagain
  · exact .inr ⟨by simp only; omega, .inr ⟨by omega, by simp only [Int.toNat_natCast]; omega⟩⟩
  · exact .inl hagain
  · exact .inr ⟨by simp only; omega, .inr ⟨by omega, by simp only [Int.toNat_natCast]; omega⟩⟩
  · exact .inl hsuspend
  · exact .inl hsuspend
  all_goals exact .inr ⟨by simp only; omega, .inl rfl⟩

lemma pipeCheck_allowed {p : Pipe} {nonblock : Bool} (hreq : 0 < reqSize)
    (h : 0 < (pipeCheck p rw nonblock reqSize (p.position rw)).1) :
    Allowed p rw reqSize (pipeCheck p rw nonblock reqSize (p.position rw)).1.toNat := by
  cases rw with
  | reading =>
    obtain ⟨heq, hlt⟩ := pipeCheck_reading h
    exact ⟨by rw [heq, Int.toNat_natCast], hlt⟩
  | writing =>
    rcases pipeCheck_writing p nonblock (p.position .writing) hreq rfl with hneg | ⟨_, heq | hpart⟩
    · omega
    · exact .inl (by rw [heq, Int.toNat_natCast])
    · exact .inr hpart

lemma rwPipe_cases {x : Int × PipeState} (hreq : 0 < reqSize)
    (h : rwPipe who rw fd f buf reqSize c s = .ok x) :
    ∃ t, Released s t ∧ ((x.1 ≤ 0 ∧ x.1 ≠ suspended ∧ (rw = .writing → x.1 < 0) ∧ x.2 = t) ∨
      x = (suspended, pipeSuspend who rw fd buf reqSize t) ∨
      ∃ got, 0 < got ∧ Allowed (s.pipe f.1) rw reqSize got ∧
        x = transfer who rw fd f buf reqSize got c t) := by
  obtain ⟨t, ht, h⟩ := bind_eq_ok.mp h
  refine ⟨t, releaseAny_released ht, ?_⟩
  split at h
  · next hle =>
    cases h
    split_ifs with hs
    · exact .inr (.inl (by rw [hs]))
    refine .inl ⟨hle, hs, fun hw => ?_, rfl⟩
    subst hw
    rcases pipeCheck_writing (s.pipe f.1) ((s.pipe f.1).filp f.2).nonblock
      ((s.pipe f.1).position .writing) hreq rfl
      with hneg | ⟨hpos, _⟩
    · exact hneg
    · omega
  · next hpos =>
    refine .inr (.inr ⟨_, ?_, pipeCheck_allowed hreq (by omega), (Except.ok.inj h).symm⟩)
    omega

lemma efbig_neg : -efbig < 0 ∧ -efbig ≠ suspended := by decide
lemma efault_neg : -efault < 0 ∧ -efault ≠ suspended := by decide

lemma pipeBuf_lt_iff {n : Nat} (hn : n < 2 ^ 31) :
    (pipeBuf : Int) < (BitVec.ofNat 32 n).toInt ↔ pipeBuf < n := by
  rw [BitVec.toInt_eq_toNat_cond, BitVec.toNat_ofNat, Nat.mod_eq_of_lt (by omega), if_pos (by omega)]
  exact Int.ofNat_lt

lemma fsReadwrite_res (rw : RwFlag) (c : Copy) (buf position nrbytes : Nat) (n : PipeNode) :
    (fsReadwrite rw c buf position nrbytes n).1 = ⟨0, position + nrbytes, nrbytes⟩ ∨
      (fsReadwrite rw c buf position nrbytes n).1.res < 0 ∧
        (fsReadwrite rw c buf position nrbytes n).1.res ≠ suspended := by
  unfold fsReadwrite
  split_ifs
  · exact .inr efbig_neg
  · exact .inl rfl
  · exact .inr efault_neg

end Nucleos.Vfs
