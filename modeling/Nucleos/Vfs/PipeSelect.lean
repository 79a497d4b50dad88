import Nucleos.Vfs.Pipe

/-!
# Select on a pipe

`select` asks `pipe_check` about one byte at the position of the filp, which reads and writes of a
pipe do not move: they go by the positions of the vnode.
-/

namespace Nucleos.Vfs

open Run

structure SelOps where
  rd : Bool
  wr : Bool
  err : Bool
deriving DecidableEq

/-- `select_request_pipe`: what is ready of what was asked for, and what is added to
`filp_pipe_select_ops`. On its way it wakes the writers of an empty pipe. -/
def selectRequestPipe (p : Pipe) (mode : RwFlag) (filpPos : Nat) (ops : SelOps) (block : Bool) :
    SelOps × SelOps :=
  let rd := (pipeCheck p .reading false 1 filpPos).1
  let wr := (pipeCheck p .writing false 1 filpPos).1
  let r : SelOps := ⟨false, false, false⟩
  let r := if !(ops.rd || ops.err) then r
    else if rd = suspended then { r with rd := mode = .writing }
      else { r with rd := true, err := rd < 0 }
  let r := if !(ops.wr || ops.err) then r
    else if wr = suspended then (if mode = .reading then { r with wr := true, err := false } else r)
    else { r with wr := true, err := r.err || wr < 0 }
  let r : SelOps := ⟨r.rd && ops.rd, r.wr && ops.wr, r.err && ops.err⟩
  (r, if r = ⟨false, false, false⟩ ∧ block then ops else ⟨false, false, false⟩)

/-- Whether the one operation that the filp is open for is ready, when only that is asked. -/
def Pipe.ready (p : Pipe) (mode : RwFlag) (filpPos : Nat) (block : Bool) : Bool :=
  match mode with
  | .reading => (selectRequestPipe p .reading filpPos ⟨true, false, false⟩ block).1.rd
  | .writing => (selectRequestPipe p .writing filpPos ⟨false, true, false⟩ block).1.wr

lemma ready_iff (p : Pipe) (mode : RwFlag) (filpPos : Nat) (block : Bool) :
    p.ready mode filpPos block = true ↔ (pipeCheck p mode false 1 filpPos).1 ≠ suspended := by
  cases mode with
  | reading => by_cases h : (pipeCheck p .reading false 1 filpPos).1 =
      suspended <;> simp [Pipe.ready, selectRequestPipe, h]
  | writing => by_cases h : (pipeCheck p .writing false 1 filpPos).1 =
      suspended <;> simp [Pipe.ready, selectRequestPipe, h]

variable {s : PipeState} {who : Proc} {fd : Fd} {f : FilpId} {buf : Nat} {c : Copy}
    {x : Int × PipeState}

lemma transfer_ne_suspended (who : Proc) (rw : RwFlag) (fd : Fd) (f : FilpId) (buf n : Nat)
    (c : Copy) (s : PipeState) :
    (transfer who rw fd f buf n n c s).1 ≠ suspended := by
  have hres := fun size => fsReadwrite_res rw c buf ((s.pipe f.1).position rw) size
    (s.pipe f.1).node
  simp only [transfer, Nat.lt_irrefl, false_and, if_false]
  generalize (if rw = .reading ∧ (s.pipe f.1).vSize < (s.pipe f.1).position rw + n
    then (s.pipe f.1).vSize - (s.pipe f.1).position rw else n) = size
  split
  · exact (lt_of_lt_of_le (show suspended < 0 by decide) (Int.natCast_nonneg _)).ne'
  · next hne => exact (hres size).elim (fun heq => absurd (congrArg FsReply.res heq) hne) And.right

lemma pipeCheck_one (p : Pipe) (mode : RwFlag) (pos : Nat) : (pipeCheck p mode false 1 pos).1 =
    match mode with
    | .reading => if p.vSize ≤ pos then if (p.filp .writing).filpCount ≠ 0 then suspended
        else 0 else 1
    | .writing => if (p.filp .reading).filpCount = 0 then -epipe
      else if (pipeBuf : Int) < (BitVec.ofNat 32 (pos + 1)).toInt then suspended else 1 := by
  cases mode with
  | reading =>
    simp only [pipeCheck, Bool.false_eq_true, if_false]
    split_ifs <;> rfl
  | writing =>
    simp only [pipeCheck, Bool.false_eq_true, if_false, show ¬ pipeBuf < 1 by decide]
    split_ifs <;> rfl

lemma rwPipe_suspended_iff (hblock : ((s.pipe f.1).filp f.2).nonblock = false)
    (h : rwPipe who f.2 fd f buf 1 c s = .ok x) :
    x.1 = suspended ↔ (pipeCheck (s.pipe f.1) f.2 false 1 ((s.pipe f.1).position f.2)).1 =
      suspended := by
  have hone : (pipeCheck (s.pipe f.1) f.2 false 1 ((s.pipe f.1).position f.2)).1 ≤ 0 ∨
      (pipeCheck (s.pipe f.1) f.2 false 1 ((s.pipe f.1).position f.2)).1 = 1 := by
    rw [pipeCheck_one]
    split <;> split_ifs <;> decide
  unfold rwPipe at h
  simp only [hblock] at h
  obtain ⟨t, ht, h⟩ := bind_eq_ok.mp h
  split at h
  · cases h
    rfl
  next hpos =>
  rw [hone.resolve_left hpos] at h ⊢
  obtain rfl := Except.ok.inj h
  exact iff_of_false (transfer_ne_suspended who f.2 fd f buf 1 c t) (by decide)

/-- When select is right about a filp: it looks at position 0, where there is room in every pipe. -/
def Pipe.Agrees (p : Pipe) : RwFlag → Prop
  | .reading => p.vSize = 0 ∨ p.vPipeRdPos < p.vSize ∨ (p.filp .writing).filpCount = 0
  | .writing => (p.filp .reading).filpCount = 0 ∨ p.vPipeWrPos < pipeBuf

/-- What select says of a filp that is open for reading or for writing agrees with what a read or
write of one byte that may block does: for a reader if and only if the pipe is empty, not read to
its end or without writer, and for a writer if and only if it has room or no reader. -/
theorem select_pipe_agrees (hblock : ((s.pipe f.1).filp f.2).nonblock = false)
    (h : rwPipe who f.2 fd f buf 1 c s = .ok x) (hpos : (s.pipe f.1).vPipeWrPos < 2 ^ 31 - 1)
    (block : Bool) :
    ((s.pipe f.1).ready f.2 0 block = true ↔ x.1 ≠ suspended) ↔ (s.pipe f.1).Agrees f.2 := by
  rw [ready_iff, not_iff_not, rwPipe_suspended_iff hblock h, pipeCheck_one, pipeCheck_one]
  obtain ⟨vp, mode⟩ := f
  have hne : ∀ r ∈ [0, 1, -epipe], r ≠ suspended := by decide
  simp only [List.forall_mem_cons] at hne
  obtain ⟨hzero, hone, hpipe, -⟩ := hne
  cases mode with
  | reading =>
    simp only [Pipe.position, Pipe.Agrees, Nat.le_zero]
    split_ifs <;> simp_all
    omega
  | writing =>
    have hfirst : ¬ (pipeBuf : Int) < (BitVec.ofNat 32 (0 + 1)).toInt := by decide
    simp only [Pipe.position, Pipe.Agrees, hfirst, pipeBuf_lt_iff (Nat.add_lt_of_lt_sub hpos)]
    split_ifs <;> simp_all

def fullPipe (wr : Nat) : PipeState :=
  { pipeBoot fun _ => true with
    pipe := fun _ => { freshPipe with vSize := wr, vPipeWrPos := wr, filp := fun _ => ⟨1, false⟩ } }

theorem select_pipe_agrees_room :
    ∃ x, rwPipe ⟨0, by decide⟩ .writing ⟨0, by decide⟩ (0, .writing) 0 1 ⟨fun _ => 0, true⟩
    (fullPipe 3) = .ok x ∧
    (((fullPipe 3).pipe 0).ready .writing 0 true = true ↔ x.1 ≠ suspended) := by
  refine ⟨_, rfl, ?_⟩
  exact (select_pipe_agrees (s := fullPipe 3) (f := (0, .writing)) rfl rfl (by decide) true).mpr
    (.inr (by decide))

/-- The last byte has been written: select says that one can write, and a write is suspended. -/
theorem select_full_pipe : ((fullPipe 7168).pipe 0).ready .writing 0 true = true ∧
    (rwPipe ⟨0, by decide⟩ .writing ⟨0, by decide⟩ (0, .writing) 0 1 ⟨fun _ => 0, true⟩
      (fullPipe 7168)).toOption.any (fun x => x.1 = suspended) = true := by
  decide +kernel

end Nucleos.Vfs
