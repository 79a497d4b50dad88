import Nucleos.Vfs.Pipe

/-!
# What comes out of a pipe is what went in

The bytes between the two positions of a pipe are those that were accepted and not delivered yet.
Every transfer keeps it so, in whatever order processes read, write, hang, are woken or interrupted,
fork, close their ends or exit.
-/

namespace Nucleos.Vfs

open Function Run RefCount

variable {s t u : PipeState} {who p q : Proc} {rw : RwFlag} {fd : Fd} {f : FilpId}
    {buf reqSize got : Nat} {c : Copy}

/-! ## Slices of memory -/

variable {n : PipeNode} {x : Pipe} {y : PipeProc} {vp : PipeId}

@[simp] lemma slice_length (d : Nat → UInt8) (a n : Nat) : (slice d a n).length = n := by
  simp [slice]

lemma slice_append (d : Nat → UInt8) (a m n : Nat) :
    slice d a m ++ slice d (a + m) n = slice d a (m + n) := by
  simp only [slice, List.range_add, List.map_append, List.map_map, comp_def, Nat.add_assoc]

lemma slice_congr {d e : Nat → UInt8} {a b n : Nat} (h : ∀ i < n, d (a + i) = e (b + i)) :
    slice d a n = slice e b n :=
  List.map_congr_left fun i hi => h i (List.mem_range.mp hi)

/-! ## One pipe -/

def Traffic.accepted (x : Traffic) : List UInt8 := x.chunks.flatMap Chunk.bytes

def Pipe.pending (x : Pipe) : List UInt8 := slice x.node.bData x.vPipeRdPos (x.vSize - x.vPipeRdPos)

structure Pipe.Flows (x : Pipe) : Prop where
  wr : x.vPipeWrPos = x.vSize
  size : x.node.iSize = x.vSize
  rd : x.vPipeRdPos ≤ x.vSize
  room : x.vSize ≤ pipeBuf
  block : x.node.bCount = 1
  kept : x.traffic.accepted = x.traffic.delivered ++ x.pending

lemma freshPipe_flows : freshPipe.Flows := ⟨rfl, rfl, Nat.le_refl _, Nat.zero_le _, rfl, rfl⟩

lemma PipeNode.getBlock_held (h : n.bCount = 1) : n.getBlock = { n with bCount := 2 } := by
  rw [getBlock, h, if_neg Nat.one_ne_zero]

lemma PipeNode.putBlock_held (h : n.bCount = 2) : n.putBlock = { n with bCount := 1 } := by
  have hget : n.getBlock = { n with bCount := 3 } := by
    rw [getBlock, h, if_neg (by decide)]
  rw [putBlock, hget]
  rfl

lemma PipeNode.resize_bCount (n : PipeNode) (rw : RwFlag) (position : Nat) :
    (n.resize rw position).bCount = n.bCount := by
  unfold resize
  split <;> split_ifs <;> rfl

lemma PipeNode.failed (rw : RwFlag) (position : Nat) (h : n.bCount = 1)
    (hpos : (rw = .writing → position ≤ n.iSize) ∧ (rw = .reading → position < n.iSize)) :
    (n.getBlock.resize rw position).putBlock = n := by
  have hsame : n.getBlock.resize rw position = n.getBlock := by
    rw [getBlock_held h]
    cases rw with
    | writing => exact if_neg (Nat.not_lt.mpr (hpos.1 rfl))
    | reading => exact if_neg (Nat.not_le.mpr (hpos.2 rfl))
  rw [hsame, getBlock_held h, putBlock_held rfl, ← h]

lemma fsReadwrite_writing (hx : x.Flows) (c : Copy) (buf : Nat) (hgot : 0 < got) :
    (x.vSize + got ≤ pipeBuf ∧ fsReadwrite .writing c buf x.vPipeWrPos got x.node =
      (⟨0, x.vSize + got, got⟩, { x.node.store x.vSize got c.mem buf with iSize := x.vSize + got })) ∨
    ∃ r, fsReadwrite .writing c buf x.vPipeWrPos got x.node = (⟨r, x.vSize, 0⟩, x.node) ∧ r < 0 ∧
      r ≠ suspended := by
  have hfail := PipeNode.failed .writing x.vSize hx.block ⟨fun _ => hx.size.ge, nofun⟩
  unfold fsReadwrite
  rw [hx.wr, hfail]
  split
  · exact .inr ⟨_, rfl, efbig_neg⟩
  split_ifs with hok
  · refine .inl ⟨hok.2, Prod.ext rfl ?_⟩
    have hgrow : (x.node.getBlock.store x.vSize got c.mem buf).resize .writing (x.vSize + got) =
        { x.node.getBlock.store x.vSize got c.mem buf with iSize := x.vSize + got } := by
      refine if_pos ?_
      rw [PipeNode.getBlock_held hx.block]
      show x.node.iSize < x.vSize + got
      rw [hx.size]
      omega
    show ((x.node.getBlock.store x.vSize got c.mem buf).resize .writing (x.vSize + got)).putBlock = _
    rw [hgrow, PipeNode.getBlock_held hx.block, PipeNode.putBlock_held rfl, ← hx.block]
    rfl
  · exact .inr ⟨_, rfl, efault_neg⟩

lemma fsReadwrite_reading (hx : x.Flows) (c : Copy) (buf size : Nat) (hlt : x.vPipeRdPos < x.vSize) :
    fsReadwrite .reading c buf x.vPipeRdPos size x.node = (⟨0, x.vPipeRdPos + size, size⟩,
        { x.node with iSize := if x.vSize ≤ x.vPipeRdPos + size then 0 else x.vSize }) ∨
    ∃ r, fsReadwrite .reading c buf x.vPipeRdPos size x.node = (⟨r, x.vPipeRdPos, 0⟩, x.node) ∧
      r < 0 ∧ r ≠ suspended := by
  have hfail := PipeNode.failed .reading x.vPipeRdPos hx.block ⟨nofun, fun _ => hx.size.symm ▸ hlt⟩
  unfold fsReadwrite
  rw [hfail, if_neg (fun h => RwFlag.noConfusion h.1)]
  split
  · refine .inl (Prod.ext rfl ?_)
    show (x.node.getBlock.resize .reading (x.vPipeRdPos + size)).putBlock = _
    rw [PipeNode.putBlock_held (by rw [PipeNode.resize_bCount, PipeNode.getBlock_held hx.block]),
      PipeNode.getBlock_held hx.block, PipeNode.resize,
      ← hx.size]
    split_ifs <;> simp [hx.block]
  · exact .inr ⟨_, rfl, efault_neg⟩

def Pipe.wrote (x : Pipe) (call : RwCall) (c : Copy) (buf got : Nat) : Pipe :=
  (x.moved .writing x.vPipeWrPos ⟨0, x.vSize + got, got⟩
    { x.node.store x.vSize got c.mem buf with iSize := x.vSize + got }).note
    .writing call buf (slice c.mem buf got)

lemma Pipe.wrote_chunks (x : Pipe) (call : RwCall) (c : Copy) (buf got : Nat) :
    (x.wrote call c buf got).traffic.chunks = x.traffic.chunks ++
      [⟨call.serial, call.request, buf - call.buffer, slice c.mem buf got⟩] := rfl

lemma Pipe.Flows.wrote (hx : x.Flows) (call : RwCall) (c : Copy) (buf : Nat) (hgot : 0 < got)
    (hroom : x.vSize + got ≤ pipeBuf) :
    (x.wrote call c buf got).Flows := by
  have hsize : (x.wrote call c buf got).vSize = x.vSize + got := by
    show (if x.vSize < x.vSize + got then x.vSize + got else x.vSize) = x.vSize + got
    rw [if_pos (by omega)]
  refine ⟨hsize.symm ▸ rfl, hsize.symm ▸ rfl, ?_, hsize ▸ hroom, hx.block, ?_⟩
  · rw [hsize]
    exact Nat.le_add_right_of_le hx.rd
  have hpending : (x.wrote call c buf got).pending = x.pending ++ slice c.mem buf got := by
    have hrd := hx.rd
    rw [Pipe.pending, hsize]
    show slice (x.node.store x.vSize got c.mem buf).bData x.vPipeRdPos (x.vSize + got - x.vPipeRdPos) = _
    rw [show x.vSize + got - x.vPipeRdPos = (x.vSize - x.vPipeRdPos) + got by omega, ← slice_append]
    congr 1
    · refine slice_congr fun i hi => ?_
      exact if_neg (by omega)
    refine slice_congr fun i hi => ?_
    show (if _ then _ else _) = _
    rw [if_pos (by omega)]
    congr 2
    omega
  rw [hpending, Traffic.accepted, Pipe.wrote_chunks, List.flatMap_append, ← List.append_assoc]
  show x.traffic.accepted ++ _ = x.traffic.delivered ++ x.pending ++ _
  rw [hx.kept]
  simp

def Pipe.gave (x : Pipe) (call : RwCall) (buf size : Nat) : Pipe :=
  (x.moved .reading x.vPipeRdPos ⟨0, x.vPipeRdPos + size, size⟩
    { x.node with iSize := if x.vSize ≤ x.vPipeRdPos + size then 0 else x.vSize }).note
    .reading call buf (slice x.node.bData x.vPipeRdPos size)

lemma Pipe.Flows.gave (hx : x.Flows) (call : RwCall) (buf : Nat) {size : Nat}
    (hsize : x.vPipeRdPos + size ≤ x.vSize) :
    (x.gave call buf size).Flows ∧ (x.gave call buf size).filp = x.filp ∧
      (x.gave call buf size).traffic.chunks = x.traffic.chunks := by
  have hkept := hx.kept
  unfold Pipe.pending at hkept
  unfold Pipe.gave Pipe.moved
  simp only [Int.le_refl, if_true]
  by_cases hend : x.vSize ≤ x.vPipeRdPos + size
  · -- the pipe is drained
    have heq : x.vSize - x.vPipeRdPos = size := by omega
    rw [heq] at hkept
    simp only [if_pos hend]
    refine ⟨⟨rfl, rfl, Nat.le_refl _, Nat.zero_le _, hx.block, ?_⟩, rfl, rfl⟩
    simp only [Pipe.note, Pipe.pending, Traffic.accepted] at hkept ⊢
    rw [hkept]
    simp [slice]
  · simp only [if_neg hend]
    refine ⟨⟨hx.wr, rfl, by simp only [Pipe.note]; omega, hx.room, hx.block, ?_⟩, rfl, rfl⟩
    rw [show x.vSize - x.vPipeRdPos = size + (x.vSize - (x.vPipeRdPos + size)) by omega,
      ← slice_append] at hkept
    simp only [Pipe.note, Pipe.pending, Traffic.accepted] at hkept ⊢
    rw [hkept, List.append_assoc]

/-! ## The writes that its bytes belong to -/

def Traffic.chunksOf (x : Traffic) (serial : Nat) : List Chunk := x.chunks.filter fun k => k.serial = serial

def Consecutive : Nat → List Chunk → Prop
  | _, [] => True
  | offset, k :: l => k.offset = offset ∧ Consecutive (offset + k.bytes.length) l

def total (l : List Chunk) : Nat := (l.map fun k => k.bytes.length).sum

lemma Consecutive.snoc {offset : Nat} {l : List Chunk} {k : Chunk} (h : Consecutive offset l)
    (hk : k.offset = offset + total l) :
    Consecutive offset (l ++ [k]) := by
  induction l generalizing offset with
  | nil => exact ⟨by simpa [total] using hk, trivial⟩
  | cons x l ih =>
    refine ⟨h.1, ih h.2 ?_⟩
    rw [hk]
    simp only [total, List.map_cons, List.sum_cons]
    omega

structure Traffic.Whole (x : Traffic) : Prop where
  filled : ∀ k ∈ x.chunks, 0 < k.bytes.length
  consecutive : ∀ n, Consecutive 0 (x.chunksOf n)
  single : ∀ k ∈ x.chunks, k.request ≤ pipeBuf → x.chunksOf k.serial = [k] ∧ k.bytes.length = k.request

lemma Traffic.Whole.congr {x x' : Traffic} (hx : x.Whole) (h : x'.chunks = x.chunks) : x'.Whole := by
  obtain ⟨hfilled, hconsecutive, hsingle⟩ := hx
  constructor <;> simpa only [Traffic.chunksOf, h]

lemma Traffic.Whole.none_yet {x : Traffic} (hx : x.Whole) {serial : Nat} (h : total (x.chunksOf serial) = 0) :
    x.chunksOf serial = [] := by
  cases hl : x.chunksOf serial with
  | nil => rfl
  | cons k l =>
    have hk : k ∈ x.chunks := List.mem_of_mem_filter (hl ▸ List.mem_cons_self)
    have hpos := hx.filled k hk
    rw [hl] at h
    simp only [total, List.map_cons, List.sum_cons] at h
    omega

lemma Pipe.wrote_chunksOf (x : Pipe) (call : RwCall) (c : Copy) (buf got serial : Nat) :
    (x.wrote call c buf got).traffic.chunksOf serial = x.traffic.chunksOf serial ++
      if call.serial = serial then [⟨call.serial, call.request, buf - call.buffer,
        slice c.mem buf got⟩] else [] := by
  rw [Traffic.chunksOf, Pipe.wrote_chunks, List.filter_append]
  congr 1
  split_ifs with h <;> simp [h]

structure Begun (x : Traffic) (y : PipeProc) (buf left : Nat) : Prop where
  left : y.fpCumIoPartial + left = y.call.request
  place : buf = y.call.buffer + y.fpCumIoPartial
  large : y.fpCumIoPartial ≠ 0 → pipeBuf < y.call.request
  sum : total (x.chunksOf y.call.serial) = y.fpCumIoPartial
  same : ∀ k ∈ x.chunksOf y.call.serial, k.request = y.call.request

lemma Traffic.Whole.wrote (hx : x.traffic.Whole) (hy : Begun x.traffic y buf reqSize) (c : Copy)
    (hgot : 0 < got) (hallow : Allowed x .writing reqSize got) :
    (x.wrote y.call c buf got).traffic.Whole := by
  have hoffset : buf - y.call.buffer = y.fpCumIoPartial := by
    rw [hy.place]
    omega
  have hleft := hy.left
  refine ⟨fun k hk => ?_, fun n => ?_, fun k hk hsmall => ?_⟩
  · rw [Pipe.wrote_chunks, List.mem_append, List.mem_singleton] at hk
    rcases hk with hk | rfl
    · exact hx.filled k hk
    · simpa using hgot
  · rw [Pipe.wrote_chunksOf]
    split_ifs with hn
    · subst hn
      refine (hx.consecutive _).snoc ?_
      rw [hy.sum, Nat.zero_add]
      exact hoffset
    · rw [List.append_nil]
      exact hx.consecutive n
  · rw [Pipe.wrote_chunks, List.mem_append, List.mem_singleton] at hk
    rw [Pipe.wrote_chunksOf]
    rcases hk with hk | rfl
    · obtain ⟨hone, hlen⟩ := hx.single k hk hsmall
      refine ⟨?_, hlen⟩
      -- the write that goes on is a large one
      have hne : y.call.serial ≠ k.serial := by
        intro heq
        have hsum := hy.sum
        rw [heq, hone] at hsum
        have hpos := hx.filled k hk
        simp only [total, List.map_cons, List.map_nil, List.sum_cons, List.sum_nil] at hsum
        have hlarge := hy.large (by omega)
        rw [← hy.same k (by rw [heq, hone]; exact List.mem_singleton_self k)] at hlarge
        omega
      rw [if_neg hne, List.append_nil, hone]
    · have hzero : y.fpCumIoPartial = 0 := by
        by_contra hne
        exact absurd (hy.large hne) (Nat.not_lt.mpr hsmall)
      have hnone := hx.none_yet (hy.sum.trans hzero)
      rw [if_pos rfl, hnone, slice_length]
      refine ⟨rfl, ?_⟩
      have hall : reqSize = y.call.request := by omega
      rcases hallow with heq | ⟨hbig, _⟩
      · exact heq.trans hall
      · rw [hall] at hbig
        exact absurd hsmall (Nat.not_le.mpr hbig)

lemma Begun.wrote (hy : Begun x.traffic y buf reqSize) (c : Copy) (hlt : got < reqSize)
    (hallow : Allowed x .writing reqSize got) (w : Option PipeWait) :
    Begun (x.wrote y.call c buf got).traffic
      { y with fpCumIoPartial := y.fpCumIoPartial + got, blocked := w } (buf + got)
      (reqSize - got) := by
  have hleft := hy.left
  refine ⟨?_, ?_, fun _ => ?_, ?_, fun k hk => ?_⟩
  · simp only
    omega
  · rw [hy.place]
    simp only
    omega
  · rcases hallow with heq | ⟨hbig, _⟩
    · omega
    · simp only
      omega
  · rw [Pipe.wrote_chunksOf, if_pos rfl]
    have hsum := hy.sum
    simp only [total, List.map_append, List.map_cons, List.map_nil, List.sum_append, List.sum_cons,
      List.sum_nil, slice_length] at hsum ⊢
    omega
  · rw [Pipe.wrote_chunksOf, if_pos rfl, List.mem_append, List.mem_singleton] at hk
    rcases hk with hk | rfl
    · exact hy.same k hk
    · rfl

/-! ## A transfer -/

lemma setPipe_self (s : PipeState) (vp : PipeId) : s.setPipe vp (s.pipe vp) = s := by
  rw [PipeState.setPipe, update_eq_self]

lemma transfer_eq {size : Nat} {rep : FsReply} {node : PipeNode}
    (hsize : (if rw = .reading ∧ (s.pipe f.1).vSize < (s.pipe f.1).position rw + got
      then (s.pipe f.1).vSize - (s.pipe f.1).position rw
      else got) = size)
    (hrep : fsReadwrite rw c buf ((s.pipe f.1).position rw) size (s.pipe f.1).node = (rep, node)) :
    transfer who rw fd f buf reqSize got c s =
      if rep.res = 0 then
        let t := s.setPipe f.1 (((s.pipe f.1).moved rw ((s.pipe f.1).position rw) rep node).note
          rw (s.proc who).call buf
          ((s.pipe f.1).carried rw c buf rep.nbytes))
        if got < reqSize ∧ ((s.pipe f.1).filp f.2).nonblock = false then
          (suspended, pipeSuspend who rw fd (buf + rep.nbytes) (reqSize - rep.nbytes)
            (t.setPartial who ((s.proc who).fpCumIoPartial + rep.nbytes)))
        else (((s.proc who).fpCumIoPartial + rep.nbytes : Nat), t.setPartial who 0)
      else (rep.res, s.setPipe f.1 ((s.pipe f.1).moved rw ((s.pipe f.1).position rw) rep node)) := by
  simp only [transfer, hsize, hrep, setPipe_proc]

lemma transfer_writing (hx : (s.pipe vp).Flows) (who : Proc) (fd : Fd) (buf reqSize : Nat)
    (c : Copy) (hgot : 0 < got) :
    (∃ r, transfer who .writing fd (vp, .writing) buf reqSize got c s = (r, s)) ∨
      ((s.pipe vp).vSize + got ≤ pipeBuf ∧ ∃ r t,
        transfer who .writing fd (vp, .writing) buf reqSize got c s = (r, t) ∧
        ((got < reqSize ∧ t = pipeSuspend who .writing fd (buf + got) (reqSize - got)
          ((s.setPipe vp ((s.pipe vp).wrote (s.proc who).call c buf got)).setPartial who
            ((s.proc who).fpCumIoPartial + got))) ∨
          t = (s.setPipe vp ((s.pipe vp).wrote (s.proc who).call c buf got)).setPartial who 0)) := by
  have hsize : (if RwFlag.writing = .reading ∧ (s.pipe vp).vSize < (s.pipe vp).position .writing + got
      then (s.pipe vp).vSize - (s.pipe vp).position .writing else got) = got := if_neg fun h =>
        RwFlag.noConfusion h.1
  rcases fsReadwrite_writing hx c buf hgot with ⟨hroom, hrep⟩ | ⟨r, hrep, hneg, _⟩
  · refine .inr ⟨hroom, ?_⟩
    rw [transfer_eq (f := (vp, .writing)) hsize hrep, if_pos rfl]
    by_cases hpart : got < reqSize ∧ ((s.pipe vp).filp .writing).nonblock = false
    · exact ⟨_, _, if_pos hpart, .inl ⟨hpart.1, rfl⟩⟩
    · exact ⟨_, _, if_neg hpart, .inr rfl⟩
  · have hsame : (s.pipe vp).moved .writing (s.pipe vp).vPipeWrPos ⟨r, (s.pipe vp).vSize, 0⟩
      (s.pipe vp).node = s.pipe vp := by
      have hnot : ¬ (s.pipe vp).vSize < (s.pipe vp).vPipeWrPos := by
        rw [hx.wr]
        exact lt_irrefl _
      simp only [Pipe.moved, if_neg (Int.not_le.mpr hneg), if_neg hnot]
    refine .inl ⟨r, ?_⟩
    rw [transfer_eq (f := (vp, .writing)) hsize hrep, if_neg hneg.ne]
    exact congrArg (Prod.mk r) ((congrArg (s.setPipe vp) hsame).trans (setPipe_self s vp))

lemma transfer_reading (hx : (s.pipe vp).Flows) (who : Proc) (fd : Fd) (buf : Nat) (c : Copy)
    (hlt : (s.pipe vp).vPipeRdPos < (s.pipe vp).vSize) :
    (∃ r, transfer who .reading fd (vp, .reading) buf got got c s = (r, s)) ∨
      ∃ size r, (s.pipe vp).vPipeRdPos + size ≤ (s.pipe vp).vSize ∧
        transfer who .reading fd (vp, .reading) buf got got c s =
        (r, (s.setPipe vp ((s.pipe vp).gave (s.proc who).call buf size)).setPartial who 0) := by
  obtain ⟨size, hsize, hle⟩ : ∃ size, (if RwFlag.reading = .reading ∧
    (s.pipe vp).vSize < (s.pipe vp).position .reading + got
      then (s.pipe vp).vSize - (s.pipe vp).position .reading else got) = size ∧
        (s.pipe vp).vPipeRdPos + size ≤ (s.pipe vp).vSize := by
    refine ⟨_, rfl, ?_⟩
    simp only [Pipe.position, true_and]
    split_ifs with hbig <;> omega
  rcases fsReadwrite_reading hx c buf size hlt with hrep | ⟨r, hrep, hneg, _⟩
  · refine .inr ⟨size, ((s.proc who).fpCumIoPartial + size : Nat), hle, ?_⟩
    rw [transfer_eq (f := (vp, .reading)) hsize hrep, if_pos rfl]
    exact if_neg fun h => lt_irrefl _ h.1
  have hsame : (s.pipe vp).moved .reading (s.pipe vp).vPipeRdPos ⟨r, (s.pipe vp).vPipeRdPos, 0⟩
    (s.pipe vp).node = s.pipe vp := by
    simp only [Pipe.moved, if_neg (Int.not_le.mpr hneg), if_neg (Nat.not_le.mpr hlt)]
  refine .inl ⟨r, ?_⟩
  rw [transfer_eq (f := (vp, .reading)) hsize hrep, if_neg hneg.ne]
  exact congrArg (Prod.mk r) ((congrArg (s.setPipe vp) hsame).trans (setPipe_self s vp))

/-! ## All pipes -/

def Pipe.InUse (x : Pipe) : Prop := ∃ rw, (x.filp rw).filpCount ≠ 0

structure Waits (calls : Nat) (pipe : PipeId → Pipe) (y : PipeProc) (w : PipeWait) : Prop where
  serial : y.call.serial < calls
  more : 0 < w.fpNbytes
  filp : ∃ vp, y.fpFilp w.fd = some (vp, w.rw) ∧
    (w.rw = .writing → Begun (pipe vp).traffic y w.fpBuffer w.fpNbytes)

def PipeState.counts (s : PipeState) (f : FilpId) : Nat := ((s.pipe f.1).filp f.2).filpCount

def PipeState.ends (s : PipeState) (x : Proc × Fd) : Option FilpId := (s.proc x.1).fpFilp x.2

structure Streams (s : PipeState) : Prop where
  counted : Exact s.counts s.ends
  gone : ∀ p, (s.proc p).live = false → ∀ fd, (s.proc p).fpFilp fd = none
  fresh : ∀ vp, s.pipes ≤ vp → s.pipe vp = freshPipe
  flows : ∀ vp, (s.pipe vp).InUse → (s.pipe vp).Flows
  sent : ∀ vp, (s.pipe vp).traffic.delivered <+: (s.pipe vp).traffic.accepted
  whole : ∀ vp, (s.pipe vp).traffic.Whole
  old : ∀ vp, ∀ k ∈ (s.pipe vp).traffic.chunks, k.serial < s.calls
  waits : ∀ p w, (s.proc p).blocked = some w → Waits s.calls s.pipe (s.proc p) w
  apart : ∀ p q, (s.proc p).blocked ≠ none → (s.proc q).blocked ≠ none →
    (s.proc p).call.serial = (s.proc q).call.serial → p = q

lemma Streams.inUse (hs : Streams s) (h : (s.proc p).fpFilp fd = some f) : (s.pipe f.1).InUse := by
  have hpos := hs.counted.pos_of_target (a := (p, fd)) h
  exact ⟨f.2, Nat.pos_iff_ne_zero.mp hpos⟩

lemma setProc_all {P : PipeProc → Prop} (hy : P y) (hs : ∀ q, P (s.proc q)) (q : Proc) :
    P ((s.setProc who y).proc q) := by
  rw [setProc_proc]
  split_ifs
  · exact hy
  · exact hs q

lemma setProc_same (who : Proc) (hcall : y.call = (s.proc who).call)
    (hblocked : y.blocked = (s.proc who).blocked) (q : Proc) :
    ((s.setProc who y).proc q).call = (s.proc q).call ∧
      ((s.setProc who y).proc q).blocked = (s.proc q).blocked := by
  rw [setProc_proc]
  split_ifs with hq
  · rw [hq]
    exact ⟨hcall, hblocked⟩
  · exact ⟨rfl, rfl⟩

lemma setPipe_all {P : Pipe → Prop} (hx : P x) (hs : ∀ vp, P (s.pipe vp)) (vp' : PipeId) :
    P ((s.setPipe vp x).pipe vp') := by
  rw [setPipe_pipe]
  split_ifs
  · exact hx
  · exact hs vp'

lemma Begun.congr {x x' : Traffic} {y' : PipeProc} (h : Begun x y buf reqSize) (hcall : y'.call = y.call)
    (hpart : y'.fpCumIoPartial = y.fpCumIoPartial)
    (hchunks : x'.chunksOf y.call.serial = x.chunksOf y.call.serial) :
    Begun x' y' buf reqSize := by
  obtain ⟨hleft, hplace, hlarge, hsum, hsame⟩ := h
  constructor <;> simpa only [hcall, hpart, hchunks]

lemma Waits.congr {calls : Nat} {pipe pipe' : PipeId → Pipe} {w w' : PipeWait} {y' : PipeProc}
    (h : Waits calls pipe y w)
    (hstill : w'.still = w.still) (hcall : y'.call = y.call) (hpart : y'.fpCumIoPartial = y.fpCumIoPartial)
    (hfilp : y'.fpFilp w.fd = y.fpFilp w.fd)
    (hchunks : ∀ vp, (pipe' vp).traffic.chunksOf y.call.serial = (pipe vp).traffic.chunksOf
      y.call.serial) : Waits calls pipe' y' w' := by
  obtain ⟨hserial, hmore, vp, hf, hbegun⟩ := h
  cases w
  cases w'
  cases hstill
  exact ⟨hcall ▸ hserial, hmore, vp, hfilp.trans hf, fun hwr => (hbegun hwr).congr hcall hpart (hchunks vp)⟩

section
variable (hs : Streams s)
include hs

lemma Streams.released (h : Released s t) : Streams t := by
  have hproc : ∀ q, (t.proc q).fpFilp = (s.proc q).fpFilp ∧ (t.proc q).live = (s.proc q).live ∧
      (t.proc q).fpCumIoPartial = (s.proc q).fpCumIoPartial := by
    intro q
    obtain ⟨b, hb, _⟩ := h.proc q
    rw [hb]
    exact ⟨rfl, rfl, rfl⟩
  have hends : t.ends = s.ends := funext fun x => congrFun (hproc x.1).1 x.2
  have hcounts : t.counts = s.counts := by
    unfold PipeState.counts
    rw [h.pipe]
  refine ⟨hends ▸ hcounts ▸ hs.counted, fun q => ?_, ?_, h.pipe ▸ hs.flows, h.pipe ▸ hs.sent,
    h.pipe ▸ hs.whole, ?_, fun q w hw => ?_,
    fun q q' hq hq' heq => ?_⟩
  · rw [(hproc q).1, (hproc q).2.1]
    exact hs.gone q
  · rw [h.pipe, h.pipes]
    exact hs.fresh
  · rw [h.pipe, h.calls]
    exact hs.old
  · obtain ⟨b, hb, hstill⟩ := h.proc q
    rw [hb] at hw
    rw [show b = some w from hw] at hstill
    obtain ⟨w', hw', heq⟩ := Option.map_eq_some_iff.mp hstill.symm
    rw [h.calls]
    exact (hs.waits q w' hw').congr heq.symm (h.call q) (hproc q).2.2 (congrFun (hproc q).1 _)
      fun vp => by rw [h.pipe]
  · rw [h.call, h.call] at heq
    exact hs.apart q q' (h.hangs hq) (h.hangs hq') heq

lemma Streams.suspCount (n : Int) : Streams { s with suspCount := n } := { hs with }

lemma Streams.calls : Streams { s with calls := s.calls + 1 } := { hs with
  old := fun vp k hk => Nat.lt_succ_of_lt (hs.old vp k hk)
  waits := fun p w hw => ⟨Nat.lt_succ_of_lt (hs.waits p w hw).serial, (hs.waits p w hw).more,
    (hs.waits p w hw).filp⟩ }

lemma Streams.setProc (hfilp : y.fpFilp = (s.proc who).fpFilp)
    (hgone : y.live = false → ∀ fd, y.fpFilp fd = none)
    (hwaits : ∀ w, y.blocked = some w → Waits s.calls s.pipe y w)
    (hapart : y.blocked ≠ none → ∀ q, q ≠ who → (s.proc q).blocked ≠ none →
      (s.proc q).call.serial ≠ y.call.serial) :
    Streams (s.setProc who y) := { hs with
  counted := by
    have hends : (s.setProc who y).ends = s.ends := by
      funext x
      rw [PipeState.ends, setProc_proc]
      split_ifs with hx
      · rw [hfilp, ← hx]
        rfl
      · rfl
    rw [hends]
    exact hs.counted
  gone := setProc_all (P := fun x => x.live = false → ∀ fd, x.fpFilp fd = none) hgone hs.gone
  waits := setProc_all (P := fun x => ∀ w, x.blocked = some w → Waits s.calls s.pipe x w) hwaits hs.waits
  apart := by
    intro q q'
    rw [setProc_proc, setProc_proc]
    split_ifs with hq hq' hq'
    · exact fun _ _ _ => hq.trans hq'.symm
    · exact fun hy hb heq => absurd heq.symm (hapart hy q' hq' hb)
    · exact fun hb hy heq => absurd heq (hapart hy q hq hb)
    · exact hs.apart q q' }

lemma Streams.setIdle (hfilp : y.fpFilp = (s.proc who).fpFilp)
    (hgone : y.live = false → ∀ fd, y.fpFilp fd = none)
    (hnone : y.blocked = none) : Streams (s.setProc who y) :=
  hs.setProc hfilp hgone (fun w hw => absurd (hnone.symm.trans hw) (Option.some_ne_none w).symm)
    fun hb => absurd hnone hb

lemma Streams.setPartial (hnone : (s.proc who).blocked = none) (n : Nat) : Streams (s.setPartial who n) :=
  hs.setIdle rfl (hs.gone who) hnone

lemma Streams.pipeSuspend (hwaits : Waits s.calls s.pipe (s.proc who) ⟨fd, rw, buf, reqSize, false⟩)
    (hapart : ∀ q, (s.proc q).blocked ≠ none → (s.proc q).call.serial ≠ (s.proc who).call.serial) :
    Streams (pipeSuspend who rw fd buf reqSize s) := by
  refine (hs.setProc (y := { s.proc who with blocked := some ⟨fd, rw, buf, reqSize, false⟩ }) rfl
    (hs.gone who) (fun w hw => ?_)
    fun _ q _ hq => hapart q hq).suspCount _
  cases hw
  exact hwaits.congr rfl rfl rfl rfl fun _ => rfl

lemma Streams.lt_pipes (h : (s.pipe vp).InUse) : vp < s.pipes := by
  obtain ⟨rw, hne⟩ := h
  by_contra hge
  rw [hs.fresh vp (Nat.not_lt.mp hge)] at hne
  exact hne rfl

end

lemma counts_setPipe (hcount : ∀ rw, (x.filp rw).filpCount = ((s.pipe vp).filp rw).filpCount) :
    (s.setPipe vp x).counts = s.counts := by
  funext f
  rw [PipeState.counts, setPipe_pipe]
  split_ifs with hf
  · rw [hcount, ← hf]
    rfl
  · rfl

lemma Streams.setPipe (hs : Streams s) {serial : Nat} (huse : (s.pipe vp).InUse)
    (hfilp : x.filp = (s.pipe vp).filp) (hflows : x.Flows) (hwhole : x.traffic.Whole)
    (hothers : ∀ n, n ≠ serial → x.traffic.chunksOf n = (s.pipe vp).traffic.chunksOf n)
    (hnew : ∀ k ∈ x.traffic.chunks, k.serial < s.calls)
    (hserial : ∀ q, (s.proc q).blocked ≠ none → (s.proc q).call.serial ≠ serial) :
    Streams (s.setPipe vp x) := { hs with
  counted := by
    rw [counts_setPipe fun _ => by rw [hfilp]]
    exact hs.counted
  fresh := by
    intro vp' hvp'
    have hlt := hs.lt_pipes huse
    rw [setPipe_pipe, if_neg (by rintro rfl; exact absurd hvp' (Nat.not_le.mpr hlt))]
    exact hs.fresh vp' hvp'
  flows := setPipe_all (P := fun x => x.InUse → x.Flows) (fun _ => hflows) hs.flows
  sent := setPipe_all (P := fun x => x.traffic.delivered <+: x.traffic.accepted)
    ⟨x.pending, hflows.kept.symm⟩ hs.sent
  whole := setPipe_all (P := fun x => x.traffic.Whole) hwhole hs.whole
  old := setPipe_all (P := fun x => ∀ k ∈ x.traffic.chunks, k.serial < s.calls) hnew hs.old
  waits := by
    intro q w hw
    refine (hs.waits q w hw).congr rfl rfl rfl rfl fun vp' => ?_
    rw [setPipe_pipe]
    split_ifs with hvp
    · rw [hvp]
      exact hothers _ (hserial q
        (by rw [show (s.proc q).blocked = some w from hw]; exact Option.some_ne_none w))
    · rfl }

/-! ## `rw_pipe` -/

lemma rwPipe_streams {x : Int × PipeState} (hs : Streams s) (hnone : (s.proc who).blocked = none)
    (hfilp : (s.proc who).fpFilp fd = some (vp, rw)) (hserial : (s.proc who).call.serial < s.calls)
    (hapart : ∀ q, (s.proc q).blocked ≠ none → (s.proc q).call.serial ≠ (s.proc who).call.serial)
    (hreq : 0 < reqSize)
    (hbegun : rw = .writing → Begun (s.pipe vp).traffic (s.proc who) buf reqSize)
    (h : rwPipe who rw fd (vp, rw) buf reqSize c s = .ok x) : Streams x.2 := by
  obtain ⟨t, ht, hcases⟩ := rwPipe_cases hreq h
  have hst := hs.released ht
  have hwho := ht.proc_of_none hnone
  have hapart' : ∀ q, (t.proc q).blocked ≠ none → (t.proc q).call.serial ≠ (t.proc who).call.serial := by
    intro q hq
    rw [ht.call q, ht.call who]
    exact hapart q (ht.hangs hq)
  rw [← ht.pipe] at hbegun hcases
  rw [← ht.calls] at hserial
  rw [← hwho] at hnone hfilp hserial hbegun
  have huse := hst.inUse hfilp
  rcases hcases with ⟨_, _, _, heq⟩ | heq | ⟨got, hgot, hallow, heq⟩
  · rw [heq]
    exact hst
  · rw [heq]
    exact hst.pipeSuspend ⟨hserial, hreq, vp, hfilp, hbegun⟩ hapart'
  rw [heq]
  cases rw with
  | reading =>
    obtain ⟨rfl, hlt⟩ := hallow
    rcases transfer_reading (hst.flows vp huse) who fd buf c hlt with ⟨r, hr⟩ | ⟨size, r, hle, hr⟩
    · rw [hr]
      exact hst
    rw [hr]
    obtain ⟨hflows, hends, hchunks⟩ := (hst.flows vp huse).gave (t.proc who).call buf hle
    refine Streams.setPartial (hst.setPipe huse hends hflows ((hst.whole vp).congr hchunks)
      (fun n _ => ?_) ?_ hapart') hnone 0
    · rw [Traffic.chunksOf, hchunks]
      rfl
    · rw [hchunks]
      exact hst.old vp
  | writing =>
    have hb := hbegun rfl
    rcases transfer_writing (hst.flows vp huse) who fd buf reqSize c hgot with ⟨r, hr⟩ | ⟨hroom, r, u, hr, hu⟩
    · rw [hr]
      exact hst
    rw [hr]
    have hmoved : Streams (t.setPipe vp ((t.pipe vp).wrote (t.proc who).call c buf got)) := by
      refine hst.setPipe huse rfl ((hst.flows vp huse).wrote _ c buf hgot hroom)
        ((hst.whole vp).wrote hb c hgot hallow)
        (fun n hn => ?_) (fun k hk => ?_) hapart'
      · rw [Pipe.wrote_chunksOf, if_neg hn.symm, List.append_nil]
      rw [Pipe.wrote_chunks, List.mem_append, List.mem_singleton] at hk
      rcases hk with hk | rfl
      · exact hst.old vp k hk
      · exact hserial
    rcases hu with ⟨hlt, rfl⟩ | rfl
    · have hpart := hmoved.setPartial hnone ((t.proc who).fpCumIoPartial + got)
      have hsame := setProc_same (s := t.setPipe vp ((t.pipe vp).wrote (t.proc who).call c buf got)) who
        (y := { t.proc who with fpCumIoPartial := (t.proc who).fpCumIoPartial + got }) rfl rfl
      refine hpart.pipeSuspend ?_ fun q hq => ?_
      · rw [PipeState.setPartial, setProc_proc, if_pos rfl]
        refine ⟨hserial, Nat.sub_pos_of_lt hlt, vp, hfilp, fun _ => ?_⟩
        rw [setProc_pipe, setPipe_pipe, if_pos rfl]
        exact hb.wrote c hlt hallow (t.proc who).blocked
      · exact (hsame q).1.symm ▸ (hsame who).1.symm ▸ hapart' q ((hsame q).2 ▸ hq)
    · exact hmoved.setPartial hnone 0

lemma readWrite_streams {nbytes : BitVec 32} {x : Int × PipeState} (hs : Streams s)
    (hnone : (s.proc who).blocked = none)
    (h : readWrite who rw fd buf nbytes c s = .ok x) : Streams x.2 := by
  unfold readWrite at h
  split at h
  · exact Except.ok.inj h ▸ hs
  split at h
  · exact Except.ok.inj h ▸ hs
  next f hf =>
  obtain ⟨vp, rw'⟩ := f
  rcases ite_eq_iff.mp h with ⟨_, h⟩ | ⟨hrw, h⟩
  · exact Except.ok.inj h ▸ hs
  obtain rfl : rw' = rw := not_not.mp hrw
  split at h
  · exact Except.ok.inj h ▸ hs
  next hne =>
  split at h
  · nomatch h
  next hpart =>
  -- the call gets a number of its own
  have hcalled : Streams { s.setProc who { s.proc who with call := ⟨s.calls, buf, nbytes.toNat⟩ } with
      calls := s.calls + 1 } :=
    (hs.setIdle (y := { s.proc who with call := ⟨s.calls, buf, nbytes.toNat⟩ }) rfl (hs.gone who) hnone).calls
  have hfresh : (s.pipe vp).traffic.chunksOf s.calls = [] := by
    rw [Traffic.chunksOf, List.filter_eq_nil_iff]
    intro k hk heq
    exact absurd (hs.old vp k hk) (by simp only [decide_eq_true_eq] at heq; omega)
  have hpos : 0 < nbytes.toNat := by
    refine Nat.pos_of_ne_zero fun h0 => hne (BitVec.eq_of_toNat_eq ?_)
    simpa using h0
  refine rwPipe_streams hcalled ?_ ?_ ?_ (fun q hq => ?_) hpos (fun _ => ?_) h
  · simpa only [setProc_proc, if_true] using hnone
  · simpa only [setProc_proc, if_true] using hf
  · simp only [setProc_proc, if_true]
    exact Nat.lt_succ_self _
  · simp only [setProc_proc, if_true] at hq ⊢
    split_ifs at hq ⊢ with hqw
    · exact absurd hnone hq
    · obtain ⟨w, hw⟩ := Option.ne_none_iff_exists'.mp hq
      exact (hs.waits q w hw).serial.ne
  · simp only [setProc_proc, if_true]
    have h0 := not_not.mp hpart
    refine ⟨by simp [h0], by simp [h0], fun hne' => absurd h0 hne', ?_, fun k hk => ?_⟩
    · simp only
      rw [h0]
      exact congrArg total hfresh
    · exact absurd (hfresh ▸ hk) List.not_mem_nil

lemma resume_streams {x : Int × PipeState} (hs : Streams s) (h : resume who c s = .ok x) : Streams x.2 := by
  unfold resume at h
  split at h
  swap
  · exact Except.ok.inj h ▸ hs
  next w hw =>
  split at h
  swap
  · exact Except.ok.inj h ▸ hs
  next f _ hf =>
  obtain ⟨hserial, hmore, vp, hfilp, hbegun⟩ := hs.waits who w hw
  cases hf.symm.trans hfilp
  have hup : Streams (s.setProc who { s.proc who with blocked := none }) :=
    hs.setIdle (y := { s.proc who with blocked := none }) rfl (hs.gone who) rfl
  refine rwPipe_streams hup ?_ ?_ ?_ (fun q hq => ?_) hmore (fun hwr => ?_) h
  · rw [setProc_proc, if_pos rfl]
  · rw [setProc_proc, if_pos rfl]
    exact hf
  · rw [setProc_proc, if_pos rfl]
    exact hserial
  · rw [setProc_proc] at hq
    rw [setProc_proc, setProc_proc, if_pos rfl]
    split_ifs at hq ⊢ with hqw
    · exact absurd rfl hq
    · intro heq
      exact hqw (hs.apart q who hq (by rw [hw]; exact Option.some_ne_none w) heq)
  · rw [setProc_proc, if_pos rfl]
    exact (hbegun hwr).congr rfl rfl rfl

lemma unpause_streams (hs : Streams s) (who : Proc) : Streams (unpause who s) := by
  unfold unpause
  split
  · exact hs
  · exact (hs.setIdle (y := { s.proc who with blocked := none }) rfl (hs.gone who) rfl).suspCount _

/-! ## Descriptors -/

lemma Streams.setEnds (hs : Streams s) {g : Fd → Option FilpId} (hvp : vp < s.pipes)
    (htraffic : x.traffic = (s.pipe vp).traffic) (hflows : x.InUse → x.Flows)
    (hgone : (s.proc who).live = false → ∀ fd, g fd = none)
    (hkeep : ∀ w, (s.proc who).blocked = some w → g w.fd = (s.proc who).fpFilp w.fd)
    (hcounted : Exact (s.setPipe vp x).counts
      ((s.setPipe vp x).setProc who { s.proc who with fpFilp := g }).ends) :
    Streams ((s.setPipe vp x).setProc who { s.proc who with fpFilp := g }) := by
  have hsame : ∀ vp', ((s.setPipe vp x).pipe vp').traffic = (s.pipe vp').traffic := by
    intro vp'
    rw [setPipe_pipe]
    split_ifs with h
    · rw [htraffic, h]
    · rfl
  refine ⟨hcounted, setProc_all (P := fun x => x.live = false → ∀ fd, x.fpFilp fd = none) hgone hs.gone, ?_,
    setPipe_all (P := fun x => x.InUse → x.Flows) hflows hs.flows, fun vp' => ?_, fun vp' => ?_,
      fun vp' => ?_,
    ?_, ?_⟩
  · intro vp' hvp'
    have hne : vp' ≠ vp := by
      rintro rfl
      exact absurd hvp' (Nat.not_le.mpr hvp)
    rw [setProc_pipe, setPipe_pipe, if_neg hne]
    exact hs.fresh vp' hvp'
  · rw [setProc_pipe, hsame]
    exact hs.sent vp'
  · rw [setProc_pipe, hsame]
    exact hs.whole vp'
  · rw [setProc_pipe, hsame]
    exact hs.old vp'
  · intro q w hw
    rw [setProc_proc] at hw ⊢
    split_ifs at hw ⊢ with hq
    · exact (hs.waits who w hw).congr rfl rfl rfl (hkeep w hw) fun vp' => by rw [setProc_pipe, hsame]
    · exact (hs.waits q w hw).congr rfl rfl rfl rfl fun vp' => by rw [setProc_pipe, hsame]
  · intro q q'
    have hsame := setProc_same (s := s.setPipe vp x) who (y := { s.proc who with fpFilp := g }) rfl rfl
    rw [(hsame q).1, (hsame q').1, (hsame q).2, (hsame q').2]
    exact hs.apart q q'

lemma ends_setProc (ht : t.proc = s.proc) (who : Proc) (fd : Fd) (o : Option FilpId) :
    (t.setProc who { s.proc who with fpFilp := update (s.proc who).fpFilp fd o }).ends =
      update s.ends (who, fd) o := by
  funext ⟨q, fd'⟩
  rw [PipeState.ends, setProc_proc, ht]
  by_cases hq : q = who
  · subst hq
    by_cases hfd : fd' = fd
    · subst hfd
      simp
    · simp [hfd, PipeState.ends]
  · simp [hq, PipeState.ends]

lemma Pipe.Flows.filps {y : Pipe} (hx : x.Flows) (h : y = { x with filp := y.filp }) : y.Flows := by
  rw [h]
  exact ⟨hx.wr, hx.size, hx.rd, hx.room, hx.block, hx.kept⟩

lemma Streams.setFlags (hs : Streams s) (who : Proc) (huse : (s.pipe vp).InUse)
    (hx : x = { s.pipe vp with filp := x.filp })
    (hcount : ∀ rw, (x.filp rw).filpCount = ((s.pipe vp).filp rw).filpCount) :
    Streams (s.setPipe vp x) := by
  have hproc : s.setPipe vp x = (s.setPipe vp x).setProc who
    { s.proc who with fpFilp := (s.proc who).fpFilp } := by
    rw [PipeState.setProc, setPipe_proc, update_eq_self]
    rfl
  rw [hproc]
  refine hs.setEnds (hs.lt_pipes huse) (by rw [hx]) (fun _ => (hs.flows vp huse).filps hx)
    (hs.gone who) (fun _ _ => rfl) ?_
  rw [← hproc, counts_setPipe hcount]
  exact hs.counted

lemma counts_setCount (s : PipeState) (f : FilpId) (n : Nat)
    (hx : x.filp = ((s.pipe f.1).setCount f.2 n).filp) :
    (s.setPipe f.1 x).counts = update s.counts f n := by
  funext ⟨vp, rw⟩
  rw [PipeState.counts, setPipe_pipe]
  by_cases hvp : vp = f.1
  · subst hvp
    rw [if_pos rfl, hx, Pipe.setCount]
    by_cases hrw : rw = f.2
    · subst hrw
      simp
    have hne : (f.1, rw) ≠ f := fun h => hrw (congrArg Prod.snd h)
    rw [update_of_ne hne]
    simp [hrw, PipeState.counts]
  · have hne : (vp, rw) ≠ f := fun h => hvp (congrArg Prod.fst h)
    rw [if_neg hvp, update_of_ne hne]
    rfl

lemma Streams.share (hs : Streams s) (hlive : (s.proc who).live = true)
    (hfd : (s.proc who).fpFilp fd = none) (hvp : f.1 < s.pipes)
    (hflows : (s.pipe f.1).Flows) : Streams (s.share who fd f) := by
  refine hs.setEnds hvp rfl (fun _ => hflows.filps rfl) (fun hdead => ?_) (fun w hw => ?_) ?_
  · nomatch hlive.symm.trans hdead
  · obtain ⟨_, _, vp, hf, _⟩ := hs.waits who w hw
    refine update_of_ne ?_ _ _
    rintro rfl
    nomatch hfd.symm.trans hf
  · rw [ends_setProc (setPipe_proc ..), counts_setCount s f _ rfl]
    exact hs.counted.fill (a := (who, fd)) hfd f

lemma Pipe.put_keeps (x : Pipe) : x.put.filp = x.filp ∧ x.put.traffic = x.traffic := by
  unfold Pipe.put
  simp only
  split
  · split_ifs <;> exact ⟨rfl, rfl⟩
  · split_ifs <;> exact ⟨rfl, rfl⟩

lemma Pipe.Flows.put (hx : x.Flows) (huse : x.InUse) : x.put.Flows := by
  have hopen : ¬ ((x.filp .reading).filpCount = 0 ∧ (x.filp .writing).filpCount = 0) := by
    rintro ⟨hr, hw⟩
    obtain ⟨rw, hne⟩ := huse
    cases rw with
    | reading => exact hne hr
    | writing => exact hne hw
  unfold Pipe.put
  split_ifs with h0
  · simp only [if_neg hopen]
    exact ⟨hx.wr, h0.symm, hx.rd, hx.room, hx.block, hx.kept⟩
  · simp only [if_neg hopen]
    exact hx

lemma closePipe_streams (hs : Streams s) (hnone : (s.proc who).blocked = none)
    (h : closePipe who fd s = .ok t) :
    Streams t ∧ (t.proc who).fpFilp fd = none := by
  unfold closePipe at h
  split at h
  · next hf => exact Except.ok.inj h ▸ ⟨hs, hf⟩
  next f hf =>
  obtain ⟨u, hu, h⟩ := bind_eq_ok.mp h
  obtain ⟨v, hv, hu⟩ := bind_eq_ok.mp hu
  cases hu
  cases h
  have hrel := release_released hv
  have hsv := hs.released hrel
  have hwho := hrel.proc_of_none hnone
  rw [← hwho] at hf hnone
  have huse := hsv.inUse hf
  refine ⟨hsv.setEnds (hsv.lt_pipes huse) ?_ (fun huse' => ?_) (fun hdead fd' => ?_) (fun w hw => ?_) ?_, ?_⟩
  · split_ifs
    · exact (Pipe.put_keeps _).2
    · rfl
  · have hcut : ((v.pipe f.1).setCount f.2 (((v.pipe f.1).filp f.2).filpCount - 1)).Flows :=
      (hsv.flows f.1 huse).filps rfl
    split_ifs at huse' ⊢
    · refine hcut.put ?_
      unfold Pipe.InUse at huse' ⊢
      rwa [(Pipe.put_keeps _).1] at huse'
    · exact hcut
  · nomatch hf.symm.trans (hsv.gone who hdead fd)
  · nomatch hnone.symm.trans hw
  · rw [setPipe_proc, ends_setProc (s := v) (setPipe_proc ..),
      counts_setCount v f (((v.pipe f.1).filp f.2).filpCount - 1)]
    · exact hsv.counted.clear (a := (who, fd)) hf
    · split_ifs
      · exact (Pipe.put_keeps _).1
      · rfl
  · rw [setProc_proc, if_pos rfl]
    exact update_self _ _ _

lemma closePipe_proc (hnone : (s.proc who).blocked = none) (h : closePipe who fd s = .ok t) :
    (t.proc who).blocked = none ∧ (t.proc who).live = (s.proc who).live ∧
      ∀ fd', (s.proc who).fpFilp fd' = none → (t.proc who).fpFilp fd' = none := by
  unfold closePipe at h
  split at h
  · exact Except.ok.inj h ▸ ⟨hnone, rfl, fun _ h => h⟩
  obtain ⟨u, hu, h⟩ := bind_eq_ok.mp h
  obtain ⟨v, hv, hu⟩ := bind_eq_ok.mp hu
  cases hu
  cases h
  have hwho := (release_released hv).proc_of_none hnone
  rw [setProc_proc, if_pos rfl, setPipe_proc, hwho]
  refine ⟨hnone, rfl, fun fd' hfd' => ?_⟩
  show update (s.proc who).fpFilp fd none fd' = none
  rw [update_apply]
  split_ifs
  · rfl
  · exact hfd'

lemma unpause_none (who : Proc) (s : PipeState) : ((unpause who s).proc who).blocked = none := by
  unfold unpause
  split
  · assumption
  · rw [setProc_proc, if_pos rfl]

lemma freeProc_streams (hs : Streams s) (h : freeProc who s = .ok t) : Streams t := by
  obtain ⟨u, hu, h⟩ := bind_eq_ok.mp h
  cases h
  have hloop := foldlM_ok (P := fun done v => Streams v ∧ (v.proc who).blocked = none ∧ ∀ fd ∈ done,
    (v.proc who).fpFilp fd = none)
    (fun done fd rest v v' _ ⟨hv, hnone, hdone⟩ hclose => by
      obtain ⟨hv', hfd⟩ := closePipe_streams hv hnone hclose
      obtain ⟨hnone', _, hkeep⟩ := closePipe_proc hnone hclose
      refine ⟨hv', hnone', fun fd' hfd' => ?_⟩
      rcases List.mem_append.mp hfd' with hin | hin
      · exact hkeep fd' (hdone fd' hin)
      · exact List.mem_singleton.mp hin ▸ hfd)
    ⟨unpause_streams hs who, unpause_none who s, fun fd hfd => absurd hfd List.not_mem_nil⟩ hu
  obtain ⟨hsu, hnone, hclosed⟩ := hloop
  exact hsu.setIdle rfl (fun _ fd => hclosed fd (List.mem_finRange fd)) hnone

lemma share_proc (s : PipeState) (who : Proc) (fd : Fd) (f : FilpId) :
    (s.share who fd f).proc who = { s.proc who with fpFilp := update (s.proc who).fpFilp fd (some f) } := by
  rw [PipeState.share, setProc_proc, if_pos rfl]

lemma share_pipe (s : PipeState) (who : Proc) (fd : Fd) (f : FilpId) (h : (s.pipe vp).Flows) :
    ((s.share who fd f).pipe vp).Flows := by
  rw [PipeState.share, setProc_pipe, setPipe_pipe]
  split_ifs with hvp
  · rw [hvp] at h
    exact h.filps rfl
  · exact h

lemma foldl_share_streams {child : Proc} (g : Fd → Option FilpId) {l : List Fd} (hl : l.Nodup)
    (hs : Streams s)
    (hlive : (s.proc child).live = true) (hfree : ∀ fd ∈ l, (s.proc child).fpFilp fd = none)
    (hg : ∀ fd f, g fd = some f → f.1 < s.pipes ∧ (s.pipe f.1).Flows) :
    Streams (l.foldl (fun t fd => match g fd with
      | some f => t.share child fd f
      | none => t) s) := by
  induction l generalizing s with
  | nil => exact hs
  | cons fd l ih =>
    obtain ⟨hnot, hl'⟩ := List.nodup_cons.mp hl
    rw [List.foldl_cons]
    cases hfd : g fd with
    | none => exact ih hl' hs hlive (fun fd' h => hfree fd' (.tail _ h)) hg
    | some f =>
      obtain ⟨hlt, hflows⟩ := hg fd f hfd
      refine ih hl' (hs.share hlive (hfree fd (.head _)) hlt hflows) ?_ (fun fd' hfd' => ?_) fun fd'
        f' hf' => ?_
      · rw [share_proc]
        exact hlive
      · rw [share_proc]
        refine (update_of_ne ?_ _ _).trans (hfree fd' (.tail _ hfd'))
        rintro rfl
        exact hnot hfd'
      · exact ⟨(hg fd' f' hf').1, share_pipe s child fd f (hg fd' f' hf').2⟩

lemma pmFork_streams {parent child : Proc} (hs : Streams s) (hlive : (s.proc parent).live = true)
    (hnone : (s.proc parent).blocked = none)
    (h : pmFork parent child s = .ok t) : Streams t := by
  unfold pmFork at h
  split at h
  · nomatch h
  next hdead =>
  cases h
  have hdead' : (s.proc child).live = false := by simpa using hdead
  -- the child starts without descriptors
  have hborn : Streams (s.setProc child { s.proc parent with fpFilp := fun _ => none }) :=
    hs.setIdle (funext (hs.gone child hdead')).symm (fun _ _ => rfl) hnone
  refine foldl_share_streams _ (List.nodup_finRange _) hborn ?_ (fun fd _ => ?_) fun fd f hf => ?_
  · rw [setProc_proc, if_pos rfl]
    exact hlive
  · rw [setProc_proc, if_pos rfl]
  · exact ⟨hs.lt_pipes (hs.inUse hf), hs.flows f.1 (hs.inUse hf)⟩

/-! ## Runs -/

lemma Streams.pipes (hs : Streams s) : Streams { s with pipes := s.pipes + 1 } :=
  { hs with fresh := fun vp hvp => hs.fresh vp (Nat.le_of_succ_le hvp) }

lemma PipeState.step_streams {a : PipeAct} (hs : Streams s) (h : s.step a = .ok t) : Streams t := by
  cases a with
  | pipe p fd fd' =>
    rcases ite_eq_iff.mp h with ⟨⟨hlive, _, hne, hfd, hfd'⟩, h⟩ | ⟨_, h⟩
    · cases h
      have hflows : (s.pipe s.pipes).Flows := by
        rw [hs.fresh s.pipes (Nat.le_refl _)]
        exact freshPipe_flows
      have hread := hs.pipes.share (f := (s.pipes, .reading)) hlive hfd (Nat.lt_succ_self _) hflows
      refine hread.share (f := (s.pipes, .writing)) ?_ ?_ (Nat.lt_succ_self _) (share_pipe _ p fd _ hflows)
      · rw [share_proc]
        exact hlive
      · rw [share_proc]
        exact (update_of_ne hne.symm _ _).trans hfd'
    · exact Except.ok.inj h ▸ hs
  | rw p rw fd buf nbytes c =>
    rcases ite_eq_iff.mp h with ⟨⟨_, hnone⟩, h⟩ | ⟨_, h⟩
    · obtain ⟨x, hx, h⟩ := bind_eq_ok.mp h
      cases h
      exact readWrite_streams hs (Option.isNone_iff_eq_none.mp hnone) hx
    · exact Except.ok.inj h ▸ hs
  | resume p c =>
    obtain ⟨x, hx, h⟩ := bind_eq_ok.mp h
    cases h
    exact resume_streams hs hx
  | unpause p => exact Except.ok.inj h ▸ unpause_streams hs p
  | close p fd =>
    rcases ite_eq_iff.mp h with ⟨⟨_, hnone⟩, h⟩ | ⟨_, h⟩
    · exact (closePipe_streams hs (Option.isNone_iff_eq_none.mp hnone) h).1
    · exact Except.ok.inj h ▸ hs
  | dup p fd fd' =>
    simp only [PipeState.step] at h
    split at h
    · rename_i f hf
      rcases ite_eq_iff.mp h with ⟨⟨hlive, _, hfd'⟩, h⟩ | ⟨_, h⟩
      · cases h
        have huse := hs.inUse hf
        exact hs.share hlive hfd' (hs.lt_pipes huse) (hs.flows f.1 huse)
      · exact Except.ok.inj h ▸ hs
    · exact Except.ok.inj h ▸ hs
  | setfl p fd nonblock =>
    simp only [PipeState.step] at h
    split at h
    · rename_i f hf
      split at h
      · cases h
        refine hs.setFlags p (hs.inUse hf) rfl fun rw => ?_
        show (update (s.pipe f.1).filp f.2 _ rw).filpCount = _
        rw [update_apply]
        split_ifs with hrw
        · rw [hrw]
        · rfl
      · exact Except.ok.inj h ▸ hs
    · exact Except.ok.inj h ▸ hs
  | fork parent child =>
    rcases ite_eq_iff.mp h with ⟨⟨hlive, hnone⟩, h⟩ | ⟨_, h⟩
    · exact pmFork_streams hs hlive (Option.isNone_iff_eq_none.mp hnone) h
    · exact Except.ok.inj h ▸ hs
  | exit p =>
    rcases ite_eq_iff.mp h with ⟨_, h⟩ | ⟨_, h⟩
    · exact freeProc_streams hs h
    · exact Except.ok.inj h ▸ hs

lemma pipeBoot_streams (live : Proc → Bool) : Streams (pipeBoot live) where
  counted := exact_of_none (fun _ => rfl) fun _ => rfl
  gone := fun _ _ _ => rfl
  fresh := fun _ _ => rfl
  flows := fun _ _ => freshPipe_flows
  sent := fun _ => List.prefix_rfl
  whole := fun _ => ⟨fun _ hk => absurd hk List.not_mem_nil, fun _ => trivial, fun _ hk =>
    absurd hk List.not_mem_nil⟩
  old := fun _ _ hk => absurd hk List.not_mem_nil
  waits := nofun
  apart := fun _ _ hb => absurd rfl hb

/-- Readers get a prefix of what writers put in. The bytes of a write go in in order, and those of
one that the pipe can hold all at once. -/
theorem pipe_stream {n : Nat} (tr : Trace PipeState.step n) (live : Proc → Bool)
    (hinit : tr.state 0 = pipeBoot live) (i : Nat) (hi : i ≤ n)
    (vp : PipeId) : ((tr.state i).pipe vp).traffic.delivered <+: ((tr.state i).pipe vp).traffic.accepted ∧
      (∀ serial, Consecutive 0 (((tr.state i).pipe vp).traffic.chunksOf serial)) ∧
      ∀ k ∈ ((tr.state i).pipe vp).traffic.chunks, k.request ≤ pipeBuf →
        ((tr.state i).pipe vp).traffic.chunksOf k.serial = [k] ∧ k.bytes.length = k.request := by
  have hs := tr.invariant Streams (by rw [hinit]; exact pipeBoot_streams live) PipeState.step_streams i hi
  exact ⟨hs.sent vp, (hs.whole vp).consecutive, (hs.whole vp).single⟩

def stdin : Fd := ⟨0, openMax_pos⟩
def stdout : Fd := ⟨1, one_lt_openMax⟩

def threeThenTwo : Nat → PipeAct
  | 0 => .pipe ⟨0, nrProcs_pos⟩ stdin stdout
  | 1 => .rw ⟨0, nrProcs_pos⟩ .writing stdout 10 3 ⟨fun i => (i : Nat).toUInt8, true⟩
  | _ => .rw ⟨0, nrProcs_pos⟩ .reading stdin 0 2 ⟨fun _ => 0, true⟩

theorem pipe_stream_three_then_two : ∃ tr : Trace PipeState.step 3, tr.state 0 = pipeBoot (fun _ => true) ∧
      ((tr.state 3).pipe 0).traffic.delivered = [10, 11] ∧
        ((tr.state 3).pipe 0).traffic.accepted = [10, 11, 12] ∧
      ((tr.state 3).pipe 0).traffic.delivered <+: ((tr.state 3).pipe 0).traffic.accepted := by
  let tr := Trace.run PipeState.step (pipeBoot fun _ => true) threeThenTwo 3 (by decide +kernel)
  exact ⟨tr, rfl, by decide +kernel, by decide +kernel, (pipe_stream tr _ rfl 3 (Nat.le_refl _) 0).1⟩

end Nucleos.Vfs
