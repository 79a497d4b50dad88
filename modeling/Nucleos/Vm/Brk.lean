import Nucleos.Vm.AddressSpace

/-!
# The break of a process

Where the data of a process ends is kept twice, in the segment map and as the end of the heap
region. A break that shrinks the data moves the first only, and so does one that the heap region
cannot follow. -/

namespace Nucleos.Vm

open Function Run

variable {s t : State} {p : ProcId} {v sp clicks : BitVec 32} {segS : MemMap} {res : Int}
    {heap : RegionId}

abbrev State.finOf (s : State) (r : RegionId) : BitVec 32 :=
  (s.heap.region r).vaddr + (s.heap.region r).length

structure State.InStep (s : State) (p : ProcId) (heap : RegionId) : Prop where
  paged : (s.proc p).haspt = true
  known : (s.proc p).vmHeap = some heap
  ends : s.finOf heap = archVir2map (s.proc p)
    (((s.proc p).segD.memVir + (s.proc p).segD.memLen) <<< 12)

def State.Shrinks (s : State) (p : ProcId) (v : BitVec 32) : Prop :=
  (s.proc p).clicksTo v < (s.proc p).segD.memLen

/-- What the heap region is to grow by runs over, or reaches into the next region. -/
def State.Blocked (s : State) (p : ProcId) (heap : RegionId) (delta : BitVec 32) : Prop :=
  delta ≠ 0 ∧ (s.finOf heap + delta ≤ s.finOf heap ∨
    ∃ n ∈ nextRegion heap (s.proc p).vmRegions, (s.heap.region n).vaddr < s.finOf heap + delta)

def State.Refuses (s : State) (p : ProcId) (heap : RegionId) (v : BitVec 32) : Prop :=
  s.Blocked p heap (((s.proc p).clicksTo v - (s.proc p).segD.memLen) <<< 12)

lemma withData_proc :
    (s.withData p clicks segS).proc p =
      { s.proc p with segD := { (s.proc p).segD with memLen := clicks }, segS := segS } :=
  update_self ..

lemma State.InStep.moved (hs : s.InStep p heap)
    (hproc : t.proc p = (s.withData p clicks segS).proc p)
    (hends : t.finOf heap = s.finOf heap + (clicks - (s.proc p).segD.memLen) <<< 12) :
    t.InStep p heap := by
  rw [withData_proc] at hproc
  refine ⟨by rw [hproc]; exact hs.paged, by rw [hproc]; exact hs.known, ?_⟩
  rw [hends, hs.ends, hproc]
  simp only [archVir2map, BitVec.shiftLeft_eq_mul_twoPow]
  grind

def Request.Follows (p : ProcId) (heap : RegionId) (s : State) (q : Request) : Prop :=
  ∃ v sp, q = .brk p v sp ∧ ¬ s.Shrinks p v ∧ ¬ s.Refuses p heap v

end Nucleos.Vm
