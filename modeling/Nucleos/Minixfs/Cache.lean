import Nucleos.Lib.DoubleList
import Nucleos.Lib.Run

/-!
# The buffer cache

Blocks of the devices are kept in a pool of buffers. A buffer hangs on the hash chain of its block
number; while nobody uses it, it is also on a list in the order in which the buffers are to be taken
again. A buffer that is taken while it is dirty has all dirty blocks of its device written first.
Transfers to and from the devices succeed here.
-/

namespace Nucleos.Minixfs

open Function IntrusiveList Run

def noDev : Nat := 0
def noBlock : Nat := 0
def devRam : Nat := 0x0100
def nrIoreqs : Nat := 64
def nrBufs : Nat := 1024

def writeImmed : BitVec 32 := 0x40
def oneShot : BitVec 32 := 0x80
def partialDataBlock : BitVec 32 := 6

inductive OnlySearch where
  | normal
  | noRead
  | prefetch
deriving DecidableEq, Repr

inductive RwFlag where
  | reading
  | writing
deriving DecidableEq, Repr

/-- Why an operation does not return: the two panics, a null pointer followed, a chain without
end. -/
inductive CacheStop where
  | allInUse
  | noBuffer
  | fault
  | endless
deriving DecidableEq, Repr

/-- The buffers, the chains through them and the devices behind them. `lru` has `front` and `b_next`
one way, `rear` and `b_prev` the other; `hash` has `buf_hash` and `b_hash`. -/
structure Cache (N : Nat) (D : Type) where
  lru : DoubleList (Fin N)
  hash : Lists (Fin N) (Fin N)
  blocknr : Fin N → Nat
  dev : Fin N → Nat
  dirt : Fin N → Bool
  count : Fin N → BitVec 8
  bytes : Fin N → Bool
  data : Fin N → D
  bufsInUse : Int
  disk : Nat → Nat → D

namespace Cache
variable {N : Nat} {D : Type}

def chainFuel (_ : Cache N D) : Nat := N + 1

def setDisk (dev block : Nat) (d : D) (c : Cache N D) : Cache N D :=
  { c with disk := fun v b => if v = dev ∧ b = block then d else c.disk v b }

def rwBlock (flag : RwFlag) (bp : Fin N) (c : Cache N D) : Cache N D :=
  let c :=
    if c.dev bp ≠ noDev then
      match flag with
      | .reading => { c with data := update c.data bp (c.disk (c.dev bp) (c.blocknr bp)) }
      | .writing => c.setDisk (c.dev bp) (c.blocknr bp) (c.data bp)
    else c
  { c with dirt := update c.dirt bp false }

def rmLru (bp : Fin N) (c : Cache N D) : Cache N D :=
  { c with bufsInUse := c.bufsInUse + 1, lru := c.lru.remove bp }

def putBlock (bp : Fin N) (blockType : BitVec 32) (c : Cache N D) : Cache N D :=
  let c := { c with count := update c.count bp (c.count bp - 1) }
  if c.count bp ≠ 0 then c
  else
    let c := { c with
      bufsInUse := c.bufsInUse - 1
      lru := if c.dev bp = devRam ∨ blockType &&& oneShot ≠ 0 then c.lru.pushFront bp else c.lru.pushRear bp }
    if blockType &&& writeImmed ≠ 0 ∧ c.dirt bp ∧ c.dev bp ≠ noDev then c.rwBlock .writing bp else c

/-! ## Scattered transfers -/

def swapAt (q : List (Fin N)) (i k : Nat) : List (Fin N) :=
  if h : i < q.length ∧ k < q.length then (q.set i (q.get ⟨k, h.2⟩)).set k (q.get ⟨i, h.1⟩) else q

def above (c : Cache N D) (q : List (Fin N)) (i k : Nat) : Bool :=
  if h : i < q.length ∧ k < q.length then c.blocknr (q.get ⟨k, h.2⟩) < c.blocknr (q.get ⟨i, h.1⟩) else false

/-- The inner loop of the sort: move an element down in steps of the gap. The first argument bounds
the steps. -/
def siftDown (c : Cache N D) (gap : Nat) : Nat → Nat → List (Fin N) → List (Fin N)
  | 0, _, q => q
  | n + 1, i, q =>
    if c.above q i (i + gap) then
      if gap ≤ i then siftDown c gap n (i - gap) (swapAt q i (i + gap)) else swapAt q i (i + gap)
    else q

def sortPass (c : Cache N D) (gap : Nat) (q : List (Fin N)) : List (Fin N) :=
  ((List.range q.length).drop gap).foldl (fun q j => siftDown c gap (j + 1) (j - gap) q) q

def firstGap (size : Nat) : Nat → Nat → Nat
  | 0, gap => gap
  | n + 1, gap => if 3 * gap + 1 ≤ size then firstGap size n (3 * gap + 1) else 3 * gap + 1

def sortPasses (c : Cache N D) : Nat → Nat → List (Fin N) → List (Fin N)
  | 0, _, q => q
  | n + 1, gap, q => if gap = 1 then q else sortPasses c n (gap / 3) (c.sortPass (gap / 3) q)

def shellSort (c : Cache N D) (q : List (Fin N)) : List (Fin N) :=
  let gap := firstGap q.length (q.length + 1) 1
  sortPasses c gap gap q

/-- The buffers at the front of the queue that one request covers: their blocks follow each
other. -/
def batch (blocknr : Fin N → Nat) : Nat → Nat → List (Fin N) → List (Fin N)
  | 0, _, _ => []
  | _, _, [] => []
  | n + 1, block, bp :: q => if blocknr bp ≠ block then [] else bp :: batch blocknr n (block + 1) q

def scatter (dev : Nat) : Nat → List (Fin N) → Cache N D → Cache N D
  | _, [], c => c
  | block, bp :: q, c =>
    let c := c.setDisk dev block (c.data bp)
    scatter dev (block + 1) q { c with dirt := update c.dirt bp false }

def gather (dev : Nat) : Nat → List (Fin N) → Cache N D → Cache N D
  | _, [], c => c
  | block, bp :: q, c =>
    let c := { c with data := update c.data bp (c.disk dev block), dev := update c.dev bp dev }
    gather dev (block + 1) q (c.putBlock bp partialDataBlock)

def writeQueue (dev : Nat) : Nat → List (Fin N) → Cache N D → Cache N D
  | 0, _, c => c
  | _, [], c => c
  | n + 1, bp :: q, c =>
    let now := batch c.blocknr nrIoreqs (c.blocknr bp) (bp :: q)
    writeQueue dev n ((bp :: q).drop now.length) (c.scatter dev (c.blocknr bp) now)

def readQueue (dev : Nat) (q : List (Fin N)) (c : Cache N D) : Cache N D :=
  match q with
  | [] => c
  | bp :: _ =>
    let now := batch c.blocknr nrIoreqs (c.blocknr bp) q
    (q.drop now.length).foldl (fun c bp => c.putBlock bp partialDataBlock) (c.gather dev (c.blocknr bp) now)

def rwScattered (dev : Nat) (bufq : List (Fin N)) (flag : RwFlag) (c : Cache N D) : Cache N D :=
  match flag with
  | .reading => c.readQueue dev (c.shellSort bufq)
  | .writing => c.writeQueue dev bufq.length (c.shellSort bufq)

def dirtyOf (c : Cache N D) (dev : Nat) : List (Fin N) :=
  (List.finRange N).filter fun bp => c.dirt bp = true ∧ c.dev bp = dev

def flushall (dev : Nat) (c : Cache N D) : Cache N D := c.rwScattered dev (c.dirtyOf dev) .writing

def invalidate (device : Nat) (c : Cache N D) : Cache N D :=
  { c with dev := fun bp => if c.dev bp = device then noDev else c.dev bp }

/-! ## Getting a block -/

section Get
variable [NeZero N]

def bufhash (block : Nat) : Fin N := Fin.ofNat N block

def search (dev block : Nat) (c : Cache N D) : Except CacheStop (Option (Fin N)) :=
  if dev = noDev then .ok none
  else
    match c.hash.walk (fun bp => c.blocknr bp = block ∧
      c.dev bp = dev) c.chainFuel (.head (bufhash block)) with
    | none => .error .endless
    | some e => .ok (c.hash.read e)

/-- The oldest free buffer, with memory: `alloc` says whether memory can be had. Else the oldest
that has memory. -/
def takeOldest (alloc : Bool) (c : Cache N D) : Except CacheStop (Fin N × Cache N D) :=
  match c.lru.fwd.head () with
  | none => .error .allInUse
  | some bp =>
    if c.bytes bp then .ok (bp, c)
    else if alloc then .ok (bp, { c with bytes := update c.bytes bp true })
    else
      match c.lru.fwd.walk c.bytes c.chainFuel (.head ()) with
      | none => .error .endless
      | some e =>
        match c.lru.fwd.read e with
        | none => .error .noBuffer
        | some bp => .ok (bp, c)

def unhash (bp : Fin N) (c : Cache N D) : Except CacheStop (Cache N D) :=
  match c.hash.head (bufhash (c.blocknr bp)) with
  | none => .error .fault
  | some _ =>
    match c.hash.walk (fun a => a = bp) c.chainFuel (.head (bufhash (c.blocknr bp))) with
    | none => .error .endless
    | some e => if (c.hash.read e).isSome then .ok { c with hash := c.hash.unlink e bp } else .ok c

def assign (dev block : Nat) (bp : Fin N) (c : Cache N D) : Cache N D :=
  { c with
    dev := update c.dev bp dev
    blocknr := update c.blocknr bp block
    count := update c.count bp (c.count bp + 1)
    hash := c.hash.push (bufhash block) bp }

def fetch (dev : Nat) (mode : OnlySearch) (bp : Fin N) (c : Cache N D) : Cache N D :=
  if dev = noDev then c
  else
    match mode with
    | .prefetch => { c with dev := update c.dev bp noDev }
    | .normal => c.rwBlock .reading bp
    | .noRead => c

def evict (bp : Fin N) (c : Cache N D) : Except CacheStop (Cache N D) := do
  let c ← (c.rmLru bp).unhash bp
  return if c.dev bp ≠ noDev ∧ c.dirt bp = true then c.flushall (c.dev bp) else c

def getBlock (dev block : Nat) (mode : OnlySearch) (alloc : Bool) (c : Cache N D) :
    Except CacheStop (Fin N × Cache N D) := do
  match ← c.search dev block with
  | some bp =>
    let c := if c.count bp = 0 then c.rmLru bp else c
    return (bp, { c with count := update c.count bp (c.count bp + 1) })
  | none =>
    let (bp, c) ← c.takeOldest alloc
    let c ← c.evict bp
    return (bp, (c.assign dev block bp).fetch dev mode bp)

def modify (bp : Fin N) (d : D) (c : Cache N D) : Cache N D :=
  { c with data := update c.data bp d, dirt := update c.dirt bp true }

def bufPool (data : Fin N → D) (disk : Nat → Nat → D) : Cache N D :=
  let next (bp : Fin N) : Option (Fin N) := if h : bp.val + 1 < N then some ⟨bp.val + 1, h⟩ else none
  let prev (bp : Fin N) : Option (Fin N) := if 0 < bp.val then some ⟨bp.val - 1, by omega⟩ else none
  { lru := ⟨⟨fun _ => some 0, next⟩, ⟨fun _ => some ⟨N - 1, Nat.sub_one_lt (NeZero.ne N)⟩, prev⟩⟩
    hash := ⟨fun h => if h = 0 then some 0 else none, next⟩
    blocknr := fun _ => noBlock
    dev := fun _ => noDev
    dirt := fun _ => false
    count := fun _ => 0
    bytes := fun _ => false
    data, disk
    bufsInUse := 0 }

end Get

/-! ## Writing dirty blocks -/

def writeOut (dev : Nat) (bp : Fin N) (c : Cache N D) : Cache N D :=
  let c := c.setDisk dev (c.blocknr bp) (c.data bp)
  { c with dirt := update c.dirt bp false }

variable {c : Cache N D} {q : List (Fin N)} {bp : Fin N} {dev block : Nat}

lemma rwBlock_writing (h : c.dev bp ≠ noDev) : c.rwBlock .writing bp = c.writeOut (c.dev bp) bp := by
  unfold rwBlock
  rw [if_pos h]
  rfl

lemma swapAt_perm (q : List (Fin N)) (i k : Nat) : (swapAt q i k).Perm q := by
  unfold swapAt
  split
  · next h => exact List.set_set_perm h.1 h.2
  · exact List.Perm.refl q

lemma siftDown_perm (c : Cache N D) (gap n i : Nat) (q : List (Fin N)) : (c.siftDown gap n i q).Perm q := by
  induction n generalizing i q with
  | zero => exact List.Perm.refl q
  | succ n ih =>
    rw [siftDown]
    split
    · split
      · exact (ih _ _).trans (swapAt_perm q _ _)
      · exact swapAt_perm q _ _
    · exact List.Perm.refl q

lemma sortPass_perm (c : Cache N D) (gap : Nat) (q : List (Fin N)) : (c.sortPass gap q).Perm q := by
  unfold sortPass
  generalize (List.range q.length).drop gap = js
  induction js generalizing q with
  | nil => exact List.Perm.refl q
  | cons j js ih => exact (ih _).trans (siftDown_perm c gap _ _ q)

lemma sortPasses_perm (c : Cache N D) (n gap : Nat) (q : List (Fin N)) : (c.sortPasses n gap q).Perm q := by
  induction n generalizing gap q with
  | zero => exact List.Perm.refl q
  | succ n ih =>
    rw [sortPasses]
    split
    · exact List.Perm.refl q
    · exact (ih _ _).trans (sortPass_perm c _ q)

lemma shellSort_perm (c : Cache N D) (q : List (Fin N)) : (c.shellSort q).Perm q := sortPasses_perm c _ _ q

def Consecutive (blocknr : Fin N → Nat) : Nat → List (Fin N) → Prop
  | _, [] => True
  | block, bp :: q => blocknr bp = block ∧ Consecutive blocknr (block + 1) q

lemma batch_consecutive (blocknr : Fin N → Nat) (n block : Nat) (q : List (Fin N)) :
    Consecutive blocknr block (batch blocknr n block q) := by
  induction q generalizing n block with
  | nil => cases n <;> exact trivial
  | cons bp q ih =>
    cases n with
    | zero => exact trivial
    | succ n =>
      rw [batch]
      split
      · exact trivial
      · next h => exact ⟨not_not.mp h, ih n (block + 1)⟩

lemma batch_append_drop (blocknr : Fin N → Nat) (n block : Nat) (q : List (Fin N)) :
    batch blocknr n block q ++ q.drop (batch blocknr n block q).length = q := by
  induction q generalizing n block with
  | nil => cases n <;> rfl
  | cons bp q ih =>
    cases n with
    | zero => rfl
    | succ n =>
      rw [batch]
      split
      · rfl
      · exact congrArg (bp :: ·) (ih n (block + 1))

lemma batch_nonempty (blocknr : Fin N → Nat) (bp : Fin N) (q : List (Fin N)) :
    0 < (batch blocknr nrIoreqs (blocknr bp) (bp :: q)).length := by
  rw [nrIoreqs, batch, if_neg (not_not.mpr rfl)]
  exact Nat.succ_pos _

lemma scatter_eq (h : Consecutive c.blocknr block q) :
    c.scatter dev block q = q.foldl (fun c bp => c.writeOut dev bp) c := by
  induction q generalizing c block with
  | nil => rfl
  | cons bp q ih =>
    obtain ⟨rfl, hq⟩ := h
    exact ih (c := c.writeOut dev bp) hq

lemma writeQueue_eq {n : Nat} (hn : q.length ≤ n) :
    c.writeQueue dev n q = q.foldl (fun c bp => c.writeOut dev bp) c := by
  induction n generalizing c q with
  | zero =>
    obtain rfl := List.length_eq_zero_iff.mp (Nat.le_zero.mp hn)
    rfl
  | succ n ih =>
    cases q with
    | nil => rfl
    | cons bp q =>
      have hpos := batch_nonempty c.blocknr bp q
      have hcons := batch_consecutive c.blocknr nrIoreqs (c.blocknr bp) (bp :: q)
      have hsplit := batch_append_drop c.blocknr nrIoreqs (c.blocknr bp) (bp :: q)
      rw [writeQueue]
      generalize batch c.blocknr nrIoreqs (c.blocknr bp) (bp :: q) = now at hpos hcons hsplit ⊢
      have hlen : ((bp :: q).drop now.length).length ≤ n := by
        rw [List.length_drop]
        omega
      rw [ih hlen, scatter_eq hcons, ← List.foldl_append, hsplit]

lemma writeOuts_eq (dev : Nat) (q : List (Fin N)) (c : Cache N D) :
    ∃ disk, q.foldl (fun c bp => c.writeOut dev bp) c =
      { c with disk, dirt := fun bp => if bp ∈ q then false else c.dirt bp } := by
  induction q generalizing c with
  | nil => exact ⟨c.disk, by simp⟩
  | cons bp q ih =>
    obtain ⟨disk, heq⟩ := ih (c.writeOut dev bp)
    refine ⟨disk, ?_⟩
    rw [List.foldl_cons, heq]
    have hdirt : (fun a => if a ∈ q then false else (c.writeOut dev bp).dirt a) =
        fun a => if a ∈ bp :: q then false else c.dirt a := by
      funext a
      by_cases hq : a ∈ q
      · simp [hq]
      by_cases ha : a = bp
      · simp [ha, writeOut]
      · simp [hq, ha, writeOut, setDisk]
    rw [hdirt]
    rfl

lemma flushall_eq_foldl (dev : Nat) (c : Cache N D) :
    c.flushall dev = (c.shellSort (c.dirtyOf dev)).foldl (fun c bp => c.writeOut dev bp) c :=
  writeQueue_eq (shellSort_perm c _).length_eq.le

lemma mem_dirtyOf : bp ∈ c.dirtyOf dev ↔ c.dirt bp = true ∧ c.dev bp = dev := by
  simp [dirtyOf]

lemma flushall_eq (dev : Nat) (c : Cache N D) : ∃ disk dirt, c.flushall dev = { c with disk, dirt } ∧
    ∀ bp, c.dev bp = dev → dirt bp = false := by
  obtain ⟨disk, heq⟩ := writeOuts_eq dev (c.shellSort (c.dirtyOf dev)) c
  refine ⟨disk, _, (flushall_eq_foldl dev c).trans heq, fun bp hdev => ?_⟩
  by_cases hdirt : c.dirt bp = true
  · rw [if_pos ((shellSort_perm c _).mem_iff.mpr (mem_dirtyOf.mpr ⟨hdirt, hdev⟩))]
  · rw [Bool.not_eq_true] at hdirt
    rw [hdirt, ite_self]

end Cache

end Nucleos.Minixfs
