import Nucleos.Lib.Run

/-!
# Semaphores

Each semaphore of the IPC server has two lists of waiting processes, for zero and for an increase.
At the end of a call the server passes over all semaphores once and wakes who can go on, but at most
one process of each list, and it has left the list for zero when the other one takes the rest of the
value. -/

namespace Nucleos.Ipc

open Run

structure Waiting where
  who : Int
  val : Nat

structure Semaphore where
  semval : BitVec 16
  /-- Allocated for the first process that waits, and not freed after the last one. -/
  zlist : Option (List Waiting)
  nlist : List Waiting

structure SemSet where
  id : Int
  sems : List Semaphore

inductive SemFault
  /-- An entry is taken from an empty list, and −1 entries are moved. -/
  | emptyList
deriving DecidableEq

def Semaphore.wakeZero (s : Semaphore) : Except SemFault Semaphore :=
  if s.semval ≠ 0 then .ok s
  else
    match s.zlist with
    | none => .ok s
    | some [] => .error .emptyList
    | some (_ :: l) => .ok { s with zlist := some l }

def Semaphore.wakeIncrease (s : Semaphore) : Semaphore :=
  let ready := fun w : Waiting => decide (w.val ≤ s.semval.toNat)
  match s.nlist.find? ready with
  | none => s
  | some w => { s with semval := s.semval - w.val, nlist := s.nlist.eraseP ready }

def Semaphore.wake (s : Semaphore) : Except SemFault Semaphore :=
  do return (← s.wakeZero).wakeIncrease

def updateOneSemaphore (set : SemSet) : Except SemFault SemSet := do
  let sems ← set.sems.mapM Semaphore.wake
  return { set with sems }

def updateSemaphores (sets : List SemSet) : Except SemFault (List SemSet) :=
  sets.mapM updateOneSemaphore

/-! ## The calls -/

def e2big : Int := 7
def eagain : Int := 11
def eacces : Int := 13
def einval : Int := 22
def efbig : Int := 27
def erange : Int := 34
def semopm : Nat := 32
def semvmx : Nat := 32767

/-- The caller, with what `check_perm` says of its rights to the set. -/
structure Caller where
  who : Int
  mayRead : Bool
  mayAlter : Bool

structure Sembuf where
  semNum : Nat
  semOp : Int
  noWait : Bool

def Semaphore.operate (who op : Int) (s : Semaphore) : Bool × Semaphore :=
  if 0 < op then (false, { s with semval := s.semval + BitVec.ofInt 16 op })
  else if op = 0 then
    if s.semval ≠ 0 then (true, { s with zlist := some (s.zlist.getD [] ++ [⟨who, 0⟩]) })
      else (false, s)
  else if -op ≤ s.semval.toNat then (false, { s with semval := s.semval + BitVec.ofInt 16 op })
  else (true, { s with nlist := s.nlist ++ [⟨who, op.natAbs⟩] })

/-- The reply is held back when the caller sleeps. What was done before an operation that the caller
has no right to stays done. -/
def operateAll (c : Caller) : List Sembuf → List Semaphore → Option Int × List Semaphore
  | [], sems => (some 0, sems)
  | op :: ops, sems =>
    match sems[op.semNum]? with
    | none => (some 0, sems)
    | some s =>
      if op.semOp ≠ 0 ∧ c.mayAlter = false then (some (-eacces), sems)
      else
        let (asleep, s) := s.operate c.who op.semOp
        let (r, sems) := operateAll c ops (sems.set op.semNum s)
        (if asleep ∧ r = some 0 then none else r, sems)

def Sembuf.fails (op : Sembuf) (sems : List Semaphore) : Bool :=
  op.noWait && sems[op.semNum]?.any fun s => op.semOp = 0 ∧ s.semval ≠ 0 ∨ op.semOp < 0 ∧
    s.semval.toNat < -op.semOp

abbrev Outcome (α : Type) := Except Int (Option Int × α)

def semop (c : Caller) (ops : List Sembuf) (copied : Bool) (sems : List Semaphore) :
    Outcome (List Semaphore) :=
  if ops.length = 0 then .error (-einval)
  else if semopm < ops.length then .error (-e2big)
  else if c.mayRead = false then .error (-eacces)
  else if copied = false then .error (-einval)
  else if ops.any fun op => sems.length ≤ op.semNum then .error (-efbig)
  else if ¬ (ops.map Sembuf.semNum).Nodup then .error (-einval)
  else if ops.any fun op => op.fails sems then .error (-eagain)
  else .ok (operateAll c ops sems)

def setVal (c : Caller) (num val : Int) (sems : List Semaphore) : Outcome (List Semaphore) :=
  if c.mayRead = false ∨ c.mayAlter = false then .error (-eacces)
  else if num < 0 ∨ sems.length ≤ num then .error (-einval)
  else if val < 0 ∨ semvmx < val then .error (-erange)
  else .ok (some 0, sems.modify num.toNat fun s => { s with semval := BitVec.ofInt 16 val })

def setValues : List (BitVec 16) → List Semaphore → Option Int × List Semaphore
  | b :: buf, s :: sems =>
    if semvmx < b.toNat then (some (-erange), s :: sems)
    else
      let (r, sems) := setValues buf sems
      (r, { s with semval := b } :: sems)
  | _, sems => (some 0, sems)

def setAll (c : Caller) (buf : Option (List (BitVec 16))) (sems : List Semaphore) :
    Outcome (List Semaphore) :=
  if c.mayRead = false then .error (-eacces)
  else
    match buf with
    | none => .error (-einval)
    | some buf => .ok (setValues buf sems)

def atSet (id : Int) (f : List Semaphore → Outcome (List Semaphore)) :
    List SemSet → Outcome (List SemSet)
  | [] => .error (-einval)
  | x :: sets =>
    if x.id = id then (f x.sems).map fun y => (y.1, { x with sems := y.2 } :: sets)
    else (atSet id f sets).map fun y => (y.1, x :: y.2)

inductive SemCall
  | semop (c : Caller) (id : Int) (ops : List Sembuf) (copied : Bool)
  | setval (c : Caller) (id num val : Int)
  | setall (c : Caller) (id : Int) (buf : Option (List (BitVec 16)))

def SemCall.perform : SemCall → List SemSet → Outcome (List SemSet)
  | .semop c id ops copied => atSet id (Ipc.semop c ops copied)
  | .setval c id num val => atSet id (setVal c num val)
  | .setall c id buf => atSet id (setAll c buf)

/-- Only `do_semop` makes the pass when it refuses. -/
def SemCall.run (a : SemCall) (sets : List SemSet) : Except SemFault (Option Int × List SemSet) :=
  match a.perform sets with
  | .ok (r, sets) => (updateSemaphores sets).map fun sets => (r, sets)
  | .error r =>
    match a with
    | .semop .. => (updateSemaphores sets).map fun sets => (some r, sets)
    | _ => .ok (some r, sets)

/-! ## Who is left asleep -/

structure Semaphore.Settled (s : Semaphore) : Prop where
  zero : s.semval = 0 → s.zlist.getD [] = []
  increase : ∀ w ∈ s.nlist, s.semval.toNat < w.val

def Settled (sets : List SemSet) : Prop := ∀ set ∈ sets, ∀ s ∈ set.sems, s.Settled

end Nucleos.Ipc
