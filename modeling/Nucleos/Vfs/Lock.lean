import Nucleos.Lib.Run

/-!
# Advisory locks

`lock_op` on the table of file locks. The table holds intervals in no order; a request looks at
every slot once, gives up at the first conflict, and on its way an unlock removes, trims or splits
what overlaps. Offsets are signed words.
-/

namespace Nucleos.Vfs

open Run

/-- `F_RDLCK` and `F_WRLCK` as kept in the table. -/
inductive LockKind where
  | rdlck
  | wrlck
  deriving DecidableEq

inductive Ltype where
  | lock (k : LockKind)
  | unlck
  deriving DecidableEq

inductive LockReq where
  | getlk
  | setlk
  | setlkw
  deriving DecidableEq

abbrev VnodeId := Nat

structure FileLock where
  lockType : LockKind
  lockPid : Int
  lockVnode : VnodeId
  lockFirst : BitVec 32
  lockLast : BitVec 32
  deriving DecidableEq

def maxLocks : Nat := 8

abbrev LockSlot := Fin maxLocks

/-- The table and `nr_locks`; an unused slot has type 0 in the source. -/
structure LockTable where
  fileLock : LockSlot → Option FileLock
  nrLocks : Int

structure Flock where
  lType : BitVec 16
  lWhence : BitVec 16
  lStart : BitVec 32
  lLen : BitVec 32
  lPid : Int
  deriving DecidableEq

structure LockFile where
  vno : VnodeId
  regular : Bool
  readable : Bool
  writable : Bool
  pos : BitVec 64
  size : BitVec 32
  deriving DecidableEq

def eagain : Int := 11
def ebadf : Int := 9
def einval : Int := 22
def enolck : Int := 37

def ltypeOf (t : BitVec 16) : Option Ltype :=
  if t = 1 then some (.lock .rdlck) else if t = 2 then some (.lock .wrlck) else if t = 3
    then some .unlck else none

def maxFilePos : BitVec 32 := 0x7FFFFFFF

/-- What ends `lock_op` without an answer: the file position it cannot handle, or a write past the
end of the table. -/
inductive LockStop where
  | positionTooHigh
  | pastTable
  deriving DecidableEq

def lockBase (f : LockFile) (fl : Flock) : Except LockStop (Option (BitVec 32)) :=
  if fl.lWhence = 0 then .ok (some 0)
  else if fl.lWhence = 1 then
    if f.pos >>> 32 ≠ 0 then .error .positionTooHigh else .ok (some (f.pos.truncate 32))
  else if fl.lWhence = 2 then .ok (some f.size)
  else .ok none

def lockRange (f : LockFile) (fl : Flock) : Except LockStop (Option (BitVec 32 × BitVec 32)) := do
  match ← lockBase f fl with
  | none => .ok none
  | some base =>
    -- the tests for an overflow of a signed sum are compiled away
    let first := base + fl.lStart
    let last := if fl.lLen = 0 then maxFilePos else first + fl.lLen - 1
    if last.slt first then .ok none else .ok (some (first, last))

def lockArgs (f : LockFile) (req : LockReq) (fl : Flock) :
    Except LockStop (Except Int (Ltype × BitVec 32 × BitVec 32)) :=
  match ltypeOf fl.lType with
  | none => .ok (.error (-einval))
  | some ltype =>
    if req = .getlk ∧ ltype = .unlck then .ok (.error (-einval))
    else if !f.regular then .ok (.error (-einval))
    else if req ≠ .getlk ∧ ltype = .lock .rdlck ∧ !f.readable then .ok (.error (-ebadf))
    else if req ≠ .getlk ∧ ltype = .lock .wrlck ∧ !f.writable then .ok (.error (-ebadf))
    else do
      match ← lockRange f fl with
      | none => .ok (.error (-einval))
      | some (first, last) => .ok (.ok (ltype, first, last))

namespace LockTable

def set (t : LockTable) (i : LockSlot) (e : Option FileLock) (d : Int) : LockTable :=
  ⟨Function.update t.fileLock i e, t.nrLocks + d⟩

def firstFree (t : LockTable) : Option LockSlot :=
  (List.finRange maxLocks).find? fun i => (t.fileLock i).isNone

end LockTable

structure LockWish where
  ltype : Ltype
  pid : Int
  vno : VnodeId
  first : BitVec 32
  last : BitVec 32

def LockWish.meets (w : LockWish) (e : FileLock) : Bool :=
  e.lockVnode == w.vno && !w.last.slt e.lockFirst && !e.lockLast.slt w.first &&
    !(w.ltype == .lock .rdlck && e.lockType == .rdlck) && !(w.ltype != .unlck && e.lockPid == w.pid)

inductive LockScan where
  | through (t : LockTable) (empty : Option LockSlot) (unlocking : Bool)
  | conflict (i : LockSlot) (e : FileLock)
  | full (t : LockTable)

/-- What an unlock does to an entry it meets; nothing if the table is full. -/
def unlockEntry (w : LockWish) (i : LockSlot) (e : FileLock) (t : LockTable) :
    Except LockStop (Option LockTable) :=
  if w.first.sle e.lockFirst && e.lockLast.sle w.last then .ok (some (t.set i none (-1)))
  else if w.first.sle e.lockFirst
    then .ok (some (t.set i (some { e with lockFirst := w.last + 1 }) 0))
  else if e.lockLast.sle w.last
    then .ok (some (t.set i (some { e with lockLast := w.first - 1 }) 0))
  else if t.nrLocks = maxLocks then .ok none
  else
    match t.firstFree with
    | none => .error .pastTable
    | some j =>
      .ok (some ((t.set j (some { e with lockFirst := w.last + 1 }) 1).set i
        (some { e with lockLast := w.first - 1 }) 0))

/-- The pass over the table; `F_GETLK` and a request for a lock end at the first conflict. -/
def lockScan (w : LockWish) (getlk : Bool) :
    List LockSlot → LockTable → Option LockSlot → Bool → Except LockStop LockScan
  | [], t, empty, unlocking => .ok (.through t empty unlocking)
  | i :: rest, t, empty, unlocking =>
    match t.fileLock i with
    | none => lockScan w getlk rest t (empty <|> some i) unlocking
    | some e =>
      if !w.meets e then lockScan w getlk rest t empty unlocking
      else if getlk || w.ltype != .unlck then .ok (.conflict i e)
      else do
        match ← unlockEntry w i e t with
        | none => .ok (.full t)
        | some t => lockScan w getlk rest t empty true

/-- The answer of `lock_op`: a result, whether the caller is suspended, whether waiting processes
are revived, and for `F_GETLK` the structure that is copied back. -/
structure LockAnswer where
  result : Int
  suspended : Bool
  revive : Bool
  reported : Option Flock
  table : LockTable

def LockAnswer.plain (r : Int) (t : LockTable) : LockAnswer := ⟨r, false, false, none, t⟩

def lockFinish (w : LockWish) (req : LockReq) (fl : Flock) (t : LockTable) : LockScan → LockAnswer
  | .conflict _ e =>
    match req with
    | .getlk =>
      let kind : BitVec 16 := match e.lockType with
        | .rdlck => 1
        | .wrlck => 2
      ⟨0, false, false, some ⟨kind, 0, e.lockFirst, e.lockLast - e.lockFirst + 1, e.lockPid⟩, t⟩
    | .setlk => .plain (-eagain) t
    | .setlkw => ⟨0, true, false, none, t⟩
  | .full t => .plain (-enolck) t
  | .through t empty unlocking =>
    match req with
    | .getlk => ⟨0, false, unlocking, some { fl with lType := 3 }, t⟩
    | _ =>
      match w.ltype, empty with
      | .unlck, _ => ⟨0, false, unlocking, none, t⟩
      | .lock _, none => .plain (-enolck) t
      | .lock k, some i => ⟨0, false, unlocking, none,
          t.set i (some ⟨k, w.pid, w.vno, w.first, w.last⟩) 1⟩

/-- `lock_op` on the structure fetched from the caller, if that worked. -/
def lockOp (f : LockFile) (req : LockReq) (pid : Int) (fetched : Option Flock) (t : LockTable) :
    Except LockStop LockAnswer :=
  match fetched with
  | none => .ok (.plain (-einval) t)
  | some fl => do
    match ← lockArgs f req fl with
    | .error r => .ok (.plain r t)
    | .ok (ltype, first, last) =>
      let w : LockWish := ⟨ltype, pid, f.vno, first, last⟩
      let scan ← lockScan w (req == .getlk) (List.finRange maxLocks) t none false
      .ok (lockFinish w req fl t scan)

/-! ## What the table says -/

variable {t u : LockTable} {w : LockWish} {i j : LockSlot} {e : FileLock} {l : List LockSlot}
    {v : VnodeId} {p : Int} {k : LockKind}

def FileLock.Covers (e : FileLock) (b : Int) : Prop := e.lockFirst.toInt ≤ b ∧ b ≤ e.lockLast.toInt

def LockWish.Covers (w : LockWish) (b : Int) : Prop := w.first.toInt ≤ b ∧ b ≤ w.last.toInt

instance (w : LockWish) (b : Int) : Decidable (w.Covers b) := inferInstanceAs (Decidable (_ ∧ _))

instance (e : FileLock) (b : Int) : Decidable (e.Covers b) := inferInstanceAs (Decidable (_ ∧ _))

/-- The entry says that the process has a lock of the kind on the byte. -/
structure FileLock.Says (e : FileLock) (v : VnodeId) (b p : Int) (k : LockKind) : Prop where
  vnode : e.lockVnode = v
  pid : e.lockPid = p
  kind : e.lockType = k
  covers : e.Covers b

def LockTable.Holds (t : LockTable) (v : VnodeId) (b p : Int) (k : LockKind) : Prop :=
  ∃ i e, t.fileLock i = some e ∧ e.Says v b p k

lemma toInt_add_one {a b : BitVec 32} (h : a.toInt < b.toInt) : (a + 1).toInt = a.toInt + 1 := by
  have hb := BitVec.toInt_lt (x := b)
  have ha := BitVec.le_toInt (x := a)
  have hone : (1 : BitVec 32).toInt = 1 := rfl
  rw [BitVec.toInt_add, hone, Int.bmod_eq_of_le] <;> omega

lemma toInt_sub_one {a b : BitVec 32} (h : b.toInt < a.toInt) : (a - 1).toInt = a.toInt - 1 := by
  have hb := BitVec.le_toInt (x := b)
  have ha := BitVec.toInt_lt (x := a)
  have hone : (1 : BitVec 32).toInt = 1 := rfl
  rw [BitVec.toInt_sub, hone, Int.bmod_eq_of_le] <;> omega

lemma LockTable.set_fileLock (t : LockTable) (i j : LockSlot) (e : Option FileLock) (d : Int) :
    (t.set i e d).fileLock j = if j = i then e else t.fileLock j := by
  simp [LockTable.set, Function.update_apply]

lemma firstFree_none (h : t.firstFree = some j) : t.fileLock j = none := by
  have hj := List.find?_some h
  simpa using hj

lemma not_covers_of_not_meets (hw : w.ltype = .unlck) (hm : w.meets e = false)
    (hv : e.lockVnode = w.vno) {b : Int} (hb : e.Covers b) :
    ¬ w.Covers b := by
  simp only [LockWish.meets, hw, hv] at hm
  simp at hm
  unfold FileLock.Covers at hb
  unfold LockWish.Covers
  by_cases hlt : w.last.slt e.lockFirst = true
  · have := BitVec.slt_iff_toInt_lt.mp hlt
    omega
  · have := BitVec.slt_iff_toInt_lt.mp (hm (by simpa using hlt))
    omega

structure Remains (w : LockWish) (e : FileLock) (rest : List FileLock) : Prop where
  same : ∀ e' ∈ rest, e'.lockType = e.lockType ∧ e'.lockPid = e.lockPid ∧ e'.lockVnode = e.lockVnode
  covers : ∀ b, (∃ e' ∈ rest, e'.Covers b) ↔ e.Covers b ∧ ¬ w.Covers b
  proper : ∀ e' ∈ rest, e'.lockFirst.toInt ≤ e'.lockLast.toInt
  within : ∀ e' ∈ rest, e.lockFirst.toInt ≤ e'.lockFirst.toInt ∧
    e'.lockLast.toInt ≤ e.lockLast.toInt

lemma meets_overlap (hm : w.meets e = true) :
    e.lockVnode = w.vno ∧ e.lockFirst.toInt ≤ w.last.toInt ∧ w.first.toInt ≤ e.lockLast.toInt := by
  simp only [LockWish.meets, Bool.and_eq_true, beq_iff_eq, Bool.not_eq_true', ← Bool.not_eq_true,
    BitVec.slt_iff_toInt_lt] at hm
  obtain ⟨⟨⟨⟨hv, hlast⟩, hfirst⟩, -⟩, -⟩ := hm
  exact ⟨hv, by omega, by omega⟩

inductive Unlocked (w : LockWish) (i : LockSlot) (e : FileLock) (t : LockTable) :
    LockTable → Prop where
  | gone (h : Remains w e []) : Unlocked w i e t (t.set i none (-1))
  | kept (e' : FileLock) (h : Remains w e [e']) : Unlocked w i e t (t.set i (some e') 0)
  | split (j : LockSlot) (e₁ e₂ : FileLock) (hj : t.fileLock j = none) (h : Remains w e [e₁, e₂]) :
      Unlocked w i e t ((t.set j (some e₁) 1).set i (some e₂) 0)

lemma unlockEntry_spec (hm : w.meets e = true) (h : unlockEntry w i e t = .ok (some u)) :
    Unlocked w i e t u := by
  obtain ⟨-, hlast, hfirst⟩ := meets_overlap hm
  unfold unlockEntry at h
  simp only [Bool.and_eq_true, BitVec.sle_iff_toInt_le] at h
  split at h
  · next hc =>
    obtain rfl := Option.some.inj (Except.ok.inj h)
    refine .gone ⟨nofun, fun b => ?_, nofun, nofun⟩
    simp only [List.not_mem_nil, false_and, exists_false, false_iff, FileLock.Covers,
      LockWish.Covers]
    omega
  next hc =>
  split at h
  · next hc₁ =>
    obtain rfl := Option.some.inj (Except.ok.inj h)
    have hadd : (w.last + 1).toInt = w.last.toInt + 1 := toInt_add_one (b := e.lockLast) (by omega)
    refine .kept _ ⟨by simp, fun b => ?_, ?_, ?_⟩
    all_goals
      simp only [List.mem_singleton, exists_eq_left, forall_eq, FileLock.Covers,
        LockWish.Covers, hadd]
      omega
  next hc₁ =>
  split at h
  · next hc₂ =>
    obtain rfl := Option.some.inj (Except.ok.inj h)
    have hsub : (w.first - 1).toInt = w.first.toInt - 1 :=
      toInt_sub_one (b := e.lockFirst) (by omega)
    refine .kept _ ⟨by simp, fun b => ?_, ?_, ?_⟩
    all_goals
      simp only [List.mem_singleton, exists_eq_left, forall_eq, FileLock.Covers,
        LockWish.Covers, hsub]
      omega
  next hc₂ =>
  split at h
  · nomatch h
  split at h
  · nomatch h
  next j hj =>
  obtain rfl := Option.some.inj (Except.ok.inj h)
  have hadd : (w.last + 1).toInt = w.last.toInt + 1 := toInt_add_one (b := e.lockLast) (by omega)
  have hsub : (w.first - 1).toInt = w.first.toInt - 1 := toInt_sub_one (b := e.lockFirst) (by omega)
  refine .split j _ _ (firstFree_none hj) ⟨by simp, fun b => ?_, ?_, ?_⟩
  all_goals
    simp only [List.mem_cons, List.not_mem_nil, or_false, exists_eq_or_imp, exists_eq_left,
      forall_eq_or_imp, forall_eq,
      FileLock.Covers, LockWish.Covers, hadd, hsub]
    omega

/-! ## The pass -/

/-- A request for a lock leaves the table alone. It ends at the first entry it meets, or goes
through to the first free slot. -/
theorem lockScan_lock {getlk b : Bool} {empty : Option LockSlot} (hw : w.ltype ≠ .unlck) :
    (∃ i e, lockScan w getlk l t empty b = .ok (.conflict i e) ∧ t.fileLock i = some e ∧
      w.meets e = true) ∨
      lockScan w getlk l t empty b = .ok (.through t (empty <|> l.find? fun i =>
        (t.fileLock i).isNone) b) ∧
        ∀ i ∈ l, ∀ e, t.fileLock i = some e → w.meets e = false := by
  induction l generalizing empty with
  | nil => exact .inr ⟨by simp [lockScan], nofun⟩
  | cons i rest ih =>
    rw [lockScan]
    cases he : t.fileLock i with
    | none =>
      refine (@ih (empty <|> some i)).imp_right fun ⟨hscan, hmeets⟩ =>
        ⟨?_, by simpa [he] using hmeets⟩
      rw [hscan]
      cases empty <;> simp [he]
    | some e =>
      cases hm : w.meets e with
      | true => exact .inl ⟨i, e, by simp [hm, hw], he, hm⟩
      | false =>
        simpa [hm, he] using ih

lemma lockScan_through {getlk b b' : Bool} {empty' : Option LockSlot} (hw : w.ltype ≠ .unlck)
    (h : lockScan w getlk (List.finRange maxLocks) t none b = .ok (.through u empty' b')) :
    u = t ∧ empty' = t.firstFree ∧ ∀ i e, t.fileLock i = some e → w.meets e = false := by
  rcases lockScan_lock hw with ⟨_, _, hscan, -⟩ | ⟨hscan, hmeets⟩
  · nomatch hscan.symm.trans h
  · obtain ⟨rfl, rfl, -⟩ := LockScan.through.inj (Except.ok.inj (h.symm.trans hscan))
    exact ⟨rfl, rfl, fun i => hmeets i (List.mem_finRange i)⟩

/-- Some entry of the slots says so, and not about a byte that is unlocked in the slots still to be
looked at. -/
def Left (w : LockWish) (l : List LockSlot) (t : LockTable) (v : VnodeId) (b p : Int)
    (k : LockKind) : Prop :=
  ∃ i e, t.fileLock i = some e ∧ e.Says v b p k ∧ ¬ (i ∈ l ∧ v = w.vno ∧ w.Covers b)

lemma says_of_remains {e' : FileLock} {rest : List FileLock} (hr : Remains w e rest)
    (he' : e' ∈ rest) {b : Int} :
    e'.Says v b p k ↔ e.lockVnode = v ∧ e.lockPid = p ∧ e.lockType = k ∧ e'.Covers b := by
  obtain ⟨htype, hpid, hvnode⟩ := hr.same e' he'
  constructor
  · rintro ⟨h₁, h₂, h₃, h₄⟩
    exact ⟨hvnode.symm.trans h₁, hpid.symm.trans h₂, htype.symm.trans h₃, h₄⟩
  · rintro ⟨h₁, h₂, h₃, h₄⟩
    exact ⟨hvnode.trans h₁, hpid.trans h₂, htype.trans h₃, h₄⟩

section Slots
variable {P : LockSlot → FileLock → Prop}

lemma LockTable.exists_at : (∃ j e, t.fileLock j = some e ∧ P j e) ↔
    (∃ e ∈ t.fileLock i, P i e) ∨ ∃ j e, t.fileLock j = some e ∧ j ≠ i ∧ P j e := by
  constructor
  · rintro ⟨j, e, hj, hP⟩
    by_cases hji : j = i
    · subst hji
      exact .inl ⟨e, hj, hP⟩
    · exact .inr ⟨j, e, hj, hji, hP⟩
  · rintro (⟨e, he, hP⟩ | ⟨j, e, hj, -, hP⟩)
    · exact ⟨i, e, he, hP⟩
    · exact ⟨j, e, hj, hP⟩

lemma LockTable.exists_set (x : Option FileLock) (d : Int) :
    (∃ j e, (t.set i x d).fileLock j = some e ∧ P j e) ↔
    (∃ e ∈ x, P i e) ∨ ∃ j e, t.fileLock j = some e ∧ j ≠ i ∧ P j e := by
  rw [LockTable.exists_at (i := i), LockTable.set_fileLock, if_pos rfl]
  refine or_congr_right (exists_congr fun j => exists_congr fun e => and_congr_left fun hP => ?_)
  rw [LockTable.set_fileLock, if_neg hP.1]

lemma LockTable.exists_free (hi : t.fileLock i = none) (d : Int) :
    (∃ j e', (t.set i (some e) d).fileLock j = some e' ∧ P j e') ↔
    P i e ∨ ∃ j e', t.fileLock j = some e' ∧ P j e' := by
  have hat := LockTable.exists_at (t := t) (i := i) (P := P)
  rw [LockTable.exists_set, hat, hi]
  simp

end Slots

lemma left_unlocked {b : Int} (he : t.fileLock i = some e) (hi : i ∉ l) (hv : e.lockVnode = w.vno)
    (hu : Unlocked w i e t u) :
    Left w l u v b p k ↔ Left w (i :: l) t v b p k := by
  -- the pieces of `e` say what `e` says outside the request
  have hpiece : ∀ {rest}, Remains w e rest → ((∃ e' ∈ rest, e'.Says v b p k) ↔ e.Says v b p k ∧
    ¬ (v = w.vno ∧ w.Covers b)) := by
    intro rest hr
    constructor
    · rintro ⟨e', he', htells⟩
      obtain ⟨h₁, h₂, h₃, h₄⟩ := (says_of_remains hr he').mp htells
      obtain ⟨hcov, hnot⟩ := (hr.covers b).mp ⟨e', he', h₄⟩
      exact ⟨⟨h₁, h₂, h₃, hcov⟩, fun h => hnot h.2⟩
    · rintro ⟨⟨h₁, h₂, h₃, h₄⟩, hnot⟩
      obtain ⟨e', he', hcov⟩ := (hr.covers b).mpr ⟨h₄, fun hw => hnot ⟨h₁.symm.trans hv, hw⟩⟩
      exact ⟨e', he', (says_of_remains hr he').mpr ⟨h₁, h₂, h₃, hcov⟩⟩
  have hrest : Left w (i :: l) t v b p k ↔ (e.Says v b p k ∧ ¬ (v = w.vno ∧ w.Covers b)) ∨
      ∃ j e', t.fileLock j = some e' ∧ j ≠ i ∧ e'.Says v b p k ∧
        ¬ (j ∈ l ∧ v = w.vno ∧ w.Covers b) := by
    rw [Left, LockTable.exists_at (i := i), he]
    refine or_congr (by simp) (exists_congr fun j => exists_congr fun e' => and_congr_right fun _ =>
      and_congr_right fun hji => ?_)
    simp [hji]
  rw [hrest]
  cases hu with
  | gone hr =>
    rw [Left, LockTable.exists_set, ← hpiece hr]
    simp
  | kept e₁ hr =>
    rw [Left, LockTable.exists_set, ← hpiece hr]
    simp [hi]
  | split j₀ e₁ e₂ hj₀ hr =>
    have hne : j₀ ≠ i := by
      rintro rfl
      nomatch hj₀.symm.trans he
    have hout : e₁.Says v b p k → ¬ w.Covers b :=
      fun htells => ((hr.covers b).mp ⟨e₁, .head _, htells.covers⟩).2
    rw [Left, LockTable.exists_set, LockTable.exists_free hj₀, ← hpiece hr, ← or_assoc]
    have hfree : (e₁.Says v b p k ∧ ¬ (j₀ ∈ l ∧ v = w.vno ∧ w.Covers b)) ↔ e₁.Says v b p k :=
      and_iff_left_of_imp fun htells h => hout htells h.2.2
    refine or_congr_left ?_
    rw [hfree]
    simp [hi, hne, or_comm]

/-- An unlock that goes through takes every lock on the bytes away, whoever has it. -/
theorem lockScan_unlock {empty empty' : Option LockSlot} {f f' : Bool} (hw : w.ltype = .unlck)
    (hnd : l.Nodup)
    (h : lockScan w false l t empty f = .ok (.through u empty' f')) {b : Int} :
    Left w [] u v b p k ↔ Left w l t v b p k := by
  induction l generalizing t empty f with
  | nil =>
    obtain ⟨rfl, -, -⟩ := LockScan.through.inj (Except.ok.inj h)
    exact Iff.rfl
  | cons i rest ih =>
    obtain ⟨hi, hnd⟩ := List.nodup_cons.mp hnd
    rw [lockScan] at h
    split at h
    · next he =>
      refine (ih hnd h).trans (exists_congr fun j => exists_congr fun e' =>
        and_congr_right fun hj => ?_)
      have hji : j ≠ i := by
        rintro rfl
        nomatch he.symm.trans hj
      simp [hji]
    · next e he =>
      cases hm : w.meets e with
      | true =>
        simp only [hm, hw, Bool.not_true, Bool.false_or, bne_self_eq_false, if_false,
          Bool.false_eq_true] at h
        obtain ⟨t', hentry, h⟩ := bind_eq_ok.mp h
        cases t' with
        | none => nomatch h
        | some t' => exact (ih hnd h).trans (left_unlocked he hi (meets_overlap hm).1
            (unlockEntry_spec hm hentry))
      | false =>
        simp only [hm, Bool.not_false, if_true] at h
        refine (ih hnd h).trans (exists_congr fun j => exists_congr fun e' =>
          and_congr_right fun hj => and_congr_right fun htells => ?_)
        by_cases hji : j = i
        · subst hji
          obtain rfl := Option.some.inj (he.symm.trans hj)
          refine ⟨fun _ h => ?_, fun h h' => h ⟨.tail _ h'.1, h'.2⟩⟩
          exact not_covers_of_not_meets hw hm (htells.vnode.trans h.2.1) htells.covers h.2.2
        · simp [hji]

/-! ## Locks as a map -/

lemma lockOp_success {f : LockFile} {req : LockReq} {pid : Int} {fl : Flock} {a : LockAnswer}
    {ltype : Ltype}
    {first last : BitVec 32} (hargs : lockArgs f req fl = .ok (.ok (ltype, first, last)))
    (hreq : req ≠ .getlk)
    (h : lockOp f req pid (some fl) t = .ok a) (hok : a.result = 0 ∧ a.suspended = false) :
    ∃ t' empty unlocking, lockScan ⟨ltype, pid, f.vno, first, last⟩ false (List.finRange maxLocks) t
      none false =
        .ok (.through t' empty unlocking) ∧
      match ltype with
      | .unlck => a.table = t'
      | .lock k => ∃ i, empty = some i ∧
          a.table = t'.set i (some ⟨k, pid, f.vno, first, last⟩) 1 := by
  have hget : (req == LockReq.getlk) = false := by simpa using hreq
  unfold lockOp at h
  simp only [hargs] at h
  obtain ⟨args, hsome, h⟩ := bind_eq_ok.mp h
  cases hsome
  simp only [hget] at h
  obtain ⟨scan, hscan, h⟩ := bind_eq_ok.mp h
  cases h
  obtain ⟨hres, hsus⟩ := hok
  cases scan with
  | conflict i e =>
    cases req with
    | getlk => exact absurd rfl hreq
    | setlk => exact absurd (show -eagain = 0 from hres) (by decide)
    | setlkw => nomatch hsus
  | full t' => exact absurd (show -enolck = 0 from hres) (by decide)
  | through t' empty unlocking =>
    refine ⟨t', empty, unlocking, hscan, ?_⟩
    cases req with
    | getlk => exact absurd rfl hreq
    | setlk | setlkw =>
      cases ltype with
      | unlck => rfl
      | lock k =>
        cases empty with
        | none => exact absurd (show -enolck = 0 from hres) (by decide)
        | some i => exact ⟨i, rfl, rfl⟩

/-- What a successful request should do: the caller has exactly the lock it asked for on the bytes,
and nothing else changes. -/
def LockMap (w : LockWish) (t t' : LockTable) : Prop :=
  ∀ v b p k, t'.Holds v b p k ↔ if v = w.vno ∧ p = w.pid ∧ w.Covers b then w.ltype = .lock k
    else t.Holds v b p k

/-- When it does: an unlock finds no locks of others on the bytes, a lock no lock of the other kind
of the caller's own. -/
def LockClear (w : LockWish) (t : LockTable) : Prop :=
  ∀ b, w.Covers b → ∀ p k, t.Holds w.vno b p k →
    match w.ltype with
    | .unlck => p = w.pid
    | .lock k' => p = w.pid → k = k'

lemma left_nil {b : Int} : Left w [] t v b p k ↔ t.Holds v b p k := by
  simp [Left, LockTable.Holds]

lemma left_all {b : Int} : Left w (List.finRange maxLocks) t v b p k ↔ t.Holds v b p k ∧
    ¬ (v = w.vno ∧ w.Covers b) := by
  constructor
  · rintro ⟨i, e, hi, htells, hnot⟩
    exact ⟨⟨i, e, hi, htells⟩, fun h => hnot ⟨List.mem_finRange i, h⟩⟩
  · rintro ⟨⟨i, e, hi, htells⟩, hnot⟩
    exact ⟨i, e, hi, htells, fun h => hnot h.2⟩

lemma holds_set {b : Int} (hi : t.fileLock i = none) (d : Int) :
    (t.set i (some e) d).Holds v b p k ↔ e.Says v b p k ∨ t.Holds v b p k :=
  LockTable.exists_free hi d

lemma lockMap_unlock (hw : w.ltype = .unlck)
    (hu : ∀ v b p k, u.Holds v b p k ↔ t.Holds v b p k ∧ ¬ (v = w.vno ∧ w.Covers b)) :
    LockMap w t u ↔ LockClear w t := by
  unfold LockMap LockClear
  rw [hw]
  constructor
  · intro hmap b hb p k hholds
    by_contra hp
    have hkept := hmap w.vno b p k
    rw [hu, if_neg fun h => hp h.2.1] at hkept
    exact (hkept.mpr hholds).2 ⟨rfl, hb⟩
  · intro hclear v b p k
    rw [hu]
    split_ifs with hc
    · obtain ⟨rfl, -, hb⟩ := hc
      simp [hb]
    refine ⟨fun h => h.1, fun h => ⟨h, ?_⟩⟩
    rintro ⟨rfl, hb⟩
    exact hc ⟨rfl, hclear b hb p k h, hb⟩

lemma lockMap_lock (hw : w.ltype = .lock k)
    (hu : ∀ v b p k', u.Holds v b p k' ↔ (w.vno = v ∧ w.pid = p ∧ k = k' ∧ w.Covers b) ∨
      t.Holds v b p k') :
    LockMap w t u ↔ LockClear w t := by
  unfold LockMap LockClear
  rw [hw]
  constructor
  · intro hmap b hb p k' hholds hp
    have hkept := hmap w.vno b p k'
    rw [hu, if_pos ⟨rfl, hp, hb⟩] at hkept
    exact (Ltype.lock.inj (hkept.mp (.inr hholds))).symm
  intro hclear v b p k'
  rw [hu]
  split_ifs with hc
  · obtain ⟨rfl, rfl, hb⟩ := hc
    constructor
    · rintro (⟨-, -, rfl, -⟩ | hholds)
      · rfl
      · rw [hclear b hb w.pid k' hholds rfl]
    · intro heq
      exact .inl ⟨rfl, rfl, Ltype.lock.inj heq, hb⟩
  · refine ⟨?_, .inr⟩
    rintro (⟨rfl, rfl, -, hb⟩ | hholds)
    · exact absurd ⟨rfl, rfl, hb⟩ hc
    · exact hholds

/-- A successful request leaves exactly the lock it asked for on its bytes, and everything else as
it was, if and only if an unlock meets no locks of others on them and a lock none of the other kind
of the caller's own. -/
theorem lock_map_iff {f : LockFile} {req : LockReq} {pid : Int} {fl : Flock} {a : LockAnswer}
    {ltype : Ltype}
    {first last : BitVec 32} (hargs : lockArgs f req fl = .ok (.ok (ltype, first, last)))
    (hreq : req ≠ .getlk)
    (h : lockOp f req pid (some fl) t = .ok a) (hok : a.result = 0 ∧ a.suspended = false) :
    LockMap ⟨ltype, pid, f.vno, first, last⟩ t a.table ↔
      LockClear ⟨ltype, pid, f.vno, first, last⟩ t := by
  obtain ⟨t', empty, unlocking, hscan, htable⟩ := lockOp_success hargs hreq h hok
  cases ltype with
  | unlck =>
    obtain rfl := htable
    refine lockMap_unlock rfl fun v b p k => ?_
    rw [← left_nil, lockScan_unlock rfl (List.nodup_finRange _) hscan, left_all]
  | lock k =>
    obtain ⟨i, rfl, htable⟩ := htable
    obtain ⟨rfl, hi, -⟩ := lockScan_through (by simp) hscan
    rw [htable]
    refine lockMap_lock rfl fun v b p k' => ?_
    rw [holds_set (firstFree_none hi.symm)]
    refine or_congr_left ⟨fun hs => ⟨hs.vnode, hs.pid, hs.kind, hs.covers⟩,
      fun hs => ⟨hs.1, hs.2.1, hs.2.2.1, hs.2.2.2⟩⟩

/-! ## Two processes -/

def someFile : LockFile := ⟨0, true, true, true, 0, 100⟩

def emptyLocks : LockTable := ⟨fun _ => none, 0⟩

def tenBytes (kind : BitVec 16) : Flock := ⟨kind, 0, 0, 10, 0⟩

def lockAfter (req : LockReq) (pid : Int) (fl : Flock) (t : LockTable) : LockTable :=
  match lockOp someFile req pid (some fl) t with
  | .ok a => a.table
  | .error _ => t

/-- Process 1 has locked ten bytes for writing, and process 2 others for reading. -/
def bothLocked : LockTable := lockAfter .setlk 2 ⟨1, 0, 20, 10, 0⟩
    (lockAfter .setlk 1 (tenBytes 2) emptyLocks)

lemma bothLocked_locks (i : LockSlot) :
    bothLocked.fileLock i = none ∨ bothLocked.fileLock i = some ⟨.wrlck, 1, 0, 0, 9⟩ ∨
    bothLocked.fileLock i = some ⟨.rdlck, 2, 0, 20, 29⟩ := by
  revert i
  decide +kernel

/-- Process 1 unlocks its bytes. -/
theorem lock_map_iff_unlock : LockMap ⟨.unlck, 1, 0, 0, 9⟩ bothLocked
    (lockAfter .setlk 1 (tenBytes 3) bothLocked) := by
  have hargs : lockArgs someFile .setlk (tenBytes 3) = .ok (.ok (.unlck, 0, 9)) := rfl
  refine (lock_map_iff hargs (by decide) rfl ⟨rfl, rfl⟩).mpr ?_
  rintro b hb p k ⟨i, e, he, hsays⟩
  rcases bothLocked_locks i with hi | hi | hi <;> rw [hi] at he <;> cases he
  · exact hsays.pid.symm
  · have hfrom : (20 : Int) ≤ b := hsays.covers.1
    have hto : b ≤ 9 := hb.2
    omega

/-- Process 2, which has no locks, unlocks bytes that process 1 has locked for writing: it succeeds,
and the lock is gone. -/
theorem unlock_takes_lock_of_other :
    ∃ a, lockOp someFile .setlk 2 (some (tenBytes 3)) (lockAfter .setlk 1 (tenBytes 2) emptyLocks) =
      .ok a ∧
      a.result = 0 ∧ a.suspended = false ∧
        (lockAfter .setlk 1 (tenBytes 2) emptyLocks).Holds 0 0 1 .wrlck ∧
      ¬ a.table.Holds 0 0 1 .wrlck ∧
        ¬ LockMap ⟨.unlck, 2, 0, 0, 9⟩ (lockAfter .setlk 1 (tenBytes 2) emptyLocks) a.table := by
  have hheld : (lockAfter .setlk 1 (tenBytes 2) emptyLocks).Holds 0 0 1 .wrlck :=
    ⟨⟨0, by decide⟩, ⟨.wrlck, 1, 0, 0, 9⟩, rfl, rfl, rfl, rfl, by decide⟩
  have hempty : ∀ i, (lockAfter .setlk 2 (tenBytes 3) (lockAfter .setlk 1 (tenBytes 2)
    emptyLocks)).fileLock i = none := by decide +kernel
  have hgone : ¬ (lockAfter .setlk 2 (tenBytes 3) (lockAfter .setlk 1 (tenBytes 2)
    emptyLocks)).Holds 0 0 1 .wrlck := by
    rintro ⟨i, e, he, -⟩
    rw [hempty] at he
    nomatch he
  refine ⟨_, rfl, rfl, rfl, hheld, hgone, fun hmap => hgone ?_⟩
  refine (hmap 0 0 1 .wrlck).mpr ?_
  rw [if_neg (by decide)]
  exact hheld

end Nucleos.Vfs
