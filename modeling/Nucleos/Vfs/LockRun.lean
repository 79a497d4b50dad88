import Nucleos.Vfs.Lock

/-!
# The lock table over whole runs

Descriptors come and go, processes fork, exit and are recycled with their numbers, and a request
that was suspended is made again later against the table as it is then. Whatever the order, two
processes have overlapping locks on a file only for reading.
-/

namespace Nucleos.Vfs

open Function Run

variable {t u : LockTable} {w : LockWish} {i j : LockSlot} {e e' : FileLock} {l : List LockSlot}

/-! ## The table -/

def LockTable.inUse (t : LockTable) : Finset LockSlot :=
  Finset.univ.filter fun i => (t.fileLock i).isSome

def FileLock.Overlaps (e e' : FileLock) : Prop :=
  e.lockVnode = e'.lockVnode ∧ e.lockFirst.toInt ≤ e'.lockLast.toInt ∧
    e'.lockFirst.toInt ≤ e.lockLast.toInt

def LockTable.Has (t : LockTable) (e : FileLock) : Prop := ∃ i, t.fileLock i = some e

structure LockTable.Sound (t : LockTable) : Prop where
  exclusive : ∀ e e', t.Has e → t.Has e' → e.lockPid ≠ e'.lockPid → e.Overlaps e' →
    e.lockType = .rdlck ∧ e'.lockType = .rdlck
  proper : ∀ e, t.Has e → e.lockFirst.toInt ≤ e.lockLast.toInt
  counted : t.nrLocks = t.inUse.card

lemma mem_inUse : i ∈ t.inUse ↔ (t.fileLock i).isSome = true := by
  simp [LockTable.inUse]

lemma inUse_fill (hi : t.fileLock i = none) (d : Int) :
    (t.set i (some e) d).inUse.card = t.inUse.card + 1 := by
  have hnot : i ∉ t.inUse := by simp [mem_inUse, hi]
  have heq : (t.set i (some e) d).inUse = insert i t.inUse := by
    ext j
    rw [mem_inUse, LockTable.set_fileLock, Finset.mem_insert, mem_inUse]
    split_ifs with hj <;> simp [hj]
  rw [heq, Finset.card_insert_of_notMem hnot]

lemma inUse_clear (hi : t.fileLock i = some e) (d : Int) :
    (t.set i none d).inUse.card + 1 = t.inUse.card := by
  have hin : i ∈ t.inUse := by simp [mem_inUse, hi]
  have heq : (t.set i none d).inUse = t.inUse.erase i := by
    ext j
    rw [mem_inUse, LockTable.set_fileLock, Finset.mem_erase, mem_inUse]
    split_ifs with hj <;> simp [hj]
  rw [heq, Finset.card_erase_add_one hin]

lemma inUse_change (hi : t.fileLock i = some e) (d : Int) :
    (t.set i (some e') d).inUse = t.inUse := by
  ext j
  rw [mem_inUse, LockTable.set_fileLock, mem_inUse]
  split_ifs with hj
  · simp [hj, hi]
  · rfl

lemma has_set {f : Option FileLock} {d : Int} (h : (t.set i f d).Has e) : f = some e ∨ t.Has e := by
  obtain ⟨j, hj⟩ := h
  rw [LockTable.set_fileLock] at hj
  split_ifs at hj
  · exact .inl hj
  · exact .inr ⟨j, hj⟩

structure FileLock.Piece (e e' : FileLock) : Prop where
  type : e'.lockType = e.lockType
  pid : e'.lockPid = e.lockPid
  vnode : e'.lockVnode = e.lockVnode
  first : e.lockFirst.toInt ≤ e'.lockFirst.toInt
  last : e'.lockLast.toInt ≤ e.lockLast.toInt

lemma FileLock.Piece.refl (e : FileLock) : e.Piece e :=
    ⟨rfl, rfl, rfl, Int.le_refl _, Int.le_refl _⟩

lemma LockTable.Sound.pieces (ht : t.Sound)
    (hpiece : ∀ e', u.Has e' → e'.lockFirst.toInt ≤ e'.lockLast.toInt ∧ ∃ e, t.Has e ∧ e.Piece e')
    (hcount : u.nrLocks = u.inUse.card) : u.Sound := by
  refine ⟨fun e₁ e₂ h₁ h₂ hpid hover => ?_, fun e he => (hpiece e he).1, hcount⟩
  obtain ⟨-, f₁, hf₁, hp₁⟩ := hpiece e₁ h₁
  obtain ⟨-, f₂, hf₂, hp₂⟩ := hpiece e₂ h₂
  rw [hp₁.type, hp₂.type]
  refine ht.exclusive f₁ f₂ hf₁ hf₂ (by rw [← hp₁.pid, ← hp₂.pid]; exact hpid) ⟨?_, ?_, ?_⟩
  · rw [← hp₁.vnode, ← hp₂.vnode]
    exact hover.1
  · have := hp₁.first
    have := hp₂.last
    have := hover.2.1
    omega
  · have := hp₂.first
    have := hp₁.last
    have := hover.2.2
    omega

lemma Remains.piece {rest : List FileLock} (hr : Remains w e rest) (he : e' ∈ rest) :
    e.Piece e' := by
  obtain ⟨htype, hpid, hvnode⟩ := hr.same e' he
  exact ⟨htype, hpid, hvnode, (hr.within e' he).1, (hr.within e' he).2⟩

lemma Unlocked.sound (ht : t.Sound) (hi : t.fileLock i = some e) (hu : Unlocked w i e t u) :
    u.Sound := by
  have hold : ∀ e', t.Has e' → e'.lockFirst.toInt ≤ e'.lockLast.toInt ∧ ∃ e, t.Has e ∧ e.Piece e' :=
    fun e' he' =>
    ⟨ht.proper e' he', e', he', .refl e'⟩
  have hcount := ht.counted
  cases hu with
  | gone hr =>
    refine ht.pieces (fun e' he' => ?_) ?_
    · exact hold e' ((has_set he').resolve_left nofun)
    have hcard := inUse_clear hi (-1)
    simp only [LockTable.set] at hcard ⊢
    omega
  | kept e₁ hr =>
    refine ht.pieces (fun e' he' => ?_) ?_
    · rcases has_set he' with heq | he'
      · cases heq
        exact ⟨hr.proper e₁ (List.mem_singleton_self _), e, ⟨i, hi⟩,
          hr.piece (List.mem_singleton_self _)⟩
      · exact hold e' he'
    · rw [inUse_change hi]
      simp only [LockTable.set]
      omega
  | split j e₁ e₂ hj hr =>
    have hne : i ≠ j := by
      rintro rfl
      nomatch hj.symm.trans hi
    have hi' : (t.set j (some e₁) 1).fileLock i = some e := by
      rw [LockTable.set_fileLock, if_neg hne]
      exact hi
    refine ht.pieces (fun e' he' => ?_) ?_
    · rcases has_set he' with heq | he'
      · cases heq
        exact ⟨hr.proper e₂ (by simp), e, ⟨i, hi⟩, hr.piece (by simp)⟩
      rcases has_set he' with heq | he'
      · cases heq
        exact ⟨hr.proper e₁ (by simp), e, ⟨i, hi⟩, hr.piece (by simp)⟩
      · exact hold e' he'
    · rw [inUse_change hi', inUse_fill hj]
      simp only [LockTable.set]
      omega

def LockScan.Sound : LockScan → Prop
  | .through t _ _ => t.Sound
  | .conflict _ _ => True
  | .full t => t.Sound

lemma lockScan_sound {getlk : Bool} {empty : Option LockSlot} {f : Bool} {scan : LockScan}
    (ht : t.Sound)
    (h : lockScan w getlk l t empty f = .ok scan) : scan.Sound := by
  induction l generalizing t empty f with
  | nil =>
    cases h
    exact ht
  | cons i rest ih =>
    rw [lockScan] at h
    split at h
    · exact ih ht h
    next e he =>
    split at h
    · exact ih ht h
    next hm =>
    split at h
    · cases h
      trivial
    obtain ⟨t', hentry, h⟩ := bind_eq_ok.mp h
    cases t' with
    | none =>
      cases h
      exact ht
    | some t' => exact ih ((unlockEntry_spec (by simpa using hm) hentry).sound ht he) h

lemma LockTable.Sound.insert {k : LockKind} (ht : t.Sound) (hw : w.ltype = .lock k)
    (hrange : w.first.toInt ≤ w.last.toInt)
    (hi : t.fileLock i = none) (hmeets : ∀ i e, t.fileLock i = some e → w.meets e = false) :
    (t.set i (some ⟨k, w.pid, w.vno, w.first, w.last⟩) 1).Sound := by
  -- the new lock and another one overlap only if both are for reading
  have hnew : ∀ e, t.Has e → e.lockPid ≠ w.pid → e.Overlaps ⟨k, w.pid, w.vno, w.first, w.last⟩ →
    k = .rdlck ∧ e.lockType = .rdlck := by
    rintro e ⟨j, hj⟩ hpid ⟨hv, hlast, hfirst⟩
    have hm := hmeets j e hj
    have hv' : e.lockVnode = w.vno := hv
    have hlast' : w.last.slt e.lockFirst = false := by
      rw [← Bool.not_eq_true, BitVec.slt_iff_toInt_lt]
      exact Int.not_lt.mpr hlast
    have hfirst' : e.lockLast.slt w.first = false := by
      rw [← Bool.not_eq_true, BitVec.slt_iff_toInt_lt]
      exact Int.not_lt.mpr hfirst
    simp only [LockWish.meets, hw, hv', hlast', hfirst', beq_self_eq_true, Bool.not_false,
      Bool.and_true, Bool.true_and,
      beq_eq_false_iff_ne.mpr hpid, Bool.and_false, Bool.not_eq_false', Bool.and_eq_true,
        beq_iff_eq, Ltype.lock.injEq] at hm
    exact hm
  refine ⟨fun e₁ e₂ h₁ h₂ hpid hover => ?_, fun e he => ?_, ?_⟩
  · rcases has_set h₁ with heq₁ | h₁ <;> rcases has_set h₂ with heq₂ | h₂
    · cases heq₁
      cases heq₂
      exact absurd rfl hpid
    · cases heq₁
      exact hnew e₂ h₂ (Ne.symm hpid) ⟨hover.1.symm, hover.2.2, hover.2.1⟩
    · cases heq₂
      exact (hnew e₁ h₁ hpid hover).symm
    · exact ht.exclusive e₁ e₂ h₁ h₂ hpid hover
  · rcases has_set he with heq | he
    · cases heq
      exact hrange
    · exact ht.proper e he
  · rw [inUse_fill hi]
    have hcount := ht.counted
    simp only [LockTable.set]
    omega

variable {f : LockFile} {fl : Flock} {first last : BitVec 32}

lemma lockRange_le (h : lockRange f fl = .ok (some (first, last))) :
    first.toInt ≤ last.toInt := by
  unfold lockRange at h
  obtain ⟨base, _, h⟩ := bind_eq_ok.mp h
  cases base with
  | none => nomatch h
  | some base =>
    rcases ite_eq_iff.mp h with ⟨_, h⟩ | ⟨hle, h⟩
    · exact nomatch h
    obtain ⟨rfl, rfl⟩ := Prod.mk.inj (Option.some.inj (Except.ok.inj h))
    rw [BitVec.slt_iff_toInt_lt] at hle
    exact Int.not_lt.mp hle

variable {req : LockReq}

lemma lockArgs_le {ltype : Ltype}
    (h : lockArgs f req fl = .ok (.ok (ltype, first, last))) : first.toInt ≤ last.toInt := by
  unfold lockArgs at h
  cases hltype : ltypeOf fl.lType with
  | none =>
    rw [hltype] at h
    nomatch h
  | some lt =>
    rw [hltype] at h
    simp only at h
    iterate 4
      split at h
      · nomatch h
    obtain ⟨range, hrange, h⟩ := bind_eq_ok.mp h
    cases range with
    | none => nomatch h
    | some range =>
      obtain ⟨first', last'⟩ := range
      obtain ⟨-, heq⟩ := ok_pair_inj (Except.ok.inj h)
      cases heq
      exact lockRange_le hrange

variable {fetched : Option Flock} {pid : Int} {a : LockAnswer}

lemma lockOp_sound (ht : t.Sound) (h : lockOp f req pid fetched t = .ok a) : a.table.Sound := by
  unfold lockOp at h
  cases fetched with
  | none =>
    cases h
    exact ht
  | some fl =>
    obtain ⟨args, hargs, h⟩ := bind_eq_ok.mp h
    cases args with
    | error r =>
      cases h
      exact ht
    | ok args =>
      obtain ⟨ltype, first, last⟩ := args
      obtain ⟨scan, hscan, h⟩ := bind_eq_ok.mp h
      cases h
      have hsound := lockScan_sound ht hscan
      cases scan with
      | conflict i e => cases req <;> exact ht
      | full t' => exact hsound
      | through t' empty unlocking =>
        cases ltype with
        | unlck => cases req <;> exact hsound
        | lock k =>
          obtain ⟨rfl, hempty, hmeets⟩ := lockScan_through (by simp) hscan
          cases req with
          | getlk => exact ht
          | setlk | setlkw =>
            cases empty with
            | none => exact ht
            | some i =>
              exact LockTable.Sound.insert (w := ⟨.lock k, pid, f.vno, first, last⟩) ht rfl
                (lockArgs_le hargs)
                (firstFree_none hempty.symm) hmeets

/-! ## Processes -/

def nrProcs : Nat := 100
def initProcNr : Nat := 11
def openMax : Nat := 32

abbrev Proc := Fin nrProcs

instance : NeZero nrProcs := ⟨by decide⟩

structure LockWait where
  fd : Nat
  req : LockReq
  revived : Bool

/-- The lock table with what the requests on it depend on: the open files, and of each process its
number, its descriptors and the request it is suspended in. -/
structure LockState where
  table : LockTable
  filp : Nat → LockFile
  pid : Proc → Option Int
  fpFilp : Proc → Nat → Option Nat
  wait : Proc → Option LockWait

/-- `lock_revive` for any state: the loop starts behind `init`. -/
def lockRevive {σ : Type} {m : Type → Type} [Monad m] (waits : σ → Proc → Bool)
    (revive : Proc → σ → m σ) (s : σ) : m σ :=
  ((List.finRange nrProcs).drop (initProcNr + 1)).foldlM (fun s p => if waits s p then revive p s
    else pure s) s

def LockState.waits (s : LockState) (p : Proc) : Bool := (s.pid p).isSome && (s.wait p).isSome

def LockState.revive (p : Proc) (s : LockState) : LockState :=
  { s with wait := update s.wait p ((s.wait p).map fun x => { x with revived := true }) }

def LockState.lockRevive (s : LockState) : LockState :=
  Id.run (Vfs.lockRevive LockState.waits (fun p s => pure (s.revive p)) s)

def doLock (p : Proc) (pid : Int) (fd : Nat) (req : LockReq) (fetched : Option Flock)
    (s : LockState) : Except LockStop LockState :=
  match s.fpFilp p fd with
  | none => .ok s
  | some f => do
    let a ← lockOp (s.filp f) req pid fetched s.table
    let s := { s with table := a.table }
    let s := if a.suspended then { s with wait := update s.wait p (some ⟨fd, req, false⟩) } else s
    .ok (if a.revive then s.lockRevive else s)

def releaseLocks (vp : VnodeId) (pid : Int) : List LockSlot → LockTable → LockTable
  | [], t => t
  | i :: rest, t =>
    match t.fileLock i with
    | none => releaseLocks vp pid rest t
    | some e =>
      if e.lockVnode = vp ∧ e.lockPid = pid then releaseLocks vp pid rest (t.set i none (-1))
        else releaseLocks vp pid rest t

def closeFd (p : Proc) (pid : Int) (fd : Nat) (s : LockState) : LockState :=
  match s.fpFilp p fd with
  | none => s
  | some f =>
    let s := { s with fpFilp := update s.fpFilp p (update (s.fpFilp p) fd none) }
    if s.table.nrLocks = 0 then s
    else
      let t := releaseLocks (s.filp f).vno pid (List.finRange maxLocks) s.table
      let s' := { s with table := t }
      if t.nrLocks < s.table.nrLocks then s'.lockRevive else s'

def lockExit (p : Proc) (pid : Int) (s : LockState) : LockState :=
  let s := { s with wait := update s.wait p none }
  let s := (List.range openMax).foldl (fun s fd => closeFd p pid fd s) s
  { s with pid := update s.pid p none }

inductive LockAct where
  | fcntl (p : Proc) (fd : Nat) (req : LockReq) (fetched : Option Flock)
  | revive (p : Proc) (fetched : Option Flock)
  | unpause (p : Proc)
  | close (p : Proc) (fd : Nat)
  | fork (parent child : Proc) (pid : Int)
  | exit (p : Proc)
  | openFile (p : Proc) (fd f : Nat)
  | change (f : Nat) (file : LockFile)

/-- The calls that have to do with locks. Opens and whatever changes a file, its position or its
vnode, recycling included, may do so in any way. Actions of processes that are not there or cannot
run leave the state alone. -/
def LockState.step (s : LockState) : LockAct → Except LockStop LockState
  | .fcntl p fd req fetched =>
    match s.pid p, s.wait p with
    | some pid, none => doLock p pid fd req fetched s
    | _, _ => .ok s
  | .revive p fetched =>
    match s.pid p, s.wait p with
    | some pid, some ⟨fd, req, true⟩ =>
        doLock p pid fd req fetched { s with wait := update s.wait p none }
    | _, _ => .ok s
  | .unpause p => .ok { s with wait := update s.wait p none }
  | .close p fd =>
    match s.pid p with
    | some pid => .ok (closeFd p pid fd s)
    | none => .ok s
  | .fork parent child pid =>
    .ok { s with
      pid := update s.pid child (some pid)
      fpFilp := update s.fpFilp child (s.fpFilp parent)
      wait := update s.wait child (s.wait parent) }
  | .exit p =>
    match s.pid p with
    | some pid => .ok (lockExit p pid s)
    | none => .ok s
  | .openFile p fd f => .ok { s with fpFilp := update s.fpFilp p (update (s.fpFilp p) fd (some f)) }
  | .change f file => .ok { s with filp := update s.filp f file }

lemma releaseLocks_sound {vp : VnodeId} {pid : Int} (ht : t.Sound) :
    (releaseLocks vp pid l t).Sound := by
  induction l generalizing t with
  | nil => exact ht
  | cons i rest ih =>
    rw [releaseLocks]
    cases he : t.fileLock i with
    | none => exact ih ht
    | some e =>
      simp only
      split_ifs
      · refine ih (ht.pieces (fun e' he' => ?_) ?_)
        · have hold : t.Has e' := (has_set he').resolve_left nofun
          exact ⟨ht.proper e' hold, e', hold, .refl e'⟩
        · have hcard := inUse_clear he (-1)
          have hcount := ht.counted
          simp only [LockTable.set] at hcard ⊢
          omega
      · exact ih ht

section Step
variable {s s' : LockState} {p : Proc} {pid : Int}

lemma lockRevive_table (s : LockState) : s.lockRevive.table = s.table := by
  unfold LockState.lockRevive Vfs.lockRevive
  generalize (List.finRange nrProcs).drop (initProcNr + 1) = l
  induction l generalizing s with
  | nil => rfl
  | cons p l ih =>
    rw [List.foldlM_cons]
    split
    · exact ih (s.revive p)
    · exact ih s

lemma doLock_sound {fd : Nat} (hs : s.table.Sound)
    (h : doLock p pid fd req fetched s = .ok s') : s'.table.Sound := by
  unfold doLock at h
  split at h
  · cases h
    exact hs
  obtain ⟨a, hop, h⟩ := bind_eq_ok.mp h
  cases h
  split
  · rw [lockRevive_table]
    split <;> exact lockOp_sound hs hop
  · split <;> exact lockOp_sound hs hop

lemma closeFd_sound (fd : Nat) (hs : s.table.Sound) : (closeFd p pid fd s).table.Sound := by
  unfold closeFd
  cases hf : s.fpFilp p fd with
  | none => exact hs
  | some f =>
    simp only
    split_ifs
    · exact hs
    · rw [lockRevive_table]
      exact releaseLocks_sound hs
    · exact releaseLocks_sound hs

lemma lockExit_sound (hs : s.table.Sound) : (lockExit p pid s).table.Sound := by
  have hclose : ∀ (l : List Nat) (u : LockState), u.table.Sound →
    (l.foldl (fun s fd => closeFd p pid fd s) u).table.Sound := by
    intro l
    induction l with
    | nil => exact fun _ hu => hu
    | cons fd rest ih => exact fun u hu => ih _ (closeFd_sound fd hu)
  exact hclose _ _ hs

lemma LockState.step_sound {a : LockAct} (hs : s.table.Sound) (h : s.step a = .ok s') :
    s'.table.Sound := by
  unfold LockState.step at h
  cases a with
  | fcntl p fd req fetched =>
    simp only at h
    split at h
    · exact doLock_sound hs h
    · cases h
      exact hs
  | revive p fetched =>
    simp only at h
    split at h
    · exact doLock_sound (by exact hs) h
    · cases h
      exact hs
  | close p fd =>
    simp only at h
    split at h
    · cases h
      exact closeFd_sound fd hs
    · cases h
      exact hs
  | exit p =>
    simp only at h
    split at h
    · cases h
      exact lockExit_sound hs
    · cases h
      exact hs
  | unpause p | fork parent child pid | openFile p fd f | change f file =>
    cases h
    exact hs

end Step

lemma emptyLocks_sound : emptyLocks.Sound := by
  refine ⟨?_, ?_, by decide⟩
  · rintro e e' ⟨i, hi⟩
    nomatch hi
  · rintro e ⟨i, hi⟩
    nomatch hi

/-- In every state that lock requests, unlocks, closes, forks, exits and requests made again lead to
from an empty table: locks of different processes overlap only for reading, every lock has bytes,
and the count is the number of slots in use. -/
theorem locks_exclude {n : Nat} (tr : Trace LockState.step n)
    (hinit : (tr.state 0).table = emptyLocks) :
    ∀ i ≤ n, (tr.state i).table.Sound := by
  refine tr.invariant (fun s => s.table.Sound) ?_ fun hs h => LockState.step_sound hs h
  rw [hinit]
  exact emptyLocks_sound

/-- The process in slot 12 has the file open. It forks and locks, and the child in slot 13 waits for
the lock. -/
def lockBoot : LockState where
  table := emptyLocks
  filp _ := someFile
  pid p := if p = 12 then some 1 else none
  fpFilp p fd := if p = 12 ∧ fd = 0 then some 0 else none
  wait _ := none

def lockAndWait (i : Nat) : LockAct :=
  if i = 0 then .fork 12 13 2
  else if i = 1 then .fcntl 12 0 .setlk (some (tenBytes 2))
  else if i = 2 then .fcntl 13 0 .setlkw (some (tenBytes 2))
  else if i = 3 then .close 12 0
  else .revive 13 (some (tenBytes 2))

/-- The lock goes from the parent to the child when the parent closes the file. -/
theorem locks_exclude_handed_over :
    ∃ tr : Trace LockState.step 5, (tr.state 3).table.Sound ∧ (tr.state 5).table.Sound ∧
      (tr.state 3).table.fileLock ⟨0, by decide⟩ = some ⟨.wrlck, 1, 0, 0, 9⟩ ∧
      (tr.state 5).table.fileLock ⟨0, by decide⟩ = some ⟨.wrlck, 2, 0, 0, 9⟩ := by
  refine ⟨Trace.run LockState.step lockBoot lockAndWait 5 (by decide +kernel), ?_, ?_,
    by decide +kernel, by decide +kernel⟩
  · exact locks_exclude _ rfl 3 (by decide)
  · exact locks_exclude _ rfl 5 (by decide)

end Nucleos.Vfs
