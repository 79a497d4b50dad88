import Mathlib

/-!
# Shared memory segments

The IPC server keeps its segments in a table without holes. It does not count attachments: now and
then it asks VM how often the pages of each segment are mapped, throws out the segments that are to
be destroyed and that nobody else has mapped, and moves the others up.
-/

namespace Nucleos.Ipc

open Function

structure Shm where
  key : Int
  id : Int
  page : BitVec 32
  mode : BitVec 16
  nattch : Nat
deriving DecidableEq

structure ShmTable where
  shmList : Nat → Shm
  shmListNr : Nat

def ShmTable.segments (t : ShmTable) : List Shm := (List.range t.shmListNr).map t.shmList

def shmFindId (id : Int) (t : ShmTable) : Option Shm := t.segments.find? fun s => s.id == id

def shmDest : BitVec 16 := 512

/-- What VM answers for a page of the server: a count, or that it does not know the page. -/
abbrev VmAnswers := BitVec 32 → Option (BitVec 8)

def VmAnswers.getrefcount (vm : VmAnswers) (page : BitVec 32) : Nat := ((vm page).getD (-1)).toNat

def ShmTable.visit (vm : VmAnswers) (a : ShmTable) (i : Nat) : ShmTable :=
  let rc := vm.getrefcount (a.shmList i).page
  if rc = 255 then a
  else
    -- the count is unsigned
    let s := { a.shmList i with nattch := (rc + (2 ^ 32 - 1)) % 2 ^ 32 }
    let l := update a.shmList i s
    if s.nattch ≠ 0 ∨ s.mode &&& shmDest = 0 then ⟨if i ≠ a.shmListNr then update l a.shmListNr s
      else l, a.shmListNr + 1⟩
    else ⟨l, a.shmListNr⟩

def passOver (vm : VmAnswers) (t : ShmTable) (n : Nat) : ShmTable :=
  (List.range n).foldl (ShmTable.visit vm) ⟨t.shmList, 0⟩

def updateRefcountAndDestroy (vm : VmAnswers) (t : ShmTable) : ShmTable := passOver vm t t.shmListNr

/-! ## The pass -/

def Shm.left (vm : VmAnswers) (s : Shm) : Option Shm :=
  let rc := vm.getrefcount s.page
  let s := { s with nattch := (rc + (2 ^ 32 - 1)) % 2 ^ 32 }
  if rc ≠ 255 ∧ (s.nattch ≠ 0 ∨ s.mode &&& shmDest = 0) then some s else none

variable {vm : VmAnswers} {t : ShmTable}

lemma visit_spec {a : ShmTable} {i : Nat} (hj : a.shmListNr ≤ i) :
    (∀ k, i < k → (a.visit vm i).shmList k = a.shmList k) ∧
      (a.visit vm i).segments = a.segments ++ ((a.shmList i).left vm).toList := by
  have hbelow : ∀ f : Nat → Shm, (∀ k, k < a.shmListNr → f k = a.shmList k) →
    (List.range a.shmListNr).map f = a.segments :=
    fun f hf => List.map_congr_left fun k hk => hf k (List.mem_range.mp hk)
  unfold ShmTable.visit Shm.left
  by_cases hrc : vm.getrefcount (a.shmList i).page = 255
  · simp [hrc]
  simp only [hrc, if_false, ne_eq, not_false_eq_true, true_and]
  split
  · refine ⟨fun k hk => ?_, ?_⟩
    · split <;> simp (disch := omega) only [update_of_ne]
    · rw [ShmTable.segments, List.range_succ, List.map_append, hbelow]
      · split
        · simp
        · next heq =>
          rw [← of_not_not heq]
          simp
      · intro k hk
        split <;> simp (disch := omega) only [update_of_ne]
  · refine ⟨fun k hk => update_of_ne (by omega) _ _, ?_⟩
    rw [ShmTable.segments, hbelow _ fun k hk => update_of_ne (by omega) _ _]
    simp

/-- Behind the place where the pass is nothing has changed, and before `j` is what is left of the
segments so far. -/
theorem passOver_spec (n : Nat) :
    (passOver vm t n).shmListNr ≤ n ∧ (∀ k, n ≤ k → (passOver vm t n).shmList k = t.shmList k) ∧
    (passOver vm t n).segments = ((List.range n).map t.shmList).filterMap (Shm.left vm) := by
  induction n with
  | zero => exact ⟨Nat.le_refl 0, fun _ _ => rfl, rfl⟩
  | succ n ih =>
    obtain ⟨hj, hrest, hleft⟩ := ih
    obtain ⟨hsame, hput⟩ := @visit_spec vm _ _ hj
    have hsucc : passOver vm t (n + 1) = (passOver vm t n).visit vm n := by
      simp [passOver, List.range_succ]
    rw [hsucc]
    refine ⟨?_, fun k hk => ?_, ?_⟩
    · have hlen := congrArg List.length hput
      have hone : (((passOver vm t n).shmList n).left vm).toList.length ≤ 1 :=
        Option.length_toList_le
      simp only [ShmTable.segments, List.length_map, List.length_range, List.length_append] at hlen
      omega
    · rw [hsame k hk, hrest k (by omega)]
    · rw [hput, hleft, hrest n (Nat.le_refl n), List.range_succ, List.map_append,
        List.filterMap_append]
      cases h : (t.shmList n).left vm <;> simp [h]

def Shm.attachments (vm : VmAnswers) (s : Shm) : Nat := vm.getrefcount s.page - 1

def Shm.stays (vm : VmAnswers) (s : Shm) : Bool := s.attachments vm ≠ 0 || s.mode &&& shmDest == 0

def Shm.counted (vm : VmAnswers) (s : Shm) : Shm := { s with nattch := s.attachments vm }

/-- VM has counted the server and the attachments, and the count is not the one that stands for a
failure. -/
def Shm.Known (vm : VmAnswers) (s : Shm) : Prop :=
  0 < vm.getrefcount s.page ∧ vm.getrefcount s.page < 255

lemma left_eq {s : Shm} (h : s.Known vm) :
    s.left vm = if s.stays vm then some (s.counted vm) else none := by
  obtain ⟨hpos, hlt⟩ := h
  have hsub : (vm.getrefcount s.page + (2 ^ 32 - 1)) % 2 ^ 32 = s.attachments vm := by
    unfold Shm.attachments
    omega
  simp only [Shm.left, hsub, Shm.stays, Shm.counted]
  simp [Nat.ne_of_lt hlt]

lemma left_nattch {s s' : Shm} (h : s.left vm = some s') :
    s'.nattch < 254 ∨ vm.getrefcount s.page = 0 ∧ s'.nattch = 2 ^ 32 - 1 := by
  have hlt : vm.getrefcount s.page < 2 ^ 8 := BitVec.isLt _
  unfold Shm.left at h
  simp only at h
  split at h
  · next hrc =>
    obtain rfl := Option.some.inj h
    dsimp only
    omega
  · cases h

def Shm.Kept (vm : VmAnswers) (t : ShmTable) : Prop :=
  (updateRefcountAndDestroy vm t).segments = (t.segments.filter (·.stays vm)).map (Shm.counted vm)

lemma segments_eq : (updateRefcountAndDestroy vm t).segments = t.segments.filterMap (Shm.left vm) :=
  (passOver_spec t.shmListNr).2.2

lemma known_of_kept (h : Shm.Kept vm t) {s : Shm} (hs : s ∈ t.segments) : s.Known vm := by
  have hlt : vm.getrefcount s.page < 2 ^ 8 := BitVec.isLt _
  rw [Shm.Kept, segments_eq] at h
  by_contra hknown
  -- a count of 0 wraps, and a segment with count 255 goes although it is attached
  rcases Nat.eq_zero_or_pos (vm.getrefcount s.page) with hzero | hpos
  · have hleft : s.left vm = some { s with nattch := 2 ^ 32 - 1 } := by simp [Shm.left, hzero]
    have hmem := h ▸ List.mem_filterMap.mpr ⟨s, hs, hleft⟩
    obtain ⟨s₀, -, heq⟩ := List.mem_map.mp hmem
    have hlt₀ : vm.getrefcount s₀.page < 2 ^ 8 := BitVec.isLt _
    have hcount := congrArg Shm.nattch heq
    simp only [Shm.counted, Shm.attachments] at hcount
    omega
  · have hmax : vm.getrefcount s.page = 255 := by
      unfold Shm.Known at hknown
      omega
    have hstays : s.stays vm = true := by simp [Shm.stays, Shm.attachments, hmax]
    have hmem := h.symm ▸ List.mem_map_of_mem (f := Shm.counted vm)
      (List.mem_filter.mpr ⟨hs, hstays⟩)
    obtain ⟨s₀, -, hleft⟩ := List.mem_filterMap.mp hmem
    have hnattch := left_nattch hleft
    simp only [Shm.counted, Shm.attachments, hmax] at hnattch
    omega

/-- Exactly those segments go that are to be destroyed and that nobody has attached, and the others
keep their order and all but the count, which is that of the attachments, if and only if VM knows
every segment. Those that stay are then found under their identifiers. -/
theorem segments_kept (vm : VmAnswers) (t : ShmTable) :
    (Shm.Kept vm t ↔ ∀ s ∈ t.segments, s.Known vm) ∧
    (Shm.Kept vm t → ∀ s ∈ t.segments, s.stays vm →
      ∃ s', shmFindId s.id (updateRefcountAndDestroy vm t) = some s' ∧ s'.id = s.id ∧
        ((t.segments.map Shm.id).Nodup → s' = s.counted vm)) := by
  refine ⟨⟨fun h s hs => known_of_kept h hs, fun h => ?_⟩, fun hkept s hs hstays => ?_⟩
  · rw [Shm.Kept, segments_eq, ← List.filterMap_eq_map, List.filterMap_filter]
    refine List.filterMap_congr fun s hs => ?_
    simp [left_eq (h s hs)]
  have hmem : s.counted vm ∈ (updateRefcountAndDestroy vm t).segments := by
    rw [hkept]
    exact List.mem_map_of_mem (List.mem_filter.mpr ⟨hs, hstays⟩)
  cases hfind : shmFindId s.id (updateRefcountAndDestroy vm t) with
  | none => simpa [Shm.counted] using List.find?_eq_none.mp hfind _ hmem
  | some s' =>
    have hid : s'.id = s.id := by simpa using List.find?_some hfind
    refine ⟨s', rfl, hid, fun hnd => ?_⟩
    have hs' := List.mem_of_find?_eq_some hfind
    rw [hkept] at hs'
    obtain ⟨s₀, hs₀, rfl⟩ := List.mem_map.mp hs'
    rw [List.inj_on_of_nodup_map hnd (List.mem_of_mem_filter hs₀) hs hid]

def twoSegments : ShmTable := ⟨fun i => ⟨i, i, i, if i = 0 then 512 else 0, 0⟩, 2⟩

theorem segments_kept_second :
    (updateRefcountAndDestroy (fun _ => some 1) twoSegments).segments = [⟨1, 1, 1, 0, 0⟩] := by
  have hknown : ∀ s ∈ twoSegments.segments, s.Known fun _ => some 1 :=
    fun _ _ => ⟨Nat.one_pos, (by decide : 1 < 255)⟩
  exact ((segments_kept _ twoSegments).1.mpr hknown).trans (by decide)

/-- Both are attached by 254 processes, and neither is found any more. -/
theorem attached_segments_lost :
    (∀ s ∈ twoSegments.segments, s.attachments (fun _ => some 255) = 254) ∧
    ∀ id, shmFindId id (updateRefcountAndDestroy (fun _ => some 255) twoSegments) = none :=
  ⟨by decide, fun _ => rfl⟩

end Nucleos.Ipc
