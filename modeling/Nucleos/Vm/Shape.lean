import Nucleos.Vm.Operation

/-!
# The functions that leave the regions where they are

Whatever the trees and counts look like, work on the blocks of a region moves no region and
changes no list of regions. These lemmas need no invariant, so they hold in the middle of an
operation and after one that has failed.
-/

namespace Nucleos.Vm

open IntrusiveList Run

variable {s t u : State} {p : ProcId} {r : RegionId} {pr : PhysId} {ok : Bool} {offset length : BitVec 32}

lemma pbUnreferenced_frame (h : pbUnreferenced r pr s = .ok t) : Frame s t := by
  obtain ⟨c, -, ha⟩ := pbUnreferenced_ok h
  exact (dropRef_frame s r c pr).trans ha.frame

lemma mapPhWritept_frame (h : mapPhWritept p r pr s = (ok, t)) : Frame s t := by
  rcases mapPhWritept_aside h with ⟨-, ha⟩ | ⟨-, ha, -⟩
  · exact (mapPtes_frame s p r pr).trans ha.frame
  · exact ha.frame

lemma mapCopyPhBlock_frame (h : mapCopyPhBlock p r pr s = .ok (ok, t)) : Frame s t := by
  rcases mapCopyPhBlock_ok h with ⟨-, c, base, -, -, ha⟩ | ⟨-, ha, -⟩
  · exact (copyBlock_frame s p r c pr base).trans ha.frame
  · exact ha.frame

variable {what : BitVec 32}

lemma mapNewPhysblock_frame {new : Option PhysId}
    (h : mapNewPhysblock p r offset length what s = (new, t)) : Frame s t := by
  cases new with
  | none => exact (mapNewPhysblock_none h).1.frame
  | some new =>
    obtain ⟨-, ⟨-, ha⟩ | ⟨-, base, -, ha⟩⟩ := mapNewPhysblock_some h
    · exact (addBlock_frame s p r offset length what).trans ha.frame
    · exact ((takeMem_frame s base _).trans (addBlock_frame _ p r offset length _)).trans ha.frame

/-! ## Freeing -/

lemma removePhys_frame (s : State) (r : RegionId) (pr : PhysId) :
    Frame s (s.modHeap fun h => h.removePhys r pr) :=
  ⟨fun q => removePhys_same s.heap r pr q, fun _ => rfl, rfl⟩

variable {l : List PhysId}

lemma subfreeFrom_frame {len : BitVec 32} {cut : Bool} (h : subfreeFrom p r len l cut s = .ok (ok, t)) :
    Frame s t := by
  induction l generalizing s cut with
  | nil =>
    cases h
    exact Frame.refl _
  | cons pr rest ih =>
    rw [subfreeFrom] at h
    split at h
    · cases h
      exact Frame.refl _
    split at h
    · obtain ⟨s₁, hun, h⟩ := bind_eq_ok.mp h
      have hframe := (pbUnreferenced_frame hun).trans (removePhys_frame s₁ r pr)
      split at h
      · cases h
        exact hframe
      · exact hframe.trans (ih h)
    · obtain ⟨⟨got, s₁⟩, hown, h⟩ := bind_eq_ok.mp h
      have hframe : Frame s s₁ := by
        rcases ite_eq_iff.mp hown with ⟨_, hown⟩ | ⟨_, hown⟩
        · exact mapCopyPhBlock_frame hown
        · cases hown
          exact Frame.refl s
      cases got with
      | false =>
        cases h
        exact hframe
      | true =>
        have hcut := cutBlock_frame s₁ r pr (len - (s.heap.physr pr).offset)
        simp only [if_true] at h
        exact (hframe.trans hcut).trans (ih h)

lemma mapFree_frame (h : mapFree p r s = .ok (ok, t)) : Frame s t := subfreeFrom_frame h

/-! ## Memory for a region -/

variable {n : Nat}

lemma freeRangeHere_frame {r1 r2 : Option PhysId} (h : freeRangeHere p r offset length r1 r2 s = (ok, n, t)) :
    Frame s t := by
  unfold freeRangeHere at h
  rcases ite_eq_iff.mp h with ⟨_, h⟩ | ⟨_, h⟩
  · cases hnew : mapNewPhysblock p r (s.heap.rangeStart offset r1)
        (s.heap.rangeEnd (offset + length) r2 - s.heap.rangeStart offset r1) mapNone s with
    | mk new s₁ =>
      have hframe := mapNewPhysblock_frame hnew
      rw [hnew] at h
      cases new with
      | none | some new =>
        cases h
        exact hframe
  · cases h
    exact Frame.refl s

variable {write : Bool}

lemma handleBlock_frame (h : handleBlock p r write pr s = .ok (ok, n, t)) : Frame s t := by
  unfold handleBlock at h
  split at h
  · split at h
    · cases hmap : mapPhWritept p r pr s with
      | mk got s₁ =>
        rw [hmap] at h
        cases h
        exact mapPhWritept_frame hmap
    · obtain ⟨⟨got, s₁⟩, hcopy, h⟩ := bind_eq_ok.mp h
      cases h
      exact mapCopyPhBlock_frame hcopy
  · cases h
    exact Frame.refl s

lemma handleBlocks_frame {m : Nat}
    (h : handleBlocks p r offset length write l n s = .ok (ok, m, t)) : Frame s t := by
  induction l generalizing s n with
  | nil =>
    cases h
    exact Frame.refl _
  | cons pr rest ih =>
    rw [handleBlocks] at h
    obtain ⟨⟨got, k, s₁⟩, hblock, h⟩ := bind_eq_ok.mp h
    have hframe₁ := handleBlock_frame hblock
    cases got with
    | false =>
      cases h
      exact hframe₁
    | true =>
      simp only [if_true] at h
      rcases hrange : freeRangeHere p r offset length (some pr) rest.head? s₁ with ⟨got, j, s₂⟩
      have hframe₂ := hframe₁.trans (freeRangeHere_frame hrange)
      rw [hrange] at h
      cases got with
      | false =>
        cases h
        exact hframe₂
      | true =>
        cases rest with
        | nil =>
          cases h
          exact hframe₂
        | cons x rest =>
          rcases ite_eq_iff.mp h with ⟨_, h⟩ | ⟨_, h⟩
          · cases h
            exact hframe₂
          · exact hframe₂.trans (ih h)

lemma passFirst_frame {nodes nodes' : List PhysId}
    (h : passFirst p r offset length nodes s = (ok, n, nodes', t)) :
    Frame s t := by
  cases nodes with
  | nil =>
    cases h
    exact Frame.refl s
  | cons x rest =>
    rw [passFirst] at h
    split at h
    · cases hrange : freeRangeHere p r offset length none rest.head? s with
      | mk got rest₁ =>
      obtain ⟨j, s₁⟩ := rest₁
      rw [hrange] at h
      cases h
      exact freeRangeHere_frame hrange
    · cases h
      exact Frame.refl s

lemma mapHandleMemory_frame (h : mapHandleMemory p r offset length write s = .ok (ok, t)) : Frame s t := by
  unfold mapHandleMemory at h
  simp only at h
  generalize s.heap.fromLessEqual offset (s.heap.region r).phys = nodes at h
  rcases hrange : freeRangeHere p r offset length none nodes.head? s with ⟨got, j, s₁⟩
  have hframe₁ := freeRangeHere_frame hrange
  rw [hrange] at h
  cases got with
  | false =>
    cases h
    exact hframe₁
  | true =>
    simp only at h
    rcases hpass : passFirst p r offset length nodes s₁ with ⟨got, k, nodes', s₂⟩
    have hframe₂ := hframe₁.trans (passFirst_frame hpass)
    rw [hpass] at h
    cases got with
    | false =>
      cases h
      exact hframe₂
    | true =>
      obtain ⟨⟨got, changes, s₃⟩, hblocks, h⟩ := bind_eq_ok.mp h
      have hframe₃ := hframe₂.trans (handleBlocks_frame hblocks)
      cases got with
      | false =>
        cases h
        exact hframe₃
      | true =>
        simp only [if_true] at h
        split at h
        · nomatch h
        · cases h
          exact hframe₃

lemma mapWhat_frame (h : mapWhat p r length what s = (ok, t)) : Frame s t := by
  unfold mapWhat at h
  split at h
  · split at h
    · next s₁ hnew =>
      have hframe := mapNewPhysblock_frame hnew
      cases h
      exact hframe
    · next new s₁ hnew =>
      have hframe := mapNewPhysblock_frame hnew
      exact hframe.trans (mapPhWritept_frame h)
  · cases h
    exact Frame.refl s

lemma preallocate_frame {flags : BitVec 16} {prealloc : Bool}
    (h : preallocate p r length flags prealloc s = .ok (ok, t)) :
    Frame s t := by
  rcases ite_eq_iff.mp h with ⟨_, h⟩ | ⟨_, h⟩
  · exact mapHandleMemory_frame h
  · cases h
    exact Frame.refl s

end Nucleos.Vm
