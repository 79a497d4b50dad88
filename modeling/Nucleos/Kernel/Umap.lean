import Nucleos.Vm.Heap

/-!
# Checks of virtual ranges

What `umap_local`, `umap_remote` and `umap_bios` answer is used as the start of a range of memory.
The first looks at the end of a segment only, the others at a sum that can run over. -/

namespace Nucleos.Kernel

open Vm (MemMap)

inductive Seg where
  | T
  | D
  | S
  deriving DecidableEq

structure FarMem where
  inUse : Bool
  memPhys : BitVec 32
  memLen : BitVec 32

def nrRemoteSegs : Nat := 3
def biosMemEnd : BitVec 32 := 0x4FF
def baseMemTop : BitVec 32 := 0x90000
def upperMemEnd : BitVec 32 := 0xFFFFF

def lastClick (virAddr bytes : BitVec 32) : BitVec 32 := (virAddr + bytes - 1) >>> 12

def umapSeg (memmap : Seg → MemMap) (seg : Seg) (vc : BitVec 32) : Seg :=
  if seg ≠ .T then if vc < (memmap .D).memVir + (memmap .D).memLen then .D else .S
  else if (memmap .T).memLen = 0 then .D
  else seg

def umapLocal (memmap : Seg → MemMap) (seg : Seg) (virAddr bytes : BitVec 32) : BitVec 32 :=
  if bytes = 0 then 0
  else if virAddr + bytes ≤ virAddr then 0
  else
    let vc := lastClick virAddr bytes
    let m := memmap (umapSeg memmap seg vc)
    if virAddr >>> 12 ≥ m.memVir + m.memLen then 0
    else if vc ≥ m.memVir + m.memLen then 0
    else m.memPhys <<< 12 + (virAddr - m.memVir <<< 12)

def umapRemote (farmem : Fin nrRemoteSegs → FarMem) (seg : Int) (virAddr bytes : BitVec 32) :
    BitVec 32 :=
  if bytes = 0 then 0
  else if h : 0 ≤ seg ∧ seg < nrRemoteSegs then
    let fm := farmem ⟨seg.toNat, by omega⟩
    if !fm.inUse then 0
    else if virAddr + bytes > fm.memLen then 0
    else fm.memPhys + virAddr
  else 0

/-- The BIOS memory starts at 0. -/
def umapBios (virAddr bytes : BitVec 32) : BitVec 32 :=
  if 0 ≤ virAddr ∧ virAddr + bytes ≤ biosMemEnd then virAddr
  else if baseMemTop ≤ virAddr ∧ virAddr + bytes ≤ upperMemEnd then virAddr
  else 0

/-- Every byte of the range lies between two addresses, and the range does not run over. -/
def Within (first stop : Nat) (virAddr bytes : BitVec 32) : Prop :=
  first ≤ virAddr.toNat ∧ virAddr.toNat + bytes.toNat ≤ stop

def InSegment (m : MemMap) : BitVec 32 → BitVec 32 → Prop :=
  Within (m.memVir.toNat * 4096) ((m.memVir.toNat + m.memLen.toNat) * 4096)

variable {virAddr bytes : BitVec 32}

lemma umapLocal_inSegment {memmap : Seg → MemMap} {seg : Seg}
    (h : umapLocal memmap seg virAddr bytes ≠ 0) :
    InSegment (memmap (umapSeg memmap seg (lastClick virAddr bytes))) virAddr bytes ↔
      (memmap (umapSeg memmap seg (lastClick virAddr bytes))).memVir ≤ virAddr >>> 12 := by
  unfold umapLocal at h
  simp only at h
  generalize memmap (umapSeg memmap seg (lastClick virAddr bytes)) = m at h ⊢
  split_ifs at h with hzero hover hfirst hlast
  any_goals exact absurd rfl h
  unfold lastClick at hlast
  unfold InSegment Within
  bv_omega

lemma within_iff {a stop : BitVec 32} (ha : a ≤ virAddr) (hstop : virAddr + bytes ≤ stop) :
    Within a.toNat stop.toNat virAddr bytes ↔ virAddr.toNat + bytes.toNat < 2 ^ 32 := by
  unfold Within
  bv_omega

/-- A range that one of the three accepts lies where it should, exactly when it does not start below
the segment that `umap_local` has picked and when its end, as the other two compute it, does not run
over. -/
theorem umap_within_iff (virAddr bytes : BitVec 32) :
    (∀ memmap seg, umapLocal memmap seg virAddr bytes ≠ 0 →
      (InSegment (memmap (umapSeg memmap seg (lastClick virAddr bytes))) virAddr bytes ↔
        (memmap (umapSeg memmap seg (lastClick virAddr bytes))).memVir ≤ virAddr >>> 12)) ∧
    (∀ farmem seg, umapRemote farmem seg virAddr bytes ≠ 0 → ∃ i : Fin nrRemoteSegs, i.val = seg ∧
      (farmem i).inUse = true ∧
      (Within 0 (farmem i).memLen.toNat virAddr bytes ↔ virAddr.toNat + bytes.toNat < 2 ^ 32)) ∧
    (umapBios virAddr bytes ≠ 0 → (Within 0 biosMemEnd.toNat virAddr bytes ∨
      Within baseMemTop.toNat upperMemEnd.toNat virAddr bytes ↔
        virAddr.toNat + bytes.toNat < 2 ^ 32)) := by
  refine ⟨fun _ _ => umapLocal_inSegment, fun farmem seg h => ?_, fun h => ?_⟩
  · unfold umapRemote at h
    simp only at h
    split_ifs at h with hzero hseg huse hlen
    any_goals exact absurd rfl h
    refine ⟨⟨seg.toNat, by omega⟩, Int.toNat_of_nonneg hseg.1, by simpa using huse, ?_⟩
    exact within_iff (a := 0) (by bv_omega) (BitVec.not_lt.mp hlen)
  · have hwithin : Within 0 biosMemEnd.toNat virAddr bytes ∨
      Within baseMemTop.toNat upperMemEnd.toNat virAddr bytes →
        virAddr.toNat + bytes.toNat < 2 ^ 32 := by
      rintro (hin | hin)
      · exact Nat.lt_of_le_of_lt hin.2 biosMemEnd.isLt
      · exact Nat.lt_of_le_of_lt hin.2 upperMemEnd.isLt
    refine ⟨hwithin, fun hsum => ?_⟩
    unfold umapBios at h
    split_ifs at h with hbios hupper
    · exact .inl ((within_iff hbios.1 hbios.2).mpr hsum)
    · exact .inr ((within_iff hupper.1 hupper.2).mpr hsum)
    · exact absurd rfl h

/-- Sixteen clicks of text and data, and a click of stack far above them. -/
def gapped : Seg → MemMap
  | .S => ⟨0x1000, 0x1800, 1⟩
  | _ => ⟨0, 0x800, 16⟩

/-- Ranges in the stack, in a remote segment and in the upper memory. -/
theorem umap_within_stack : InSegment (gapped .S) 0x1000010 16 ∧
    (∃ i : Fin nrRemoteSegs, i.val = 0 ∧ Within 0 0x1000 0x10 0x20) ∧
    (Within 0 biosMemEnd.toNat 0xA0000 16 ∨
      Within baseMemTop.toNat upperMemEnd.toNat 0xA0000 16) := by
  obtain ⟨i, hi, -, hremote⟩ :=
    (umap_within_iff 0x10 0x20).2.1 (fun _ => ⟨true, 0xA0000, 0x1000⟩) 0 (by decide)
  exact ⟨((umap_within_iff 0x1000010 16).1 gapped .D (by decide)).mpr (by decide),
    ⟨i, by exact_mod_cast hi, hremote.mpr (by decide)⟩,
      ((umap_within_iff 0xA0000 16).2.2 (by decide)).mpr (by decide)⟩

/-- A range between the data and the stack is taken for one of the stack, and a range whose end runs
over for one that ends low. -/
theorem umap_outside : (umapLocal gapped .D 0x20000 4 = 0x820000 ∧ ∀ seg,
    ¬ InSegment (gapped seg) 0x20000 4) ∧
    (umapRemote (fun _ => ⟨true, 0xA0000, 0x1000⟩) 0 0xFFFFFFF0 0x20 = 0x9FFF0 ∧
      ¬ Within 0 0x1000 0xFFFFFFF0 0x20) ∧
    (umapBios 0xFFFFFFF0 0x20 = 0xFFFFFFF0 ∧ ¬ Within 0 biosMemEnd.toNat 0xFFFFFFF0 0x20 ∧
      ¬ Within baseMemTop.toNat upperMemEnd.toNat 0xFFFFFFF0 0x20) := by
  refine ⟨⟨by decide, fun seg => ?_⟩, ⟨by decide, by unfold Within; decide⟩, by decide,
    by unfold Within; decide, by unfold Within; decide⟩
  unfold InSegment Within
  cases seg <;> decide

end Nucleos.Kernel
