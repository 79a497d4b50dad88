import Nucleos.Vm.Update

/-!
# Faults, requests and unmapping as updates

The loops over the tree of a region. Each lemma follows its loop: it says where in the tree the
loop is, and that what it does to the blocks is a sequence of updates.
-/

namespace Nucleos.Vm

open IntrusiveList Sharing Run Relation

variable {s t u : State} {K : RegionId → Prop} {p : ProcId} {r : RegionId} {pr : PhysId} {b : Nat}
    {ok : Bool} {h : Heap}

lemma maxOf_toNat (a b : BitVec 32) : (maxOf a b).toNat = max a.toNat b.toNat := by
  unfold maxOf
  split_ifs with h <;> rw [gt_iff_lt, BitVec.lt_def] at h <;> omega

lemma minOf_toNat (a b : BitVec 32) : (minOf a b).toNat = min a.toNat b.toNat := by
  unfold minOf
  split_ifs with h <;> rw [BitVec.lt_def] at h <;> omega

lemma Heap.Fits.toNat_stop (hf : h.Fits r pr) :
    ((h.physr pr).offset + (h.blockOf pr).length).toNat = h.stop pr := by
  have hle := hf.le
  have hbound := (h.region r).length.isLt
  unfold Heap.stop Heap.start at hle ⊢
  rw [BitVec.toNat_add]
  exact Nat.mod_eq_of_lt (by omega)

lemma Heap.Tree.start_le (ht : h.Tree r) (l₁ : List PhysId) {l₂ : List PhysId} {x y : PhysId}
    (hsplit : (h.region r).phys = l₁ ++ x :: l₂) (hy : y ∈ x :: l₂) : h.start x ≤ h.start y := by
  rcases List.mem_cons.mp hy with rfl | hy
  · exact Nat.le_refl _
  have hx : x ∈ (h.region r).phys := by simp [hsplit]
  have hlaid := ht.laid
  rw [hsplit, List.pairwise_append, List.pairwise_cons] at hlaid
  exact Nat.le_of_lt (Nat.lt_of_lt_of_le (ht.fits x hx).pos (hlaid.2.1.1 y hy))

lemma Heap.Tree.stop_le (ht : h.Tree r) {l₁ l₂ : List PhysId} {x : PhysId}
    (hsplit : (h.region r).phys = l₁ ++ x :: l₂) :
    ∀ y ∈ l₁ ++ [x], h.stop y ≤ h.stop x := by
  have hlaid := ht.laid
  have hpos := (ht.fits x (by simp [hsplit])).pos
  rw [hsplit, List.pairwise_append] at hlaid
  exact List.forall_mem_append.mpr
    ⟨fun y hy => Nat.le_trans (hlaid.2.2 y hy x (.head _)) (Nat.le_of_lt hpos),
      List.forall_mem_singleton.mpr (Nat.le_refl _)⟩

def Works (r : RegionId) (b : Nat) (s : State) (ok : Bool) (t : State) : Prop :=
  Updates r b True s t ∧ (ok = false → s.denied < t.denied)

lemma Updates.works (h : Updates r b True s u) (h' : Works r b u ok t) : Works r b s ok t :=
  ⟨h.trans h'.1, fun hf => Nat.lt_of_le_of_lt h.denied (h'.2 hf)⟩

section Range
variable {offset length : BitVec 32} {write : Bool} {l₁ l₂ : List PhysId} {a : Option PhysId}

lemma rangeStart_dvd {h : Heap} (ht : h.Tree r) (hoff : 4096 ∣ offset.toNat)
    (ha : ∀ x ∈ a, x ∈ (h.region r).phys) :
    4096 ∣ (h.rangeStart offset a).toNat := by
  cases a with
  | none => exact hoff
  | some x =>
    have hf := ht.fits x (ha x rfl)
    rw [Heap.rangeStart, maxOf_toNat, hf.toNat_stop]
    rcases Nat.le_total offset.toNat (h.stop x) with hle | hle
    · rw [Nat.max_eq_right hle]
      exact hf.stop_dvd
    · rw [Nat.max_eq_left hle]
      exact hoff

lemma rangeEnd_spec {h : Heap} (ht : h.Tree r) (hsplit : (h.region r).phys = l₁ ++ l₂) (fin : BitVec 32)
    (hfin : 4096 ∣ fin.toNat) :
    4096 ∣ (h.rangeEnd fin l₂.head?).toNat ∧ (h.rangeEnd fin l₂.head?).toNat ≤ fin.toNat ∧
      ∀ y ∈ l₂, (h.rangeEnd fin l₂.head?).toNat ≤ h.start y := by
  cases l₂ with
  | nil => exact ⟨hfin, Nat.le_refl _, nofun⟩
  | cons x l₂ =>
    have hx : x ∈ (h.region r).phys := by simp [hsplit]
    rw [List.head?_cons, Heap.rangeEnd, minOf_toNat]
    refine ⟨?_, Nat.min_le_left _ _, fun y hy =>
      Nat.le_trans (Nat.min_le_right _ _) (ht.start_le l₁ hsplit hy)⟩
    rcases Nat.le_total fin.toNat (h.physr x).offset.toNat with hle | hle
    · rw [Nat.min_eq_left hle]
      exact hfin
    · rw [Nat.min_eq_right hle]
      exact (ht.fits x hx).start_dvd

/-! ## Memory requests -/

lemma Site.shared (hs : Site K p r s) (hpr : pr ∈ (s.heap.region r).phys)
    (hflags : (s.heap.region r).flags &&& vrWritable ≠ 0)
    (hnot : ¬ writable (s.heap.region r) (s.heap.blockOf pr) = true) :
    1 < (s.heap.blockOf pr).refcount.toNat := by
  have hpos : 0 < (s.heap.blockOf pr).refcount.toNat := hs.sound.exact.pos ⟨r, hs.mem, hpr⟩
  have hone : (s.heap.blockOf pr).refcount ≠ 1 := by
    intro hone
    apply hnot
    simp only [writable, hone, Bool.or_eq_true, Bool.and_eq_true, bne_iff_ne, beq_self_eq_true, and_true]
    exact .inr hflags
  have hne : (s.heap.blockOf pr).refcount.toNat ≠ 1 := fun heq => hone (BitVec.eq_of_toNat_eq heq)
  omega

lemma handleBlock_updates {write : Bool} {n : Nat} (hs : Site K p r s) (hpr : pr ∈ (s.heap.region r).phys)
    (hwr : write = true → (s.heap.region r).flags &&& vrWritable ≠ 0)
    (h : handleBlock p r write pr s = .ok (ok, n, t)) :
    Works r b s ok t ∧ (t.heap.region r).phys = (s.heap.region r).phys := by
  unfold handleBlock at h
  cases write with
  | false =>
    cases h
    exact ⟨⟨.refl, nofun⟩, rfl⟩
  | true =>
    rw [if_pos rfl] at h
    split_ifs at h with hnot
    · cases hw : mapPhWritept p r pr s with
      | mk got s₁ =>
        rw [hw] at h
        cases h
        refine ⟨mapPhWritept_updates hs.parent hpr hw, ?_⟩
        rcases mapPhWritept_aside hw with ⟨-, ha⟩ | ⟨-, ha, -⟩
        · rw [ha.heap]
          rfl
        · rw [ha.heap]
    · obtain ⟨⟨got, s₁⟩, hc, h⟩ := bind_eq_ok.mp h
      cases h
      exact ⟨mapCopyPhBlock_updates hs.parent hpr trivial (hs.shared hpr (hwr rfl) hnot) hc,
        by rw [(mapCopyPhBlock_heap hc).1]⟩

/-- The nodes a request starts with: those before them lie below the first, and that one is at or
below the request when it is not the first of the tree. -/
theorem fromLessEqual_spec (h : Heap) (offset : BitVec 32) (l : List PhysId) :
    ∃ l₁, l = l₁ ++ h.fromLessEqual offset l ∧
      (l₁ ≠ [] → ∃ x l₂, h.fromLessEqual offset l = x :: l₂ ∧ (h.physr x).offset ≤ offset) := by
  induction l with
  | nil => exact ⟨[], rfl, fun hne => absurd rfl hne⟩
  | cons x rest ih =>
    cases rest with
    | nil => exact ⟨[], rfl, fun hne => absurd rfl hne⟩
    | cons y rest =>
      rw [Heap.fromLessEqual]
      split_ifs with hle
      · obtain ⟨l₁, hl, hfirst⟩ := ih
        refine ⟨x :: l₁, by rw [List.cons_append, ← hl], fun _ => ?_⟩
        cases l₁ with
        | nil => exact ⟨y, rest, hl.symm, hle⟩
        | cons z l₁ => exact hfirst (List.cons_ne_nil z l₁)
      · exact ⟨[], rfl, fun hne => absurd rfl hne⟩

variable (hs : Site K p r s) (hin : offset.toNat + length.toNat ≤ (s.heap.region r).length.toNat)
    (hoff : 4096 ∣ offset.toNat)
  (hlen : 4096 ∣ length.toNat)
include hs hin hoff hlen

lemma freeRangeHere_updates {n : Nat} (hsplit : (s.heap.region r).phys = l₁ ++ l₂)
    (ha : ∀ x ∈ a, x ∈ (s.heap.region r).phys)
    (hleft : ∀ x ∈ l₁, s.heap.stop x ≤ (s.heap.rangeStart offset a).toNat)
    (h : freeRangeHere p r offset length a l₂.head? s = (ok, n, t)) :
    Works r b s ok t ∧ ∃ l, (t.heap.region r).phys = l₁ ++ l ++ l₂ := by
  have hbound := (s.heap.region r).length.isLt
  have hsum : (offset + length).toNat = offset.toNat + length.toNat := by
    rw [BitVec.toNat_add]
    exact Nat.mod_eq_of_lt (by omega)
  obtain ⟨hdvd, hle, hright⟩ := rangeEnd_spec hs.tree hsplit (offset + length) (hsum ▸ Nat.dvd_add hoff hlen)
  have hsdvd := rangeStart_dvd hs.tree hoff ha
  unfold freeRangeHere at h
  simp only at h
  split_ifs at h with hlt
  · rw [BitVec.lt_def] at hlt
    have hsub : (s.heap.rangeEnd (offset + length) l₂.head? - s.heap.rangeStart offset a).toNat =
        (s.heap.rangeEnd (offset + length) l₂.head?).toNat - (s.heap.rangeStart offset a).toNat :=
      BitVec.toNat_sub_of_le (BitVec.le_def.mpr (Nat.le_of_lt hlt))
    have hgap : s.heap.Gap r (s.heap.rangeStart offset a)
        (s.heap.rangeEnd (offset + length) l₂.head? - s.heap.rangeStart offset a) l₁ l₂ := by
      refine ⟨hsplit, hleft, fun y hy => ?_, ?_, ?_, hsdvd, ?_⟩
      · have hy := hright y hy
        omega
      · omega
      · omega
      · rw [hsub]
        exact Nat.dvd_sub hdvd hsdvd
    rcases hnew : mapNewPhysblock p r (s.heap.rangeStart offset a)
        (s.heap.rangeEnd (offset + length) l₂.head? - s.heap.rangeStart offset a) mapNone s with ⟨new, s₁⟩
    rw [hnew] at h
    obtain ⟨hup, hden, hphys⟩ := mapNewPhysblock_updates (b := b) hs.parent hs.tree trivial hgap hnew
    cases new with
    | none =>
      cases h
      exact ⟨⟨hup, fun _ => hden rfl⟩, hphys⟩
    | some new =>
      cases h
      exact ⟨⟨hup, nofun⟩, hphys⟩
  · cases h
    exact ⟨⟨.refl, nofun⟩, [], by rw [List.append_nil, hsplit]⟩

lemma handleBlocks_updates {l₁ l : List PhysId} {n m : Nat}
    (hwr : write = true → (s.heap.region r).flags &&& vrWritable ≠ 0)
    (hsplit : (s.heap.region r).phys = l₁ ++ l)
    (h : handleBlocks p r offset length write l n s = .ok (ok, m, t)) :
    Works r b s ok t := by
  -- the nodes still to come are the end of the tree, whatever was put in before them
  induction l generalizing s l₁ n with
  | nil =>
    cases h
    exact ⟨.refl, nofun⟩
  | cons pr rest ih =>
    have hpr : pr ∈ (s.heap.region r).phys := by simp [hsplit]
    rw [handleBlocks] at h
    obtain ⟨⟨got, k, s₁⟩, hblock, h⟩ := bind_eq_ok.mp h
    obtain ⟨hw₁, hphys₁⟩ := handleBlock_updates (b := b) hs hpr hwr hblock
    have hup₁ := hw₁.1
    have hs₁ := hup₁.site hs
    rw [hsplit] at hphys₁
    cases got with
    | false =>
      cases h
      exact hw₁
    | true =>
      simp only [if_true] at h
      have hsplit₁ : (s₁.heap.region r).phys = (l₁ ++ [pr]) ++ rest := by simpa using hphys₁
      have hpr₁ : pr ∈ (s₁.heap.region r).phys := by simp [hphys₁]
      have hin₁ : offset.toNat + length.toNat ≤ (s₁.heap.region r).length.toNat := by
        rw [hup₁.length]
        exact hin
      have hleft : ∀ x ∈ l₁ ++ [pr], s₁.heap.stop x ≤ (s₁.heap.rangeStart offset (some pr)).toNat := by
        have hf := hs₁.tree.fits pr hpr₁
        intro x hx
        rw [Heap.rangeStart, maxOf_toNat, hf.toNat_stop]
        exact Nat.le_trans (hs₁.tree.stop_le hphys₁ x hx) (Nat.le_max_right _ _)
      rcases hrange : freeRangeHere p r offset length (some pr) rest.head? s₁ with ⟨got₂, k₂, s₂⟩
      rw [hrange] at h
      obtain ⟨hw₂, l, hphys₂⟩ := freeRangeHere_updates (b := b) hs₁ hin₁ hoff hlen hsplit₁
        (fun x hx => Option.mem_some.mp hx ▸ hpr₁) hleft hrange
      have hup : Updates r b True s s₂ := hup₁.trans hw₂.1
      cases got₂ with
      | false =>
        cases h
        exact hup₁.works hw₂
      | true =>
        cases rest with
        | nil =>
          cases h
          exact ⟨hup, nofun⟩
        | cons x rest =>
          simp only at h
          split at h
          · cases h
            exact ⟨hup, nofun⟩
          · exact hup.works (ih (hup.site hs) (by rw [hup.length]; exact hin)
              (by rw [hup.flags]; exact hwr) hphys₂ h)

lemma passFirst_updates {l₁ nodes nodes' : List PhysId} {n : Nat}
    (hsplit : (s.heap.region r).phys = l₁ ++ nodes)
    (h : passFirst p r offset length nodes s = (ok, n, nodes', t)) :
    Works r b s ok t ∧ ∃ l₂, (t.heap.region r).phys = l₂ ++ nodes' := by
  have hsame : ∀ {nodes}, (s.heap.region r).phys = l₁ ++ nodes → (true, 0, nodes, s) = (ok, n, nodes', t) →
      Works r b s ok t ∧ ∃ l₂, (t.heap.region r).phys = l₂ ++ nodes' := by
    intro nodes hsplit h
    simp only [Prod.mk.injEq] at h
    obtain ⟨rfl, -, rfl, rfl⟩ := h
    exact ⟨⟨.refl, nofun⟩, l₁, hsplit⟩
  cases nodes with
  | nil => exact hsame hsplit h
  | cons x rest =>
    unfold passFirst at h
    simp only at h
    split_ifs at h with hle
    · cases hrange : freeRangeHere p r offset length none rest.head? s with
      | mk got rest₁ =>
      obtain ⟨k, s₁⟩ := rest₁
      rw [hrange] at h
      simp only [Prod.mk.injEq] at h
      obtain ⟨rfl, -, rfl, rfl⟩ := h
      have hx : x ∈ (s.heap.region r).phys := by simp [hsplit]
      rw [BitVec.le_def, (hs.tree.fits x hx).toNat_stop] at hle
      have hleft : ∀ y ∈ l₁ ++ [x], s.heap.stop y ≤ offset.toNat :=
        fun y hy => Nat.le_trans (hs.tree.stop_le hsplit y hy) hle
      have hsplit' : (s.heap.region r).phys = (l₁ ++ [x]) ++ rest := by simpa using hsplit
      obtain ⟨hw, l, hphys⟩ := freeRangeHere_updates (b := b) (a := none) hs hin hoff hlen hsplit'
        nofun hleft hrange
      exact ⟨hw, _, hphys⟩
    · exact hsame hsplit h

lemma mapHandleMemory_updates (hwr : write = true → (s.heap.region r).flags &&& vrWritable ≠ 0)
    (h : mapHandleMemory p r offset length write s = .ok (ok, t)) :
    Works r b s ok t := by
  obtain ⟨l₁, hsplit, hfirst⟩ := fromLessEqual_spec s.heap offset (s.heap.region r).phys
  unfold mapHandleMemory at h
  simp only at h
  generalize s.heap.fromLessEqual offset (s.heap.region r).phys = nodes at h hsplit hfirst
  have hleft : ∀ x ∈ l₁, s.heap.stop x ≤ offset.toNat := by
    intro x hx
    obtain ⟨y, l₂, rfl, hy⟩ := hfirst (List.ne_nil_of_mem hx)
    have hlaid := hs.tree.laid
    rw [hsplit, List.pairwise_append] at hlaid
    exact Nat.le_trans (hlaid.2.2 x hx y (.head _)) (BitVec.le_def.mp hy)
  rcases hrange : freeRangeHere p r offset length none nodes.head? s with ⟨got, k₁, s₁⟩
  rw [hrange] at h
  obtain ⟨hw₁, new, hphys₁⟩ := freeRangeHere_updates (b := b) (a := none) hs hin hoff hlen hsplit
    nofun hleft hrange
  have hup₁ := hw₁.1
  cases got with
  | false =>
    cases h
    exact hw₁
  | true =>
  simp only at h
  rcases hpass : passFirst p r offset length nodes s₁ with ⟨got, k₂, nodes₂, s₂⟩
  rw [hpass] at h
  obtain ⟨hw₂, l₂, hphys₂⟩ := passFirst_updates (b := b) (hup₁.site hs)
    (by rw [hup₁.length]; exact hin) hoff hlen hphys₁ hpass
  have hup : Updates r b True s s₂ := hup₁.trans hw₂.1
  cases got with
  | false =>
    cases h
    exact hup₁.works hw₂
  | true =>
  obtain ⟨⟨got, changes, s₃⟩, hblocks, h⟩ := bind_eq_ok.mp h
  have hw₃ := hup.works <| handleBlocks_updates (b := b) (hup.site hs)
    (by rw [hup.length]; exact hin) hoff hlen
    (by rw [hup.flags]; exact hwr) hphys₂ hblocks
  cases got with
  | false =>
    cases h
    exact hw₃
  | true =>
    simp only [if_true] at h
    split at h
    · nomatch h
    · cases h
      exact hw₃

end Range

/-! ## Page faults -/

lemma Heap.Tree.filter_split (ht : h.Tree r) (offset : BitVec 32) :
    ∃ l₂, (h.region r).phys = ((h.region r).phys.filter fun x => (h.physr x).offset ≤ offset) ++ l₂ ∧
      ∀ y ∈ l₂, offset.toNat < h.start y := by
  have hmono : (h.region r).phys.Pairwise fun x y => h.start x < h.start y :=
    ht.laid.imp_of_mem fun {x y} hx _ hxy => Nat.lt_of_lt_of_le (ht.fits x hx).pos hxy
  generalize (h.region r).phys = l at hmono ⊢
  clear ht
  induction l with
  | nil => exact ⟨[], rfl, nofun⟩
  | cons x l ih =>
    obtain ⟨hx, hl⟩ := List.pairwise_cons.mp hmono
    by_cases hle : (h.physr x).offset ≤ offset
    · obtain ⟨l₂, hsplit, hright⟩ := ih hl
      refine ⟨l₂, ?_, hright⟩
      rw [List.filter_cons_of_pos (by simpa using hle), List.cons_append, ← hsplit]
    rw [BitVec.le_def, Nat.not_le] at hle
    have hright : ∀ y ∈ x :: l, offset.toNat < h.start y :=
      List.forall_mem_cons.mpr ⟨hle, fun y hy => Nat.lt_trans hle (hx y hy)⟩
    refine ⟨x :: l, ?_, hright⟩
    rw [List.filter_eq_nil_iff.mpr fun y hy => ?_, List.nil_append]
    simp only [decide_eq_true_eq, BitVec.le_def, Nat.not_le]
    exact hright y hy

lemma vmPageSize_toNat : vmPageSize.toNat = 4096 := rfl

lemma toNat_virpage (offset : BitVec 32) :
    (offset - offset % vmPageSize).toNat = offset.toNat - offset.toNat % 4096 := by
  have hmod : (offset % vmPageSize).toNat = offset.toNat % 4096 := by
    rw [BitVec.toNat_umod, vmPageSize_toNat]
  rw [BitVec.toNat_sub_of_le, hmod]
  rw [BitVec.le_def, hmod]
  exact Nat.mod_le _ _

lemma Heap.Tree.gap_virpage (ht : h.Tree r) {offset : BitVec 32} (hin : offset < (h.region r).length)
    (hnone : ∀ pr, h.physrLessEqual offset (h.region r).phys = some pr →
      ¬ offset < (h.physr pr).offset + (h.blockOf pr).length) :
    ∃ l₁ l₂, h.Gap r (offset - offset % vmPageSize) vmPageSize l₁ l₂ := by
  obtain ⟨l₂, hsplit, hright⟩ := ht.filter_split offset
  have hfits : ∀ x ∈ (h.region r).phys.filter fun x => (h.physr x).offset ≤ offset, h.Fits r x := fun x hx =>
    ht.fits x (List.mem_filter.mp hx).1
  refine ⟨_, l₂, hsplit, fun x hx => ?_, fun y hy => ?_, ?_, ?_, ?_, ?_⟩
  · obtain ⟨y, hlast⟩ := Option.ne_none_iff_exists'.mp fun hn =>
      List.ne_nil_of_mem hx (List.getLast?_eq_none_iff.mp hn)
    have hend := hnone y hlast
    rw [BitVec.lt_def, (hfits y (List.mem_of_getLast? hlast)).toNat_stop, Nat.not_lt] at hend
    obtain ⟨l, hl⟩ := List.getLast?_eq_some_iff.mp hlast
    rw [hl, List.append_assoc, List.singleton_append] at hsplit
    have hxy := ht.stop_le hsplit x (hl ▸ hx)
    have hd := (hfits x hx).stop_dvd
    rw [toNat_virpage]
    omega
  · have hlt := hright y hy
    have hd := (ht.fits y (by rw [hsplit]; exact List.mem_append_right _ hy)).start_dvd
    rw [toNat_virpage, vmPageSize_toNat]
    omega
  · rw [vmPageSize_toNat]
    omega
  · rw [BitVec.lt_def] at hin
    have hd := ht.dvd
    rw [toNat_virpage, vmPageSize_toNat]
    omega
  · rw [toNat_virpage]
    omega
  · exact Nat.dvd_refl 4096

def FaultOk (h : Heap) (r : RegionId) (offset : BitVec 32) : Prop :=
  offset < (h.region r).length ∧
    ∀ pr, h.physrLessEqual offset (h.region r).phys = some pr →
      offset < (h.physr pr).offset + (h.blockOf pr).length →
      (h.region r).flags &&& vrWritable ≠ 0

lemma mapPf_updates {offset : BitVec 32} (hs : Site K p r s) (hf : FaultOk s.heap r offset)
    (h : mapPf p r offset s = .ok (ok, t)) : Works r b s ok t := by
  unfold mapPf at h
  simp only at h
  cases hcov : (s.heap.physrLessEqual offset (s.heap.region r).phys).filter fun pr =>
      offset < (s.heap.physr pr).offset + (s.heap.blockOf pr).length with
  | some pr =>
    rw [hcov] at h
    obtain ⟨hle, hlt⟩ := Option.filter_eq_some_iff.mp hcov
    have hpr : pr ∈ (s.heap.region r).phys := (List.mem_filter.mp (List.mem_of_getLast? hle)).1
    rcases ite_eq_iff.mp h with ⟨_, h⟩ | ⟨hnot, h⟩
    · exact mapPhWritept_updates hs.parent hpr (Except.ok.inj h)
    · exact mapCopyPhBlock_updates hs.parent hpr trivial
        (hs.shared hpr (hf.2 pr hle (of_decide_eq_true hlt)) hnot) h
  | none =>
    rw [hcov] at h
    have hnone : ∀ pr, s.heap.physrLessEqual offset (s.heap.region r).phys = some pr →
        ¬ offset < (s.heap.physr pr).offset + (s.heap.blockOf pr).length := by
      intro pr hpr hlt
      rw [hpr, Option.filter_some, if_pos (decide_eq_true hlt)] at hcov
      nomatch hcov
    obtain ⟨l₁, l₂, hgap⟩ := hs.tree.gap_virpage hf.1 hnone
    rcases hnew : mapNewPhysblock p r (offset - offset % vmPageSize) vmPageSize mapNone s with ⟨new, s₁⟩
    rw [hnew] at h
    obtain ⟨hup, hden, -⟩ := mapNewPhysblock_updates (b := b) hs.parent hs.tree trivial hgap hnew
    cases new with
    | none =>
      cases h
      exact ⟨hup, fun _ => hden rfl⟩
    | some new =>
      cases h
      exact ⟨hup, nofun⟩

/-! ## Unmapping -/

section Subfree
variable {len : BitVec 32} {A : Prop} {l : List PhysId}

lemma subfreeFrom_above {cut : Bool} (hl : ∀ x ∈ l, len.toNat ≤ s.heap.start x) :
    subfreeFrom p r len l cut s = .ok (true, s) := by
  cases l with
  | nil => rfl
  | cons x rest =>
    have hx : (s.heap.physr x).offset ≥ len := BitVec.le_def.mpr (hl x (.head _))
    rw [subfreeFrom, if_pos hx]

lemma Updates.cutBlock {sublen : BitVec 32} (hpr : pr ∈ (s.heap.region r).phys)
    (hone : (s.heap.blockOf pr).refcount = 1)
    (hdvd : 4096 ∣ sublen.toNat) (hlt : s.heap.start pr + sublen.toNat < s.heap.stop pr)
    (hb : s.heap.start pr + sublen.toNat ≤ b) : Updates r b A s (s.cutBlock r pr sublen) :=
  .single (.cut hpr hone hdvd hlt hb)

lemma cut_ends {rest : List PhysId} (hs : Site K p r s) (hphys : (s.heap.region r).phys = pr :: rest)
    (hone : (s.heap.blockOf pr).refcount = 1) (hdvd : 4096 ∣ len.toNat) (hstart : s.heap.start pr < len.toNat)
    (hstop : len.toNat < s.heap.stop pr) (h : subfreeFrom p r len rest true
      (s.cutBlock r pr (len - (s.heap.physr pr).offset)) = .ok (ok, t)) :
    Updates r len.toNat A s t ∧ ok = true ∧ ∀ x ∈ (t.heap.region r).phys, len.toNat ≤ t.heap.start x := by
  have hpr : pr ∈ (s.heap.region r).phys := hphys ▸ List.mem_cons_self
  have hf := hs.tree.fits pr hpr
  have hsub : (len - (s.heap.physr pr).offset).toNat = len.toNat - s.heap.start pr :=
    BitVec.toNat_sub_of_le (BitVec.le_def.mpr (Nat.le_of_lt hstart))
  have hlt : s.heap.start pr + (len - (s.heap.physr pr).offset).toNat < s.heap.stop pr := by omega
  have hup : Updates r len.toNat A s (s.cutBlock r pr (len - (s.heap.physr pr).offset)) := by
    refine Updates.cutBlock hpr hone ?_ hlt (by omega)
    rw [hsub]
    exact Nat.dvd_sub hdvd hf.start_dvd
  have hs₁ := hup.site hs
  generalize hs₁eq : s.cutBlock r pr (len - (s.heap.physr pr).offset) = s₁ at h hup hs₁
  have hheap : s₁.heap = s.heap.cutFront pr (len - (s.heap.physr pr).offset) := by
    rw [← hs₁eq, cutBlock_heap]
  have hfirst : s₁.heap.start pr = len.toNat := by
    rw [hheap, (hf.cutFront_self hlt).1]
    omega
  have hphys₁ : (s₁.heap.region r).phys = [] ++ pr :: rest := by
    rw [hheap]
    exact hphys
  have hall : ∀ x ∈ pr :: rest, len.toNat ≤ s₁.heap.start x := by
    intro x hx
    rw [← hfirst]
    exact hs₁.tree.start_le _ hphys₁ hx
  rw [subfreeFrom_above fun x hx => hall x (List.mem_cons_of_mem pr hx)] at h
  cases h
  refine ⟨hup, rfl, fun x hx => hall x ?_⟩
  rw [hphys₁] at hx
  exact hx

lemma pbUnreferenced_drop (hphys : (s.heap.region r).phys = pr :: l)
    (hstop : s.heap.stop pr ≤ b) (h : pbUnreferenced r pr s = .ok t) :
    Updates r b A s (t.modHeap fun h => h.removePhys r pr) ∧
      ((t.modHeap fun h => h.removePhys r pr).heap.region r).phys = l := by
  have hpr : pr ∈ (s.heap.region r).phys := hphys ▸ List.mem_cons_self
  obtain ⟨c, hc, ha⟩ := pbUnreferenced_ok h
  refine ⟨.tail (.single (.drop hpr hc hstop)) (.aside (ha.modHeap _)), ?_⟩
  rw [ha.removed, removePhys_phys, if_pos rfl, unref_region, hphys, List.erase_cons_head]

def Heap.CutsShared (h : Heap) (r : RegionId) (len : BitVec 32) : Prop :=
  ∃ x ∈ (h.region r).phys, h.start x < len.toNat ∧ len.toNat < h.stop x ∧ 1 < (h.blockOf x).refcount.toNat

lemma pbUnreferenced_cuts (hs : Site K p r s) (hphys : (s.heap.region r).phys = pr :: l)
    (h : pbUnreferenced r pr s = .ok t)
    (hcut : (t.modHeap fun h => h.removePhys r pr).heap.CutsShared r len) :
    s.heap.CutsShared r len := by
  obtain ⟨c, hc, ha⟩ := pbUnreferenced_ok h
  obtain ⟨x, hx, hstart, hstop, hshared⟩ := hcut
  rw [ha.removed, removePhys_phys, if_pos rfl, unref_region, hphys, List.erase_cons_head] at hx
  have hxp : x ∈ (s.heap.region r).phys := hphys ▸ .tail pr hx
  rw [ha.removed] at hstart hstop hshared
  obtain ⟨hs₁, hs₂⟩ := unref_shape s.heap c pr x
  refine ⟨x, hxp, hs₁ ▸ hstart, hs₂ ▸ hstop, ?_⟩
  have hcount := (unref_block s.heap c pr (s.heap.physr x).ph).2.2
  have hph : ((s.heap.unref c pr).blockOf x) = (s.heap.unref c pr).block (s.heap.physr x).ph :=
    congrArg _ (unref_physr s.heap c pr x).1
  have hafter : 1 < ((s.heap.unref c pr).blockOf x).refcount.toNat := hshared
  rw [hph, hcount] at hafter
  have hpos : 0 < (s.heap.blockOf x).refcount.toNat := hs.sound.exact.pos ⟨r, hs.mem, hxp⟩
  have hblock : s.heap.blockOf x = s.heap.block (s.heap.physr x).ph := rfl
  rw [hblock] at hpos ⊢
  split_ifs at hafter
  · have hle : (1 : BitVec 8) ≤ (s.heap.block (s.heap.physr x).ph).refcount := BitVec.le_def.mpr hpos
    rw [BitVec.toNat_sub_of_le hle] at hafter
    omega
  · exact hafter

lemma subfreeFrom_updates (hs : Site K p r s) (hdvd : 4096 ∣ len.toNat) (hA : s.heap.CutsShared r len → A)
    (hphys : (s.heap.region r).phys = l) (h : subfreeFrom p r len l false s = .ok (ok, t)) :
    Updates r len.toNat A s t ∧ (ok = true → ∀ x ∈ (t.heap.region r).phys, len.toNat ≤ t.heap.start x) ∧
      (ok = false → A ∧ s.denied < t.denied) := by
  induction l generalizing s with
  | nil =>
    cases h
    refine ⟨.refl, fun _ x hx => ?_, nofun⟩
    rw [hphys] at hx
    exact nomatch hx
  | cons pr rest ih =>
    have hpr : pr ∈ (s.heap.region r).phys := hphys ▸ List.mem_cons_self
    have hf := hs.tree.fits pr hpr
    rw [subfreeFrom] at h
    split at h
    · next hge =>
      cases h
      refine ⟨.refl, fun _ x hx => ?_, nofun⟩
      rw [hphys] at hx
      exact Nat.le_trans (BitVec.le_def.mp hge) (hs.tree.start_le [] hphys hx)
    next hge =>
    have hstart : s.heap.start pr < len.toNat := by
      rw [ge_iff_le, BitVec.le_def, Nat.not_le] at hge
      exact hge
    split at h
    · next hle =>
      rw [BitVec.le_def, hf.toNat_stop] at hle
      obtain ⟨s₁, hun, h⟩ := bind_eq_ok.mp h
      obtain ⟨hup₁, hphys₁⟩ := pbUnreferenced_drop hphys hle hun
      obtain ⟨hup₂, hrest, hden⟩ :=
        ih (hup₁.site hs) (fun hcut => hA (pbUnreferenced_cuts hs hphys hun hcut)) hphys₁ h
      exact ⟨hup₁.trans hup₂, hrest, fun hf => ⟨(hden hf).1, Nat.lt_of_le_of_lt hup₁.denied (hden hf).2⟩⟩
    · next hle =>
      rw [BitVec.le_def, hf.toNat_stop, Nat.not_le] at hle
      obtain ⟨⟨got, s₁⟩, hcopy, h⟩ := bind_eq_ok.mp h
      rcases ite_eq_iff.mp hcopy with ⟨hgt, hcopy⟩ | ⟨hgt, hcopy⟩
      · have hcuts := hA ⟨pr, hpr, hstart, hle, hgt⟩
        obtain ⟨hup₁, hden₁⟩ := mapCopyPhBlock_updates (b := len.toNat) hs.parent hpr hcuts hgt hcopy
        cases got with
        | false =>
          cases h
          exact ⟨hup₁, nofun, fun hf => ⟨hcuts, hden₁ hf⟩⟩
        | true =>
          have hkeep := mapCopyPhBlock_keeps hf hcopy
          obtain ⟨hregion, hone⟩ := mapCopyPhBlock_heap hcopy
          have hoff : (s₁.heap.physr pr).offset = (s.heap.physr pr).offset :=
            BitVec.eq_of_toNat_eq hkeep.start
          simp only [if_true] at h
          rw [← hoff] at h
          obtain ⟨hup₂, rfl, habove⟩ := cut_ends (hup₁.site hs) (by rw [hregion]; exact hphys) (hone rfl) hdvd
            (by rw [hkeep.start]; exact hstart) (by rw [hkeep.stop]; exact hle) h
          exact ⟨hup₁.trans hup₂, fun _ => habove, nofun⟩
      · cases hcopy
        have hone : (s.heap.blockOf pr).refcount = 1 := by
          have hpos : 0 < (s.heap.blockOf pr).refcount.toNat := hs.sound.exact.pos ⟨r, hs.mem, hpr⟩
          rw [gt_iff_lt, BitVec.lt_def, Nat.not_lt] at hgt
          exact BitVec.eq_of_toNat_eq (Nat.le_antisymm hgt hpos)
        simp only [if_true] at h
        obtain ⟨hup₂, rfl, habove⟩ := cut_ends hs hphys hone hdvd hstart hle h
        exact ⟨hup₂, fun _ => habove, nofun⟩

lemma mapFree_updates (hs : Site K p r s) (h : mapFree p r s = .ok (ok, t)) :
    Updates r (s.heap.region r).length.toNat False s t ∧ ok = true ∧ (t.heap.region r).phys = [] := by
  have hwhole : ¬ s.heap.CutsShared r (s.heap.region r).length := by
    rintro ⟨x, hx, -, hlt, -⟩
    exact absurd (hs.tree.fits x hx).le (Nat.not_le.mpr hlt)
  obtain ⟨hup, habove, hfail⟩ := subfreeFrom_updates hs hs.tree.dvd hwhole rfl h
  obtain rfl : ok = true := eq_true_of_ne_false fun hf => (hfail hf).1
  refine ⟨hup, rfl, List.eq_nil_iff_forall_not_mem.mpr fun x hx => ?_⟩
  have hf := (hup.site hs).tree.fits x hx
  have hle := hf.le
  rw [hup.length] at hle
  exact absurd (Nat.lt_of_lt_of_le hf.pos hle) (Nat.not_lt.mpr (habove rfl x hx))

end Subfree

end Nucleos.Vm
