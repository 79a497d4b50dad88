import Nucleos.Kernel.Irq

/-!
# When an interrupt line is masked

Handlers come and go, are enabled and disabled, and are called one after the other when their line
interrupts. A line that has handlers should be masked just while one of them is active or an
interrupt is being handled. Removing a handler masks the line and does not look whether another
handler is left that is not active.
-/

namespace Nucleos.Kernel

open Function IntrusiveList Run

variable {H : Type} [DecidableEq H]

/-- The lines, and the interrupt being handled with the hook that is next. -/
structure IrqMachine (H : Type) where
  irqs : Irqs H
  handling : Option (Irq × Option H)

inductive IrqAct (H : Type) where
  | put (hook : H) (irq : Irq)
  | rm (hook : H)
  | enable (hook : H)
  | disable (hook : H)
  | interrupt (irq : Irq)
  | serve (done : Bool)
  | finish

namespace IrqMachine

/-- The kernel does not do anything else while it handles an interrupt. -/
def step (m : IrqMachine H) : IrqAct H → Except IrqStop (IrqMachine H)
  | .put hook irq => if m.handling.isSome then .error .notNow
      else (m.irqs.putIrqHandler hook irq).map (⟨·, none⟩)
  | .rm hook => if m.handling.isSome then .error .notNow
      else (m.irqs.rmIrqHandler hook).map (⟨·, none⟩)
  | .enable hook => if m.handling.isSome then .error .notNow else .ok ⟨m.irqs.enableIrq hook, none⟩
  | .disable hook => if m.handling.isSome then .error .notNow
      else .ok ⟨(m.irqs.disableIrq hook).2, none⟩
  | .interrupt irq =>
    if m.handling.isSome then .error .notNow else .ok ⟨m.irqs.hwIntrMask irq,
      some (irq, m.irqs.lists.head irq)⟩
  | .serve done =>
    match m.handling with
    | some (irq, some hook) => .ok ⟨m.irqs.serve irq hook done, some (irq, m.irqs.lists.next hook)⟩
    | _ => .error .notNow
  | .finish =>
    match m.handling with
    | some (irq, none) => .ok ⟨m.irqs.reenable irq, none⟩
    | _ => .error .notNow

def Line (m : IrqMachine H) (irq : Irq) (l : List H) : Prop :=
  Links m.irqs.lists.next (m.irqs.lists.read (.head irq)) l

/-- A line with handlers is masked just while one of them is active or an interrupt is handled. -/
def Masking (m : IrqMachine H) : Prop :=
  ∀ irq l, m.Line irq l → l ≠ [] →
    (m.irqs.masked irq = true ↔
      (∃ h ∈ l, m.irqs.actids irq &&& m.irqs.id h ≠ 0) ∨ ∃ next, m.handling = some (irq, next))

structure Start (m : IrqMachine H) : Prop where
  empty : ∀ irq, m.irqs.lists.head irq = none
  idle : ∀ irq, m.irqs.actids irq = 0
  quiet : m.handling = none

/-- A handler goes onto one line only, is used while it is on it, and is removed when it is the last
or when another stays active. -/
def Proper (m : IrqMachine H) : IrqAct H → Prop
  | .put hook irq => ∀ j l, m.Line j l → hook ∈ l → j = irq
  | .rm hook => ∃ l, m.Line (m.irqs.irq hook) l ∧ hook ∈ l ∧
      (l = [hook] ∨ ∃ k ∈ l, k ≠ hook ∧ m.irqs.actids (m.irqs.irq hook) &&& m.irqs.id k ≠ 0)
  | .enable hook => ∃ l, m.Line (m.irqs.irq hook) l ∧ hook ∈ l
  | .disable hook => ∃ l, m.Line (m.irqs.irq hook) l ∧ hook ∈ l
  | _ => True

structure Sound (m : IrqMachine H) (line : Irq → List H) : Prop where
  wired : m.irqs.Wired line
  owned : ∀ {irq i}, (m.irqs.actids irq).getLsbD i = true → ∃ h ∈ line irq,
    (m.irqs.id h).getLsbD i = true
  mask : ∀ irq, line irq ≠ [] → (m.irqs.masked irq = true ↔ m.irqs.actids irq ≠ 0 ∨ ∃ next,
    m.handling = some (irq, next))
  rest : ∀ {irq next}, m.handling = some (irq, next) → ∃ l₁ l₂, line irq = l₁ ++ l₂ ∧
    Links m.irqs.lists.next next l₂

variable {m m' : IrqMachine H} {line : Irq → List H} {hook : H} {irq : Irq} {l : List H}

omit [DecidableEq H] in
lemma Sound.line_eq (hs : m.Sound line) (hl : m.Line irq l) : l = line irq :=
    hl.unique (hs.wired.links irq)

omit [DecidableEq H] in
lemma Sound.active_iff (hs : m.Sound line) (irq : Irq) :
    (∃ h ∈ line irq, m.irqs.actids irq &&& m.irqs.id h ≠ 0) ↔ m.irqs.actids irq ≠ 0 := by
  constructor
  · rintro ⟨h, -, hand⟩ hzero
    exact hand (by rw [hzero]; exact BitVec.zero_and)
  intro hne
  obtain ⟨i, hi⟩ := ChunkMap.ne_zero_iff.mp hne
  obtain ⟨h, hh, hid⟩ := hs.owned hi
  exact ⟨h, hh, ChunkMap.and_ne_zero_iff.mpr ⟨i, hi, hid⟩⟩

omit [DecidableEq H] in
lemma Sound.masking (hs : m.Sound line) : m.Masking := by
  intro irq l hl hne
  obtain rfl := hs.line_eq hl
  rw [hs.mask irq hne, hs.active_iff irq]

omit [DecidableEq H] in
lemma Start.sound (hm : m.Start) : m.Sound fun _ => [] where
  wired := by
    refine ⟨fun irq => ?_, nofun, nofun, nofun⟩
    rw [Lists.read_head, hm.empty irq]
    exact .nil
  owned := by
    intro irq i hi
    rw [hm.idle irq] at hi
    simp at hi
  mask irq hne := absurd rfl hne
  rest h := by
    rw [hm.quiet] at h
    nomatch h

omit [DecidableEq H] in
lemma enableIrq_sound {s : Irqs H} (hw : s.Wired line)
    (howned : ∀ {irq i}, (s.actids irq).getLsbD i = true → ∃ h ∈ line irq,
      (s.id h).getLsbD i = true)
    (hmask : ∀ j, j ≠ s.irq hook → line j ≠ [] → (s.masked j = true ↔ s.actids j ≠ 0))
    (hact : s.actids (s.irq hook) ≠ 0 → s.masked (s.irq hook) = true) :
    (⟨s.enableIrq hook, none⟩ : IrqMachine H).Sound line := by
  rw [Irqs.enableIrq_eq]
  refine ⟨hw.congr rfl rfl rfl, fun {irq i} hi => howned ?_, fun j hj => ?_, nofun⟩
  · by_cases hirq : irq = s.irq hook
    · subst hirq
      simp only [update_self, BitVec.getLsbD_and, Bool.and_eq_true] at hi
      exact hi.1
    · simpa only [update_of_ne hirq] using hi
  · simp only [reduceCtorEq, exists_false, or_false]
    by_cases hjk : j = s.irq hook
    · subst hjk
      rw [update_self]
      split_ifs with hleft
      · rw [update_self]
        simp [hleft]
      · exact iff_of_true (hact fun hz => hleft (by rw [hz]; exact BitVec.zero_and)) hleft
    · rw [update_of_ne hjk]
      split
      · rw [update_of_ne hjk]
        exact hmask j hjk hj
      · exact hmask j hjk hj

section Quiet
variable (hs : m.Sound line) (hq : m.handling = none)
include hs hq

omit [DecidableEq H] in
lemma Sound.mask_quiet (irq : Irq) (hne : line irq ≠ []) :
    m.irqs.masked irq = true ↔ m.irqs.actids irq ≠ 0 := by
  have hmask := hs.mask irq hne
  rw [hq] at hmask
  simpa using hmask

omit [DecidableEq H] in
lemma Sound.masked_of_active (irq : Irq) (hact : m.irqs.actids irq ≠ 0) :
    m.irqs.masked irq = true := by
  obtain ⟨h, hh, -⟩ := (hs.active_iff irq).mpr hact
  exact (hs.mask_quiet hq irq (List.ne_nil_of_mem hh)).mpr hact

omit [DecidableEq H] in
lemma Sound.enable : (⟨m.irqs.enableIrq hook, none⟩ : IrqMachine H).Sound line :=
  enableIrq_sound hs.wired hs.owned (fun j _ => hs.mask_quiet hq j) (hs.masked_of_active hq _)

lemma Sound.put {s : Irqs H} (hone : ∀ j, hook ∈ line j → j = irq)
    (hok : m.irqs.putIrqHandler hook irq = .ok s) :
    ∃ line', (⟨s, none⟩ : IrqMachine H).Sound line' := by
  rcases Irqs.putIrqHandler_cases hs.wired hone hok with ⟨-, rfl⟩ | ⟨hout, id, hid, hfree, rfl⟩
  · rw [← hq]
    exact ⟨line, hs⟩
  refine ⟨_, enableIrq_sound (hs.wired.register hout hid.ne_zero hfree) ?_ ?_ ?_⟩
  · intro j i hi
    obtain ⟨h, hh, hbit⟩ := hs.owned hi
    refine ⟨h, ?_, ?_⟩
    · by_cases hj : j = irq
      · subst hj
        rw [update_self]
        exact List.mem_append_left _ hh
      · rwa [update_of_ne hj]
    · have hne : h ≠ hook := ne_of_mem_of_not_mem hh (hout j)
      exact (congrArg (BitVec.getLsbD · i) (update_of_ne hne _ _)).trans hbit
  · intro j hj hne
    have hirq : (m.irqs.register hook irq id (Lists.lastCell (.head irq) (line irq))).irq hook =
      irq := update_self _ _ _
    rw [hirq] at hj
    rw [update_of_ne hj] at hne
    exact hs.mask_quiet hq j hne
  · exact hs.masked_of_active hq _

omit [DecidableEq H] in
lemma Sound.disable (hin : hook ∈ line (m.irqs.irq hook)) :
    (⟨(m.irqs.disableIrq hook).2, none⟩ : IrqMachine H).Sound line := by
  by_cases hact : m.irqs.actids (m.irqs.irq hook) &&& m.irqs.id hook ≠ 0
  · rw [Irqs.disableIrq, if_pos hact, ← hq]
    exact hs
  rw [Irqs.disableIrq, if_neg hact]
  refine ⟨hs.wired.congr rfl rfl rfl, fun {irq i} hi => ?_, fun irq hne => ?_, nofun⟩
  · by_cases hirq : irq = m.irqs.irq hook
    · subst hirq
      simp only [Irqs.hwIntrMask, Irqs.setActids, update_self, BitVec.getLsbD_or,
        Bool.or_eq_true] at hi
      rcases hi with hi | hi
      · exact hs.owned hi
      · exact ⟨hook, hin, hi⟩
    · simp only [Irqs.hwIntrMask, Irqs.setActids, update_of_ne hirq] at hi
      exact hs.owned hi
  · simp only [reduceCtorEq, exists_false, or_false]
    by_cases hirq : irq = m.irqs.irq hook
    · subst hirq
      simp only [Irqs.hwIntrMask, Irqs.setActids, update_self, true_iff]
      obtain ⟨i, hi⟩ := ChunkMap.ne_zero_iff.mp (hs.wired.nonzero hin)
      exact ChunkMap.ne_zero_iff.mpr ⟨i, by rw [BitVec.getLsbD_or, hi, Bool.or_true]⟩
    · simp only [Irqs.hwIntrMask, Irqs.setActids, update_of_ne hirq]
      exact hs.mask_quiet hq irq hne

omit [DecidableEq H] in
lemma Sound.interrupt (irq : Irq) :
    (⟨m.irqs.hwIntrMask irq, some (irq, m.irqs.lists.head irq)⟩ : IrqMachine H).Sound line := by
  refine ⟨hs.wired.congr rfl rfl rfl, hs.owned, fun j hne => ?_, fun {j next} hj => ?_⟩
  · by_cases hj : j = irq
    · subst hj
      simp [Irqs.hwIntrMask]
    · simp only [Irqs.hwIntrMask, update_of_ne hj, Option.some.injEq, Prod.mk.injEq,
        Ne.symm hj, false_and,
        exists_false, or_false]
      exact hs.mask_quiet hq j hne
  · cases hj
    exact ⟨[], line irq, rfl, hs.wired.links irq⟩

end Quiet

omit [DecidableEq H] in
lemma Sound.next_mem (hs : m.Sound line) (hh : m.handling = some (irq, some hook)) :
    hook ∈ line irq ∧ ∃ l₁ l₂, line irq = l₁ ++ l₂ ∧
      Links m.irqs.lists.next (m.irqs.lists.next hook) l₂ := by
  obtain ⟨l₁, l₂, hl, hlinks⟩ := hs.rest hh
  cases hlinks with
  | @cons _ l₂ hlinks =>
    rw [hl]
    exact ⟨by simp, l₁ ++ [hook], l₂, by simp, hlinks⟩

omit [DecidableEq H] in
lemma Sound.serve (hs : m.Sound line) (hh : m.handling = some (irq, some hook)) (done : Bool) :
    IrqMachine.Sound ⟨m.irqs.serve irq hook done, some (irq, m.irqs.lists.next hook)⟩ line := by
  obtain ⟨hmem, hrest⟩ := hs.next_mem hh
  have hhome : m.irqs.irq hook = irq := hs.wired.home hmem
  have heq : m.irqs.serve irq hook done = m.irqs.setActids irq
      (if done then (m.irqs.actids irq ||| m.irqs.id hook) &&& ~~~ m.irqs.id hook
        else m.irqs.actids irq ||| m.irqs.id hook) := by
    cases done with
    | false => rfl
    | true => simp [Irqs.serve, Irqs.setActids, hhome]
  have hsub : ∀ {i}, ((m.irqs.serve irq hook done).actids irq).getLsbD i = true →
      (m.irqs.actids irq ||| m.irqs.id hook).getLsbD i = true := by
    intro i hi
    simp only [heq, Irqs.setActids, update_self] at hi
    cases done with
    | false => exact hi
    | true =>
      rw [if_pos rfl, BitVec.getLsbD_and, Bool.and_eq_true] at hi
      exact hi.1
  refine ⟨?_, fun {j i} hi => ?_, fun j hne => ?_, fun {j next} hj => ?_⟩
  · rw [heq]
    exact hs.wired.congr rfl rfl rfl
  · by_cases hj : j = irq
    · subst hj
      have hbit := hsub hi
      rw [BitVec.getLsbD_or, Bool.or_eq_true] at hbit
      rw [heq]
      rcases hbit with hbit | hbit
      · exact hs.owned hbit
      · exact ⟨hook, hmem, hbit⟩
    · rw [heq] at hi ⊢
      exact hs.owned (by simpa only [Irqs.setActids, update_of_ne hj] using hi)
  · have hmask := hs.mask j hne
    rw [hh] at hmask
    rw [heq]
    by_cases hj : j = irq
    · subst hj
      simpa [Irqs.setActids] using hmask
    · simpa [Irqs.setActids, update_of_ne hj, Ne.symm hj] using hmask
  · cases hj
    rw [heq]
    exact hrest

omit [DecidableEq H] in
lemma Sound.finish (hs : m.Sound line) (hh : m.handling = some (irq, none)) :
    (⟨m.irqs.reenable irq, none⟩ : IrqMachine H).Sound line := by
  have hmask : ∀ j, line j ≠ [] → (m.irqs.masked j = true ↔ m.irqs.actids j ≠ 0 ∨ j = irq) := by
    intro j hne
    have hj := hs.mask j hne
    rw [hh] at hj
    rw [hj]
    simp [eq_comm]
  by_cases hact : m.irqs.actids irq = 0
  · rw [Irqs.reenable, if_pos hact]
    refine ⟨hs.wired.congr rfl rfl rfl, hs.owned, fun j hne => ?_, by simp⟩
    by_cases hj : j = irq
    · subst hj
      simp [Irqs.hwIntrUnmask, hact]
    · simpa [Irqs.hwIntrUnmask, update_of_ne hj, hj] using hmask j hne
  · rw [Irqs.reenable, if_neg hact]
    refine ⟨hs.wired, hs.owned, fun j hne => ?_, by simp⟩
    rw [hmask j hne]
    by_cases hj : j = irq
    · subst hj
      simpa using hact
    · simp [hj]

/-! ## Removing a handler -/

def Leaves (s : Irqs H) (l : List H) (hook : H) : Prop :=
  l = [hook] ∨ ∃ k ∈ l, k ≠ hook ∧ s.actids (s.irq hook) &&& s.id k ≠ 0

lemma Sound.remove (hs : m.Sound line) (hq : m.handling = none)
    (hin : hook ∈ line (m.irqs.irq hook)) {s : Irqs H}
    (hr : m.irqs.Removed line hook s) (hleaves : Leaves m.irqs (line (m.irqs.irq hook)) hook) :
    (⟨s, none⟩ : IrqMachine H).Sound (m.irqs.without line (m.irqs.irq hook) (m.irqs.id hook)) := by
  have hact := hr.found ⟨hook, hin, rfl⟩
  have hgone : ∀ {h}, h ∈ line (m.irqs.irq hook) → h ≠ hook → m.irqs.id h ≠ m.irqs.id hook :=
    fun hh hne hid =>
    hne (hs.wired.eq_of_id hh hin hid)
  refine ⟨hr.wired, fun {irq i} hi => ?_, fun irq hne => ?_, nofun⟩
  · rw [hact] at hi
    rw [hr.id]
    by_cases hirq : irq = m.irqs.irq hook
    · subst hirq
      rw [update_self] at hi
      have hid : (m.irqs.id hook).getLsbD i = false := by
        by_contra hid
        rw [ChunkMap.getLsbD_andNot_self (Bool.of_not_eq_false hid)] at hi
        nomatch hi
      rw [ChunkMap.getLsbD_andNot_of_disjoint hid] at hi
      obtain ⟨h, hh, hbit⟩ := hs.owned hi
      refine ⟨h, Irqs.mem_without.mpr ⟨hh, fun heq => ?_⟩, hbit⟩
      rw [heq.2, hid] at hbit
      nomatch hbit
    · rw [update_of_ne hirq] at hi
      obtain ⟨h, hh, hbit⟩ := hs.owned hi
      exact ⟨h, Irqs.mem_without.mpr ⟨hh, fun heq => hirq heq.1⟩, hbit⟩
  · simp only [reduceCtorEq, exists_false, or_false]
    rw [hr.masked, hact]
    by_cases hirq : irq = m.irqs.irq hook
    · subst hirq
      rw [update_self, update_self]
      refine iff_of_true rfl ?_
      rcases hleaves with hl | ⟨k, hk, hkne, hkact⟩
      · obtain ⟨h, hh⟩ := List.exists_mem_of_ne_nil _ hne
        obtain ⟨hh, hid⟩ := Irqs.mem_without.mp hh
        rw [hl, List.mem_singleton] at hh
        exact absurd ⟨rfl, by rw [hh]⟩ hid
      obtain ⟨i, hi, hki⟩ := ChunkMap.and_ne_zero_iff.mp hkact
      refine ChunkMap.ne_zero_iff.mpr ⟨i, ?_⟩
      rw [ChunkMap.getLsbD_andNot_of_disjoint, hi]
      by_contra hid
      exact ChunkMap.disjoint_bits (hs.wired.apart hk hin hkne) i ⟨hki, Bool.of_not_eq_false hid⟩
    · rw [update_of_ne hirq, update_of_ne hirq]
      unfold Irqs.without at hne
      rw [update_of_ne hirq] at hne
      exact hs.mask_quiet hq irq hne

lemma Sound.leaves_of_masking (hs : m.Sound line) (hin : hook ∈ line (m.irqs.irq hook)) {s : Irqs H}
    (hr : m.irqs.Removed line hook s) (hmask : (⟨s, none⟩ : IrqMachine H).Masking) :
    Leaves m.irqs (line (m.irqs.irq hook)) hook := by
  by_cases hothers : ∃ k ∈ line (m.irqs.irq hook), k ≠ hook
  · right
    obtain ⟨k, hk, hkne⟩ := hothers
    have hkeep : k ∈ m.irqs.without line (m.irqs.irq hook) (m.irqs.id hook) (m.irqs.irq hook) :=
      Irqs.mem_without.mpr ⟨hk, fun heq => hkne (hs.wired.eq_of_id hk hin heq.2)⟩
    have hmasked : s.masked (m.irqs.irq hook) = true := by rw [hr.masked, update_self]
    rcases (hmask _ _ (hr.wired.links (m.irqs.irq hook)) (List.ne_nil_of_mem hkeep)).mp hmasked
      with ⟨h, hh, hact⟩ | ⟨next, hn⟩
    · obtain ⟨hh, hid⟩ := Irqs.mem_without.mp hh
      refine ⟨h, hh, fun heq => hid ⟨rfl, by rw [heq]⟩, ?_⟩
      simp only [hr.id, hr.found ⟨hook, hin, rfl⟩, update_self] at hact
      obtain ⟨i, hi, hbit⟩ := ChunkMap.and_ne_zero_iff.mp hact
      rw [BitVec.getLsbD_and, Bool.and_eq_true] at hi
      exact ChunkMap.and_ne_zero_iff.mpr ⟨i, hi.1, hbit⟩
    · nomatch hn
  · left
    have hall : ∀ k ∈ line (m.irqs.irq hook), k = hook :=
      fun k hk => by_contra fun hne => hothers ⟨k, hk, hne⟩
    have hnodup := (hs.wired.links (m.irqs.irq hook)).nodup
    generalize line (m.irqs.irq hook) = l at hin hall hnodup
    match l, hnodup with
    | [a], _ => rw [hall a List.mem_cons_self]
    | a :: b :: l, hnodup =>
      rw [hall a List.mem_cons_self, hall b (List.mem_cons_of_mem a List.mem_cons_self)] at hnodup
      exact absurd (.head _) (List.nodup_cons.mp hnodup).1

/-! ## Runs -/

omit [DecidableEq H] in
lemma now_ok {x : Except IrqStop (IrqMachine H)}
    (h : (if m.handling.isSome then .error .notNow else x) = .ok m') :
    m.handling = none ∧ x = .ok m' := by
  split at h
  · nomatch h
  · next hq => exact ⟨Option.not_isSome_iff_eq_none.mp hq, h⟩

lemma step_rm (hstep : m.step (.rm hook) = .ok m') :
    m.handling = none ∧ ∃ s, m.irqs.rmIrqHandler hook = .ok s ∧ m' = ⟨s, none⟩ := by
  obtain ⟨hq, h⟩ := now_ok hstep
  obtain ⟨s, hrm, rfl⟩ := map_eq_ok.mp h
  exact ⟨hq, s, hrm, rfl⟩

lemma step_sound {a : IrqAct H} (hs : m.Sound line) (hp : m.Proper a) (hstep : m.step a = .ok m') :
    ∃ line', m'.Sound line' := by
  cases a with
  | put hook irq =>
    obtain ⟨hq, h⟩ := now_ok hstep
    obtain ⟨s, hput, rfl⟩ := map_eq_ok.mp h
    exact hs.put hq (fun j hj => hp j _ (hs.wired.links j) hj) hput
  | rm hook =>
    obtain ⟨hq, s, hrm, rfl⟩ := step_rm hstep
    obtain ⟨l, hl, hin, hleaves⟩ := hp
    obtain rfl := hs.line_eq hl
    obtain ⟨t, ht, hr⟩ := Irqs.rmIrqHandler_removed hs.wired hook
    obtain rfl := Except.ok.inj (ht.symm.trans hrm)
    exact ⟨_, hs.remove hq hin hr hleaves⟩
  | enable hook =>
    obtain ⟨hq, h⟩ := now_ok hstep
    cases h
    exact ⟨line, hs.enable hq⟩
  | disable hook =>
    obtain ⟨hq, h⟩ := now_ok hstep
    cases h
    obtain ⟨l, hl, hin⟩ := hp
    obtain rfl := hs.line_eq hl
    exact ⟨line, hs.disable hq hin⟩
  | interrupt irq =>
    obtain ⟨hq, h⟩ := now_ok hstep
    cases h
    exact ⟨line, hs.interrupt hq irq⟩
  | serve done =>
    simp only [step] at hstep
    split at hstep
    · next hh =>
      cases hstep
      exact ⟨line, hs.serve hh done⟩
    · nomatch hstep
  | finish =>
    simp only [step] at hstep
    split at hstep
    · next hh =>
      cases hstep
      exact ⟨line, hs.finish hh⟩
    · nomatch hstep

end IrqMachine

/-- In every run in which handlers are used while registered and are removed only when they are the
last of their line or another one stays active, a line with handlers is masked just while one is
active or an interrupt is handled; and a removal from any state so reached keeps this only if it is
of that kind. -/
theorem masked_iff_active {H : Type} [DecidableEq H] {n : Nat}
    (tr : Trace (IrqMachine.step (H := H)) n)
    (h0 : (tr.state 0).Start) (hp : ∀ i < n, (tr.state i).Proper (tr.act i)) :
    (∀ i ≤ n, (tr.state i).Masking) ∧
    ∀ hook l m', (tr.state n).Line ((tr.state n).irqs.irq hook) l → hook ∈ l →
      (tr.state n).step (.rm hook) = .ok m' →
      (m'.Masking ↔ (tr.state n).Proper (.rm hook)) := by
  have hsound : ∀ i ≤ n, ∃ line, (tr.state i).Sound line :=
    tr.invariant_of (fun m => ∃ line, m.Sound line) IrqMachine.Proper ⟨_, h0.sound⟩ hp
      fun ⟨_, hs⟩ hproper hstep => IrqMachine.step_sound hs hproper hstep
  refine ⟨fun i hi => (hsound i hi).elim fun _ hs => hs.masking, fun hook l m' hl hin hstep => ?_⟩
  obtain ⟨line, hs⟩ := hsound n (Nat.le_refl n)
  constructor
  · intro hmask
    obtain ⟨-, s, hrm, rfl⟩ := IrqMachine.step_rm hstep
    obtain ⟨t, ht, hr⟩ := Irqs.rmIrqHandler_removed hs.wired hook
    obtain rfl := Except.ok.inj (ht.symm.trans hrm)
    obtain rfl := hs.line_eq hl
    exact ⟨_, hl, hin, hs.leaves_of_masking hin hr hmask⟩
  · intro hproper
    obtain ⟨line', hs'⟩ := IrqMachine.step_sound hs hproper hstep
    exact hs'.masking

/-! ## Two drivers on one line -/

def irqBoot : IrqMachine Bool where
  irqs :=
    { lists := ⟨fun _ => none, fun _ => none⟩
      irq := fun _ => 0
      id := fun _ => 0
      actids := fun _ => 0
      masked := fun _ => true }
  handling := none

/-- Both hooks are put on line 9 and are called once; the first one is removed. -/
def shareLine : Nat → IrqAct Bool
  | 0 => .put false 9
  | 1 => .put true 9
  | 2 => .interrupt 9
  | 3 => .serve true
  | 4 => .serve true
  | 5 => .finish
  | _ => .rm false

def sharedLine : Trace (IrqMachine.step (H := Bool)) 7 :=
  Trace.run IrqMachine.step irqBoot shareLine 7 (by decide +kernel)

theorem rm_masks_shared_line :
    ∃ tr : Trace (IrqMachine.step (H := Bool)) 7, (tr.state 0).Start ∧ (tr.state 7).Line 9 [true] ∧
      (tr.state 7).irqs.actids 9 = 0 ∧ (tr.state 7).handling = none ∧
        (tr.state 7).irqs.masked 9 = true ∧
      ¬ (tr.state 7).Masking := by
  have hline : (sharedLine.state 7).Line 9 [true] := by
    refine .cons ?_
    have hnext : (sharedLine.state 7).irqs.lists.next true = none := by decide +kernel
    rw [hnext]
    exact .nil
  have hact : (sharedLine.state 7).irqs.actids 9 = 0 := by decide +kernel
  have hquiet : (sharedLine.state 7).handling = none := by decide +kernel
  have hmasked : (sharedLine.state 7).irqs.masked 9 = true := by decide +kernel
  refine ⟨sharedLine, ⟨fun _ => rfl, fun _ => rfl, rfl⟩, hline, hact, hquiet, hmasked, fun hm => ?_⟩
  rcases (hm 9 _ hline (by simp)).mp hmasked with ⟨h, -, hand⟩ | ⟨next, hn⟩
  · rw [hact] at hand
    exact hand BitVec.zero_and
  · rw [hquiet] at hn
    nomatch hn

/-- While both hooks are put on and served, the mask follows the handlers; it is lost by the removal
alone. -/
theorem masked_iff_active_shared : (∀ i ≤ 6, (sharedLine.state i).Masking) ∧
    ((sharedLine.state 7).Masking ↔ (sharedLine.state 6).Proper (.rm false)) := by
  let tr : Trace (IrqMachine.step (H := Bool)) 6 :=
    ⟨sharedLine.state, sharedLine.act, fun i hi => sharedLine.ok i (by omega)⟩
  have hproper : ∀ i < 6, (tr.state i).Proper (tr.act i) := by
    intro i hi
    interval_cases i
    · intro j l hl hmem
      cases hl with
      | nil => nomatch hmem
    · -- Before the second hook only the first one is on a line.
      intro j l hl hmem
      by_contra hj
      have hhead : (sharedLine.state 1).irqs.lists.read (.head j) = none := update_of_ne hj _ _
      rw [IrqMachine.Line, hhead] at hl
      cases hl
      nomatch hmem
    all_goals trivial
  obtain ⟨hmask, hrm⟩ := masked_iff_active tr ⟨fun _ => rfl, fun _ => rfl, rfl⟩ hproper
  have hnext : (sharedLine.state 6).irqs.lists.next false = some true := by decide +kernel
  have hlast : (sharedLine.state 6).irqs.lists.next true = none := by decide +kernel
  have hline : (sharedLine.state 6).Line 9 [false, true] := .cons (hnext ▸ .cons (hlast ▸ .nil))
  exact ⟨hmask, hrm false _ _ hline (by simp) (sharedLine.ok 6 (by decide))⟩

end Nucleos.Kernel
