import Nucleos.Kernel.Irq
import Nucleos.Kernel.Proc

/-!
# Interrupt hooks of drivers

A driver asks the kernel for a hook on a line, may disable and enable it, gives it back, and loses
it when it exits. A hook is free when it has no owner. Giving a hook back takes it off its line but
leaves its owner, so the hook can be given back again, by its owner or when its owner exits, after
its id has gone to another hook of the line.
-/

namespace Nucleos.Kernel

open Function IntrusiveList Run

abbrev nrIrqHooks : Nat := 16
abbrev HookNr := Fin nrIrqHooks

inductive IrqRequest where
  | enable
  | disable
  | setpolicy
  | rmpolicy
  | other
deriving DecidableEq, Repr

structure IrqMsg where
  request : IrqRequest
  vector : Int
  hookId : Int
  reenable : Bool

/-- Hooks and the processes that own them. `registered` is history: the hook was given to its owner,
who has neither removed it nor exited. -/
structure IrqCtl where
  irqs : Irqs HookNr
  owner : HookNr → Option Int
  notifyId : HookNr → Nat
  reenable : HookNr → Bool
  live : Int → Bool
  irqTab : Int → Option (List Int)
  intPending : Int → BitVec 32
  registered : HookNr → Bool

def hookOf (id : Int) : Option HookNr :=
  if h : 1 ≤ id ∧ id ≤ nrIrqHooks then some ⟨(id - 1).toNat, by omega⟩ else none

def vectorOf (irq : Int) : Option Irq :=
  if h : 0 ≤ irq ∧ irq < nrIrqVectors then some ⟨irq.toNat, by omega⟩ else none

namespace IrqCtl

def ownHook (source : Int) (id : Int) (s : IrqCtl) : Except Int HookNr :=
  match hookOf id with
  | none => .error (-einval)
  | some h =>
    match s.owner h with
    | none => .error (-einval)
    | some p => if p = source then .ok h else .error (-eperm)

def freeHook (s : IrqCtl) : Option HookNr := (List.finRange nrIrqHooks).find? fun h => (s.owner h).isNone

def mayUseIrq (source : Int) (irq : Int) (s : IrqCtl) : Bool :=
  match s.irqTab source with
  | none => true
  | some tab => tab.contains irq

def claimHook (h : HookNr) (source : Int) (m : IrqMsg) (s : IrqCtl) : IrqCtl :=
  { s with
    owner := update s.owner h (some source)
    notifyId := update s.notifyId h m.hookId.toNat
    reenable := update s.reenable h m.reenable
    registered := update s.registered h true }

def setpolicy (source : Int) (m : IrqMsg) (s : IrqCtl) : Except IrqStop (Int × IrqCtl) :=
  match vectorOf m.vector with
  | none => .ok (-einval, s)
  | some irq =>
    if s.mayUseIrq source m.vector = false then .ok (-eperm, s)
    else
      match s.freeHook with
      | none => .ok (-enospc, s)
      | some h =>
        if m.hookId < 0 ∨ 31 < m.hookId then .ok (-einval, s)
        else do
          let irqs ← (s.claimHook h source m).irqs.putIrqHandler h irq
          -- The index of the hook goes back to the driver.
          return ((h.val : Int) + 1, { s.claimHook h source m with irqs })

def rmpolicy (h : HookNr) (s : IrqCtl) : Except IrqStop IrqCtl := do
  let irqs ← s.irqs.rmIrqHandler h
  return { s with irqs, registered := update s.registered h false }

def doIrqctl (source : Int) (m : IrqMsg) (s : IrqCtl) : Except IrqStop (Int × IrqCtl) :=
  match m.request with
  | .setpolicy => s.setpolicy source m
  | .other => .ok (-einval, s)
  | .enable =>
    match s.ownHook source m.hookId with
    | .error r => .ok (r, s)
    | .ok h => .ok (0, { s with irqs := s.irqs.enableIrq h })
  | .disable =>
    match s.ownHook source m.hookId with
    | .error r => .ok (r, s)
    | .ok h => .ok (0, { s with irqs := (s.irqs.disableIrq h).2 })
  | .rmpolicy =>
    match s.ownHook source m.hookId with
    | .error r => .ok (r, s)
    | .ok h => (s.rmpolicy h).map ((0, ·))

def genericHandler (h : HookNr) (s : IrqCtl) : Except IrqStop (Bool × IrqCtl) :=
  match s.owner h with
  | none => .error .notNow
  | some p =>
    if s.live p = false then .error .notNow
    else
      let pending := s.intPending p ||| (1 <<< s.notifyId h)
      .ok (s.reenable h, { s with intPending := update s.intPending p pending })

def handlers (irq : Irq) : Nat → Option HookNr → IrqCtl → Except IrqStop IrqCtl
  | 0, _, _ => .error .endless
  | _ + 1, none, s => .ok s
  | n + 1, some h, s => do
    let (done, s) ← s.genericHandler h
    handlers irq n (s.irqs.lists.next h) { s with irqs := s.irqs.serve irq h done }

def interrupt (irq : Irq) (s : IrqCtl) : Except IrqStop IrqCtl := do
  let s ← handlers irq Irqs.lineFuel (s.irqs.lists.head irq) { s with irqs := s.irqs.hwIntrMask irq }
  return { s with irqs := s.irqs.reenable irq }

def releaseHook (p : Int) (s : IrqCtl) (h : HookNr) : Except IrqStop IrqCtl :=
  if s.owner h = some p then do
    let s ← s.rmpolicy h
    return { s with owner := update s.owner h none }
  else .ok s

def clearProc (p : Int) (s : IrqCtl) : Except IrqStop IrqCtl := do
  let s ← (List.finRange nrIrqHooks).foldlM (releaseHook p) s
  return { s with live := update s.live p false }

end IrqCtl

inductive IrqEvent where
  | start (p : Int) (tab : Option (List Int))
  | request (p : Int) (m : IrqMsg)
  | interrupt (irq : Irq)
  | exit (p : Int)

def IrqEvent.remover : IrqEvent → Option Int
  | .request p m => if m.request = .rmpolicy then some p else none
  | .exit p => some p
  | _ => none

namespace IrqCtl

def step (s : IrqCtl) : IrqEvent → Except IrqStop IrqCtl
  | .start p tab =>
    if s.live p then .error .notNow
    else .ok { s with live := update s.live p true, irqTab := update s.irqTab p tab }
  | .request p m => if s.live p then (s.doIrqctl p m).map (·.2) else .error .notNow
  | .interrupt irq => s.interrupt irq
  | .exit p => if s.live p then s.clearProc p else .error .notNow

/-! ## What the kernel keeps about its hooks -/

def Line (s : IrqCtl) (irq : Irq) (l : List HookNr) : Prop :=
  Links s.irqs.lists.next (s.irqs.lists.read (.head irq)) l

def OnLine (s : IrqCtl) (h : HookNr) : Prop := ∃ l, s.Line (s.irqs.irq h) l ∧ h ∈ l

/-- The lists are wired, and a hook on a list has an owner who has not given it back. -/
structure Hooked (s : IrqCtl) (line : Irq → List HookNr) : Prop where
  wired : s.irqs.Wired line
  listed : ∀ {irq h}, h ∈ line irq → s.registered h = true
  owned : ∀ {h}, s.registered h = true → ∃ p, s.owner h = some p
  alive : ∀ {h p}, s.owner h = some p → s.live p = true
  single : ∀ {h p}, s.owner h = some p → Irqs.IsId (s.irqs.id h)

variable {s s' : IrqCtl} {line : Irq → List HookNr} {h k : HookNr} {p q : Int} {irq : Irq} {m : IrqMsg}

lemma Hooked.line_eq {l : List HookNr} (hs : s.Hooked line) (hl : s.Line irq l) : l = line irq :=
  hl.unique (hs.wired.links irq)

lemma Hooked.onLine_iff (hs : s.Hooked line) : s.OnLine h ↔ h ∈ line (s.irqs.irq h) := by
  constructor
  · rintro ⟨l, hl, hmem⟩
    exact hs.line_eq hl ▸ hmem
  · intro hmem
    exact ⟨_, hs.wired.links _, hmem⟩

lemma Hooked.onLine (hs : s.Hooked line) (hmem : h ∈ line irq) : s.OnLine h :=
  hs.onLine_iff.mpr (hs.wired.home hmem ▸ hmem)

lemma Hooked.congr (hs : s.Hooked line) (hl : s'.irqs.lists = s.irqs.lists) (hi : s'.irqs.irq = s.irqs.irq)
    (hd : s'.irqs.id = s.irqs.id) (ho : s'.owner = s.owner) (hr : s'.registered = s.registered)
    (hv : s'.live = s.live) :
    s'.Hooked line :=
  ⟨hs.wired.congr hl hi hd, by rw [hr]; exact hs.listed, by rw [hr, ho]; exact hs.owned,
    by rw [ho, hv]; exact hs.alive,
    by rw [ho, hd]; exact hs.single⟩

lemma Hooked.single_of_mem (hs : s.Hooked line) (hmem : h ∈ line irq) : Irqs.IsId (s.irqs.id h) := by
  obtain ⟨p, hp⟩ := hs.owned (hs.listed hmem)
  exact hs.single hp

structure Released (s : IrqCtl) (line : Irq → List HookNr) (h : HookNr) (s' : IrqCtl) : Prop where
  hooked : s'.Hooked (s.irqs.without line (s.irqs.irq h) (s.irqs.id h))
  irq : s'.irqs.irq = s.irqs.irq
  id : s'.irqs.id = s.irqs.id
  owner : s'.owner = s.owner
  live : s'.live = s.live
  registered : s'.registered = update s.registered h false
  actids : ∀ {j k}, k ∈ s.irqs.without line (s.irqs.irq h) (s.irqs.id h) j →
    s'.irqs.actids j &&& s.irqs.id k = s.irqs.actids j &&& s.irqs.id k
  masked : s'.irqs.masked = update s.irqs.masked (s.irqs.irq h) true

lemma and_of_apart {x f g : BitVec 32} (hfg : f &&& g = 0) :
    (x &&& ~~~ f) &&& g = x &&& g ∧ (x ||| f) &&& g = x &&& g := by
  constructor
  all_goals
    ext i hi
    have hd := ChunkMap.disjoint_bits hfg i
    cases hf : f.getLsbD i <;> cases hg : g.getLsbD i <;> simp_all

lemma rmpolicy_released (hs : s.Hooked line) (ho : s.owner h = some p) :
    ∃ s', s.rmpolicy h = .ok s' ∧ s.Released line h s' := by
  obtain ⟨t, ht, hr⟩ := Irqs.rmIrqHandler_removed hs.wired h
  have hkeep : ∀ {j k}, k ∈ s.irqs.without line (s.irqs.irq h) (s.irqs.id h) j → k ≠ h := by
    rintro j k hk rfl
    obtain ⟨hk, hne⟩ := Irqs.mem_without.mp hk
    exact hne ⟨(hs.wired.home hk).symm, rfl⟩
  refine ⟨{ s with irqs := t, registered := update s.registered h false }, by rw [rmpolicy, ht]; rfl,
    ⟨hr.wired, ?_, ?_, hs.alive, ?_⟩, hr.irq, hr.id, rfl, rfl, rfl, ?_, hr.masked⟩
  · intro j k hk
    exact (update_of_ne (hkeep hk) _ _).trans (hs.listed (Irqs.mem_without.mp hk).1)
  · intro k hk
    have hkh : k ≠ h := by
      rintro rfl
      exact absurd hk (by simp)
    exact hs.owned ((update_of_ne hkh _ _).symm.trans hk)
  · intro k q hk
    rw [hr.id]
    exact hs.single hk
  · intro j k hk
    obtain ⟨hk, hne⟩ := Irqs.mem_without.mp hk
    have happart : j = s.irqs.irq h → s.irqs.id h &&& s.irqs.id k = 0 := fun hj =>
      (hs.single ho).apart (hs.single_of_mem hk) fun hid => hne ⟨hj, hid.symm⟩
    by_cases hfound : ∃ x ∈ line (s.irqs.irq h), s.irqs.id x = s.irqs.id h
    · rw [hr.found hfound, update_apply]
      split
      · next hj => rw [hj, (and_of_apart (happart hj)).1]
      · rfl
    · rw [hr.absent (fun x hx hid => hfound ⟨x, hx, hid⟩), update_apply]
      split
      · next hj => rw [hj, (and_of_apart (happart hj)).2]
      · rfl

/-! ## The exit of a process -/

structure Passed (s : IrqCtl) (line : Irq → List HookNr) (p : Int) (done : List HookNr) (t : IrqCtl)
    (line' : Irq → List HookNr) :
    Prop where
  hooked : t.Hooked line'
  irq : t.irqs.irq = s.irqs.irq
  id : t.irqs.id = s.irqs.id
  live : t.live = s.live
  owner : ∀ k, t.owner k = if k ∈ done ∧ s.owner k = some p then none else s.owner k
  registered : ∀ k, t.registered k = if k ∈ done ∧ s.owner k = some p then false else s.registered k
  mem : ∀ {j k}, k ∈ line' j ↔
    k ∈ line j ∧ ∀ h ∈ done, s.owner h = some p → ¬ (j = s.irqs.irq h ∧ s.irqs.id k = s.irqs.id h)
  actids : ∀ {j k}, k ∈ line' j → t.irqs.actids j &&& s.irqs.id k = s.irqs.actids j &&& s.irqs.id k
  masked : ∀ j, t.irqs.masked j = true ↔ s.irqs.masked j = true ∨ ∃ h ∈ done, s.owner h = some p ∧
    s.irqs.irq h = j

lemma passed_nil (hs : s.Hooked line) : s.Passed line p [] s line :=
  ⟨hs, rfl, rfl, rfl, by simp, by simp, by simp, fun _ => rfl, by simp⟩

lemma Released.free {t : IrqCtl} (hr : s.Released line h t) :
    ({ t with owner := update t.owner h none } : IrqCtl).Hooked (s.irqs.without line (s.irqs.irq h)
      (s.irqs.id h)) := by
  have hold : ∀ {k q}, update t.owner h none k = some q → t.owner k = some q := by
    intro k q hk
    rw [update_apply] at hk
    split at hk
    · nomatch hk
    · exact hk
  refine ⟨hr.hooked.wired, hr.hooked.listed, fun {k} hk => ?_, fun hk => hr.hooked.alive (hold hk),
    fun hk => hr.hooked.single (hold hk)⟩
  have hkh : k ≠ h := by
    rintro rfl
    rw [hr.registered] at hk
    exact absurd hk (by simp)
  obtain ⟨q, hq⟩ := hr.hooked.owned hk
  exact ⟨q, (update_of_ne hkh _ _).trans hq⟩

lemma update_snoc {α : Type} {c : HookNr → Prop} [DecidablePred c] {v : α} {f g : HookNr → α}
    {done : List HookNr}
    (hf : ∀ k, f k = if k ∈ done ∧ c k then v else g k) (hc : c h) (k : HookNr) :
    update f h v k = if k ∈ done ++ [h] ∧ c k then v else g k := by
  by_cases hk : k = h
  · rw [hk, update_self, if_pos ⟨by simp, hc⟩]
  · rw [update_of_ne hk, hf]
    simp [hk]

lemma Passed.step {done : List HookNr} {t u : IrqCtl} {line' : Irq → List HookNr}
    (hp : s.Passed line p done t line')
    (hfresh : h ∉ done) (hok : t.releaseHook p h = .ok u) :
    ∃ line'', s.Passed line p (done ++ [h]) u line'' := by
  have hown : t.owner h = s.owner h := by
    rw [hp.owner, if_neg fun hc => hfresh hc.1]
  unfold releaseHook at hok
  split_ifs at hok with hmine
  · obtain ⟨v, hv, hr⟩ := rmpolicy_released hp.hooked hmine
    rw [hv] at hok
    cases hok
    refine ⟨_, hr.free, hr.irq.trans hp.irq, hr.id.trans hp.id, hr.live.trans hp.live, ?_, ?_, ?_,
      ?_, fun j => ?_⟩
    · exact update_snoc (hr.owner ▸ hp.owner) (hown ▸ hmine)
    · exact hr.registered ▸ update_snoc hp.registered (hown ▸ hmine)
    · intro j k
      rw [Irqs.mem_without, hp.mem, hp.irq, hp.id, List.forall_mem_append, List.forall_mem_singleton, ← hown]
      simp only [hmine, true_imp_iff, and_assoc]
    · intro j k hk
      have hkeep := hr.actids hk
      rw [hp.id] at hkeep
      exact hkeep.trans (hp.actids (Irqs.mem_without.mp hk).1)
    have hmark := congrFun hr.masked j
    rw [hp.irq] at hmark
    simp only [hmark, update_apply, List.mem_append, List.mem_singleton, or_and_right, exists_or,
      exists_eq_left, ← hown, hmine, true_and]
    by_cases hj : j = s.irqs.irq h
    · simp [hj]
    · simp [hj, Ne.symm hj, hp.masked]
  · cases hok
    rw [hown] at hmine
    have hskip : ∀ k, (k ∈ done ++ [h] ∧ s.owner k = some p) ↔ (k ∈ done ∧ s.owner k = some p) := by
      intro k
      by_cases hk : k = h <;> simp [hk, hmine]
    refine ⟨line', hp.hooked, hp.irq, hp.id, hp.live, fun k => ?_, fun k => ?_, fun {j k} => ?_,
      hp.actids, fun j => ?_⟩
    · simp only [hskip, hp.owner k]
    · simp only [hskip, hp.registered k]
    · simp only [hp.mem, List.forall_mem_append, List.forall_mem_singleton, hmine, false_imp_iff, and_true]
    · simp only [hp.masked, ← and_assoc, hskip]

lemma clearProc_passed (hs : s.Hooked line) (hok : s.clearProc p = .ok s') :
    ∃ t line', s.Passed line p (List.finRange nrIrqHooks) t line' ∧
      s' = { t with live := update s.live p false } := by
  obtain ⟨t, ht, hok⟩ := bind_eq_ok.mp hok
  obtain ⟨line', hp⟩ := foldlM_ok (P := fun done t => ∃ line', s.Passed line p done t line')
    (fun done x rest a b hl ⟨line', hp⟩ hx => by
      have hnd : (done ++ x :: rest).Nodup := hl ▸ List.nodup_finRange _
      exact hp.step (fun hmem => (List.nodup_append.mp hnd).2.2 x hmem x (by simp) rfl) hx) ⟨line,
        passed_nil hs⟩ ht
  exact ⟨t, line', hp, by rw [← hp.live]; exact (Except.ok.inj hok).symm⟩

/-! ## Requests and interrupts that remove nothing -/

def HooksKept (s : IrqCtl) : Prop := ∀ h, s.registered h = true → s.OnLine h

def DistinctIds (s : IrqCtl) : Prop := ∀ irq, ∃ l, s.Line irq l ∧ (l.map s.irqs.id).Nodup

lemma Hooked.distinctIds (hs : s.Hooked line) : s.DistinctIds := by
  intro irq
  refine ⟨line irq, hs.wired.links irq, ?_⟩
  refine List.Nodup.map_on (fun h hh k hk hid => hs.wired.eq_of_id hh hk hid) ?_
  exact (hs.wired.links irq).nodup

lemma Hooked.kept_iff (hs : s.Hooked line) :
    s.HooksKept ↔ ∀ h, s.registered h = true → h ∈ line (s.irqs.irq h) :=
  forall₂_congr fun _ _ => hs.onLine_iff

structure SameHooks (s s' : IrqCtl) : Prop where
  lists : s'.irqs.lists = s.irqs.lists
  irq : s'.irqs.irq = s.irqs.irq
  id : s'.irqs.id = s.irqs.id
  owner : s'.owner = s.owner
  registered : s'.registered = s.registered
  live : s'.live = s.live

lemma SameHooks.refl (s : IrqCtl) : s.SameHooks s := ⟨rfl, rfl, rfl, rfl, rfl, rfl⟩

lemma SameHooks.trans {t : IrqCtl} (h₁ : s.SameHooks t) (h₂ : t.SameHooks s') : s.SameHooks s' :=
  ⟨h₂.lists.trans h₁.lists, h₂.irq.trans h₁.irq, h₂.id.trans h₁.id, h₂.owner.trans h₁.owner,
    h₂.registered.trans h₁.registered, h₂.live.trans h₁.live⟩

lemma sameHooks_irqs {t : Irqs HookNr} (hl : t.lists = s.irqs.lists) (hi : t.irq = s.irqs.irq)
    (hd : t.id = s.irqs.id) :
    s.SameHooks { s with irqs := t } :=
  ⟨hl, hi, hd, rfl, rfl, rfl⟩

lemma sameHooks_enable : s.SameHooks { s with irqs := s.irqs.enableIrq h } := by
  rw [Irqs.enableIrq_eq]
  exact sameHooks_irqs rfl rfl rfl

lemma sameHooks_disable : s.SameHooks { s with irqs := (s.irqs.disableIrq h).2 } := by
  unfold Irqs.disableIrq
  split
  · exact .refl s
  · exact sameHooks_irqs rfl rfl rfl

lemma genericHandler_same {done : Bool} (hok : s.genericHandler h = .ok (done, s')) :
    s.SameHooks { s' with irqs := s'.irqs.serve irq h done } := by
  unfold genericHandler at hok
  split at hok
  · nomatch hok
  split at hok
  · nomatch hok
  cases hok
  cases s.reenable h <;> exact ⟨rfl, rfl, rfl, rfl, rfl, rfl⟩

lemma handlers_same {n : Nat} {c : Option HookNr} (hok : handlers irq n c s = .ok s') : s.SameHooks s' := by
  induction n generalizing c s with
  | zero => nomatch hok
  | succ n ih =>
    cases c with
    | none =>
      obtain rfl := Except.ok.inj hok
      exact .refl s
    | some h =>
      obtain ⟨⟨done, t⟩, ht, hok⟩ := bind_eq_ok.mp hok
      exact (genericHandler_same ht).trans (ih hok)

lemma interrupt_same (hok : s.interrupt irq = .ok s') : s.SameHooks s' := by
  obtain ⟨t, ht, hok⟩ := bind_eq_ok.mp hok
  cases hok
  have hmask : s.SameHooks { s with irqs := s.irqs.hwIntrMask irq } := sameHooks_irqs rfl rfl rfl
  have hsame : s.SameHooks t := hmask.trans (handlers_same ht)
  refine hsame.trans ?_
  unfold Irqs.reenable
  split
  · exact sameHooks_irqs rfl rfl rfl
  · exact .refl t

lemma SameHooks.keeps (h : s.SameHooks s') (hs : s.Hooked line) (hk : s.HooksKept) :
    s'.Hooked line ∧ s'.HooksKept := by
  have hs' : s'.Hooked line := hs.congr h.lists h.irq h.id h.owner h.registered h.live
  refine ⟨hs', hs'.kept_iff.mpr ?_⟩
  rw [h.registered, h.irq]
  exact hs.kept_iff.mp hk

lemma setpolicy_cases {r : Int} (hok : s.setpolicy p m = .ok (r, s')) :
    s' = s ∨ ∃ h irq t, s.owner h = none ∧ s.irqs.putIrqHandler h irq = .ok t ∧
      s' = { s.claimHook h p m with irqs := t } := by
  unfold setpolicy at hok
  split at hok
  · exact .inl (ok_pair_inj hok).2.symm
  next irq hv =>
  split at hok
  · exact .inl (ok_pair_inj hok).2.symm
  split at hok
  · exact .inl (ok_pair_inj hok).2.symm
  next h hf =>
  split at hok
  · exact .inl (ok_pair_inj hok).2.symm
  obtain ⟨t, ht, hok⟩ := bind_eq_ok.mp hok
  have hfree : (s.owner h).isNone = true := List.find?_some (p := fun h => (s.owner h).isNone) hf
  exact .inr ⟨h, irq, t, Option.isNone_iff_eq_none.mp hfree, ht, (ok_pair_inj hok).2.symm⟩

lemma Hooked.claim {t : Irqs HookNr} (hs : s.Hooked line) (hk : s.HooksKept) (hlive : s.live p = true)
    (hfree : s.owner h = none) (ht : s.irqs.putIrqHandler h irq = .ok t) :
    ∃ line', ({ s.claimHook h p m with irqs := t } : IrqCtl).Hooked line' ∧
      ({ s.claimHook h p m with irqs := t } : IrqCtl).HooksKept := by
  have hnot : ∀ j, h ∉ line j := by
    intro j hj
    obtain ⟨q, hq⟩ := hs.owned (hs.listed hj)
    rw [hfree] at hq
    nomatch hq
  rcases Irqs.putIrqHandler_cases hs.wired (fun j hj => absurd hj (hnot j)) ht
    with ⟨hin, -⟩ | ⟨-, id, hid, hapart, rfl⟩
  · exact absurd hin (hnot irq)
  have hwired := hs.wired.register hnot hid.ne_zero hapart
  generalize hu : (s.irqs.register h irq id (Lists.lastCell (.head irq) (line irq))).enableIrq h = u
  have hirq : u.irq = update s.irqs.irq h irq := by
    rw [← hu, Irqs.enableIrq_eq]
    rfl
  have hids : u.id = update s.irqs.id h id := by
    rw [← hu, Irqs.enableIrq_eq]
    rfl
  have hs' : ({ s.claimHook h p m with irqs := u } : IrqCtl).Hooked (update line irq (line irq ++ [h])) := by
    refine ⟨?_, fun {j k} hk => ?_, fun {k} hk => ?_, fun {k q} hq => ?_, fun {k q} hq => ?_⟩
    · rw [← hu, Irqs.enableIrq_eq]
      exact hwired.congr rfl rfl rfl
    · rcases Irqs.mem_extended.mp hk with hk | ⟨-, rfl⟩
      · exact (update_of_ne (ne_of_mem_of_not_mem hk (hnot j)) _ _).trans (hs.listed hk)
      · exact update_self _ _ _
    · by_cases hkh : k = h
      · exact ⟨p, hkh ▸ update_self _ _ _⟩
      · obtain ⟨q, hq⟩ := hs.owned ((update_of_ne hkh _ _).symm.trans hk)
        exact ⟨q, (update_of_ne hkh _ _).trans hq⟩
    · by_cases hkh : k = h
      · subst hkh
        change update s.owner k (some p) k = some q at hq
        rw [update_self] at hq
        exact Option.some.inj hq ▸ hlive
      · exact hs.alive ((update_of_ne hkh _ _).symm.trans hq)
    · change Irqs.IsId (u.id k)
      rw [hids]
      by_cases hkh : k = h
      · subst hkh
        rwa [update_self]
      · rw [update_of_ne hkh]
        exact hs.single ((update_of_ne hkh _ _).symm.trans hq)
  refine ⟨_, hs', hs'.kept_iff.mpr fun k hkr => Irqs.mem_extended.mpr ?_⟩
  change k ∈ line (u.irq k) ∨ (u.irq k = irq ∧ k = h)
  rw [hirq]
  by_cases hkh : k = h
  · exact .inr ⟨hkh ▸ update_self _ _ _, hkh⟩
  · rw [update_of_ne hkh]
    exact .inl (hs.kept_iff.mp hk k ((update_of_ne hkh _ _).symm.trans hkr))

/-! ## Removals -/

def Removes (s : IrqCtl) : IrqEvent → HookNr → Prop
  | .request p m, h => m.request = .rmpolicy ∧ s.ownHook p m.hookId = .ok h
  | .exit p, h => s.owner h = some p
  | _, _ => False

/-- A hook with the line and id of a removed one is removed as well. -/
def Proper (s : IrqCtl) (e : IrqEvent) : Prop :=
  ∀ h k, s.Removes e h → s.OnLine k → s.irqs.irq k = s.irqs.irq h → s.irqs.id k = s.irqs.id h → s.Removes e k

def Others (s : IrqCtl) (e : IrqEvent) (k : HookNr) : Prop :=
  s.OnLine k ∧ ∃ p q, e.remover = some p ∧ s.owner k = some q ∧ q ≠ p

/-- Hooks of others stay on their lines, enabled or disabled as they were. -/
def OthersKept (s : IrqCtl) (e : IrqEvent) (s' : IrqCtl) : Prop :=
  ∀ k, s.Others e k → s'.OnLine k ∧ s'.irqs.actids (s.irqs.irq k) &&&
    s.irqs.id k = s.irqs.actids (s.irqs.irq k) &&& s.irqs.id k

def LinesKept (s : IrqCtl) (e : IrqEvent) (s' : IrqCtl) : Prop :=
  ∀ k, s.Others e k → s'.irqs.masked (s.irqs.irq k) = s.irqs.masked (s.irqs.irq k)

def Quiet (s : IrqCtl) (e : IrqEvent) : Prop :=
  ∀ h k, s.Removes e h → s.Others e k → s.irqs.irq k = s.irqs.irq h → s.irqs.masked (s.irqs.irq h) = true

structure Taken (s : IrqCtl) (line : Irq → List HookNr) (gone : HookNr → Prop) (s' : IrqCtl)
    (line' : Irq → List HookNr) :
    Prop where
  hooked : s'.Hooked line'
  irq : s'.irqs.irq = s.irqs.irq
  registered : ∀ k, s'.registered k = true ↔ s.registered k = true ∧ ¬ gone k
  mem : ∀ {j k}, k ∈ line' j ↔ k ∈ line j ∧ ∀ h, gone h → ¬ (j = s.irqs.irq h ∧ s.irqs.id k = s.irqs.id h)
  actids : ∀ {j k}, k ∈ line' j → s'.irqs.actids j &&& s.irqs.id k = s.irqs.actids j &&& s.irqs.id k
  masked : ∀ j, s'.irqs.masked j = true ↔ s.irqs.masked j = true ∨ ∃ h, gone h ∧ s.irqs.irq h = j

lemma ownHook_owner {id : Int} (hok : s.ownHook p id = .ok h) : s.owner h = some p := by
  unfold ownHook at hok
  split at hok
  · nomatch hok
  next k hh =>
  split at hok
  · nomatch hok
  next q hk =>
  split at hok
  · next hq =>
    cases hok
    rw [hk, hq]
  · nomatch hok

lemma step_taken {e : IrqEvent} (hs : s.Hooked line) (he : e.remover = some p) (hok : s.step e = .ok s') :
    (s' = s ∧ ∀ h, ¬ s.Removes e h) ∨ ∃ line', s.Taken line (s.Removes e) s' line' := by
  cases e with
  | start q tab => nomatch he
  | interrupt irq => nomatch he
  | exit q =>
    rcases ite_eq_iff.mp hok with ⟨-, hok⟩ | ⟨-, hok⟩
    swap
    · nomatch hok
    obtain ⟨t, line', hp, rfl⟩ := clearProc_passed hs hok
    refine .inr ⟨line', ⟨hp.hooked.wired, hp.hooked.listed, hp.hooked.owned, fun {k r} hk => ?_,
      hp.hooked.single⟩, hp.irq,
      fun k => ?_, ?_, hp.actids, fun j => ?_⟩
    · have hkr : t.owner k = some r := hk
      rw [hp.owner] at hkr
      rcases ite_eq_iff.mp hkr with ⟨-, hkr⟩ | ⟨hne, hr⟩
      · nomatch hkr
      have hrq : r ≠ q := by
        rintro rfl
        exact hne ⟨List.mem_finRange k, hr⟩
      exact (update_of_ne hrq _ _).trans (hs.alive hr)
    · change t.registered k = true ↔ _
      rw [hp.registered]
      by_cases hq : s.owner k = some q <;> simp [Removes, hq]
    · intro j k
      rw [hp.mem]
      exact and_congr_right fun _ => ⟨fun hall h => hall h (List.mem_finRange h), fun hall h _ => hall h⟩
    · exact (hp.masked j).trans (or_congr_right ⟨fun ⟨h, _, hh⟩ => ⟨h, hh⟩, fun ⟨h, hh⟩ =>
        ⟨h, List.mem_finRange h, hh⟩⟩)
  | request q m =>
    have hreq : m.request = .rmpolicy := by
      by_contra hne
      exact absurd he (by simp [IrqEvent.remover, hne])
    rcases ite_eq_iff.mp hok with ⟨-, hok⟩ | ⟨-, hok⟩
    swap
    · nomatch hok
    cases hown : s.ownHook q m.hookId with
    | error r =>
      simp only [doIrqctl, hreq, hown] at hok
      refine .inl ⟨(Except.ok.inj hok).symm, fun h hh => ?_⟩
      nomatch hown.symm.trans hh.2
    | ok h =>
      have hgone : ∀ k, s.Removes (.request q m) k ↔ k = h := by
        intro k
        refine ⟨fun hk => (Except.ok.inj (hown.symm.trans hk.2)).symm, ?_⟩
        rintro rfl
        exact ⟨hreq, hown⟩
      obtain ⟨t, ht, hr⟩ := rmpolicy_released hs (ownHook_owner hown)
      simp only [doIrqctl, hreq, hown, ht] at hok
      obtain rfl : t = s' := Except.ok.inj hok
      refine .inr ⟨_, hr.hooked, hr.irq, fun k => ?_, ?_, hr.actids, fun j => ?_⟩
      · rw [hr.registered, hgone]
        by_cases hkh : k = h <;> simp [hkh]
      · intro j k
        rw [Irqs.mem_without]
        simp only [hgone, forall_eq]
      rw [hr.masked, update_apply]
      simp only [hgone, exists_eq_left]
      by_cases hj : j = s.irqs.irq h
      · simp [hj]
      · simp [hj, Ne.symm hj]

variable {e : IrqEvent} {line' : Irq → List HookNr}

lemma Removes.owner {h : HookNr} (he : e.remover = some p) (hr : s.Removes e h) : s.owner h = some p := by
  cases e with
  | start q tab => nomatch he
  | interrupt irq => nomatch he
  | exit q =>
    cases he
    exact hr
  | request q m =>
    obtain ⟨hreq, hown⟩ := hr
    obtain rfl : q = p := by simpa [IrqEvent.remover, hreq] using he
    exact ownHook_owner hown

section
variable (ht : s.Taken line (s.Removes e) s' line')
include ht

lemma Taken.mem_iff (hs : s.Hooked line) :
    k ∈ line' (s.irqs.irq k) ↔ s.OnLine k ∧ ∀ h, s.Removes e h → ¬ (s.irqs.irq k = s.irqs.irq h ∧
      s.irqs.id k = s.irqs.id h) := by
  rw [ht.mem, hs.onLine_iff]

lemma Taken.kept_iff (hs : s.Hooked line) (hk : s.HooksKept) :
    s'.HooksKept ↔ s.Proper e := by
  rw [ht.hooked.kept_iff, ht.irq]
  constructor
  · intro hkept h k hrem hon hirq hid
    by_contra hnot
    have hreg : s.registered k = true := hs.listed (hs.onLine_iff.mp hon)
    have hin := hkept k ((ht.registered k).mpr ⟨hreg, hnot⟩)
    exact ((ht.mem_iff hs).mp hin).2 h hrem ⟨hirq, hid⟩
  · intro hproper k hreg
    obtain ⟨hreg, hnot⟩ := (ht.registered k).mp hreg
    exact (ht.mem_iff hs).mpr ⟨hk k hreg, fun h hrem hsame =>
      hnot (hproper h k hrem (hk k hreg) hsame.1 hsame.2)⟩

lemma Taken.othersKept (hs : s.Hooked line) (hproper : s.Proper e) :
    s.OthersKept e s' := by
  rintro k ⟨hon, p, q, he, hq, hne⟩
  have hin : k ∈ line' (s.irqs.irq k) := by
    refine (ht.mem_iff hs).mpr ⟨hon, fun h hrem hsame => hne ?_⟩
    have hown := (hproper h k hrem hon hsame.1 hsame.2).owner he
    exact Option.some.inj (hq.symm.trans hown)
  exact ⟨ht.hooked.onLine hin, ht.actids hin⟩

lemma Taken.linesKept_iff : s.LinesKept e s' ↔ s.Quiet e := by
  constructor
  · intro hkept h k hrem hother hirq
    rw [← hirq, ← hkept k hother]
    exact (ht.masked _).mpr (.inr ⟨h, hrem, hirq.symm⟩)
  intro hquiet k hother
  refine Bool.eq_iff_iff.mpr ((ht.masked _).trans ⟨?_, .inl⟩)
  rintro (hm | ⟨h, hrem, hirq⟩)
  · exact hm
  · exact hirq ▸ hquiet h k hrem hother hirq.symm

end

lemma step_plain (hs : s.Hooked line) (hk : s.HooksKept) (he : e.remover = none) (hok : s.step e = .ok s') :
    ∃ line', s'.Hooked line' ∧ s'.HooksKept := by
  cases e with
  | exit p => nomatch he
  | interrupt irq => exact ⟨line, (interrupt_same hok).keeps hs hk⟩
  | start p tab =>
    rcases ite_eq_iff.mp hok with ⟨-, hok⟩ | ⟨-, hok⟩
    · nomatch hok
    cases hok
    refine ⟨line, ⟨hs.wired, hs.listed, hs.owned, fun {k q} hq => ?_, hs.single⟩, hk⟩
    by_cases hqp : q = p
    · exact hqp ▸ update_self _ _ _
    · exact (update_of_ne hqp _ _).trans (hs.alive hq)
  | request p m =>
    rcases ite_eq_iff.mp hok with ⟨hlive, hok⟩ | ⟨-, hok⟩
    swap
    · nomatch hok
    cases hreq : m.request with
    | rmpolicy => exact absurd he (by simp [IrqEvent.remover, hreq])
    | other =>
      simp only [doIrqctl, hreq] at hok
      obtain rfl : s = s' := Except.ok.inj hok
      exact ⟨line, hs, hk⟩
    | setpolicy =>
      simp only [doIrqctl, hreq] at hok
      obtain ⟨r, hset, rfl⟩ := map_eq_ok.mp hok
      rcases setpolicy_cases hset with h | ⟨h, irq, t, hfree, ht, h'⟩
      · rw [h]
        exact ⟨line, hs, hk⟩
      · rw [h']
        exact hs.claim hk hlive hfree ht
    | enable | disable =>
      cases hown : s.ownHook p m.hookId with
      | error r =>
        simp only [doIrqctl, hreq, hown] at hok
        obtain rfl : s = s' := Except.ok.inj hok
        exact ⟨line, hs, hk⟩
      | ok h =>
        simp only [doIrqctl, hreq, hown] at hok
        cases hok
        first
          | exact ⟨line, sameHooks_enable.keeps hs hk⟩
          | exact ⟨line, sameHooks_disable.keeps hs hk⟩

lemma step_hooks (hs : s.Hooked line) (hk : s.HooksKept) (hok : s.step e = .ok s') :
    (∃ line', s'.Hooked line') ∧ (s'.HooksKept ∧ s.OthersKept e s' ↔ s.Proper e) ∧
      (s.LinesKept e s' ↔ s.Quiet e) := by
  cases he : e.remover with
  | none =>
    obtain ⟨line', hs', hk'⟩ := step_plain hs hk he hok
    have hothers : ∀ k, ¬ s.Others e k := by
      rintro k ⟨-, p, q, hp, -⟩
      nomatch he.symm.trans hp
    have hrem : ∀ h, ¬ s.Removes e h := by
      intro h hr
      cases e with
      | start p tab => exact hr
      | interrupt irq => exact hr
      | exit p => nomatch he
      | request p m => exact absurd he (by simp [IrqEvent.remover, hr.1])
    exact ⟨⟨line', hs'⟩, ⟨fun _ h _ hh => absurd hh (hrem h),
      fun _ => ⟨hk', fun k hh => absurd hh (hothers k)⟩⟩,
      ⟨fun _ h _ hh => absurd hh (hrem h), fun _ k hh => absurd hh (hothers k)⟩⟩
  | some p =>
    rcases step_taken hs he hok with ⟨rfl, hrem⟩ | ⟨line', ht⟩
    · exact ⟨⟨line, hs⟩, ⟨fun _ h _ hh => absurd hh (hrem h), fun _ => ⟨hk, fun k hother => ⟨hother.1, rfl⟩⟩⟩,
        ⟨fun _ h _ hh => absurd hh (hrem h), fun _ k _ => rfl⟩⟩
    refine ⟨⟨line', ht.hooked⟩, ?_, ht.linesKept_iff⟩
    rw [ht.kept_iff hs hk]
    exact ⟨fun h => h.1, fun h => ⟨h, ht.othersKept hs h⟩⟩

structure Start (s : IrqCtl) : Prop where
  empty : ∀ irq, s.irqs.lists.head irq = none
  free : ∀ h, s.owner h = none
  fresh : ∀ h, s.registered h = false

lemma Start.hooked (h : s.Start) : s.Hooked fun _ => [] where
  wired :=
    { links := fun irq => by
        rw [Lists.read, h.empty irq]
        exact .nil
      home := nofun
      nonzero := nofun
      apart := nofun }
  listed hh := nomatch hh
  owned hh := nomatch (h.fresh _).symm.trans hh
  alive hh := nomatch (h.free _).symm.trans hh
  single hh := nomatch (h.free _).symm.trans hh

end IrqCtl

/-- In every run in which a hook with the line and id of a removed one is always removed too, a hook
stays on its line until its owner removes it or exits, and removals leave the hooks of others on
their lines and enabled as they were; ids on a line differ. Of a removal from a state so reached the
condition is necessary. The mask of a line that others share stays as it was just if the line was
masked already. -/
theorem hooks_stay {n : Nat} (tr : Trace IrqCtl.step n) (h0 : (tr.state 0).Start)
    (hp : ∀ i < n, (tr.state i).Proper (tr.act i)) :
    (∀ i ≤ n, (tr.state i).HooksKept ∧ (tr.state i).DistinctIds) ∧
    (∀ i < n, (tr.state i).OthersKept (tr.act i) (tr.state (i + 1))) ∧
    ∀ e s', (tr.state n).step e = .ok s' → s'.DistinctIds ∧
      (s'.HooksKept ∧ (tr.state n).OthersKept e s' ↔ (tr.state n).Proper e) ∧
      ((tr.state n).LinesKept e s' ↔ (tr.state n).Quiet e) := by
  have hinv : ∀ i ≤ n, ∃ line, (tr.state i).Hooked line ∧ (tr.state i).HooksKept := by
    refine tr.invariant_of (fun s => ∃ line, s.Hooked line ∧ s.HooksKept) IrqCtl.Proper
      ⟨_, h0.hooked, fun h hr => nomatch (h0.fresh h).symm.trans hr⟩ hp fun ⟨line, hs, hk⟩ hproper hok => ?_
    obtain ⟨⟨line', hs'⟩, hiff, -⟩ := IrqCtl.step_hooks hs hk hok
    exact ⟨line', hs', (hiff.mpr hproper).1⟩
  refine ⟨fun i hi => ?_, fun i hi => ?_, fun e s' hok => ?_⟩
  · obtain ⟨line, hs, hk⟩ := hinv i hi
    exact ⟨hk, hs.distinctIds⟩
  · obtain ⟨line, hs, hk⟩ := hinv i hi.le
    exact ((IrqCtl.step_hooks hs hk (tr.ok i hi)).2.1.mpr (hp i hi)).2
  obtain ⟨line, hs, hk⟩ := hinv n le_rfl
  obtain ⟨⟨line', hs'⟩, hiff⟩ := IrqCtl.step_hooks hs hk hok
  exact ⟨hs'.distinctIds, hiff⟩

/-! ## A hook that is given back twice -/

lemma nrIrqVectors_pos : 0 < nrIrqVectors := by decide

def irqIdle : IrqCtl where
  irqs :=
    { lists := ⟨fun _ => none, fun _ => none⟩
      irq := fun _ => ⟨0, nrIrqVectors_pos⟩
      id := fun _ => 0
      actids := fun _ => 0
      masked := fun _ => true }
  owner _ := none
  notifyId _ := 0
  reenable _ := false
  live _ := false
  irqTab _ := none
  intPending _ := 0
  registered _ := false

def irqPolicy : IrqMsg := ⟨.setpolicy, 9, 0, true⟩

/-- Process 50 gives its hook on line 9 back, process 60 gets one there, and process 50 exits. -/
def giveBack : Nat → IrqEvent
  | 0 => .start 50 none
  | 1 => .start 60 none
  | 2 => .request 50 irqPolicy
  | 3 => .request 50 ⟨.rmpolicy, 0, 1, false⟩
  | 4 => .request 60 irqPolicy
  | _ => .exit 50

def gaveBack : Trace IrqCtl.step 6 := Trace.run IrqCtl.step irqIdle giveBack 6 (by decide +kernel)

theorem exit_unlinks_hook_of_other :
    ∃ tr : Trace IrqCtl.step 6, (tr.state 0).Start ∧ tr.act 5 = .exit 50 ∧ (tr.state 5).Others (tr.act 5) 1 ∧
      (tr.state 6).owner 1 = some 60 ∧ (tr.state 6).live 60 = true ∧ (tr.state 6).registered 1 = true ∧
      ¬ (tr.state 6).OnLine 1 := by
  have hhead : (gaveBack.state 6).irqs.lists.read (.head ((gaveBack.state 6).irqs.irq 1)) =
    none := by decide +kernel
  have hline : (gaveBack.state 5).OnLine 1 := by
    refine ⟨[1], .cons ?_, by decide⟩
    have hnext : (gaveBack.state 5).irqs.lists.next 1 = none := by decide +kernel
    exact hnext ▸ .nil
  refine ⟨gaveBack, ⟨fun _ => rfl, fun _ => rfl, fun _ => rfl⟩, rfl,
    ⟨hline, 50, 60, rfl, by decide +kernel, by decide⟩,
    by decide +kernel, by decide +kernel, by decide +kernel, ?_⟩
  rintro ⟨l, hl, hmem⟩
  unfold IrqCtl.Line at hl
  rw [hhead] at hl
  cases hl with
  | nil => nomatch hmem

/-- Up to the exit nothing is lost: when the first process gives its hook back, the line has no
other. -/
theorem hooks_stay_shared : (gaveBack.state 5).HooksKept ∧ (gaveBack.state 5).registered 1 = true := by
  let tr : Trace IrqCtl.step 5 := ⟨gaveBack.state, gaveBack.act, fun i hi => gaveBack.ok i (by omega)⟩
  have hline : (gaveBack.state 3).Line 9 [0] := by
    refine .cons ?_
    have hnext : (gaveBack.state 3).irqs.lists.next 0 = none := by decide +kernel
    exact hnext ▸ .nil
  have hown : ∀ h, (gaveBack.state 3).owner h = some 50 → h = 0 := by decide +kernel
  have hirq : (gaveBack.state 3).irqs.irq 0 = 9 := by decide +kernel
  have hproper : ∀ i < 5, (tr.state i).Proper (tr.act i) := by
    intro i hi h k hrem hon heq hid
    match i, hi with
    | 0, _ => exact hrem.elim
    | 1, _ => exact hrem.elim
    | 2, _ => nomatch hrem.1
    | 4, _ => nomatch hrem.1
    | 3, _ =>
      obtain rfl := hown h (IrqCtl.ownHook_owner hrem.2)
      obtain ⟨l, hl, hmem⟩ := hon
      rw [heq, hirq] at hl
      rw [hl.unique hline] at hmem
      exact List.mem_singleton.mp hmem ▸ hrem
  exact ⟨((hooks_stay tr ⟨fun _ => rfl, fun _ => rfl, fun _ => rfl⟩ hproper).1 5 le_rfl).1, by decide +kernel⟩

end Nucleos.Kernel
