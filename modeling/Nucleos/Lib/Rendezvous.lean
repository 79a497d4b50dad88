import Nucleos.Lib.FunctionalGraph
import Nucleos.Lib.IntrusiveList

/-!
# Synchronous message passing with caller queues

The abstract protocol: a process that sends to a partner that does not wait for it blocks
and is queued at the partner; a process that finds no message waits for one partner or for
any. A process that leaves wakes everybody who was blocked on it, but its own queue keeps
its last contents. Labels say which process acts, whose messages it accepts, and who leaves.
-/

namespace Nucleos.Rendezvous

open Function IntrusiveList FunctionalGraph

universe u
variable {α : Type u}

@[ext]
structure System (α : Type u) where
  live : α → Bool
  sendTo : α → Option α
  waitFor : α → Option (Option α)
  queues : Lists α α

structure Label (α : Type u) where
  actor : Option α
  source : Option α
  leaving : Option α

namespace System

variable {l' : List α} {e : α}

def waits (v : System α) (p : α) : Option α :=
  match v.sendTo p with
  | some d => some d
  | none => (v.waitFor p).join

def Chain (v : System α) (d : α) (l : List α) : Prop :=
  Links v.queues.next (v.queues.read (.head d)) l

structure Inv (v : System α) : Prop where
  chain : ∀ d, v.live d = true → ∃ l, v.Chain d l ∧ ∀ p, p ∈ l ↔ v.sendTo p = some d
  sender : ∀ p d, v.sendTo p = some d → v.live p = true ∧ v.live d = true
  waiter : ∀ p x, v.waitFor p = some x → v.live p = true ∧ ∀ d, x = some d → v.live d = true
  both : ∀ p d x, v.sendTo p = some d → v.waitFor p = some x → x = some d
  ends : v.queues.AllEnd

variable [DecidableEq α]

def wake (v : System α) (p : α) : System α :=
  { v with waitFor := update v.waitFor p none }

def send (v : System α) (p d : α) (l : List α) : System α :=
  { v with
    sendTo := update v.sendTo p (some d)
    queues := v.queues.append (Lists.lastCell (.head d) l) p }

def wait (v : System α) (p : α) (src : Option α) : System α :=
  { v with waitFor := update v.waitFor p (some src) }

def release (v : System α) (d q : α) (l : List α) : System α :=
  { v with
    sendTo := update v.sendTo q none
    queues := v.queues.unlink (Lists.lastCell (.head d) l) q }

def forget (v : System α) (rc : α) : System α :=
  { v with
    live := update v.live rc false
    sendTo := fun p => if p = rc ∨ v.sendTo p = some rc then none else v.sendTo p
    waitFor := fun p => if p = rc ∨ v.waitFor p = some (some rc) then none else v.waitFor p }

/-- One change of the protocol state. A process blocks only where that closes no cycle, except that
it may wait for itself. -/
inductive Step (a : Label α) (v : System α) : System α → Prop where
  | wake (p : α) : Step a v (v.wake p)
  | send (p d : α) (l : List α) (hactor : a.actor = some p) (hp : v.live p = true)
      (hd : v.live d = true) (hs : v.sendTo p = none) (hw : v.waitFor p = none) (hne : d ≠ p)
      (hacyc : ¬ Reaches v.waits d p) (hl : v.Chain d l) : Step a v (v.send p d l)
  | wait (p : α) (hactor : a.actor = some p) (hp : v.live p = true) (hw : v.waitFor p = none)
      (hlive : ∀ d, a.source = some d → v.live d = true)
      (hs : ∀ d, v.sendTo p = some d → a.source = some d)
      (hacyc : v.sendTo p = none → ∀ d, a.source = some d → d ≠ p → ¬ Reaches v.waits d p) :
      Step a v (v.wait p a.source)
  | release (d q : α) (l₁ l₂ : List α) (hactor : a.actor = some d) (hd : v.live d = true)
      (hl : v.Chain d (l₁ ++ q :: l₂)) (hskip : ∀ x ∈ l₁, a.source ≠ none ∧ a.source ≠ some x) :
      Step a v (v.release d q l₁)
  | leaveIdle (rc : α) (hleave : a.leaving = some rc) (hs : v.sendTo rc = none) :
      Step a v (v.forget rc)
  | leaveQueued (rc d : α) (l₁ l₂ : List α) (hleave : a.leaving = some rc)
      (hs : v.sendTo rc = some d) (hl : v.Chain d (l₁ ++ rc :: l₂)) :
      Step a v ((v.release d rc l₁).forget rc)

variable {v w : System α} {a : Label α} {p q d d' rc : α} {l l₁ l₂ : List α}

omit [DecidableEq α] in
lemma Chain.unique (h : v.Chain d l) (h' : v.Chain d l') : l = l' :=
  Links.unique h h'

section
variable (h : v.Inv) (hd : v.live d = true)
include h hd

omit [DecidableEq α] in
lemma Inv.mem_chain (hl : v.Chain d l) : p ∈ l ↔ v.sendTo p = some d := by
  obtain ⟨l', hl', hmem⟩ := h.chain d hd
  rw [hl.unique hl']
  exact hmem p

omit [DecidableEq α] in
lemma Inv.apart (hd' : v.live d' = true) (hne : d' ≠ d) (hl : v.Chain d l) (hl' : v.Chain d' l') :
    ∀ b ∈ l, b ∉ l' := by
  intro b hb hb'
  have hsend := (h.mem_chain hd hl).mp hb
  rw [(h.mem_chain hd' hl').mp hb', Option.some.injEq] at hsend
  exact hne hsend

lemma Inv.chain_send (hs : v.sendTo p = none)
    (hl : v.Chain d l) (hd' : v.live d' = true) (hl' : v.Chain d' l') :
    (v.send p d l).Chain d' (if d' = d then l' ++ [p] else l') := by
  have hp : ∀ e, v.live e = true → ∀ k, v.Chain e k → p ∉ k := by
    intro e he k hk hmem
    rw [h.mem_chain he hk, hs] at hmem
    cases hmem
  exact Lists.links_append_chain hl hl' ⟨hp d hd l hl, hp d' hd' l' hl'⟩ fun hne => h.apart hd hd' hne hl hl'

lemma Inv.chain_release (hl : v.Chain d (l₁ ++ q :: l₂))
    (hd' : v.live d' = true) (hl' : v.Chain d' l') : (v.release d q l₁).Chain d' (l'.erase q) :=
  Lists.links_unlink_chain hl hl' fun hne => h.apart hd hd' hne hl hl'

end

lemma update_none {β : Type u} {f : α → Option β} {x : α} {y : β} (h : update f p none x = some y) :
    x ≠ p ∧ f x = some y := by
  rw [update_apply] at h
  split_ifs at h with hx
  exact ⟨hx, h⟩

lemma update_some {β : Type u} {f : α → Option β} {x : α} {y z : β} (h : update f p (some z) x = some y) :
    (x = p ∧ z = y) ∨ f x = some y := by
  rw [update_apply] at h
  split_ifs at h with hx
  · exact .inl ⟨hx, Option.some.inj h⟩
  · exact .inr h

lemma inv_wake (h : v.Inv) (p : α) : (v.wake p).Inv :=
  ⟨h.chain, h.sender, fun x y hx => h.waiter x y (update_none hx).2, fun x e y hs hx =>
    h.both x e y hs (update_none hx).2, h.ends⟩

lemma inv_send (h : v.Inv) (hp : v.live p = true) (hd : v.live d = true)
    (hs : v.sendTo p = none) (hw : v.waitFor p = none) (hl : v.Chain d l) : (v.send p d l).Inv := by
  refine ⟨?_, ?_, h.waiter, ?_, Lists.allEnd_append h.ends _ _⟩
  · intro d' hd'
    obtain ⟨l', hl', hmem⟩ := h.chain d' hd'
    refine ⟨_, h.chain_send hd hs hl hd' hl', fun x => ?_⟩
    have hx : x ∈ l' ↔ v.sendTo x = some d' := hmem x
    by_cases hxp : x = p
    · subst hxp
      by_cases hdd : d' = d
      · simp [send, hdd]
      · simp [send, hdd, Ne.symm hdd, hx, hs]
    · by_cases hdd : d' = d
      · simp [send, hdd, hxp, hdd ▸ hx]
      · simp [send, hdd, hxp, hx]
  · intro x e hx
    rcases update_some hx with ⟨rfl, rfl⟩ | hx
    · exact ⟨hp, hd⟩
    · exact h.sender x e hx
  · intro x e y hx hy
    rcases update_some hx with ⟨rfl, -⟩ | hx
    · nomatch hw.symm.trans hy
    · exact h.both x e y hx hy

lemma inv_wait (h : v.Inv) {src : Option α} (hp : v.live p = true)
    (hlive : ∀ d, src = some d → v.live d = true) (hs : ∀ d, v.sendTo p = some d → src = some d) :
    (v.wait p src).Inv := by
  refine ⟨h.chain, h.sender, ?_, ?_, h.ends⟩
  · intro x y hx
    rcases update_some hx with ⟨rfl, rfl⟩ | hx
    · exact ⟨hp, hlive⟩
    · exact h.waiter x y hx
  · intro x e y hx hy
    rcases update_some hy with ⟨rfl, rfl⟩ | hy
    · exact hs e hx
    · exact h.both x e y hx hy

lemma inv_release (h : v.Inv) (hd : v.live d = true) (hl : v.Chain d (l₁ ++ q :: l₂)) :
    (v.release d q l₁).Inv := by
  have hread : v.queues.read (Lists.lastCell (.head d) l₁) = some q :=
    (Lists.read_lastCell _ hl).eq_some
  refine ⟨?_, fun x e hx => h.sender x e (update_none hx).2, h.waiter, fun x e y hx hy =>
    h.both x e y (update_none hx).2 hy,
    Lists.allEnd_unlink h.ends hread⟩
  intro d' hd'
  obtain ⟨l', hl', hmem⟩ := h.chain d' hd'
  refine ⟨_, h.chain_release hd hl hd' hl', fun x => ?_⟩
  rw [hl'.nodup.mem_erase_iff, hmem x]
  by_cases hxq : x = q
  · simp [release, hxq]
  · simp [release, hxq]

lemma forget_sendTo (h : (v.forget rc).sendTo p = some e) : p ≠ rc ∧ e ≠ rc ∧ v.sendTo p = some e := by
  obtain ⟨hn, h⟩ := Option.ite_none_left_eq_some.mp h
  exact ⟨fun hp => hn (.inl hp), fun he => hn (.inr (he ▸ h)), h⟩

lemma forget_waitFor {x : Option α} (h : (v.forget rc).waitFor p = some x) :
    p ≠ rc ∧ x ≠ some rc ∧ v.waitFor p = some x := by
  obtain ⟨hn, h⟩ := Option.ite_none_left_eq_some.mp h
  exact ⟨fun hp => hn (.inl hp), fun he => hn (.inr (he ▸ h)), h⟩

lemma forget_live (h : (v.forget rc).live p = true) : p ≠ rc ∧ v.live p = true := by
  by_cases hp : p = rc
  · subst hp
    simp [forget] at h
  · exact ⟨hp, by simpa [forget, hp] using h⟩

lemma live_forget (hp : p ≠ rc) (h : v.live p = true) : (v.forget rc).live p = true := by
  simpa [forget, hp] using h

lemma forget_release (v : System α) (d rc : α) (l : List α) : (v.release d rc l).forget rc =
    System.forget { v with queues := (v.release d rc l).queues } rc := by
  apply System.ext
  · rfl
  · funext p
    by_cases hp : p = rc
    · simp [forget, hp]
    · simp [forget, release, hp]
  · rfl
  · rfl

lemma inv_forget (h : v.Inv) (hs : v.sendTo rc = none) : (v.forget rc).Inv := by
  refine ⟨?_, ?_, ?_, ?_, h.ends⟩
  · intro d hd
    obtain ⟨hne, hd⟩ := forget_live hd
    obtain ⟨l, hl, hmem⟩ := h.chain d hd
    refine ⟨l, hl, fun x => (hmem x).trans ?_⟩
    constructor
    · intro hx
      have hxr : ¬ (x = rc ∨ v.sendTo x = some rc) := by
        rintro (rfl | hr)
        · rw [hs] at hx
          cases hx
        · rw [hx, Option.some.injEq] at hr
          exact hne hr
      simpa [forget, hxr] using hx
    · exact fun hx => (forget_sendTo hx).2.2
  · intro x e hx
    obtain ⟨hxr, her, hx⟩ := forget_sendTo hx
    obtain ⟨hlx, hle⟩ := h.sender x e hx
    exact ⟨live_forget hxr hlx, live_forget her hle⟩
  · intro x y hx
    obtain ⟨hxr, hyr, hx⟩ := forget_waitFor hx
    obtain ⟨hlx, hly⟩ := h.waiter x y hx
    exact ⟨live_forget hxr hlx, fun e he =>
      live_forget (fun her => hyr (he.trans (congrArg some her))) (hly e he)⟩
  · intro x e y hx hy
    exact h.both x e y (forget_sendTo hx).2.2 (forget_waitFor hy).2.2

lemma Step.inv (hstep : Step a v w) (h : v.Inv) : w.Inv := by
  cases hstep with
  | wake p => exact inv_wake h p
  | send p d l _ hp hd hs hw _ _ hl => exact inv_send h hp hd hs hw hl
  | wait p _ hp _ hlive hs _ => exact inv_wait h hp hlive hs
  | release d q l₁ l₂ _ hd hl _ => exact inv_release h hd hl
  | leaveIdle rc _ hs => exact inv_forget h hs
  | leaveQueued rc d l₁ l₂ _ hs hl =>
    exact inv_forget (inv_release h (h.sender rc d hs).2 hl) (by simp [System.release])

lemma waits_forget (h : v.Inv) (he : (v.forget rc).waits p = some e) : v.waits p = some e := by
  simp only [waits] at he ⊢
  cases hs : (v.forget rc).sendTo p with
  | some x =>
    rw [hs] at he
    rw [(forget_sendTo hs).2.2]
    exact he
  | none =>
    rw [hs] at he
    cases hw : (v.forget rc).waitFor p with
    | none => simp [hw] at he
    | some y =>
      obtain ⟨hpr, hyr, hw'⟩ := forget_waitFor hw
      simp only [hw, Option.join_some] at he
      cases hs' : v.sendTo p with
      | none => simpa [hw'] using he
      | some x =>
        -- `p` sent to `rc`, so it cannot have waited for somebody else
        have hx : x = rc := by
          simp only [forget] at hs
          split at hs
          · rename_i hor
            rcases hor with hpc | hor
            · exact absurd hpc hpr
            · rw [hs', Option.some.injEq] at hor
              exact hor
          · rw [hs'] at hs
            cases hs
        exact absurd (hx ▸ h.both p x y hs' hw') hyr

lemma waits_release (h : v.Inv) (hd : v.live d = true) (hl : v.Chain d (l₁ ++ q :: l₂))
    (he : (v.release d q l₁).waits p = some e) : v.waits p = some e := by
  by_cases hpq : p = q
  · subst hpq
    have hs : v.sendTo p = some d := (h.mem_chain hd hl).mp (by simp)
    simp only [waits, release, update_self] at he
    cases hw : v.waitFor p with
    | none => simp [hw] at he
    | some y =>
      have hy := h.both p d y hs hw
      simp only [hw, hy, Option.join_some, Option.some.injEq] at he
      simp only [waits, hs, he]
  · simpa [waits, release, hpq] using he

lemma waits_wake (he : (v.wake q).waits p = some e) : v.waits p = some e := by
  by_cases hpq : p = q
  · subst hpq
    cases hs : v.sendTo p with
    | none => simp [waits, wake, hs] at he
    | some x => simpa [waits, wake, hs] using he
  · simpa [waits, wake, hpq] using he

lemma waits_wait (v : System α) (p : α) (src : Option α) :
    (v.wait p src).waits = if v.sendTo p = none then update v.waits p src else v.waits := by
  funext x
  by_cases hx : x = p
  · subst hx
    cases hs : v.sendTo x <;> simp [waits, System.wait, hs]
  · split <;> simp [waits, System.wait, hx]

/-- A protocol in which nobody waits for itself never closes a cycle of waiting processes. -/
theorem Step.acyclic (hstep : Step a v w) (h : v.Inv) (hself : ∀ p, a.actor = some p → a.source ≠ some p)
    (hacyc : Acyclic v.waits) : Acyclic w.waits := by
  cases hstep with
  | wake p => exact hacyc.mono fun _ _ => waits_wake
  | send p d l _ _ _ hs hw hne hr _ =>
    have hp : v.waits p = none := by simp [waits, hs, hw]
    have heq : (v.send p d l).waits = update v.waits p (some d) := by
      funext x
      by_cases hx : x = p
      · subst hx
        simp [waits, System.send]
      · simp [waits, System.send, hx]
    rw [heq]
    exact hacyc.update hp hr
  | wait p hactor _ hw _ hs hr =>
    rw [waits_wait]
    split
    · next hsp =>
      have hp : v.waits p = none := by simp [waits, hsp, hw]
      cases hsrc : a.source with
      | none =>
        rw [← hp, update_eq_self]
        exact hacyc
      | some d =>
        have hne : d ≠ p := fun hd => hself p hactor (hsrc.trans (congrArg some hd))
        exact hacyc.update hp (hr hsp d hsrc hne)
    · exact hacyc
  | release d q l₁ l₂ _ hd hl _ => exact hacyc.mono fun _ _ => waits_release h hd hl
  | leaveIdle rc _ hs => exact hacyc.mono fun _ _ => waits_forget h
  | leaveQueued rc d l₁ l₂ _ hs hl =>
    have hd := (h.sender rc d hs).2
    exact hacyc.mono fun _ _ he => waits_release h hd hl (waits_forget (inv_release h hd hl) he)

def Before (v : System α) (d p q : α) : Prop := ∃ l, v.Chain d l ∧ [p, q].Sublist l

omit [DecidableEq α] in
lemma Before.not_head (h : v.Before d p q) : v.queues.read (.head d) ≠ some q := by
  obtain ⟨l, hl, hsub⟩ := h
  intro hq
  cases l with
  | nil => simp at hsub
  | cons x l =>
    have hnd : ([p, q] : List α).Nodup := hsub.nodup hl.nodup
    rw [Chain, hq] at hl
    obtain rfl := Option.some.inj hl.eq_some
    rcases List.sublist_cons_iff.mp hsub with hs | ⟨r, hr, hs⟩
    · exact (List.nodup_cons.mp hl.nodup).1 (hs.subset (by simp))
    · obtain ⟨rfl, -⟩ := List.cons.inj hr
      simp at hnd

def Ordered (v : System α) (d p q : α) : Prop :=
  v.sendTo p = some d → v.sendTo q = some d → v.Before d p q

lemma ordered_release (h : v.Inv) (hd : v.live d' = true) (hl : v.Chain d' (l₁ ++ rc :: l₂))
    (ho : v.Ordered d p q) : (v.release d' rc l₁).Ordered d p q := by
  intro hp hq
  obtain ⟨hpr, hp⟩ := update_none hp
  obtain ⟨hqr, hq⟩ := update_none hq
  obtain ⟨k, hk, hsub⟩ := ho hp hq
  refine ⟨_, h.chain_release hd hl (h.sender p d hp).2 hk, ?_⟩
  have hrest := hsub.erase rc
  rwa [List.erase_of_not_mem (by simp [hpr.symm, hqr.symm])] at hrest

lemma ordered_forget (ho : v.Ordered d p q) : (v.forget rc).Ordered d p q := by
  intro hp hq
  exact ho (forget_sendTo hp).2.2 (forget_sendTo hq).2.2

/-- Whoever blocks later is queued later, as long as the earlier one does not act itself. -/
theorem Step.ordered (hstep : Step a v w) (h : v.Inv) (hp : a.actor ≠ some p)
    (ho : v.Ordered d p q) : w.Ordered d p q := by
  cases hstep with
  | wake x => exact ho
  | wait x _ _ _ _ _ _ => exact ho
  | send x d' l hactor _ hd' hs _ _ _ hl =>
    have hpx : p ≠ x := fun hpx => hp (hactor.trans (congrArg some hpx.symm))
    intro hwp hwq
    have hvp : v.sendTo p = some d := by simpa [System.send, hpx] using hwp
    have hd := (h.sender p d hvp).2
    obtain ⟨k, hk, hmem⟩ := h.chain d hd
    refine ⟨_, h.chain_send hd' hs hl hd hk, ?_⟩
    by_cases hqx : q = x
    · subst hqx
      have hdd : d' = d := by simpa [System.send] using hwq
      rw [if_pos hdd.symm]
      exact (List.singleton_sublist.mpr ((hmem p).mpr hvp)).append (List.Sublist.refl [q])
    have hvq : v.sendTo q = some d := by simpa [System.send, hqx] using hwq
    obtain ⟨k', hk', hsub⟩ := ho hvp hvq
    obtain rfl := hk'.unique hk
    split
    · exact hsub.trans (List.sublist_append_left k' [x])
    · exact hsub
  | release d' x l₁ l₂ _ hd hl _ => exact ordered_release h hd hl ho
  | leaveIdle rc _ _ => exact ordered_forget ho
  | leaveQueued rc d' l₁ l₂ _ hs hl =>
    exact ordered_forget (ordered_release h (h.sender rc d' hs).2 hl ho)

end System

end Nucleos.Rendezvous
