import Nucleos.Kernel.Pending

/-!
# No notification is lost

The history of a run is read as a ledger: what `mini_notify` owes to a process, and which
bits of interrupts and signals it has still to be told about. The state of the kernel
always covers the debt, by a bit of `s_notify_pending` and by the words of pending bits.
-/

namespace Nucleos.Kernel

open IntrusiveList Run Mailbox

variable {s t u : State} {S D : Slot}

/-- The event that a notification from `S` to `D` was delivered, or that one of them left. -/
def Event.Settles (S D : Slot) (e : Event) : Prop :=
  (∃ arg, e = .notified (procNr S) D arg) ∨ e = .gone S ∨ e = .gone D

/-- `mini_notify` has accepted a notification from `S` to `D` and nothing has settled it since. -/
def Owed (S D : Slot) (h : List Event) : Prop :=
  ∃ new old, h = new ++ .notify S D :: old ∧ ∀ e ∈ new, ¬ e.Settles S D

variable {e : Event} {h : List Event}

lemma owed_cons :
    Owed S D (e :: h) ↔ e = .notify S D ∨ ¬ e.Settles S D ∧ Owed S D h := by
  constructor
  · rintro ⟨new, old, heq, hno⟩
    cases new with
    | nil => exact .inl (List.cons.inj heq).1
    | cons x new =>
      obtain ⟨rfl, rfl⟩ := List.cons.inj heq
      exact .inr ⟨hno e (.head _), new, old, rfl, fun e he => hno e (.tail _ he)⟩
  · rintro (rfl | ⟨hns, new, old, rfl, hno⟩)
    · exact ⟨[], h, rfl, nofun⟩
    · exact ⟨e :: new, old, rfl, List.forall_mem_cons.mpr ⟨hns, hno⟩⟩

lemma not_owed_nil : ¬ Owed S D [] := by
  rintro ⟨new, old, h, _⟩
  exact absurd h (by simp)

def State.Posted (s : State) (S D : Slot) : Prop :=
  ∃ i j, (s.proc S).pPriv = some i ∧ (s.proc D).pPriv = some j ∧
    getSysBit (s.priv j).sNotifyPending i = true

def Covered (s : State) : Prop :=
  ∀ S D, Owed S D s.history → s.isemptyp D = false → s.Live S ∧ s.Posted S D

/-- What is due on a channel is pending, for system processes exactly, and the notification that
will hand it over is posted, except perhaps for the process `x`. -/
structure Balanced (c : Channel) (x : Option Slot) (s : State) : Prop where
  exact : Exact (c.log s)
  held : ∀ p j, s.isemptyp p = false → (s.proc p).pPriv = some j → s.SysPriv j →
    c.pending (s.priv j) = due p (c.log s)
  kept : ∀ p j b, s.isemptyp p = false → (s.proc p).pPriv = some j →
    (due p (c.log s)).getLsbD b = true → (c.pending (s.priv j)).getLsbD b = true
  posted : ∀ p, x ≠ some p → s.isemptyp p = false → due p (c.log s) ≠ 0 →
    ∀ q, procNr q = c.task → s.Posted q p

lemma State.Posted.mono (h : s.Posted S D) (hst : Static s t)
    (hbits : ∀ i j, (s.proc S).pPriv = some i → (s.proc D).pPriv = some j →
      getSysBit (s.priv j).sNotifyPending i = true →
        getSysBit (t.priv j).sNotifyPending i = true) : t.Posted S D := by
  obtain ⟨i, j, hi, hj, hbit⟩ := h
  exact ⟨i, j, (hst.priv S).trans hi, (hst.priv D).trans hj, hbits i j hi hj hbit⟩

lemma Still.covered (h : Still s t) (hc : Covered s) : Covered t := by
  intro S D ho hD
  have ho' : Owed S D s.history := by
    rcases h.history with hh | ⟨e, hplain, hh⟩
    · rw [hh] at ho
      exact ho
    rw [hh, owed_cons] at ho
    rcases ho with rfl | ⟨_, ho⟩
    · exact absurd hplain id
    · exact ho
  obtain ⟨hlive, hpost⟩ := hc S D ho' ((h.isemptyp D).symm.trans hD)
  refine ⟨h.live.mpr hlive, hpost.mono h.static fun i j _ _ hbit => ?_⟩
  rw [h.notify]
  exact hbit

lemma Owed.of_cons (ho : Owed S D (e :: h)) (he : e ≠ .notify S D) :
    ¬ e.Settles S D ∧ Owed S D h := by
  rcases owed_cons.mp ho with h | h
  · exact absurd h he
  · exact h

variable {caller dst : Slot}

lemma Covered.notify (hc : Covered s) (hn : Notices s) (hs : s.FreeOk)
    (hlive : s.Live caller) (heff : NotifyEffect caller dst s t) : Covered t := by
  have hsteady := steady_notify hs heff
  intro S D ho hD
  have hD' := (hsteady.isemptyp D).symm.trans hD
  cases heff with
  | direct m u _ _ hbuild =>
    have hb := buildNotify_built hbuild
    have ho₁ : Owed S D (.notified (procNr caller) dst m.mData4 :: .notify caller dst :: s.history) := by
      rw [← hb.history]
      exact ho
    obtain ⟨hns, ho₂⟩ := ho₁.of_cons Event.noConfusion
    rcases owed_cons.mp ho₂ with heq | ⟨_, ho₃⟩
    · obtain ⟨rfl, rfl⟩ := Event.notify.inj heq
      exact absurd (.inl ⟨_, rfl⟩) hns
    obtain ⟨hl, hpost⟩ := hc S D ho₃ hD'
    refine ⟨hsteady.live.mpr hl, hpost.mono hsteady.static fun i j _ _ hbit => ?_⟩
    exact (congrArg (fun x => getSysBit x i) (hb.notify j)).trans hbit
  | posted i j hi hj =>
    have hset : ∀ k b, getSysBit (s.priv k).sNotifyPending b = true → getSysBit
        (((s.modPriv j fun v => { v with sNotifyPending := setSysBit v.sNotifyPending (s.priv i).sId }).record
          (.notify caller dst)).priv k).sNotifyPending b = true := by
      intro k b hb
      simp only [State.record_priv, State.modPriv_priv]
      split
      · rw [getSysBit_set, hb, Bool.or_true]
      · exact hb
    rcases owed_cons.mp ho with heq | ⟨_, ho₁⟩
    · obtain ⟨rfl, rfl⟩ := Event.notify.inj heq
      refine ⟨hsteady.live.mpr hlive, i, j, hi, hj, ?_⟩
      simp only [State.record_priv, State.modPriv_priv, if_true]
      rw [getSysBit_set, hn.id i]
      simp
    · obtain ⟨hl, hpost⟩ := hc S D ho₁ hD'
      exact ⟨hsteady.live.mpr hl, hpost.mono hsteady.static fun i' j' _ _ hbit => hset j' i' hbit⟩

lemma Covered.raise (hc : Covered s) (hs : s.FreeOk) (c : Channel) (i : PrivId) (dst : Slot)
    (bits : BitVec 32) :
    Covered (c.raise i dst bits s) := by
  have hsteady := c.steady_raise i dst bits hs
  intro S D ho hD
  have ho' : Owed S D s.history := by
    cases c with
    | int | sig => exact (ho.of_cons Event.noConfusion).2
  obtain ⟨hl, hpost⟩ := hc S D ho' ((hsteady.isemptyp D).symm.trans hD)
  refine ⟨hsteady.live.mpr hl, hpost.mono hsteady.static fun i' j' _ _ hbit => ?_⟩
  rw [(c.raise_priv i dst bits s j').1]
  exact hbit

variable {id : PrivId}

lemma Covered.take {p : Slot} {i : PrivId} (hc : Covered s) (hn : Notices s) (hs : s.FreeOk)
    (hp : s.isemptyp p = false) (hi : (s.proc p).pPriv = some i) (hmay : MayReceive s p)
    (hbit : getSysBit (s.priv i).sNotifyPending id = true) (h : takeNotify p i id s = .ok t) : Covered t := by
  have hsteady := steady_take hs h
  obtain ⟨src, arg, u, hsrc, _, _, hhist⟩ := takeNotify_eq_ok h
  obtain ⟨q, hq, hqi, hsys⟩ := hn.pending p i id hp hi hbit
  intro S D ho hD
  have hD' := (hsteady.isemptyp D).symm.trans hD
  rw [hhist] at ho
  obtain ⟨hns, ho⟩ := ho.of_cons Event.noConfusion
  obtain ⟨hl, hpost⟩ := hc S D ho hD'
  refine ⟨hsteady.live.mpr hl, hpost.mono hsteady.static fun iS jD hiS hjD hb => ?_⟩
  rw [take_bits h, hb, Bool.and_true, decide_eq_true_eq]
  rintro ⟨rfl, rfl⟩
  have hpD : p = D := hn.unshared hp hD' hi hjD (hn.sysPriv_of_receive hi hmay)
  have hS : (s.priv iS).sProcNr = procNr S := hn.owner S iS hl.1 hiS hsys
  exact hns (.inl ⟨arg, by rw [← hS, hsrc, hpD]⟩)

variable {rc : Slot}

lemma Covered.gone (hc : Covered s) (hn : Notices s) (hg : s.Good) (h : clearEndpoint rc s = .ok t) :
    Covered t := by
  obtain ⟨hrc, hgone, _, hpriv⟩ := clearEndpoint_spec hg h
  intro S D ho hD
  have hD' := (hgone.isemptyp D).symm.trans hD
  rw [hpriv.history] at ho
  obtain ⟨hns, ho⟩ := ho.of_cons Event.noConfusion
  have hS : S ≠ rc := fun he => hns (.inr (.inl (by rw [he])))
  obtain ⟨hl, hpost⟩ := hc S D ho hD'
  refine ⟨hgone.live.mpr ⟨hl, hS⟩, hpost.mono (static_clearEndpoint h) fun i j hi hj hb => ?_⟩
  rw [hpriv.bit hn hD' hj, hb, Bool.and_true, decide_eq_true_eq]
  intro hrci
  obtain ⟨q, _, _, hsys⟩ := hn.pending D j i hD' hj hb
  exact hS (hn.unshared hl.1 hrc hi hrci hsys)

lemma Covered.free {i : PrivId} (hc : Covered s) (hgone : s.rtsIsset rc rtsNoEndpoint = true)
    (h : Freed rc i s t) : Covered t := by
  intro S D ho hD
  rw [h.history] at ho
  obtain ⟨hl, hpost⟩ := hc S D ho (h.isemptyp hD).2
  refine ⟨h.live hgone hl, hpost.mono h.static fun i' j' _ _ hb => ?_⟩
  rw [h.notify j']
  exact hb

lemma Notice.covered (h : Notice s t) (hg : s.Good) (hn : Notices s) (hc : Covered s) : Covered t := by
  cases h with
  | still t h => exact h.covered hc
  | notify caller dst t hmay _ heff => exact hc.notify hn hg.freeOk (hn.notifier hmay).1 heff
  | raise c task dst i bits t htask _ _ heff =>
    have hsteady := c.steady_raise i dst bits hg.freeOk
    refine (hc.raise hg.freeOk c i dst bits).notify (hn.raise hg.freeOk c i dst bits) ?_ ?_ heff
    · exact (Passive.of_proc (c.raise_proc i dst bits s)).freeOk hg.freeOk
    · exact hsteady.live.mpr (hn.notifier (.inl (c.kernel_task htask))).1
  | take p i id t hp hpriv hmay hbit h => exact hc.take hn hg.freeOk hp hpriv hmay hbit h
  | gone rc t _ h => exact hc.gone hn hg h
  | free rc i _ _ hgone => exact hc.free hgone (freed s rc i)

section Balance
variable {c : Channel} {x : Option Slot} {p : Slot} {i : PrivId}

lemma Balanced.same (hb : Balanced c x s) (hst : Static s t)
    (hempty : ∀ p, t.isemptyp p = false → s.isemptyp p = false) (hlog : c.log t = c.log s)
    (hpend : ∀ j, c.pending (t.priv j) = c.pending (s.priv j))
    (hpost : ∀ p q, s.isemptyp p = false → procNr q = c.task → s.Posted q p → t.Posted q p) :
    Balanced c x t where
  exact := hlog ▸ hb.exact
  held p j hp hj hsys := by
    rw [hpend, hlog]
    exact hb.held p j (hempty p hp) ((hst.priv p).symm.trans hj) (hst.sysPriv.mp hsys)
  kept p j b hp hj := by
    rw [hpend, hlog]
    exact hb.kept p j b (hempty p hp) ((hst.priv p).symm.trans hj)
  posted p hx hp hdue q hq := by
    rw [hlog] at hdue
    exact hpost p q (hempty p hp) hq (hb.posted p hx (hempty p hp) hdue q hq)

lemma Balanced.drain {j : PrivId} {arg : BitVec 32} (hb : Balanced c x s) (hn : Notices s)
    (hst : Static s t) (hempty : ∀ q, t.isemptyp q = s.isemptyp q) (hp : s.isemptyp p = false)
    (hj : (s.proc p).pPriv = some j) (hsys : s.SysPriv j) (hlog : c.log t = .drain p arg :: c.log s)
    (harg : arg = c.pending (s.priv j))
    (hpend : ∀ k, c.pending (t.priv k) = if k = j then 0 else c.pending (s.priv k))
    (hpost : ∀ p' q, p' ≠ p → s.isemptyp p' = false → procNr q = c.task → s.Posted q p' → t.Posted q p')
    (hx : x = none ∨ x = some p) : Balanced c none t where
  exact := by
    rw [hlog]
    exact ⟨harg.trans (hb.held p j hp hj hsys), hb.exact⟩
  held q k hq hk hsys' := by
    have hq' := (hempty q).symm.trans hq
    have hk' := (hst.priv q).symm.trans hk
    rw [hpend, hlog, due]
    by_cases hkj : k = j
    · rw [if_pos hkj, if_pos (hn.unshared hp hq' hj (hkj ▸ hk') hsys)]
    have hne : p ≠ q := by
      rintro rfl
      exact hkj (Option.some.inj (hk'.symm.trans hj))
    rw [if_neg hkj, if_neg hne]
    exact hb.held q k hq' hk' (hst.sysPriv.mp hsys')
  kept q k b hq hk hdue := by
    have hq' := (hempty q).symm.trans hq
    have hk' := (hst.priv q).symm.trans hk
    rw [hlog, due] at hdue
    split at hdue
    · simp at hdue
    rename_i hne
    have hkj : k ≠ j := by
      rintro rfl
      exact hne (hn.unshared hp hq' hj hk' hsys)
    rw [hpend, if_neg hkj]
    exact hb.kept q k b hq' hk' hdue
  posted q _ hq hdue task htask := by
    have hq' := (hempty q).symm.trans hq
    rw [hlog, due] at hdue
    split at hdue
    · exact absurd rfl hdue
    rename_i hne
    have hxq : x ≠ some q := by
      rcases hx with rfl | rfl
      · simp
      · exact fun h => hne (Option.some.inj h)
    exact hpost q task (Ne.symm hne) hq' htask (hb.posted q hxq hq' hdue task htask)

lemma Balanced.close (hb : Balanced c (some p) s) (h : ∀ q, procNr q = c.task → s.Posted q p) :
    Balanced c none s where
  exact := hb.exact
  held := hb.held
  kept := hb.kept
  posted q _ hq hdue task htask := by
    by_cases hqp : q = p
    · rw [hqp]
      exact h task htask
    · exact hb.posted q (fun he => hqp (Option.some.inj he).symm) hq hdue task htask

lemma Channel.op_plain (c : Channel) (h : e.Plain) : c.op e = none := by
  cases e <;> first | exact absurd h id | (cases c <;> rfl)

lemma Still.log (h : Still s t) : c.log t = c.log s := by
  rcases h.history with hh | ⟨e, hplain, hh⟩
  · rw [Channel.log, hh, Channel.log]
  · rw [Channel.log, hh, List.filterMap_cons, c.op_plain hplain, Channel.log]

lemma Channel.log_notified (c : Channel) (src : Int) (dst : Slot) (arg : BitVec 32) (h : List Event) :
    List.filterMap c.op (.notified src dst arg :: h) =
      if src = c.task then .drain dst arg :: List.filterMap c.op h else List.filterMap c.op h := by
  have hop : c.op (.notified src dst arg) = if src = c.task then some (.drain dst arg) else none := by
    cases c <;> rfl
  rw [List.filterMap_cons, hop]
  by_cases hsrc : src = c.task
  · rw [if_pos hsrc, if_pos hsrc]
  · rw [if_neg hsrc, if_neg hsrc]

lemma Channel.op_notify (c : Channel) (caller dst : Slot) : c.op (.notify caller dst) = none := by
  cases c <;> rfl

lemma Channel.op_gone (c : Channel) (p : Slot) : c.op (.gone p) = none := by
  cases c <;> rfl

lemma Balanced.notify (hb : Balanced c x s) (hn : Notices s) (hs : s.FreeOk)
    (hdst : s.isemptyp dst = false) (hx : x = none ∨ x = some dst ∧ procNr caller = c.task)
    (heff : NotifyEffect caller dst s t) : Balanced c none t := by
  have hsteady := steady_notify hs heff
  cases heff with
  | direct m u hwill hreply hbuild =>
    have hbuilt := buildNotify_built hbuild
    have hbits : ∀ p q, s.Posted q p →
      State.Posted ((((deposit (u.proc caller).pEndpoint m dst u).rtsUnset dst
        rtsReceiving).record (.notify caller dst)).record (.notified (procNr caller) dst m.mData4)) q p := by
      intro p q hpost
      refine hpost.mono hsteady.static fun i j _ _ hbit => ?_
      exact (congrArg (fun x => getSysBit x i) (hbuilt.notify j)).trans hbit
    have hlog : Channel.log c ((((deposit (u.proc caller).pEndpoint m dst u).rtsUnset dst
        rtsReceiving).record (.notify caller dst)).record (.notified (procNr caller) dst m.mData4)) =
          if procNr caller = c.task then .drain dst m.mData4 :: c.log s else c.log s := by
      change List.filterMap c.op (.notified _ _ _ :: .notify _ _ :: u.history) = _
      rw [c.log_notified, List.filterMap_cons, c.op_notify, hbuilt.history]
      rfl
    by_cases htask : procNr caller = c.task
    · obtain ⟨j, hj, harg⟩ := hbuilt.arg c htask
      have hrecv : s.rtsIsset dst rtsReceiving = true := by
        simp only [State.willReceive, Bool.and_eq_true] at hwill
        exact hwill.1.1
      have hsys := hn.sysPriv_of_receive hj (hn.receiver dst hrecv hreply)
      rw [if_pos htask] at hlog
      refine hb.drain hn hsteady.static hsteady.isemptyp hdst hj hsys hlog harg (fun k => ?_)
        (fun p' q _ _ _ hpost => hbits p' q hpost) (hx.imp id And.left)
      refine (hbuilt.pending c k).trans ?_
      by_cases hk : k = j
      · rw [if_pos ⟨htask, hk ▸ hj⟩, if_pos hk]
      · rw [if_neg fun h => hk (Option.some.inj (h.2.symm.trans hj)), if_neg hk]
    · rw [if_neg htask] at hlog
      have hx' : x = none := hx.resolve_right fun h => htask h.2
      refine (hx' ▸ hb).same hsteady.static (fun p hp => (hsteady.isemptyp p).symm.trans hp) hlog
        (fun j => ?_)
        (fun p q _ _ hpost => hbits p q hpost)
      refine (hbuilt.pending c j).trans ?_
      rw [if_neg fun h => htask h.1]
  | posted i j hi hj =>
    have hpend : ∀ k, c.pending ((s.modPriv j fun v =>
        { v with sNotifyPending := setSysBit v.sNotifyPending (s.priv i).sId }).priv k) =
          c.pending (s.priv k) := by
      intro k
      rw [State.modPriv_priv]
      split
      · cases c <;> rfl
      · rfl
    have hset : ∀ k b, getSysBit ((s.modPriv j fun v =>
        { v with sNotifyPending := setSysBit v.sNotifyPending (s.priv i).sId }).priv k).sNotifyPending b =
          (decide (k = j ∧ b = i) || getSysBit (s.priv k).sNotifyPending b) := by
      intro k b
      rw [State.modPriv_priv]
      split
      · rename_i hk
        rw [getSysBit_set, hn.id]
        simp [hk]
      · rename_i hk
        simp [hk]
    have hlog : c.log ((s.modPriv j fun v =>
        { v with sNotifyPending := setSysBit v.sNotifyPending (s.priv i).sId }).record (.notify caller dst)) =
          c.log s := by
      change List.filterMap c.op (.notify caller dst :: s.history) = _
      rw [List.filterMap_cons, c.op_notify]
      rfl
    have hbal := hb.same hsteady.static (fun p hp => (hsteady.isemptyp p).symm.trans hp) hlog hpend
      fun p q _ _ hpost => hpost.mono hsteady.static fun i' j' _ _ hbit => by
        rw [State.record_priv, hset, hbit, Bool.or_true]
    rcases hx with rfl | ⟨rfl, htask⟩
    · exact hbal
    refine hbal.close fun q hq => ?_
    obtain rfl := procNr_injective (hq.trans htask.symm)
    exact ⟨i, j, hi, hj, by rw [State.record_priv, hset]; simp⟩

lemma Balanced.take (hb : Balanced c none s) (hn : Notices s) (hs : s.FreeOk)
    (hp : s.isemptyp p = false) (hi : (s.proc p).pPriv = some i) (hmay : MayReceive s p)
    (h : takeNotify p i id s = .ok t) : Balanced c none t := by
  have hsteady := steady_take hs h
  have hsys := hn.sysPriv_of_receive hi hmay
  obtain ⟨src, arg, u, hsrc, hbuilt, hpriv, hhist⟩ := takeNotify_eq_ok h
  have hcleared : ∀ k, c.pending ((s.modPriv i fun v =>
      { v with sNotifyPending := unsetSysBit v.sNotifyPending id }).priv k) = c.pending (s.priv k) := by
    intro k
    rw [State.modPriv_priv]
    split
    · cases c <;> rfl
    · rfl
  have hlog : c.log t = if procNr src = c.task then .drain p arg :: c.log s else c.log s := by
    rw [Channel.log, hhist, c.log_notified]
    rfl
  by_cases htask : procNr src = c.task
  · rw [if_pos htask] at hlog
    obtain ⟨j, hj, harg⟩ := hbuilt.arg c htask
    obtain rfl : i = j := Option.some.inj (hi.symm.trans hj)
    rw [hcleared] at harg
    refine hb.drain hn hsteady.static hsteady.isemptyp hp hi hsys hlog harg (fun k => ?_)
      (fun p' q hne hp' _ hpost => hpost.mono hsteady.static fun iq jp _ hjp hbit => ?_) (.inl rfl)
    · rw [hpriv, hbuilt.pending, hcleared]
      by_cases hk : k = i
      · rw [if_pos ⟨htask, hk ▸ hi⟩, if_pos hk]
      · rw [if_neg fun h => hk (Option.some.inj (h.2.symm.trans hi)), if_neg hk]
    · rw [take_bits h, hbit, Bool.and_true, decide_eq_true_eq]
      rintro ⟨rfl, _⟩
      exact hne (hn.unshared hp' hp hjp hi hsys)
  · rw [if_neg htask] at hlog
    refine hb.same hsteady.static (fun q hq => (hsteady.isemptyp q).symm.trans hq) hlog (fun j => ?_)
      (fun p' q _ hq hpost => hpost.mono hsteady.static fun iq jp hiq _ hbit => ?_)
    · rw [hpriv, hbuilt.pending, hcleared, if_neg fun h => htask h.1]
    rw [take_bits h, hbit, Bool.and_true, decide_eq_true_eq]
    rintro ⟨_, rfl⟩
    obtain ⟨hlive, k, hk, hsysq⟩ := hn.task q (c.kernel_task hq)
    obtain rfl : iq = k := Option.some.inj (hiq.symm.trans hk)
    exact htask (hsrc.symm.trans ((hn.owner q iq hlive.1 hiq hsysq).trans hq))

lemma Balanced.gone (hb : Balanced c none s) (hn : Notices s) (hg : s.Good)
    (hker : iskerneln (procNr rc) = false) (h : clearEndpoint rc s = .ok t) : Balanced c none t := by
  obtain ⟨hrc, hgone, _, hpriv⟩ := clearEndpoint_spec hg h
  refine hb.same (static_clearEndpoint h) (fun p hp => (hgone.isemptyp p).symm.trans hp) ?_ (fun j => ?_)
    (fun p q hp hq hpost => hpost.mono (static_clearEndpoint h) fun iq jp hiq hjp hbit => ?_)
  · rw [Channel.log, hpriv.history, List.filterMap_cons, c.op_gone]
    rfl
  · obtain ⟨i, _, hp⟩ := hpriv.priv
    obtain ⟨m, n, hm, _⟩ := hp j
    rw [hm]
    cases c <;> rfl
  rw [hpriv.bit hn hp hjp, hbit, Bool.and_true, decide_eq_true_eq]
  intro hrci
  obtain ⟨hlive, k, hk, hsys⟩ := hn.task q (c.kernel_task hq)
  obtain rfl : iq = k := Option.some.inj (hiq.symm.trans hk)
  obtain rfl := hn.unshared hlive.1 hrc hiq hrci hsys
  exact absurd (c.kernel_task hq) (ne_true_of_eq_false hker)

lemma Balanced.free (hb : Balanced c none s) (h : Freed rc i s t) : Balanced c none t := by
  refine hb.same h.static (fun p hp => (h.isemptyp hp).2) ?_ (fun j => ?_)
    (fun p q _ _ hpost => hpost.mono h.static fun iq jp _ _ hbit => ?_)
  · rw [Channel.log, h.history, Channel.log]
  · rcases h.priv j with hj | ⟨_, _, hj⟩
    · rw [hj]
    · rw [hj]
      cases c <;> rfl
  · rw [h.notify jp]
    exact hbit

lemma Channel.raise_pending (c : Channel) (i : PrivId) (dst : Slot) (bits : BitVec 32) (s : State)
    (k : PrivId) :
    c.pending ((c.raise i dst bits s).priv k) =
      if k = i then c.pending (s.priv k) ||| bits else c.pending (s.priv k) := by
  cases c with
  | int | sig =>
    simp only [raise, State.record_priv, State.modPriv_priv]
    split <;> rfl

lemma Channel.raise_log (c : Channel) (i : PrivId) (dst : Slot) (bits : BitVec 32) (s : State) :
    c.log (c.raise i dst bits s) = .post dst bits :: c.log s := by
  cases c <;> rfl

lemma Balanced.raise_other {c' : Channel} (hne : c ≠ c') (hb : Balanced c none s) (hs : s.FreeOk) (i : PrivId)
    (dst : Slot) (bits : BitVec 32) : Balanced c none (c'.raise i dst bits s) := by
  have hsteady := c'.steady_raise i dst bits hs
  refine hb.same hsteady.static (fun p hp => (hsteady.isemptyp p).symm.trans hp) ?_ (fun j => ?_)
    (fun p q _ _ hpost => hpost.mono hsteady.static fun iq jp _ _ hbit => ?_)
  · cases c <;> cases c' <;> first | exact absurd rfl hne | rfl
  · cases c <;> cases c' <;> first
      | exact absurd rfl hne
      | (simp only [Channel.raise, State.record_priv, State.modPriv_priv]
         split <;> rfl)
  · rw [(c'.raise_priv i dst bits s jp).1]
    exact hbit

lemma Balanced.raise_self (hb : Balanced c none s) (hn : Notices s) (hs : s.FreeOk)
    (hdst : s.isemptyp dst = false) (hi : (s.proc dst).pPriv = some i) (bits : BitVec 32) :
    Balanced c (some dst) (c.raise i dst bits s) := by
  have hsteady := c.steady_raise i dst bits hs
  have hempty : ∀ p, (c.raise i dst bits s).isemptyp p = false → s.isemptyp p = false :=
    fun p hp => (hsteady.isemptyp p).symm.trans hp
  have hpriv : ∀ p j, ((c.raise i dst bits s).proc p).pPriv = some j → (s.proc p).pPriv = some j :=
    fun p j hj => (hsteady.static.priv p).symm.trans hj
  refine ⟨?_, fun p j hp hj hsys => ?_, fun p j b hp hj hdue => ?_, fun p hx hp hdue q hq => ?_⟩
  · rw [c.raise_log]
    exact hb.exact
  · have hsys' := hsteady.static.sysPriv.mp hsys
    have hold := hb.held p j (hempty p hp) (hpriv p j hj) hsys'
    rw [c.raise_pending, c.raise_log, due, hold]
    by_cases hji : j = i
    · rw [if_pos hji, if_pos (hn.unshared hdst (hempty p hp) hi (hji ▸ hpriv p j hj) (hji ▸ hsys'))]
    have hne : dst ≠ p := by
      rintro rfl
      exact hji (Option.some.inj ((hpriv dst j hj).symm.trans hi))
    rw [if_neg hji, if_neg hne]
  · have hold := hb.kept p j b (hempty p hp) (hpriv p j hj)
    rw [c.raise_log, due] at hdue
    rw [c.raise_pending]
    split at hdue
    · rename_i hp'
      subst hp'
      have hji : j = i := Option.some.inj ((hpriv dst j hj).symm.trans hi)
      rw [BitVec.getLsbD_or, Bool.or_eq_true] at hdue
      rw [if_pos hji, BitVec.getLsbD_or, Bool.or_eq_true]
      exact hdue.imp hold id
    · split
      · rw [BitVec.getLsbD_or, hold hdue, Bool.true_or]
      · exact hold hdue
  · have hne : dst ≠ p := fun h => hx (congrArg some h)
    rw [c.raise_log, due, if_neg hne] at hdue
    refine (hb.posted p (by simp) (hempty p hp) hdue q hq).mono hsteady.static fun iq jp _ _ hbit => ?_
    rw [(c.raise_priv i dst bits s jp).1]
    exact hbit

lemma Notice.balanced (h : Notice s t) (hg : s.Good) (hn : Notices s) (hb : Balanced c none s) :
    Balanced c none t := by
  cases h with
  | still t h =>
    refine hb.same h.static (fun p hp => (h.isemptyp p).symm.trans hp) h.log (h.pending c)
      fun p q _ _ hpost => hpost.mono h.static fun i j _ _ hbit => ?_
    rw [h.notify]
    exact hbit
  | notify caller dst t _ hdst heff => exact hb.notify hn hg.freeOk hdst (.inl rfl) heff
  | raise c' task dst i bits t htask hdst hpriv heff =>
    have hsteady := c'.steady_raise i dst bits hg.freeOk
    have hn' := hn.raise hg.freeOk c' i dst bits
    have hfree := (Passive.of_proc (c'.raise_proc i dst bits s)).freeOk hg.freeOk
    have hdst' := (hsteady.isemptyp dst).trans hdst
    by_cases hc : c = c'
    · subst hc
      exact (hb.raise_self hn hg.freeOk hdst hpriv bits).notify hn' hfree hdst' (.inr ⟨rfl, htask⟩) heff
    · exact (hb.raise_other hc hg.freeOk i dst bits).notify hn' hfree hdst' (.inl rfl) heff
  | take p i id t hp hpriv hmay _ h => exact hb.take hn hg.freeOk hp hpriv hmay h
  | gone rc t hker h => exact hb.gone hn hg hker h
  | free rc i _ _ _ => exact hb.free (freed s rc i)

lemma Boot.balanced (h : Boot s) : Balanced c none s := by
  have hlog : c.log s = [] := by rw [Channel.log, h.history, List.filterMap_nil]
  refine ⟨?_, fun p j _ _ _ => ?_, fun p j b _ _ hdue => ?_, fun p _ _ hdue => ?_⟩
  · rw [hlog]
    exact trivial
  · rw [hlog]
    cases c with
    | int => exact h.intr j
    | sig => exact h.sig j
  · rw [hlog] at hdue
    simp [due] at hdue
  · rw [hlog] at hdue
    exact absurd rfl hdue

end Balance

lemma miniNotify_owed {dstE : Int} (hD : s.isokendpt dstE = some D) (h : miniNotify S dstE s = .ok (0, t)) :
    Owed S D t.history ∨ ∃ arg, t.history = .notified (procNr S) D arg :: .notify S D :: s.history := by
  rcases miniNotify_eq_ok h with ⟨hnone, _, _⟩ | ⟨d, hd, _, heff⟩
  · nomatch hnone.symm.trans hD
  obtain rfl := Option.some.inj (hd.symm.trans hD)
  cases heff with
  | direct m u _ _ hbuild =>
    refine .inr ⟨m.mData4, ?_⟩
    rw [← (buildNotify_built hbuild).history]
    rfl
  | posted i j _ _ => exact .inl (owed_cons.mpr (.inl rfl))

/-- In every state of a run from boot: a notification that was accepted and not delivered is posted,
unless one of the two processes has left; and every interrupt and signal bit is still pending,
behind a posted notification, or was handed over by the first message of its task after it, and by
no later one. -/
theorem notifications_not_lost {n : Nat} (tr : Trace step n) (hboot : Boot (tr.state 0)) {k : Nat}
    (hk : k ≤ n) :
    (∀ S D dstE t, (tr.state k).isokendpt dstE = some D → miniNotify S dstE (tr.state k) = .ok (0, t) →
      Owed S D t.history ∨ ∃ arg, t.history = .notified (procNr S) D arg :: .notify S D ::
        (tr.state k).history) ∧
    (∀ S D, Owed S D (tr.state k).history → (tr.state k).isemptyp D = false → (tr.state k).Posted S D) ∧
    ∀ (c : Channel) p j pre bits old b, (tr.state k).isemptyp p = false →
      ((tr.state k).proc p).pPriv = some j → c.log (tr.state k) = pre ++ .post p bits :: old →
      bits.getLsbD b = true →
        ((∀ o ∈ pre, ¬ o.Drains p) ∧ (c.pending ((tr.state k).priv j)).getLsbD b = true ∧
          ∀ q, procNr q = c.task → (tr.state k).Posted q p) ∨
        ∃ new arg mid, pre = new ++ .drain p arg :: mid ∧ (∀ o ∈ mid, ¬ o.Drains p) ∧ arg.getLsbD b = true ∧
          ∀ new₁ arg' new₂, new = new₁ ++ .drain p arg' :: new₂ → arg'.getLsbD b = true →
            ∃ bits', .post p bits' ∈ new₂ ∧ bits'.getLsbD b = true := by
  have hcov : Covered (tr.state k) := by
    refine (Trace.notice_invariant tr hboot (P := Covered) ?_ (fun hg hn hc h => h.covered hg hn hc) k hk).2
    intro S D ho
    rw [hboot.history] at ho
    exact absurd ho not_owed_nil
  refine ⟨fun S D dstE t hD h => miniNotify_owed hD h, fun S D ho hD => (hcov S D ho hD).2, ?_⟩
  intro c p j pre bits old b hp hj hlog hbit
  have hb : Balanced c none (tr.state k) :=
    (Trace.notice_invariant tr hboot (P := Balanced c none) hboot.balanced
      (fun hg hn hb h => h.balanced hg hn hb) k hk).2
  rcases (hlog ▸ hb.exact : Exact (pre ++ .post p bits :: old)).once hbit with ⟨hno, hdue⟩ | h
  · rw [← hlog] at hdue
    refine .inl ⟨hno, hb.kept p j b hp hj hdue, hb.posted p nofun hp ?_⟩
    intro hz
    rw [hz] at hdue
    simp at hdue
  · exact .inr h

def interruptVfs : Trace step 1 :=
  Trace.run step bootKernel (fun _ => .interrupt vfsProcNr 3) 1 (by decide +kernel)

/-- The interrupt is pending for VFS, and a notification of the hardware task is posted. -/
theorem notifications_not_lost_of_interruptVfs :
    ((interruptVfs.state 1).priv 5).sIntPending.getLsbD 3 = true ∧ (interruptVfs.state 1).Posted 3 5 := by
  have h := notifications_not_lost interruptVfs boot_bootKernel (k := 1) (by decide)
  rcases h.2.2 .int 5 5 [] 8 [] 3 (by decide +kernel) (by decide +kernel) rfl (by decide) with
    ⟨_, hpend, hpost⟩ | ⟨new, arg, mid, hpre, _⟩
  · exact ⟨hpend, hpost 3 (by decide)⟩
  · exact absurd hpre (by simp)

end Nucleos.Kernel
