import Nucleos.Kernel.Boot

/-!
# The caller queues

In every state of a run from boot, the blocked senders are exactly the processes on the
caller queues, and a process that receives from anybody serves its queue in order.
-/

namespace Nucleos.Kernel

open IntrusiveList Rendezvous Run

variable {s t u : State} {d : Slot} {r : Int} {flags : BitVec 32} {env : Env} {msg : Nat}

/-- The process occurs `k` times on the caller queue of `d`, which ends. -/
def Queued (s : State) (d p : Slot) (k : Nat) : Prop :=
  ∃ l, Links s.queues.next (s.proc d).pCallerQ l ∧ l.count p = k

structure CallerQueues (s : State) : Prop where
  finite : ∀ d, ∃ l, Links s.queues.next (s.proc d).pCallerQ l
  sending : ∀ p, s.Live p → (s.rtsIsset p rtsSending = true ↔
    ∃ d, s.Live d ∧ (s.proc d).pEndpoint = (s.proc p).pSendtoE ∧ Queued s d p 1 ∧
      ∀ d', s.Live d' → d' ≠ d → Queued s d' p 0)

lemma State.Good.queued (hg : s.Good) {p : Slot} (hd : s.Live d) :
    Queued s d p (if s.protocol.sendTo p = some d then 1 else 0) := by
  obtain ⟨l, hl, hmem⟩ := hg.inv.chain d (State.live_iff.mpr hd)
  refine ⟨l, hl, ?_⟩
  split
  · rename_i hp
    exact List.count_eq_one_of_mem hl.nodup ((hmem p).mpr hp)
  · rename_i hp
    exact List.count_eq_zero.mpr fun hm => hp ((hmem p).mp hm)

lemma State.Good.callerQueues (hg : s.Good) : CallerQueues s := by
  refine ⟨fun d => hg.inv.ends (.head d), fun p _ => ⟨fun hs => ?_, ?_⟩⟩
  · obtain ⟨d, hd⟩ := (hg.sending_iff p).mp hs
    have hlive := State.live_iff.mp (hg.inv.sender p d hd).2
    refine ⟨d, hlive, ((s.isokendpt_eq_some).mp (State.sendTo_eq_some.mp hd).2).2.2, ?_, ?_⟩
    · simpa [hd] using hg.queued (p := p) hlive
    · intro d' hd' hne
      simpa [hd, Ne.symm hne] using hg.queued (p := p) hd'
  · rintro ⟨d, hd, _, ⟨l, hl, hcount⟩, _⟩
    have hmem : p ∈ l := List.count_pos_iff.mp (by omega)
    exact (hg.sending_iff p).mpr ⟨d, (hg.inv.mem_chain (State.live_iff.mpr hd) hl).mp hmem⟩

/-- Of the blocked senders only the first on the queue of `d` can be let go. -/
def OnlyHead (d : Slot) (s t : State) : Prop :=
  ∀ q, s.rtsIsset q rtsSending = true → t.rtsIsset q rtsSending = true ∨ (s.proc d).pCallerQ = some q

lemma Passive.sending (h : Passive s t) : OnlyHead d s t :=
  fun q hq => .inl ((h q).sending.trans hq)

lemma OnlyHead.after (h : OnlyHead d u t) (hs : ∀ q, u.rtsIsset q rtsSending = s.rtsIsset q rtsSending)
    (hq : (u.proc d).pCallerQ = (s.proc d).pCallerQ) : OnlyHead d s t := by
  intro q hsend
  rw [← hs q] at hsend
  rw [← hq]
  exact h q hsend

lemma OnlyHead.after_passive (hp : Passive s u) (h : OnlyHead d u t) : OnlyHead d s t :=
  h.after (fun q => (hp q).sending) (hp d).callerQ

lemma OnlyHead.after_quiet (hq : Quiet s u) (h : OnlyHead d u t) : OnlyHead d s t :=
  h.after (fun q => congrArg Shadow.sending (hq.shadow q)) (congrArg Shadow.callerQ (hq.shadow d))

lemma OnlyHead.then_passive (h : OnlyHead d s u) (hp : Passive u t) : OnlyHead d s t := by
  intro q hq
  rcases h q hq with hu | hq'
  · exact .inl ((hp q).sending.trans hu)
  · exact .inr hq'

lemma blockReceive_sending {e : Int} {src : Option Slot}
    (h : blockReceive d e src flags s = .ok (r, t)) : OnlyHead d s t := by
  intro q hq
  left
  rcases blockReceive_eq_ok h with rfl | ⟨_, rfl⟩
  · exact hq
  · rw [markReceiving_isset d q e s (by decide)]
    exact hq

lemma receiveCaller_any (hs : s.Sound) (hd : s.Live d)
    (h : receiveCaller d none s = .ok (some t)) : OnlyHead d s t := by
  obtain ⟨xpp, q, u, hwalk, hread, hu, rfl⟩ := receiveCaller_eq_ok hs.epOk hs.queueLive hd h
  have hp := ((handOver_updates d q s).trans (hu (.idle (kernelEnv Msg.zero)))).passive hs.freeOk
  -- the walk accepts the first process it meets
  have hhead : (s.proc d).pCallerQ = some q := by
    rw [State.queueFuel, Lists.walk] at hwalk
    split at hwalk
    · next hq =>
      cases hwalk
      cases hq.symm.trans hread
    · cases hwalk
      exact hread
  intro x hx
  by_cases hxq : x = q
  · exact .inr (hxq ▸ hhead)
  left
  rw [State.writeCell_rtsIsset, State.rtsIsset_rtsUnset_self _ q x (by decide)]
  have hkeep : u.rtsIsset x rtsSending = true := (hp x).sending.trans hx
  simp [hxq, hkeep]

lemma miniReceive_any {mPtr : Nat} (hs : s.Sound)
    (hd : s.Live d) (h : miniReceive env d endptAny mPtr flags s = .ok (r, t)) : OnlyHead d s t := by
  rcases miniReceive_eq_ok h with rfl | ⟨src, hsrc, _, h⟩
  · exact (Passive.refl _).sending
  obtain rfl : src = none := by
    rw [receiveSource, if_pos rfl] at hsrc
    exact (Except.ok.inj hsrc).symm
  rcases h with ⟨_, h⟩ | hn | hc | ⟨found, v, _, ha, h⟩
  · exact blockReceive_sending h
  · unfold receiveNotify at hn
    split at hn
    · cases hn
    obtain ⟨i, _, hn⟩ := bind_eq_ok.mp hn
    split at hn
    · cases hn
    obtain ⟨w, hw, hn⟩ := bind_eq_ok.mp hn
    cases hn
    exact (passive_take hw).sending
  · exact receiveCaller_any hs hd hc
  · have hup : Updates (.idle env) s v := (receiveAsyn_updates (receiveSource_nonempty hsrc) ha rfl).1
    have hp := hup.passive hs.freeOk
    rcases h with rfl | h
    · exact hp.sending
    · exact .after_passive hp (blockReceive_sending h)

lemma performCall_any (hg : s.Good)
    (hd : s.Live d) (h : performCall env d kipcReceive flags endptAny msg s = .ok (r, t)) :
    OnlyHead d s t := by
  have hst := static_mfUnset s d mfReplyPend
  have hgood : (s.mfUnset d mfReplyPend).Good :=
    (refines_misc (l := .idle env) hg hst rfl rfl).1
  have hlive : (s.mfUnset d mfReplyPend).Live d :=
    ⟨(isemptyp_mfUnset s d d _).trans hd.1, (rtsIsset_mfUnset s d d _ _).trans hd.2⟩
  rw [performCall, if_neg (by decide), if_neg (by decide), if_pos rfl] at h
  refine (miniReceive_any hgood.sound hlive h).after (fun q => rtsIsset_mfUnset s d q _ _) ?_
  simp [State.mfUnset, State.modProc_proc]

lemma trapCall_any (hg : s.Good) (hd : s.Live d)
    (h : trapCall env d kipcReceive flags endptAny msg s = .ok t) : OnlyHead d s t := by
  unfold trapCall at h
  obtain ⟨⟨r, v⟩, hcall, h⟩ := bind_eq_ok.mp h
  cases h
  have hgv : OnlyHead d s v := by
    obtain ⟨u, hq, _, hcall⟩ := kipcCall_eq_ok hcall
    have hgood := (Update.refines (l := .idle env) (.quiet _ hq) hg).1
    refine .after_quiet hq ?_
    rcases hcall with hw | hcall
    · have hup : Updates (.idle env) u v := causeSig_updates hgood.epOk (hq.live hd).1 hw
      exact (hup.passive hgood.freeOk).sending
    rcases checkedCall_eq_ok hcall with rfl | ⟨_, hcall⟩
    · exact (Passive.refl _).sending
    · exact performCall_any hgood (hq.live hd) hcall
  intro q hq
  rcases hgv q hq with hv | hhead
  · exact .inl ((congrArg Shadow.sending ((quiet_retreg d r v).shadow q)).trans hv)
  · exact .inr hhead

def Action.ReceivesAny (d : Slot) (a : Action) : Prop :=
  ∃ flags msg env, a = .trap d 2 flags endptAny msg env ∨ a = .resume d 2 flags endptAny msg env

lemma step_any {a : Action} (hg : s.Good) (ha : a.ReceivesAny d) (h : step s a = .ok t) : OnlyHead d s t := by
  obtain ⟨flags, msg, env, rfl | rfl⟩ := ha
  · rcases ite_eq_iff.mp h with ⟨hrun, h⟩ | ⟨_, h⟩
    · have hready := ready_of_runnable (Bool.and_eq_true_iff.mp (Bool.and_eq_true_iff.mp hrun).1).1
      have hq : Quiet s (s.modProc d fun x => { x with syscall0x80 := false }) := by
        apply Quiet.modProc
        · rfl
        · exact id
      have hgood := (Update.refines (l := .idle env) (.quiet _ hq) hg).1
      exact .after_quiet hq (trapCall_any hgood (hq.live hready.1) h)
    · cases h
      exact (Passive.refl _).sending
  · rcases ite_eq_iff.mp h with ⟨hrun, h⟩ | ⟨_, h⟩
    · have hready := ready_of_runnable (Bool.and_eq_true_iff.mp (Bool.and_eq_true_iff.mp hrun).1).1
      obtain ⟨v, hv, h⟩ := bind_eq_ok.mp h
      have hany := trapCall_any hg hready.1 hv
      split at h
      · have hup : Updates (entryOf s (.resume d 2 flags endptAny msg env)) s v :=
          trapCall_updates (.refl s) rfl rfl rfl (fun u hu => (hu.good hg).sound) hready hv
        have hgv := hup.good hg
        have hp : v.isemptyp d = false :=
          (hup.isemptyp (fun u hu => (hu.good hg).freeOk) rfl d).trans hready.1.1
        have hsig : Updates (.idle env) v t := sigDelayDone_updates hgv.epOk hp h
        exact hany.then_passive (hsig.passive hgv.freeOk)
      · cases h
        exact hany
    · cases h
      exact (Passive.refl _).sending

/-- A blocked process does not act, so nobody overtakes it. -/
theorem step_ordered {p q : Slot} {a : Action} (hg : s.Good) (hp : s.rtsIsset p rtsSending = true)
    (ho : s.protocol.Ordered d p q) (h : step s a = .ok t) : t.protocol.Ordered d p q := by
  have go : (entryOf s a).actor ≠ some p → t.protocol.Ordered d p q := fun hactor =>
    (hg.updates h).protocol_induct hg ho fun _ _ hinv hov hs => hs.ordered hinv hactor hov
  have blocked : s.procIsRunnable p = false := by
    rw [Bool.eq_false_iff]
    intro hrun
    exact absurd hp (ne_true_of_eq_false (ready_of_runnable hrun).2.1)
  -- what a blocked process asks for is not done
  have idle : ∀ x : Slot, (x = p → t = s) → ((entryOf s a).actor = some x ∨ (entryOf s a).actor = none) →
      t.protocol.Ordered d p q := by
    intro x hx hactor
    by_cases hxp : x = p
    · rw [hx hxp]
      exact ho
    refine go fun ha => ?_
    rcases hactor with hx' | hn
    · exact hxp (Option.some.inj (hx'.symm.trans ha))
    · nomatch hn.symm.trans ha
  cases a with
  | trap x callType flags endpt msg env | scall x m endpt env =>
    refine idle x (fun hxp => ?_) (.inl rfl)
    subst hxp
    simp only [step, State.running, blocked, Bool.false_and, Bool.false_eq_true, if_false,
      Except.ok.injEq] at h
    exact h.symm
  | resume x callType flags endpt msg env =>
    refine idle x (fun hxp => ?_) (.inl rfl)
    subst hxp
    simp only [step, blocked, Bool.false_and, Bool.false_eq_true, if_false, Except.ok.injEq] at h
    exact h.symm
  | _ => exact go nofun

def SendsTo (s : State) (p d : Slot) : Prop :=
  s.rtsIsset p rtsSending = true ∧ s.isokendpt (s.proc p).pSendtoE = some d

/-- If `p` blocked on `d` before `q` did and both are still blocked when `d` receives from anybody,
then `q` is not the one to be served. -/
def Fifo {n : Nat} (t : Trace step n) : Prop :=
  ∀ i j k d p q, i < j → j < k → k < n →
    (t.state i).rtsIsset p rtsSending = false → (∀ m, i < m → m ≤ k → SendsTo (t.state m) p d) →
    (t.state j).rtsIsset q rtsSending = false → (∀ m, j < m → m ≤ k → SendsTo (t.state m) q d) →
    (t.act k).ReceivesAny d → (t.state (k + 1)).rtsIsset q rtsSending = true

lemma callerQueue_fifo {n : Nat} (t : Trace step n) (hboot : Boot (t.state 0)) : Fifo t := by
  intro i j k d p q hij hjk hk _ hp hq0 hq hany
  have hgood := Trace.good t hboot
  -- from the moment `q` blocks, `p` is ahead of it
  have hord : ∀ m, j ≤ m → m ≤ k → (t.state m).protocol.Ordered d p q := by
    intro m hjm
    induction m, hjm using Nat.le_induction with
    | base =>
      intro _ _ hs
      nomatch (State.sendTo_of_not hq0).symm.trans hs
    | succ m hjm ih =>
      intro hmk
      exact step_ordered (hgood m (by omega)) (hp m (by omega) (by omega)).1 (ih (by omega))
        (t.ok m (by omega))
  have hbefore := hord k (by omega) le_rfl (State.sendTo_eq_some.mpr (hp k (by omega) le_rfl))
    (State.sendTo_eq_some.mpr (hq k hjk le_rfl))
  rcases step_any (hgood k (by omega)) hany (t.ok k hk) q (hq k hjk le_rfl).1 with hs | hhead
  · exact hs
  · exact absurd hhead hbefore.not_head

/-- In every run from boot: a live process is sending exactly if it is on one caller queue, that of
its destination, and there once; all queues end; and a queue is served in the order of arrival. -/
theorem callerQueues_of_run {n : Nat} (t : Trace step n) (hboot : Boot (t.state 0)) :
    (∀ k ≤ n, CallerQueues (t.state k)) ∧ Fifo t :=
  ⟨fun k hk => (Trace.good t hboot k hk).callerQueues, callerQueue_fifo t hboot⟩

def twoSenders : Trace step 3 :=
  Trace.run step bootKernel
    (fun k =>
      if k = 0 then .trap 4 1 0 vfsProcNr 0 (kernelEnv Msg.zero)
      else if k = 1 then .trap 6 1 0 vfsProcNr 0 (kernelEnv Msg.zero)
      else .trap 5 2 0 endptAny 0 (kernelEnv Msg.zero))
    3 (by decide +kernel)

/-- The run of the two senders starts at boot and lets PM go first, then RS still waits. -/
theorem callerQueues_of_twoSenders : ((∀ k ≤ 3, CallerQueues (twoSenders.state k)) ∧ Fifo twoSenders) ∧
      (twoSenders.state 2).rtsIsset 4 rtsSending = true ∧
      (twoSenders.state 3).rtsIsset 4 rtsSending = false ∧
      (twoSenders.state 3).rtsIsset 6 rtsSending = true :=
  ⟨callerQueues_of_run twoSenders boot_bootKernel, by decide +kernel, by decide +kernel,
    by decide +kernel⟩

end Nucleos.Kernel
