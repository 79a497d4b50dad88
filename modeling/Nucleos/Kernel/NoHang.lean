import Nucleos.Kernel.Boot

/-!
# The kernel does not run for ever

A routine of the kernel runs for ever only in a walk along a caller queue or in the loop of
`deadlock`. The queues end by the invariant, and the loop ends as long as the wait-for graph
has no cycle, at each place in a call where it is entered.
-/

namespace Nucleos.Kernel

open IntrusiveList FunctionalGraph Rendezvous Run

variable {l : Entry} {s t u : State}

@[simp] lemma privOf_noHang (s : State) (p : Slot) : Avoids .hang (s.privOf p) := by
  unfold State.privOf
  split <;> simp

@[simp] lemma slotOf_noHang (n : Int) : Avoids .hang (slotOf n) := by
  unfold slotOf
  split <;> simp

@[simp] lemma okendpt_noHang (s : State) (e : Int) : Avoids .hang (s.okendpt e) := by
  unfold State.okendpt
  split <;> simp

@[simp] lemma maySendTo_noHang (s : State) (p d : Slot) : Avoids .hang (s.maySendTo p d) := by
  simp only [State.maySendTo, avoids_bind, privOf_noHang, true_and]
  exact fun _ _ _ _ => avoids_ok

@[simp] lemma queueMess_noHang (ep : Int) (m : Option Msg) (dst : Slot) (s : State) :
    Avoids .hang (queueMess ep m dst s) := by
  cases m <;> simp [queueMess]

@[simp] lemma buildNotify_noHang (src : Int) (dst : Slot) (s : State) :
    Avoids .hang (buildNotifyMessage src dst s) := by
  simp [buildNotifyMessage]

@[simp] lemma miniNotify_noHang (caller : Slot) (e : Int) (s : State) :
    Avoids .hang (miniNotify caller e s) := by
  unfold miniNotify
  split <;> simp

@[simp] lemma sendSig_noHang (nr : Int) (n : Nat) (s : State) : Avoids .hang (sendSig nr n s) := by
  unfold sendSig
  split <;> simp

@[simp] lemma causeSig_noHang (p : Slot) (n : Nat) (s : State) : Avoids .hang (causeSig p n s) := by
  simp [causeSig]

@[simp] lemma genericHandler_noHang (e : Int) (n : Nat) (s : State) :
    Avoids .hang (genericHandler e n s) := by
  unfold genericHandler
  split <;> simp

@[simp] lemma takeNotify_noHang (p : Slot) (i id : PrivId) (s : State) :
    Avoids .hang (takeNotify p i id s) := by
  simp [takeNotify]

@[simp] lemma receiveNotify_noHang (p : Slot) (src : Option Slot) (s : State) :
    Avoids .hang (receiveNotify p src s) := by
  simp only [receiveNotify, avoids_ite, avoids_ok, avoids_bind, privOf_noHang]
  refine ⟨fun _ => trivial, fun _ => ⟨trivial, fun i _ => ?_⟩⟩
  split <;> simp

@[simp] lemma takeCaller_noHang (p q : Slot) (xpp : Cell Slot Slot) (s : State) :
    Avoids .hang (takeCaller p xpp q s) := by
  simp [takeCaller, checkSigDelay, sigDelayDone]

section Asyn
variable (env : Env)

@[simp] lemma tryScan_noHang (src dst : Slot) (i : PrivId) (a n k : Nat) (done postponed : Bool) (s : State) :
    Avoids .hang (tryScan env src dst i a n k done postponed s) := by
  induction n generalizing k done postponed with
  | zero => simp [tryScan]
  | succ n ih => simp [tryScan, ih]

@[simp] lemma tryOne_noHang (src dst : Slot) (s : State) : Avoids .hang (tryOne env src dst s) := by
  simp [tryOne]

@[simp] lemma tryPrivs_noHang (p : Slot) (is : List PrivId) (postponed : Bool) (s : State) :
    Avoids .hang (tryPrivs env p is postponed s) := by
  induction is generalizing postponed s with
  | nil => simp [tryPrivs]
  | cons i is ih => simp [tryPrivs, ih]

@[simp] lemma receiveAsyn_noHang (p : Slot) (src : Option Slot) (s : State) :
    Avoids .hang (receiveAsyn env p src s) := by
  cases src <;> simp [receiveAsyn, trySource, tryAsync]

@[simp] lemma sendaEntry_noHang (p : Slot) (a : Nat) (s : State) : Avoids .hang (sendaEntry env p a s) := by
  cases hd : s.isokendpt (s.tables p a).dst <;> simp [sendaEntry, hd]

@[simp] lemma sendaLoop_noHang (p : Slot) (a n k : Nat) (done : Bool) (s : State) :
    Avoids .hang (sendaLoop env p a n k done s) := by
  induction n generalizing k done s with
  | zero => simp [sendaLoop]
  | succ n ih =>
    simp only [sendaLoop, avoids_bind, sendaEntry_noHang, true_and]
    rintro (v | v | ⟨r, v⟩) - <;> simp [ih]

@[simp] lemma miniSenda_noHang (p : Slot) (a n : Nat) (s : State) : Avoids .hang (miniSenda env p a n s) := by
  simp [miniSenda]

end Asyn

variable {env : Env} {callType msg : Nat} {flags : BitVec 32} {endpt : Int} {a : Action}

lemma State.Good.walk_ends (hg : s.Good) (stop : Slot → Bool) (d : Slot) :
    ∃ e, s.queues.walk stop State.queueFuel (.head d) = some e := by
  obtain ⟨k, hk⟩ := hg.inv.ends (.head d)
  refine Lists.walk_ends s.queues stop hk ?_
  have hcard := hk.nodup.length_le_card
  rw [Fintype.card_fin] at hcard
  exact Nat.lt_succ_of_le hcard

def Safe (s : State) : Prop := s.Good ∧ Acyclic s.protocol.waits

lemma Updates.safe (h : Updates l s t) (hs : Safe s)
    (hself : ∀ p, l.actor = some p → l.source ≠ some p) : Safe t :=
  ⟨h.good hs.1, h.protocol_induct hs.1 hs.2 fun _ _ hinv hacyc hstep => hstep.acyclic hinv hself hacyc⟩

lemma deadlock_noHang (hs : Safe s) (function : Nat) (cp : Slot) (d : Option Slot) :
    Avoids .hang (deadlock function cp d s) := by
  obtain ⟨n, hn⟩ := deadlock_ends hs.1 hs.2 d
  rw [hn]
  exact avoids_ok

lemma miniSend_noHang (hs : Safe s) (env : Env) (p : Slot) (e : Int) (m : Nat) (flags : BitVec 32) :
    Avoids .hang (miniSend env p e m flags s) := by
  have hblock : ∀ d x, Avoids .hang (blockSend p d e x s) := by
    intro d x
    have hq : (markSending p e x s).queues = s.queues := queues_modProc s p rfl rfl
    obtain ⟨c, hc⟩ := hs.1.walk_ends (fun _ => false) d
    simp [blockSend, hq, hc]
  unfold miniSend
  split
  · simp
  · next buffer _ =>
    cases buffer <;> simp [deadlock_noHang hs, hblock]

lemma receiveCaller_noHang (hg : s.Good) (p : Slot) (src : Option Slot) :
    Avoids .hang (receiveCaller p src s) := by
  obtain ⟨c, hc⟩ := hg.walk_ends (accepts src) p
  rw [receiveCaller, hc]
  simp only
  split <;> simp

lemma blockReceive_noHang (hs : Safe s) (p : Slot) (e : Int) (src : Option Slot) (flags : BitVec 32) :
    Avoids .hang (blockReceive p e src flags s) := by
  simp [blockReceive, deadlock_noHang hs]

lemma receivePending_noHang (hg : s.Good) (env : Env) (p : Slot) (src : Option Slot) :
    Avoids .hang (receivePending env p src s) := by
  simp only [receivePending, avoids_bind, receiveNotify_noHang, true_and]
  rintro (_ | v) -
  · simp only [avoids_bind, receiveCaller_noHang hg, true_and]
    rintro (_ | v) - <;> simp
  · simp

lemma miniReceive_noHang (hs : Safe s) (env : Env) (p : Slot) (e : Int) (m : Nat) (flags : BitVec 32) :
    Avoids .hang (miniReceive env p e m flags s) := by
  have hblock : ∀ {src found v}, receiveSource e s = .ok src → receivePending env p src s = .ok (found, v) →
      found = false → Avoids .hang (blockReceive p e src flags v) := by
    rintro src found v hsrc hx rfl
    rcases receivePending_eq_ok hx with ⟨hf, _⟩ | ⟨hf, _⟩ | ⟨_, _, ha⟩
    · cases hf
    · cases hf
    · have hup : Updates (.idle env) s v := (receiveAsyn_updates (receiveSource_nonempty hsrc) ha rfl).1
      exact blockReceive_noHang (hup.safe hs nofun) _ _ _ _
  have hsrc : Avoids .hang (receiveSource e s) := by simp [receiveSource]
  simp +contextual [miniReceive, hsrc, blockReceive_noHang hs, receivePending_noHang hs.1, hblock]

lemma performCall_noHang {caller : Slot} (hactor : l.actor = some caller)
    (hsafe : ∀ u, Updates l s u → Safe u)
    (hready : s.Ready caller) (hadm : Admitted s caller callType endpt) :
    Avoids .hang (performCall env caller callType flags endpt msg s) := by
  have hs := hsafe s (.refl l s)
  have hsendrec : callType = kipcSendrec → ∀ r u,
    miniSend env caller endpt msg flags (s.mfSet caller mfReplyPend) = .ok (r, u) →
      Safe u := by
    rintro rfl r u hsend
    obtain ⟨d, hd, hallow⟩ := hadm.dst (by decide) (by decide)
    have hpend := (Update.expectReply (s := s) caller hactor).updates
    exact hsafe _ (hpend.trans (miniSend_updates hactor (ready_mfSet hready)
      ((isokendpt_mfSet s caller mfReplyPend endpt).trans hd)
      ((maySendTo_static hpend.static caller d).trans hallow) hsend))
  have hpend := hsafe _ (Update.expectReply (s := s) caller hactor).updates
  simp only [performCall, avoids_ite, avoids_bind, miniSend_noHang hpend, miniSend_noHang hs,
    miniNotify_noHang, miniSenda_noHang,
    avoids_ok, implies_true, true_and, and_true]
  refine ⟨fun hc x hx _ => miniReceive_noHang (hsendrec hc _ _ hx) _ _ _ _ _, fun _ _ hc => ?_⟩
  subst hc
  exact miniReceive_noHang (hsafe _ (Update.expectAny caller hactor hadm.trap).updates) _ _ _ _ _

lemma checkedCall_noHang {caller : Slot} (hactor : l.actor = some caller)
    (hsafe : ∀ u, Updates l s u → Safe u)
    (hready : s.Ready caller) : Avoids .hang (checkedCall env caller callType flags endpt msg s) := by
  have hcheck : Avoids .hang (checkEndpt caller callType endpt s) := by
    cases hd : s.isokendpt endpt <;> simp [checkEndpt, hd]
  simp only [checkedCall, avoids_bind, hcheck, true_and]
  rintro (r | d) hx
  · simp
  obtain ⟨hany, hdst⟩ := checkEndpt_ok hx
  simp only [avoids_ite, avoids_ok, avoids_bind, privOf_noHang, implies_true, true_and]
  intro _ i hi hmask _ _
  exact performCall_noHang hactor hsafe hready ⟨⟨i, (s.privOf_eq_ok).mp hi, by simpa using hmask⟩, hany, hdst⟩

lemma trapCall_noHang {p : Slot}
    (hq : Quiet s u) (hactor : l.actor = some p) (hsafe : ∀ u, Updates l s u → Safe u) (hready : s.Ready p) :
    Avoids .hang (trapCall env p callType flags endpt msg u) := by
  have hup := (Update.quiet (l := l) _ hq).updates
  have hq' : Quiet u ((u.mfUnset p mfScDefer).mfSet p mfScActive) :=
    (quiet_mfUnset p u (by decide) (by decide)).trans (quiet_mfSet p _ (by decide) (by decide))
  have hnow : Avoids .hang (checkedCall env p callType flags endpt msg u) :=
    checkedCall_noHang hactor (fun v hv => hsafe v (hup.trans hv)) (hq.ready hready)
  have hlate : Avoids .hang (checkedCall env p callType flags endpt msg
    ((u.mfUnset p mfScDefer).mfSet p mfScActive)) :=
    checkedCall_noHang hactor (fun v hv => hsafe v ((hup.trans (Update.quiet _ hq').updates).trans hv))
      (hq'.ready (hq.ready hready))
  simp [trapCall, kipcCall, hlate, hnow]

lemma clearEndpoint_noHang (hg : s.Good) (rc : Slot) : Avoids .hang (clearEndpoint rc s) := by
  have hleave : ∀ i, Avoids .hang (leaveQueue rc (markGone rc i s)) := by
    intro i
    have hqueues : (markGone rc i s).queues = s.queues := by
      rw [State.queues, markGone_proc]
      exact queues_modProc s rc rfl rfl
    simp only [leaveQueue, avoids_ite, avoids_bind, okendpt_noHang, avoids_ok, implies_true,
      true_and, and_true, hqueues]
    intro _ d _
    obtain ⟨c, hc⟩ := hg.walk_ends (· == rc) d
    rw [hc]
    simp only
    split <;> simp
  have hloop : ∀ v, Avoids .hang ((List.finRange (nrTasks + nrProcs)).foldlM (clearOther rc) v) :=
    avoids_foldlM (fun a q => by simp [clearOther]) _
  simp only [clearEndpoint, avoids_ite, avoids_error, avoids_bind, privOf_noHang, hloop, avoids_ok,
    implies_true,
    and_true, true_and]
  exact ⟨by simp, fun _ => ⟨by simp, fun _ i _ => hleave i⟩⟩

def SelfReceive (s : State) : Action → Prop
  | .trap p callType _ endpt _ _ => callType.toNat = kipcReceive ∧ endpt = (s.proc p).pEndpoint
  | .resume p callType _ endpt _ _ => callType.toNat = kipcReceive ∧ endpt = (s.proc p).pEndpoint
  | _ => False

lemma callSource_ne {p : Slot} (h : ¬ (callType = kipcReceive ∧ endpt = (s.proc p).pEndpoint)) :
    callSource s p callType endpt ≠ some p := by
  unfold callSource
  split
  · rename_i hc
    intro hsrc
    unfold sourceOf at hsrc
    split at hsrc
    · cases hsrc
    · exact h ⟨hc, ((s.isokendpt_eq_some).mp hsrc).2.2.symm⟩
  · split
    · rename_i hc
      exact hc.2
    · exact nofun

lemma entryOf_self (h : ¬ SelfReceive s a) :
    ∀ p, (entryOf s a).actor = some p → (entryOf s a).source ≠ some p := by
  intro p hp
  cases a with
  | trap q callType flags endpt msg env =>
    cases hp
    exact callSource_ne h
  | scall q m endpt env =>
    obtain rfl := Option.some.inj hp
    have hne : callSource s q kipcSendrec endpt ≠ some q :=
      callSource_ne fun hc => absurd hc.1 (by decide)
    exact hne
  | resume q callType flags endpt msg env =>
    cases hp
    exact callSource_ne h
  | _ => nomatch hp

lemma Safe.step (hs : Safe s) (ha : ¬ SelfReceive s a) (h : step s a = .ok t) : Safe t :=
  (hs.1.updates h).safe hs (entryOf_self ha)

lemma step_noHang (hs : Safe s) (ha : ¬ SelfReceive s a) : Avoids .hang (step s a) := by
  have hsafe : ∀ u, Updates (entryOf s a) s u → Safe u := fun u hu => hu.safe hs (entryOf_self ha)
  have runnable : ∀ {p b c}, (s.procIsRunnable p && b && c) = true → s.Ready p := fun hrun =>
    ready_of_runnable (Bool.and_eq_true_iff.mp (Bool.and_eq_true_iff.mp hrun).1).1
  cases a with
  | trap p callType flags endpt msg env =>
    simp only [step, avoids_ite, avoids_ok, implies_true, and_true]
    refine fun hrun => trapCall_noHang ?_ rfl hsafe (runnable hrun)
    apply Quiet.modProc
    · rfl
    · exact id
  | scall p m endpt env =>
    simp only [step, avoids_ite, avoids_ok, implies_true, and_true]
    refine fun hrun => trapCall_noHang ?_ rfl hsafe (runnable (Bool.and_eq_true_iff.mp hrun).1)
    apply Quiet.modProc
    · rfl
    · exact id
  | resume p callType flags endpt msg env =>
    simp only [step, avoids_ite, avoids_bind, sigDelayDone, causeSig_noHang, avoids_ok,
      implies_true, and_true]
    exact fun hrun => trapCall_noHang (.refl s) rfl hsafe (runnable hrun)
  | kill p =>
    simp only [step, avoids_ite, avoids_bind, causeSig_noHang, avoids_ok, implies_true, true_and]
    intro hno v hv
    have hp : s.isemptyp p = false := by
      rw [Bool.or_eq_true, not_or] at hno
      exact Bool.eq_false_iff.mpr hno.1
    have hup : Updates (.idle (kernelEnv Msg.zero)) s v := causeSig_updates hs.1.epOk hp hv
    exact clearEndpoint_noHang (hup.good hs.1) p
  | exit p => simp [step, clearProc, clearEndpoint_noHang hs.1]
  | reply dst m => simp [step, miniSend_noHang hs]
  | interrupt e n => exact genericHandler_noHang _ _ _
  | deliver | taskNotify | signal | taskSignal | write | control | tick => simp [step]

end Nucleos.Kernel
