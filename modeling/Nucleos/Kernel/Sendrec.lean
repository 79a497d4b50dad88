import Nucleos.Kernel.CallerQueue
import Nucleos.Kernel.NoHang

/-!
# `KIPC_SENDREC` is all or nothing

The two halves of the call check for deadlock separately. Once the send half has succeeded
the receive half cannot fail: either the destination has just been woken up, or the chain it
hangs on is the one that the first check has followed to its end.
-/

namespace Nucleos.Kernel

open IntrusiveList FunctionalGraph Rendezvous Run

variable {s t u v : State} {caller d : Slot} {env : Env} {mPtr msg : Nat} {e endpt r : Int}
    {flags : BitVec 32}

lemma deadlockLoop_again {f f' fuel g g' : Nat} {x : Slot} (hs : s.Good) (hu : u.Good)
    (hsame : ∀ y, y ≠ caller → u.protocol.waits y = s.protocol.waits y)
    (hx : ¬ Reaches s.protocol.waits x caller)
    (h : deadlockLoop f caller s fuel g (some x) = .ok 0) :
    deadlockLoop f' caller u fuel g' (some x) = .ok 0 := by
  induction fuel generalizing g g' x with
  | zero => cases h
  | succ fuel ih =>
    have hne : x ≠ caller := fun he => hx (he ▸ .refl)
    rw [deadlockLoop_succ hs] at h
    rw [deadlockLoop_succ hu, hsame x hne]
    cases hw : s.protocol.waits x with
    | none => rfl
    | some y =>
      have hy : ¬ Reaches s.protocol.waits y caller := fun hr => hx (Reaches.cons hw hr)
      have hyc : y ≠ caller := fun he => hy (he ▸ .refl)
      simp only [hw, if_neg hyc] at h ⊢
      exact ih hy h

lemma sendSource_some {buffer : Option Msg} (h : sendSource env caller mPtr s = some buffer) :
    (s.proc caller).syscall0x80 = true ∨ env.umapLocal caller mPtr sizeofMsg = true := by
  unfold sendSource at h
  rcases ite_eq_iff.mp h with ⟨hs, _⟩ | ⟨_, h⟩
  · exact .inl hs
  rcases ite_eq_iff.mp h with ⟨hm, _⟩ | ⟨_, h⟩
  · exact .inr hm
  · cases h

lemma miniSend_mapped (h : miniSend env caller e mPtr flags s = .ok (0, u)) :
    (s.proc caller).syscall0x80 = true ∨ env.umapLocal caller mPtr sizeofMsg = true := by
  unfold miniSend at h
  split at h
  · cases h
  · rename_i buffer hbuffer
    exact sendSource_some hbuffer

lemma deposit_syscall (ep : Int) (m : Msg) (dst p : Slot) (s : State) :
    ((deposit ep m dst s).proc p).syscall0x80 = (s.proc p).syscall0x80 :=
  s.modProc_keep Proc.syscall0x80 rfl p

lemma rtsUnset_syscall (s : State) (p q : Slot) (f : BitVec 16) :
    ((s.rtsUnset p f).proc q).syscall0x80 = (s.proc q).syscall0x80 :=
  s.modProc_keep Proc.syscall0x80 rfl q

lemma blocked_syscall (p q : Slot) (e : Int) (m : Msg) (k : List Slot) (s : State) :
    ((blocked p d e m k s).proc q).syscall0x80 = (s.proc q).syscall0x80 := by
  obtain ⟨a, b, h⟩ := State.writeCell_proc
    ((markSending p e m s).writeCell (Lists.lastCell (.head d) k) (some p)) (.next p) none q
  obtain ⟨a', b', h'⟩ := State.writeCell_proc (markSending p e m s)
    (Lists.lastCell (.head d) k) (some p) q
  rw [blocked, h, h']
  exact s.modProc_keep Proc.syscall0x80 rfl q

inductive Sent (s u : State) (caller d : Slot) : Prop where
  /-- The destination has the message and is not blocked. -/
  | delivered (hcaller : u.rtsIsset caller rtsSending = false)
      (hsend : u.rtsIsset d rtsSending = false) (hrecv : u.rtsIsset d rtsReceiving = false)
  /-- The caller is queued, and the deadlock check of the receive half finds nothing either. -/
  | queued (hcaller : u.rtsIsset caller rtsSending = true)
      (hdead : deadlock kipcReceive caller (some d) u = .ok 0)

lemma miniSend_sent (hg : s.Good) (hready : s.Ready caller)
    (hd : s.isokendpt e = some d) (hne : d ≠ caller)
    (h : miniSend env caller e mPtr flags s = .ok (0, u)) :
    Sent s u caller d ∧ (u.proc caller).syscall0x80 = (s.proc caller).syscall0x80 := by
  rcases miniSend_eq_ok hd h with ⟨hr, _⟩ | ⟨_, _, hwill, m, m', rfl⟩ | ⟨_, hno, hwill,
    hdead, m, hblock⟩
  · exact absurd rfl hr
  · have hp := (passive_deposit (s.proc caller).pEndpoint m d s).trans (passive_wake _ d)
    simp only [State.willReceive, Bool.and_eq_true, Bool.not_eq_true'] at hwill
    refine ⟨.delivered ((hp caller).sending.trans hready.2.1)
      ((hp d).sending.trans hwill.1.2) ?_, ?_⟩
    · have hself := State.rtsIsset_rtsUnset_self (f := rtsReceiving)
        (deposit (s.proc caller).pEndpoint m d s) d d (by decide)
      exact hself.trans (by simp)
    · exact (rtsUnset_syscall _ d caller _).trans (deposit_syscall _ m d caller s)
  · have hlive : s.Live d := ⟨isokendpt_nonempty hd, hno⟩
    obtain ⟨k, hk, _⟩ := hg.inv.chain d (State.live_iff.mpr hlive)
    obtain rfl := blockSend_blocked hk hblock
    have hgood := hg.block (m := m) hready hd hlive hk
    have hreach := deadlock_send hg hne hwill hdead
    refine ⟨.queued ?_ ?_, blocked_syscall caller caller e m k s⟩
    · simp [blocked, markSending_sending]
    refine deadlockLoop_again hg hgood (fun y hy => ?_) hreach hdead
    rw [protocol_blocked hready.1.1 hd]
    simp [System.waits, System.send, hy]

lemma blockReceive_zero (h : deadlock kipcReceive caller (some d) s = .ok 0) :
    blockReceive caller e (some d) 0 s = .ok (0, markReceiving caller e s) := by
  rw [blockReceive, if_pos (by decide), h]
  rfl

lemma deadlock_ready {f : Nat} (hs : s.rtsIsset d rtsSending = false)
    (hr : s.rtsIsset d rtsReceiving = false) : deadlock f caller (some d) s = .ok 0 := by
  rw [deadlock, State.queueFuel, deadlockLoop, dependency, if_neg (ne_true_of_eq_false hr),
    if_neg (ne_true_of_eq_false hs)]
  rfl

/-- After a successful send half, the receive half returns zero whenever it returns, and it does not
run for ever. -/
theorem receive_half (hg : u.Good) (hafter : AfterSend s u caller d e) (hsent : Sent s u caller d)
    (hany : e ≠ endptAny)
    (hmapped : (u.proc caller).syscall0x80 = true ∨ env.umapLocal caller mPtr sizeofMsg = true) :
    Avoids .hang (miniReceive env caller e mPtr 0 u) ∧
      ∀ r w, miniReceive env caller e mPtr 0 u = .ok (r, w) → r = 0 := by
  have hsrc : receiveSource e u = .ok (some d) := by
    rw [receiveSource, if_neg hany, (u.okendpt_eq_ok).mpr hafter.endpoint]
    rfl
  have hmap : ¬ ((!(u.proc caller).syscall0x80 &&
    !env.umapLocal caller mPtr sizeofMsg) = true) := by
    rcases hmapped with h | h
    · simp [h]
    · simp [h]
  have hlive : ¬ (((some d).any fun p => u.rtsIsset p rtsNoEndpoint) = true) := by
    simp [hafter.noEndpoint]
  have heq : miniReceive env caller e mPtr 0 u =
      if u.rtsIsset caller rtsSending then blockReceive caller e (some d) 0 u
      else receivePending env caller (some d) u >>= fun x =>
        if x.1 then .ok (0, x.2) else blockReceive caller e (some d) 0 x.2 := by
    rw [miniReceive, if_neg hmap, hsrc]
    exact if_neg hlive
  cases hsent with
  | queued hcaller hdead =>
    rw [heq, if_pos hcaller, blockReceive_zero hdead]
    exact ⟨avoids_ok, fun r w h => by cases h; rfl⟩
  | delivered hcaller hsend hrecv =>
    rw [heq, if_neg (ne_true_of_eq_false hcaller)]
    -- whatever is found meanwhile, the destination stays unblocked
    have hblock : ∀ x, receivePending env caller (some d) u = .ok x → x.1 = false →
        blockReceive caller e (some d) 0 x.2 = .ok (0, markReceiving caller e x.2) := by
      rintro ⟨found, w⟩ hx rfl
      rcases receivePending_eq_ok hx with ⟨hf, _⟩ | ⟨hf, _⟩ | ⟨_, _, ha⟩
      · cases hf
      · cases hf
      have hup : Updates (.idle env) u w :=
        (receiveAsyn_updates (receiveSource_nonempty hsrc) ha rfl).1
      have hp := hup.passive hg.freeOk
      refine blockReceive_zero (deadlock_ready ((hp d).sending.trans hsend) ?_)
      rw [Bool.eq_false_iff]
      intro hr
      exact absurd ((hp d).receiving hr) (ne_true_of_eq_false hrecv)
    constructor
    · simp only [avoids_bind, receivePending_noHang hg, avoids_ite, avoids_ok,
        implies_true, true_and]
      intro x hx hf
      rw [hblock x hx (Bool.eq_false_iff.mpr hf)]
      exact avoids_ok
    intro r w h
    obtain ⟨x, hx, h⟩ := bind_eq_ok.mp h
    split_ifs at h with hf
    · cases h
      rfl
    rw [hblock x hx (Bool.eq_false_iff.mpr hf)] at h
    cases h
    rfl

structure Silent (s t : State) : Prop where
  sent : ∀ src dst m, t.history.count (.sent src dst m) = s.history.count (.sent src dst m)
  buffer : ∀ p, (t.proc p).pDelivermsg = (s.proc p).pDelivermsg ∨
    (t.proc p).pDelivermsg.mType = notifyFrom system

lemma Silent.refl (s : State) : Silent s s := ⟨fun _ _ _ => rfl, fun _ => .inl rfl⟩

lemma Silent.trans (h : Silent s t) (h' : Silent t u) : Silent s u := by
  refine ⟨fun src dst m => (h'.sent src dst m).trans (h.sent src dst m), fun p => ?_⟩
  rcases h'.buffer p with hp | hp
  · rcases h.buffer p with hq | hq
    · exact .inl (hp.trans hq)
    · exact .inr (by rw [hp]; exact hq)
  · exact .inr hp

lemma silent_modProc (s : State) (p : Slot) {f : Proc → Proc}
    (hf : (f (s.proc p)).pDelivermsg = (s.proc p).pDelivermsg) : Silent s (s.modProc p f) :=
  ⟨fun _ _ _ => rfl, fun q => .inl (s.modProc_keep Proc.pDelivermsg hf q)⟩

lemma buildNotify_eq_ok {src : Int} {dst : Slot} {m : Msg}
    (h : buildNotifyMessage src dst s = .ok (m, t)) :
    m.mType = notifyFrom src ∧ t.history = s.history := by
  obtain ⟨htype, rfl | ⟨i, rfl | rfl⟩⟩ := buildNotify_cases h <;> exact ⟨htype, rfl⟩

lemma silent_notify {task dst : Slot} (htask : procNr task = system)
    (h : NotifyEffect task dst s t) :
    Silent s t := by
  cases h with
  | direct m u _ _ hbuild =>
    obtain ⟨htype, hhist⟩ := buildNotify_eq_ok hbuild
    have hproc := buildNotify_proc hbuild
    refine ⟨fun src d m' => ?_, fun p => ?_⟩
    · simp [deposit, State.rtsUnset, hhist]
    simp only [State.record_proc, State.rtsUnset, deposit, State.modProc_proc, hproc]
    by_cases hp : p = dst
    · simp only [hp, if_true]
      exact .inr (htype.trans (congrArg notifyFrom htask))
    · simp [hp]
  | posted i j _ _ => exact ⟨fun src d m => by simp, fun p => .inl rfl⟩

lemma silent_sendSig {nr : Int} {n : Nat} (h : sendSig nr n s = .ok t) : Silent s t := by
  unfold sendSig at h
  split at h
  · cases h
  rename_i rp _
  split at h
  · cases h
  obtain ⟨i, _, h⟩ := bind_eq_ok.mp h
  obtain ⟨task, htask, h⟩ := bind_eq_ok.mp h
  obtain ⟨⟨r, v⟩, hv, h⟩ := bind_eq_ok.mp h
  cases h
  have hpend : Silent s ((s.modPriv i fun v =>
    { v with sSigPending := v.sSigPending ||| 1#32 <<< n }).record
      (.sig rp (1#32 <<< n))) := ⟨fun src d m => by simp, fun p => .inl rfl⟩
  rcases miniNotify_eq_ok hv with ⟨_, _, rfl⟩ | ⟨dst, _, _, heff⟩
  · exact hpend
  · exact hpend.trans (silent_notify (slotOf_eq_ok.mp htask) heff)

lemma silent_causeSig {p : Slot} {n : Nat} (h : causeSig p n s = .ok t) : Silent s t := by
  unfold causeSig at h
  split at h
  · cases h
  split at h
  · cases h
    exact .refl _
  have hpend : Silent s (s.modProc p fun x => { x with pPending := x.pPending ||| 1#32 <<< n }) :=
    silent_modProc s p rfl
  rcases ite_eq_iff.mp h with ⟨_, h⟩ | ⟨_, h⟩
  · cases h
    exact hpend
  · exact (hpend.trans (silent_modProc _ p rfl)).trans (silent_sendSig h)

/-- A call that failed: nothing was copied and the caller hangs on no queue. -/
structure Untouched (caller : Slot) (s t : State) : Prop where
  silent : Silent s t
  queues : t.queues = s.queues
  notQueued : ∀ d, t.Live d → Queued t d caller 0

lemma Untouched.intro (hg : t.Good) (hsilent : Silent s t) (hq : t.queues = s.queues)
    (hsend : t.rtsIsset caller rtsSending = false) : Untouched caller s t := by
  refine ⟨hsilent, hq, fun d hd => ?_⟩
  have h := hg.queued (p := caller) hd
  rw [State.sendTo_of_not hsend] at h
  exact h

lemma sendrec_halves (hg : s.Good) (hready : s.Ready caller)
    (hadm : Admitted s caller kipcSendrec endpt)
    (hsend : miniSend env caller endpt msg flags (s.mfSet caller mfReplyPend) = .ok (r, u)) :
    (r ≠ 0 → u = s.mfSet caller mfReplyPend) ∧
      (r = 0 → Avoids .hang (miniReceive env caller endpt msg 0 u) ∧
        ∀ r' w, miniReceive env caller endpt msg 0 u = .ok (r', w) → r' = 0) := by
  let l : Entry := ⟨⟨some caller, none, none⟩, env, none⟩
  obtain ⟨d, hd, hallow⟩ := hadm.dst (by decide) (by decide)
  have hpend : Updates l s (s.mfSet caller mfReplyPend) := (Update.expectReply caller rfl).updates
  have hd' := (isokendpt_mfSet s caller mfReplyPend endpt).trans hd
  have hready' := ready_mfSet (f := mfReplyPend) hready
  refine ⟨fun hr => ?_, fun hr => ?_⟩
  · rcases miniSend_eq_ok hd' hsend with ⟨_, hu⟩ | ⟨hr', _⟩ | ⟨hr', _⟩
    · exact hu
    · exact absurd hr' hr
    · exact absurd hr' hr
  subst hr
  have hg' := hpend.good hg
  have hafter := miniSend_after hg'.freeOk hready' hd' hsend
  obtain ⟨hsent, hsys⟩ := miniSend_sent hg' hready' hd' (maySendTo_ne hg.noSelf hallow) hsend
  have hup : Updates l _ u := miniSend_updates rfl hready' hd'
    ((maySendTo_static hpend.static caller d).trans hallow) hsend
  exact receive_half (hup.good hg') hafter hsent hadm.ne_any (hsys ▸ miniSend_mapped hsend)

lemma checkedCall_untouched (hg : s.Good)
    (hready : s.Ready caller) (h : checkedCall env caller kipcSendrec flags endpt msg
      s = .ok (r, t))
    (hr : r ≠ 0) : Untouched caller s t := by
  rcases checkedCall_eq_ok h with rfl | ⟨hadm, h⟩
  · exact .intro hg (.refl t) rfl hready.2.1
  rw [performCall, if_pos rfl] at h
  obtain ⟨⟨r', u⟩, hsend, h⟩ := bind_eq_ok.mp h
  obtain ⟨hfail, hok⟩ := sendrec_halves hg hready hadm hsend
  rcases ite_eq_iff.mp h with ⟨hr', h⟩ | ⟨hr', h⟩
  · cases h
    obtain rfl := hfail hr'
    have hgood := (refines_misc (l := .idle env) hg (static_mfSet s caller mfReplyPend) rfl rfl).1
    refine .intro hgood (silent_modProc s caller rfl) (queues_modProc s caller rfl rfl) ?_
    exact (ready_mfSet hready).2.1
  · exact absurd ((hok (not_not.mp hr')).2 r t h) hr

lemma kipcCall_untouched (hg : s.Good)
    (hready : s.Ready caller) (h : kipcCall env caller kipcSendrec flags endpt msg s = .ok (r, t))
    (hr : r ≠ 0) : Untouched caller s t := by
  obtain ⟨u, hq, hm, h⟩ := kipcCall_eq_ok h
  have hg' := (Update.refines (l := .idle env) (.quiet _ hq) hg).1
  have hsilent : Silent s u := ⟨fun _ _ _ => by rw [hq.history], fun p => .inl (hm p)⟩
  have hqueues := (Passive.of_quiet hq hg.freeOk).queues
  rcases h with hv | h
  · have hup : Updates (.idle env) u t := causeSig_updates hg'.epOk (hq.live hready.1).1 hv
    have hp := hup.passive hg'.freeOk
    exact .intro (hup.good hg') (hsilent.trans (silent_causeSig hv)) (hp.queues.trans hqueues)
      ((hp caller).sending.trans (hq.ready hready).2.1)
  · have hun := checkedCall_untouched hg' (hq.ready hready) h hr
    exact ⟨hsilent.trans hun.silent, hun.queues.trans hqueues, hun.notQueued⟩

def State.enter (s : State) (caller : Slot) (syscall0x80 : Bool) (m : Msg) : State :=
  s.modProc caller fun x => { x with syscall0x80 := syscall0x80, pSendmsg := m }

lemma quiet_enter (s : State) (caller : Slot) (b : Bool) (m : Msg) :
    Quiet s (s.enter caller b m) := by
  apply Quiet.modProc
  · rfl
  · exact id

/-- In every state of a run from boot: a `KIPC_SENDREC` that fails has copied nothing and queued
nobody, and after a send half that succeeded the receive half does not fail. -/
theorem sendrec_all_or_nothing {n : Nat} (t : Trace step n) (hboot : Boot (t.state 0)) {k : Nat}
    (hk : k ≤ n)
    {caller : Slot} (hrun : (t.state k).procIsRunnable caller = true) (b : Bool)
    (m : Msg) (env : Env)
    (flags : BitVec 32) (endpt : Int) (msg : Nat) :
    (∀ r u, kipcCall env caller kipcSendrec flags endpt msg ((t.state k).enter caller b m) =
      .ok (r, u) →
      r ≠ 0 → Untouched caller ((t.state k).enter caller b m) u) ∧
    (∀ u, Admitted ((t.state k).enter caller b m) caller kipcSendrec endpt →
      miniSend env caller endpt msg flags
        (((t.state k).enter caller b m).mfSet caller mfReplyPend) = .ok (0, u) →
      Avoids .hang (miniReceive env caller endpt msg 0 u) ∧
        ∀ r w, miniReceive env caller endpt msg 0 u = .ok (r, w) → r = 0) := by
  have hq := quiet_enter (t.state k) caller b m
  have hg := (Update.refines (l := .idle env) (.quiet _ hq) (Trace.good t hboot k hk)).1
  have hready := hq.ready (ready_of_runnable hrun)
  refine ⟨fun r u h hr => kipcCall_untouched hg hready h hr, fun u hadm hsend => ?_⟩
  exact (sendrec_halves hg hready hadm hsend).2 rfl

def atBoot : Trace step 0 :=
  Trace.run step bootKernel (fun _ => .tick 0) 0 nofun

def vfsEntered : State := (atBoot.state 0).enter 5 false Msg.zero

/-- At boot, VFS is refused a call to itself; its call to PM is sent, and then the receive half does
not fail. -/
theorem sendrec_at_boot :
    (kipcCall (kernelEnv Msg.zero) 5 kipcSendrec 0 vfsProcNr 0 vfsEntered).toOption.map Prod.fst =
      some (-ecalldenied) ∧
    (∀ r u, kipcCall (kernelEnv Msg.zero) 5 kipcSendrec 0 vfsProcNr 0 vfsEntered = .ok (r, u) →
      r ≠ 0 →
      Untouched 5 vfsEntered u) ∧
    ∃ u, miniSend (kernelEnv Msg.zero) 5 pmProcNr 0 0 (vfsEntered.mfSet 5 mfReplyPend) =
      .ok (0, u) ∧
      ∀ r w, miniReceive (kernelEnv Msg.zero) 5 pmProcNr 0 0 u = .ok (r, w) → r = 0 := by
  have hall := @sendrec_all_or_nothing 0 atBoot boot_bootKernel 0 le_rfl 5 (by decide +kernel) false
    Msg.zero (kernelEnv Msg.zero) 0
  have hadm : Admitted vfsEntered 5 kipcSendrec pmProcNr :=
    ⟨⟨_, rfl, by decide +kernel⟩, fun h => absurd h (by decide), fun _ _ => ⟨4, by decide +kernel,
      by decide +kernel⟩⟩
  refine ⟨by decide +kernel, (hall vfsProcNr 0).1, ?_⟩
  have hfst : (miniSend (kernelEnv Msg.zero) 5 pmProcNr 0 0
    (vfsEntered.mfSet 5 mfReplyPend)).toOption.map Prod.fst = some 0 := by
    decide +kernel
  match hsend : miniSend (kernelEnv Msg.zero) 5 pmProcNr 0 0 (vfsEntered.mfSet 5 mfReplyPend) with
  | .error e =>
    rw [hsend] at hfst
    cases hfst
  | .ok (r, u) =>
    rw [hsend] at hfst
    obtain rfl : r = 0 := Option.some.inj hfst
    exact ⟨u, rfl, ((hall pmProcNr 0).2 u hadm hsend).2⟩

end Nucleos.Kernel
