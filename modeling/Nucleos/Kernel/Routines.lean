import Nucleos.Kernel.Frame

/-!
# The updates of each routine

One lemma for every routine of the kernel: whatever it returns, it has changed the state by
updates. The routines that block or release a process say besides in which condition they
leave their caller, since the second half of a call relies on it.
-/

namespace Nucleos.Kernel

open IntrusiveList Run

variable {l : Entry} {s t u : State}

namespace State

def EpOk (s : State) : Prop := ∀ p, s.isemptyp p = false → endpointP (s.proc p).pEndpoint = procNr p

def QueueLive (s : State) : Prop :=
  ∀ d, s.Live d → ∀ stop xpp q, s.queues.walk stop queueFuel (.head d) = some xpp →
    s.queues.read xpp = some q → s.isemptyp q = false

structure Sound (s : State) : Prop where
  freeOk : s.FreeOk
  epOk : s.EpOk
  queueLive : s.QueueLive
  noSelf : ∀ i, getSysBit (s.priv i).sIpcTo (s.priv i).sId = false

end State

variable {p caller d : Slot} {f : BitVec 16} {dstE r : Int} {env : Env} {mPtr : Nat}
    {flags : BitVec 32}

lemma isokendpt_endpoint (hep : s.EpOk) (hp : s.isemptyp p = false) :
    s.isokendpt (s.proc p).pEndpoint = some p :=
  (s.isokendpt_eq_some).mpr ⟨hep p hp, hp, rfl⟩

lemma isokendpt_nonempty {e : Int} (h : s.isokendpt e = some p) : s.isemptyp p = false :=
  ((s.isokendpt_eq_some).mp h).2.1

section
variable (hfree : ∀ p, t.isemptyp p = s.isemptyp p) (hep : ∀ p, (t.proc p).pEndpoint = (s.proc p).pEndpoint)
include hfree hep

lemma isokendpt_congr (e : Int) : t.isokendpt e = s.isokendpt e := by
  unfold State.isokendpt
  cases procAddr (endpointP e) with
  | none => rfl
  | some p => simp only [hfree p, hep p]

lemma epOk_congr (h : s.EpOk) : t.EpOk := by
  intro p hp
  rw [hep p]
  exact h p ((hfree p).symm.trans hp)

end

lemma Quiet.isemptyp (h : Quiet s t) (p : Slot) : t.isemptyp p = s.isemptyp p :=
  congrArg Shadow.free (h.shadow p)

lemma Quiet.epOk (h : Quiet s t) (hs : s.EpOk) : t.EpOk :=
  epOk_congr h.isemptyp (fun p => congrArg Shadow.endpoint (h.shadow p)) hs

lemma quiet_deposit (ep : Int) (m : Msg) (dst : Slot) (s : State) : Quiet s (deposit ep m dst s) := by
  apply Quiet.modProc
  · simp (disch := decide) [Proc.shadow, ChunkMap.isset_or_of_disjoint]
  · exact id

lemma quiet_mfUnset (p : Slot) (s : State) (hr : f &&& mfReplyPend = 0#16)
    (ha : f &&& mfAsynmsg = 0#16) : Quiet s (s.mfUnset p f) := by
  apply Quiet.modProc
  · simp [Proc.shadow, ChunkMap.isset_andNot_of_disjoint _ hr, ChunkMap.isset_andNot_of_disjoint _ ha]
  · exact id

lemma quiet_mfSet (p : Slot) (s : State) (hr : f &&& mfReplyPend = 0#16)
    (ha : f &&& mfAsynmsg = 0#16) : Quiet s (s.mfSet p f) := by
  apply Quiet.modProc
  · simp [Proc.shadow, ChunkMap.isset_or_of_disjoint _ hr, ChunkMap.isset_or_of_disjoint _ ha]
  · exact id

lemma quiet_signaled (p : Slot) (s : State) (hp : s.isemptyp p = false) :
    Quiet s (s.rtsSet p (rtsSignaled ||| rtsSigPending)) := by
  have hflags : (s.proc p).pRtsFlags ≠ rtsSlotFree := by
    intro h
    simp [State.isemptyp, h] at hp
  apply Quiet.modProc
  · have hne : ((s.proc p).pRtsFlags ||| (rtsSignaled ||| rtsSigPending)) ≠ rtsSlotFree := by
      intro h
      have hbit := congrArg (fun y : BitVec 16 => y.getLsbD 4) h
      simp [rtsSignaled, rtsSigPending, rtsSlotFree] at hbit
    simp (disch := decide) only [Proc.shadow, ChunkMap.isset_or_of_disjoint, beq_false_of_ne hne,
      beq_false_of_ne hflags]
  · intro hfree h
    rw [ChunkMap.isset_or_of_disjoint _ (by decide)] at h
    exact absurd (hfree h) hflags

lemma miniNotify_eq_ok (h : miniNotify caller dstE s = .ok (r, t)) :
    (s.isokendpt dstE = none ∧ r = -edeadsrcdst ∧ t = s) ∨
      ∃ dst, s.isokendpt dstE = some dst ∧ r = 0 ∧ NotifyEffect caller dst s t := by
  unfold miniNotify at h
  cases hd : s.isokendpt dstE with
  | none =>
    rw [hd] at h
    cases h
    exact .inl ⟨rfl, rfl, rfl⟩
  | some dst =>
    right
    simp only [hd] at h
    split at h
    · rename_i hcond
      rw [Bool.and_eq_true, Bool.not_eq_true'] at hcond
      obtain ⟨⟨m, u⟩, hbuild, h⟩ := bind_eq_ok.mp h
      simp only [queueMess, bind, Except.bind, ne_eq, not_true_eq_false, if_false] at h
      cases h
      exact ⟨dst, rfl, rfl, .direct m u hcond.1 hcond.2 hbuild⟩
    · obtain ⟨i, hi, h⟩ := bind_eq_ok.mp h
      obtain ⟨j, hj, h⟩ := bind_eq_ok.mp h
      cases h
      exact ⟨dst, rfl, rfl, .posted i j ((s.privOf_eq_ok).mp hi) ((s.privOf_eq_ok).mp hj)⟩

lemma miniNotify_updates (hmay : MayNotify l s caller)
    (h : miniNotify caller dstE s = .ok (r, t)) : Updates l s t := by
  rcases miniNotify_eq_ok h with ⟨_, _, rfl⟩ | ⟨dst, hd, _, heff⟩
  · exact .refl l t
  · exact (Update.notify caller dst t hmay (isokendpt_nonempty hd) heff).updates

lemma sendSig_updates {nr : Int} {sigNr : Nat} (hep : s.EpOk) (h : sendSig nr sigNr s = .ok t) :
    Updates l s t := by
  unfold sendSig at h
  cases hp : procAddr nr with
  | none => simp [hp] at h
  | some rp =>
    simp only [hp] at h
    split at h
    · cases h
    rename_i hempty
    rw [Bool.not_eq_true] at hempty
    obtain ⟨i, hi, h⟩ := bind_eq_ok.mp h
    obtain ⟨task, htask, h⟩ := bind_eq_ok.mp h
    obtain ⟨⟨r, u⟩, hnot, h⟩ := bind_eq_ok.mp h
    cases h
    have hok := isokendpt_endpoint hep hempty
    rcases miniNotify_eq_ok hnot with ⟨hbad, _, _⟩ | ⟨dst, hd, _, heff⟩
    · nomatch hok.symm.trans hbad
    obtain rfl := Option.some.inj (hok.symm.trans hd)
    exact (Update.signal task rp i _ u (slotOf_eq_ok.mp htask) hempty ((s.privOf_eq_ok).mp hi)
      heff).updates

lemma causeSig_updates {rp : Slot} {sigNr : Nat} (hep : s.EpOk) (hp : s.isemptyp rp = false)
    (h : causeSig rp sigNr s = .ok t) : Updates l s t := by
  unfold causeSig at h
  split at h
  · cases h
  split at h
  · cases h
    exact .refl l s
  simp only at h
  have hpend : Quiet s (s.modProc rp fun p => { p with pPending := p.pPending ||| 1#32 <<< sigNr }) :=
    .modProc s rp rfl id
  split at h
  · cases h
    exact (Update.quiet _ hpend).updates
  · have hq := hpend.trans (quiet_signaled rp _ ((hpend.isemptyp rp).trans hp))
    exact (Update.quiet _ hq).updates.trans (sendSig_updates (hq.epOk hep) h)

lemma sigDelayDone_updates {rp : Slot} (hep : s.EpOk) (hp : s.isemptyp rp = false)
    (h : sigDelayDone rp s = .ok t) : Updates l s t := by
  have hq : Quiet s (s.mfUnset rp mfSigDelay) := quiet_mfUnset rp s (by decide) (by decide)
  exact (Update.quiet _ hq).updates.trans
    (causeSig_updates (hq.epOk hep) ((hq.isemptyp rp).trans hp) h)

lemma genericHandler_updates {e : Int} {n : Nat} (h : genericHandler e n s = .ok t) : Updates l s t := by
  unfold genericHandler at h
  cases hd : s.isokendpt e with
  | none => simp [hd] at h
  | some rp =>
    simp only [hd] at h
    obtain ⟨i, hi, h⟩ := bind_eq_ok.mp h
    obtain ⟨task, htask, h⟩ := bind_eq_ok.mp h
    obtain ⟨⟨r, u⟩, hnot, h⟩ := bind_eq_ok.mp h
    cases h
    rcases miniNotify_eq_ok hnot with ⟨hbad, _, _⟩ | ⟨dst, hok, _, heff⟩
    · nomatch hd.symm.trans hbad
    obtain rfl := Option.some.inj (hd.symm.trans hok)
    exact (Update.interrupt task rp i _ u (slotOf_eq_ok.mp htask) (isokendpt_nonempty hd)
      ((s.privOf_eq_ok).mp hi) heff).updates

/-- How `mini_send` ends: it refuses and changes nothing, it delivers, or it blocks the caller. -/
theorem miniSend_eq_ok (hd : s.isokendpt dstE = some d)
    (h : miniSend env caller dstE mPtr flags s = .ok (r, t)) :
    (r ≠ 0 ∧ t = s) ∨ (r = 0 ∧ s.rtsIsset d rtsNoEndpoint = false ∧
      s.willReceive d (s.proc caller).pEndpoint = true ∧
      ∃ m m', t = ((deposit (s.proc caller).pEndpoint m d s).rtsUnset d rtsReceiving).record
        (.sent caller d m')) ∨ (r = 0 ∧ s.rtsIsset d rtsNoEndpoint = false ∧
      s.willReceive d (s.proc caller).pEndpoint = false ∧
      deadlock kipcSend caller (some d) s = .ok 0 ∧ ∃ m, blockSend caller d dstE m s = .ok t) := by
  have hslot : slotOf (endpointP dstE) = .ok d :=
    slotOf_eq_ok.mpr ((s.isokendpt_eq_some).mp hd).1.symm
  unfold miniSend at h
  split at h
  · cases h
    exact .inl ⟨by decide, rfl⟩
  rename_i buffer _
  rw [hslot] at h
  simp only [bind, Except.bind] at h
  split at h
  · cases h
    exact .inl ⟨by decide, rfl⟩
  rename_i hno
  rw [Bool.not_eq_true] at hno
  split at h
  · rename_i hwill
    cases buffer with
    | none =>
      simp only [queueMess] at h
      split at h
      · cases h
      rename_i hv
      split at hv
      · cases hv
      cases hv
      cases h
      exact .inl ⟨(by decide : -efault ≠ 0), rfl⟩
    | some m =>
      simp only [queueMess, ne_eq, not_true_eq_false, if_false] at h
      cases h
      exact .inr (.inl ⟨rfl, hno, hwill, m, _, rfl⟩)
  · rename_i hwill
    rw [Bool.not_eq_true] at hwill
    split at h
    · cases h
      exact .inl ⟨by decide, rfl⟩
    split at h
    · cases h
    rename_i group hgroup
    split at h
    · cases h
      exact .inl ⟨by decide, rfl⟩
    rename_i hzero
    rw [not_not] at hzero
    subst hzero
    cases buffer with
    | none =>
      cases h
      exact .inl ⟨by decide, rfl⟩
    | some m =>
      simp only at h
      split at h
      · cases h
      rename_i v hblock
      cases h
      exact .inr (.inr ⟨rfl, hno, hwill, hgroup, m, hblock⟩)

lemma miniSend_updates (hactor : l.actor = some caller) (hready : s.Ready caller)
    (hd : s.isokendpt dstE = some d)
    (hallow : s.maySendTo caller d = .ok true)
    (h : miniSend env caller dstE mPtr flags s = .ok (r, t)) : Updates l s t := by
  rcases miniSend_eq_ok hd h with ⟨_, rfl⟩ | ⟨_, _, _, m, m', rfl⟩ | ⟨_, hno, hwill, hdead, m, hblock⟩
  · exact .refl l t
  · have h₁ := Update.quiet (l := l) _ (quiet_deposit (s.proc caller).pEndpoint m d s)
    exact (h₁.updates.trans (Update.wake d).updates).trans (Update.sent caller d m').updates
  · exact (Update.block caller d dstE m t hactor hready hd hno hwill hallow hdead hblock).updates

structure AfterSend (s t : State) (caller d : Slot) (dstE : Int) : Prop where
  live : t.Live caller
  receiving : t.rtsIsset caller rtsReceiving = false
  endpoint : t.isokendpt dstE = some d
  noEndpoint : t.rtsIsset d rtsNoEndpoint = false
  sendto : t.rtsIsset caller rtsSending = true → (t.proc caller).pSendtoE = dstE
  replyPend : t.mfIsset caller mfReplyPend = s.mfIsset caller mfReplyPend

lemma markSending_isset (p q : Slot) (e : Int) (m : Msg) (s : State)
    (hf : rtsSending &&& f = 0#16) : (markSending p e m s).rtsIsset q f = s.rtsIsset q f :=
  s.modProc_keep (fun x => ChunkMap.isset x.pRtsFlags f) (ChunkMap.isset_or_of_disjoint _ hf) q

lemma isemptyp_block {g : Proc → Proc} (p q : Slot) (s : State)
    (hp : s.isemptyp p = false) (hg : (g (s.proc p)).pRtsFlags = (s.proc p).pRtsFlags ||| f)
    (hf : f &&& rtsSlotFree = 0#16) (hne : f ≠ 0#16) : (s.modProc p g).isemptyp q = s.isemptyp q := by
  refine s.modProc_keep (fun x => x.pRtsFlags == rtsSlotFree) ?_ q
  have hfree : (s.proc p).pRtsFlags ||| f ≠ rtsSlotFree := by
    intro h
    have hset := ChunkMap.isset_or_self (s.proc p).pRtsFlags f
    rw [h, ChunkMap.isset, BitVec.and_comm, hf, beq_iff_eq] at hset
    exact hne hset.symm
  rw [hg, beq_false_of_ne hfree]
  exact hp.symm

lemma markSending_isemptyp (p q : Slot) (e : Int) (m : Msg) (s : State) (hp : s.isemptyp p = false) :
    (markSending p e m s).isemptyp q = s.isemptyp q :=
  isemptyp_block p q s hp rfl (by decide) (by decide)

lemma markReceiving_isemptyp (p q : Slot) (e : Int) (s : State) (hp : s.isemptyp p = false) :
    (markReceiving p e s).isemptyp q = s.isemptyp q :=
  isemptyp_block p q s hp rfl (by decide) (by decide)

lemma rtsUnset_isemptyp (p q : Slot) (s : State) (hs : s.FreeOk)
    (hf : f &&& rtsSlotFree = 0#16) : (s.rtsUnset p f).isemptyp q = s.isemptyp q :=
  s.modProc_keep (fun x => x.pRtsFlags == rtsSlotFree) (Proc.free_unset (hs p) hf rfl).2 q

lemma blockSend_eq_ok {m : Msg} (h : blockSend p d dstE m s = .ok t) :
    ∃ xpp, (markSending p dstE m s).queues.walk (fun _ => false) State.queueFuel (.head d) = some xpp ∧
      t = ((markSending p dstE m s).writeCell xpp (some p)).writeCell (.next p) none := by
  unfold blockSend at h
  split at h
  · cases h
  rename_i xpp hwalk
  cases h
  exact ⟨xpp, hwalk, rfl⟩

lemma miniSend_after (hfree : s.FreeOk) (hready : s.Ready caller) (hd : s.isokendpt dstE = some d)
    (h : miniSend env caller dstE mPtr flags s = .ok (0, t)) : AfterSend s t caller d dstE := by
  rcases miniSend_eq_ok hd h with ⟨hr, _⟩ | ⟨_, hno, _, m, m', rfl⟩ | ⟨_, hno, _, _, m, hblock⟩
  · exact absurd rfl hr
  · have hp := (passive_deposit (s.proc caller).pEndpoint m d s).trans (passive_wake _ d)
    have hst := (static_deposit (s.proc caller).pEndpoint m d s).trans (static_rtsUnset _ d rtsReceiving)
    have hr := hp.ready hfree hready
    refine ⟨hr.1, hr.2.2, ?_, (hp d).noEndpoint.trans hno, ?_, (hp caller).replyPend⟩
    · exact (isokendpt_congr (hp.isemptyp hfree) hst.endpoint dstE).trans hd
    · intro hsend
      exact absurd (hr.2.1.symm.trans hsend) Bool.false_ne_true
  · obtain ⟨xpp, _, rfl⟩ := blockSend_eq_ok hblock
    have hempty := fun q => markSending_isemptyp caller q dstE m s hready.1.1
    have hst := static_blockSend hblock
    refine ⟨⟨?_, ?_⟩, ?_, ?_, ?_, ?_, ?_⟩
    · simpa using (hempty caller).trans hready.1.1
    · simpa using (markSending_isset caller caller dstE m s (by decide)).trans hready.1.2
    · simpa using (markSending_isset caller caller dstE m s (by decide)).trans hready.2.2
    · exact (isokendpt_congr (fun q => by simpa using hempty q) hst.endpoint dstE).trans hd
    · simpa using (markSending_isset caller d dstE m s (by decide)).trans hno
    · simp [markSending, State.modProc_proc]
    · simp [State.mfIsset, markSending, State.modProc_proc]

end Nucleos.Kernel
