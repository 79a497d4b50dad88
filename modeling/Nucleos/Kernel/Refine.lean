import Nucleos.Kernel.Deadlock
import Nucleos.Kernel.Exit

/-!
# Every kernel entry is a run of the protocol

Update by update, and then for whole entries: the invariant of the process table is kept,
and the protocol state makes steps of the rendezvous protocol only.
-/

namespace Nucleos.Kernel

open IntrusiveList FunctionalGraph Rendezvous Run

variable {l : Entry} {s t u : State}

/-- The invariant is kept and the protocol state stays or makes one step. -/
def Refines (l : Entry) (s t : State) : Prop :=
  t.Good ∧ (t.protocol = s.protocol ∨ System.Step l.toLabel s.protocol t.protocol)

lemma refines_same (hg : s.Good) (hst : Static s t) (hfree : t.FreeOk)
    (h : ∀ p, (t.proc p).shadow.flow = (s.proc p).shadow.flow) : Refines l s t :=
  ⟨hg.congr hst hfree h, .inl (protocol_congr h)⟩

lemma refines_proc (hg : s.Good) (hst : Static s t) (h : t.proc = s.proc) : Refines l s t := by
  refine refines_same hg hst (fun p => ?_) (fun p => ?_)
  · rw [h]
    exact hg.freeOk p
  · rw [h]

lemma refines_misc (hg : s.Good) {p : Slot} {g : Proc → Proc} (hst : Static s (s.modProc p g))
    (hflags : (g (s.proc p)).pRtsFlags = (s.proc p).pRtsFlags)
    (h : (g (s.proc p)).shadow.flow = (s.proc p).shadow.flow) : Refines l s (s.modProc p g) := by
  refine refines_same hg hst (fun q => ?_) (s.modProc_keep (fun x => x.shadow.flow) h)
  rw [Proc.FreeOk, s.modProc_keep Proc.pRtsFlags hflags]
  exact hg.freeOk q

lemma refines_wake (hg : s.Good) (p : Slot) : Refines l s (s.rtsUnset p rtsReceiving) :=
  ⟨hg.wake p, .inr (protocol_wake hg.freeOk p ▸ .wake p)⟩

lemma refines_deposit_wake (hg : s.Good) (hproc : u.proc = s.proc) (hst : Static s u) (ep : Int) (m : Msg)
    (dst : Slot) : Refines l s ((deposit ep m dst u).rtsUnset dst rtsReceiving) := by
  have hq := quiet_deposit ep m dst u
  have hflow : ∀ p, ((deposit ep m dst u).proc p).shadow.flow = (s.proc p).shadow.flow := by
    intro p
    rw [hq.shadow p, hproc]
  have hgood : (deposit ep m dst u).Good := by
    refine hg.congr (hst.trans (static_deposit ep m dst u)) (hq.freeOk fun p => ?_) hflow
    rw [hproc]
    exact hg.freeOk p
  obtain ⟨hgood', hstep⟩ := refines_wake (l := l) hgood dst
  rw [protocol_congr hflow] at hstep
  exact ⟨hgood', hstep⟩

lemma refines_notify {caller dst : Slot} (hg : s.Good) (h : NotifyEffect caller dst s t) : Refines l s t := by
  cases h with
  | direct m u _ _ hbuild =>
    obtain ⟨hgood, hstep⟩ := refines_deposit_wake (l := l) hg (buildNotify_proc hbuild)
      (static_buildNotify hbuild) (u.proc caller).pEndpoint m dst
    exact ⟨hgood.congr (.of_eq rfl rfl) hgood.freeOk fun _ => rfl, hstep⟩
  | posted i j _ _ =>
    refine refines_proc hg ?_ rfl
    apply Static.record
    apply Static.modPriv <;> rfl

lemma Refines.of_proc (h : Refines l u t) (hproc : u.proc = s.proc) : Refines l s t := by
  have hprot : u.protocol = s.protocol := protocol_congr fun p => by rw [hproc]
  rw [Refines, hprot] at h
  exact h

lemma State.Good.of_proc (hg : s.Good) (hst : Static s t) (h : t.proc = s.proc) : t.Good :=
  (refines_proc (l := .idle (kernelEnv Msg.zero)) hg hst h).1

lemma refines_block {p d : Slot} {dstE : Int} {m : Msg} (hg : s.Good) (hactor : l.actor = some p)
    (hp : s.Ready p) (hd : s.isokendpt dstE = some d) (hlive : s.rtsIsset d rtsNoEndpoint = false)
    (hwill : s.willReceive d (s.proc p).pEndpoint = false) (hallow : s.maySendTo p d = .ok true)
    (hdead : deadlock kipcSend p (some d) s = .ok 0) (hblock : blockSend p d dstE m s = .ok t) :
    Refines l s t := by
  have hdlive : s.Live d := ⟨isokendpt_nonempty hd, hlive⟩
  have hne := maySendTo_ne hg.noSelf hallow
  obtain ⟨k, hk, _⟩ := hg.inv.chain d (State.live_iff.mpr hdlive)
  obtain rfl := blockSend_blocked hk hblock
  refine ⟨hg.block hp hd hdlive hk, .inr ?_⟩
  rw [protocol_blocked hp.1.1 hd]
  exact .send p d k hactor (State.live_iff.mpr hp.1) (State.live_iff.mpr hdlive)
    (State.sendTo_of_not hp.2.1) (State.waitFor_of_not hp.2.2) hne
    (deadlock_send hg hne hwill hdead) hk

lemma refines_wait {p : Slot} {srcE : Int} (hg : s.Good) (hactor : l.actor = some p)
    (hlive : s.Live p) (hrecv : s.rtsIsset p rtsReceiving = false)
    (hsrc : receiveSource srcE s = .ok l.source)
    (hsrcLive : ∀ d, l.source = some d → s.rtsIsset d rtsNoEndpoint = false)
    (hsend : s.rtsIsset p rtsSending = true → (s.proc p).pSendtoE = srcE ∧ srcE ≠ endptAny)
    (hqueue : s.rtsIsset p rtsSending = false → receiveCaller p l.source s = .ok none)
    (hdead : deadlock kipcReceive p l.source s = .ok 0) : Refines l s (markReceiving p srcE s) := by
  have hsource := receiveSource_eq hsrc
  have hok : srcE ≠ endptAny → ∃ d, s.isokendpt srcE = some d := by
    intro hany
    rw [receiveSource, if_neg hany] at hsrc
    obtain ⟨d, hd, _⟩ := bind_eq_ok.mp hsrc
    exact ⟨d, (s.okendpt_eq_ok).mp hd⟩
  have hdlive : ∀ d, l.source = some d → s.Live d := by
    intro d hd
    refine ⟨?_, hsrcLive d hd⟩
    rw [hsource, sourceOf] at hd
    split at hd
    · cases hd
    · exact isokendpt_nonempty hd
  have hto : ∀ d, s.protocol.sendTo p = some d → l.source = some d := by
    intro d hd
    obtain ⟨hs, hd⟩ := State.sendTo_eq_some.mp hd
    obtain ⟨he, hany⟩ := hsend hs
    rw [hsource, sourceOf, if_neg hany, ← he]
    exact hd
  refine ⟨hg.wait hlive hok (hsource ▸ hdlive) (hsource ▸ hto), .inr ?_⟩
  rw [protocol_wait hlive.1, ← hsource]
  refine .wait p hactor (State.live_iff.mpr hlive) (State.waitFor_of_not hrecv)
    (fun d hd => State.live_iff.mpr (hdlive d hd)) hto (fun hs d hd hne => ?_)
  have hnot : s.rtsIsset p rtsSending = false := by
    rw [Bool.eq_false_iff]
    intro hsending
    obtain ⟨e, he⟩ := (hg.sending_iff p).mp hsending
    cases hs.symm.trans he
  rw [hd] at hdead
  exact deadlock_receive hg hne hlive (hd ▸ hqueue hnot) hdead

lemma refines_release {p q : Slot} {xpp : Cell Slot Slot} (hg : s.Good) (hactor : l.actor = some p)
    (hlive : s.Live p) (hwalk : s.queues.walk (accepts l.source) State.queueFuel (.head p) = some xpp)
    (hread : s.queues.read xpp = some q) :
    Refines l s ((s.rtsUnset q rtsSending).writeCell xpp (s.proc q).pQLink) := by
  obtain ⟨k, hk, _⟩ := hg.inv.chain p (State.live_iff.mpr hlive)
  obtain ⟨l₁, l₂, rfl, rfl, hskip, _⟩ := Lists.walk_split s.queues _ hk hwalk
  have hrest := Lists.read_lastCell s.queues hk
  rw [hread] at hrest
  cases hrest with
  | @cons _ l₃ _ =>
    refine ⟨hg.release hlive hk, .inr ?_⟩
    rw [protocol_release hg.freeOk]
    refine .release p q l₁ l₃ hactor (State.live_iff.mpr hlive) hk (fun x hx => ?_)
    have hno := hskip x hx
    cases hsrc : l.source with
    | none => simp [accepts, hsrc] at hno
    | some d =>
      refine ⟨by simp, fun h => ?_⟩
      simp [accepts, hsrc, Option.some.inj h] at hno

lemma refines_free {rc : Slot} (hg : s.Good) (hgone : s.rtsIsset rc rtsNoEndpoint = true)
    (hst : Static s t) (hproc : t.proc = (s.modProc rc fun p => { p with pRtsFlags := rtsSlotFree }).proc) :
    Refines l s t := by
  have hrc : t.isemptyp rc = true := by simp [State.isemptyp, hproc, State.modProc_proc]
  have hother : ∀ q, q ≠ rc → t.proc q = s.proc q := by
    intro q hq
    rw [hproc, State.modProc_proc, if_neg hq]
  have hdead : s.protocol.live rc ≠ true := by simp [State.protocol, hgone]
  -- an endpoint that does not name the freed slot still names what it named
  have hok : ∀ {e}, s.isokendpt e ≠ some rc → t.isokendpt e = s.isokendpt e := by
    intro e he
    refine Option.ext fun d => ?_
    by_cases hd : d = rc
    · subst hd
      exact ⟨fun h => absurd (isokendpt_nonempty h) (ne_false_of_eq_true hrc), fun h => absurd h he⟩
    · rw [State.isokendpt_eq_some, State.isokendpt_eq_some, State.isemptyp, State.isemptyp, hother d hd]
  have hsource : ∀ {e}, sourceOf s e ≠ some rc → sourceOf t e = sourceOf s e := by
    intro e he
    unfold sourceOf at he ⊢
    split
    · rfl
    next hany =>
    rw [if_neg hany] at he
    exact hok he
  -- the freed slot neither waits nor is waited for
  have hto : ∀ {q}, s.rtsIsset q rtsSending = true → q ≠ rc ∧ s.isokendpt (s.proc q).pSendtoE ≠ some rc := by
    intro q hq
    obtain ⟨d, hd⟩ := (hg.sending_iff q).mp hq
    obtain ⟨hlq, hld⟩ := hg.inv.sender q d hd
    refine ⟨fun h => hdead (h ▸ hlq), fun h => hdead ?_⟩
    rw [← Option.some.inj ((State.sendTo_eq_some.mp hd).2.symm.trans h)]
    exact hld
  have hfrom : ∀ {q}, s.rtsIsset q rtsReceiving = true → q ≠ rc ∧
    sourceOf s (s.proc q).pGetfromE ≠ some rc := by
    intro q hq
    obtain ⟨hlq, hsrc⟩ := hg.inv.waiter q _ (State.waitFor_eq_some.mpr ⟨hq, rfl⟩)
    exact ⟨fun h => hdead (h ▸ hlq), fun h => hdead (hsrc rc h)⟩
  have hflag : ∀ {f : BitVec 16}, f &&& rtsSlotFree = 0#16 → f ≠ 0#16 →
    (∀ {q}, s.rtsIsset q f = true → q ≠ rc) →
      ∀ q, t.rtsIsset q f = s.rtsIsset q f := by
    intro f hf hne hset q
    by_cases hq : q = rc
    · rw [hq, isset_empty hrc hf hne]
      exact (Bool.eq_false_iff.mpr fun h => hset h rfl).symm
    · rw [State.rtsIsset, hother q hq, State.rtsIsset]
  have hsend := hflag (f := rtsSending) (by decide) (by decide) fun h => (hto h).1
  have hrecv := hflag (f := rtsReceiving) (by decide) (by decide) fun h => (hfrom h).1
  have hprot : t.protocol = s.protocol := by
    apply System.ext
    · funext q
      by_cases hq : q = rc
      · rw [hq, Bool.eq_false_iff.mpr hdead]
        simp [State.protocol, hrc]
      · simp only [State.protocol, State.isemptyp, State.rtsIsset, hother q hq]
    · funext q
      simp only [State.protocol, hsend]
      split
      · next hs => rw [hother q (hto hs).1, hok (hto hs).2]
      · rfl
    · funext q
      simp only [State.protocol, hrecv]
      split
      · next hs => rw [hother q (hfrom hs).1, hsource (hfrom hs).2]
      · rfl
    · change t.queues = s.queues
      rw [State.queues, hproc]
      exact queues_modProc s rc rfl rfl
  refine ⟨⟨fun q => ?_, fun q hq => ?_, fun i => ?_, fun q hq => ?_, fun q hq hany => ?_, ?_⟩, .inl hprot⟩
  · by_cases hq : q = rc
    · intro _
      rw [hq, hproc]
      simp [State.modProc_proc]
    · rw [hother q hq]
      exact hg.freeOk q
  · have hqr : q ≠ rc := by
      rintro rfl
      exact absurd hq (ne_false_of_eq_true hrc)
    rw [hother q hqr]
    apply hg.epOk
    rw [State.isemptyp, ← hother q hqr]
    exact hq
  · rw [hst.ipcTo i, hst.id i]
    exact hg.noSelf i
  · have hs := (hsend q).symm.trans hq
    obtain ⟨hqr, hd⟩ := hto hs
    rw [hother q hqr, hok hd]
    exact hg.sender q hs
  · have hs := (hrecv q).symm.trans hq
    obtain ⟨hqr, hd⟩ := hfrom hs
    rw [hother q hqr] at hany ⊢
    rw [sourceOf, if_neg hany] at hd
    rw [hok hd]
    exact hg.waiter q hs hany
  · rw [hprot]
    exact hg.inv

lemma Update.refines (h : Update l s t) (hg : s.Good) : Refines l s t := by
  have hst := h.static
  cases h with
  | quiet t h =>
    refine refines_same hg hst (h.freeOk hg.freeOk) fun p => ?_
    rw [h.shadow p]
  | sent | asynOpen | asynClose | asynSettle | asynDrop | write => exact refines_proc hg hst rfl
  | expectReply | expectAny | asynMark | asynNone => exact refines_misc hg hst rfl rfl
  | wake p => exact refines_wake hg p
  | block p d dstE m t hactor hp hd hlive hwill hallow hdead hblock =>
    exact refines_block hg hactor hp hd hlive hwill hallow hdead hblock
  | wait p srcE hactor hlive hrecv hsrc hsrcLive hsend hqueue hdead _ =>
    exact refines_wait hg hactor hlive hrecv hsrc hsrcLive hsend hqueue hdead
  | release p q xpp hactor hlive hwalk hread => exact refines_release hg hactor hlive hwalk hread
  | notify caller dst t _ _ heff => exact refines_notify hg heff
  | interrupt task dst i bits t _ _ _ heff | signal task dst i bits t _ _ _ heff =>
    refine Refines.of_proc (refines_notify ?_ heff) rfl
    refine hg.of_proc ?_ rfl
    apply Static.record
    apply Static.modPriv <;> rfl
  | take p i id t _ _ _ _ h =>
    obtain ⟨m, u, src, hbuild, -, rfl⟩ := takeNotify_inv h
    have hq := quiet_deposit (u.proc src).pEndpoint m p u
    have hproc := buildNotify_proc hbuild
    refine refines_same hg hst (hq.freeOk fun q => ?_) fun q => ?_
    · rw [hproc]
      exact hg.freeOk q
    change ((deposit (u.proc src).pEndpoint m p u).proc q).shadow.flow = _
    rw [hq.shadow q, hproc]
    rfl
  | asynDeliver src dst a _ _ _ => exact refines_proc hg hst (complete_proc l.env src a 0 _ _)
  | asynRefuse src a r _ _ => exact refines_proc hg hst (complete_proc l.env src a r _ s)
  | gone rc t hleave _ h =>
    obtain ⟨hgood, hstep⟩ := clearEndpoint_step hg hleave h
    exact ⟨hgood, .inr hstep⟩
  | free rc i _ _ _ hgone =>
    refine refines_free hg hgone hst ?_
    split <;> rfl

lemma Updates.good (h : Updates l s t) (hg : s.Good) : t.Good := by
  induction h with
  | refl => exact hg
  | tail _ hu ih => exact (hu.refines ih).1

/-- What holds of the protocol state along the steps of an entry. -/
theorem Updates.protocol_induct {P : System Slot → Prop} (h : Updates l s t) (hg : s.Good)
    (h0 : P s.protocol) (hstep : ∀ v w, v.Inv → P v → System.Step l.toLabel v w → P w) : P t.protocol := by
  induction h with
  | refl => exact h0
  | tail hup hu ih =>
    have hgood := Updates.good hup hg
    rcases (hu.refines hgood).2 with heq | hs
    · rw [heq]
      exact ih
    · exact hstep _ _ hgood.inv ih hs

lemma State.Good.updates {a : Action} (hg : s.Good) (h : step s a = .ok t) : Updates (entryOf s a) s t :=
  step_updates (fun _ hu => (hu.good hg).sound) h

lemma State.Good.step {a : Action} (hg : s.Good) (h : step s a = .ok t) : t.Good :=
  (hg.updates h).good hg

end Nucleos.Kernel
