import Nucleos.Kernel.Asyn

/-!
# A kernel entry is a sequence of updates

The calls behind the IPC trap, and then every action of the kernel, put together from the
updates of the single routines.
-/

namespace Nucleos.Kernel

open IntrusiveList Run

variable {l : Entry} {s t u : State} {env : Env} {caller p d rc : Slot} {src : Option Slot}
    {srcE r endpt : Int} {flags : BitVec 32} {f : BitVec 16} {msg callType : Nat}

lemma receivePending_eq_ok {found : Bool} (h : receivePending env caller src s = .ok (found, t)) :
    (found = true ∧ receiveNotify caller src s = .ok (some t)) ∨
      (found = true ∧ receiveNotify caller src s = .ok none ∧
        receiveCaller caller src s = .ok (some t)) ∨
      (receiveNotify caller src s = .ok none ∧ receiveCaller caller src s = .ok none ∧
        receiveAsyn env caller src s = .ok (found, t)) := by
  unfold receivePending at h
  obtain ⟨x, hx, h⟩ := bind_eq_ok.mp h
  cases x with
  | some v =>
    cases h
    exact .inl ⟨rfl, hx⟩
  | none =>
    obtain ⟨y, hy, h⟩ := bind_eq_ok.mp h
    cases y with
    | some v =>
      cases h
      exact .inr (.inl ⟨rfl, hx, hy⟩)
    | none => exact .inr (.inr ⟨hx, hy, h⟩)

lemma receiveCaller_congr (hq : t.queues = s.queues)
    (h : receiveCaller caller src s = .ok none) : receiveCaller caller src t = .ok none := by
  unfold receiveCaller at h ⊢
  rw [hq]
  split at h
  · cases h
  split at h
  · rfl
  · obtain ⟨v, _, h⟩ := bind_eq_ok.mp h
    cases h

lemma blockReceive_eq_ok (h : blockReceive caller srcE src flags s = .ok (r, t)) :
    t = s ∨ deadlock kipcReceive caller src s = .ok 0 ∧ t = markReceiving caller srcE s := by
  rcases ite_eq_iff.mp h with ⟨_, h⟩ | ⟨_, h⟩
  · obtain ⟨group, hgroup, h⟩ := bind_eq_ok.mp h
    rcases ite_eq_iff.mp h with ⟨_, h⟩ | ⟨hzero, h⟩
    · exact .inl (ok_pair_inj h).2.symm
    · rw [not_not.mp hzero] at hgroup
      exact .inr ⟨hgroup, (ok_pair_inj h).2.symm⟩
  · exact .inl (ok_pair_inj h).2.symm

structure BeforeReceive (l : Entry) (s : State) (caller : Slot) (srcE : Int) : Prop where
  actor : l.actor = some caller
  live : s.Live caller
  receiving : s.rtsIsset caller rtsReceiving = false
  source : ∀ src, receiveSource srcE s = .ok src → src = l.source
  sendto : s.rtsIsset caller rtsSending = true → (s.proc caller).pSendtoE = srcE ∧ srcE ≠ endptAny
  may : s.mfIsset caller mfReplyPend = true ∨ MayReceive s caller

lemma MayReceive.static (h : MayReceive s p) (hst : Static s t) : MayReceive t p := by
  obtain ⟨i, hi, hmask⟩ := h
  exact ⟨i, (hst.priv p).trans hi, by rw [hst.trapMask i]; exact hmask⟩

lemma receiveSource_congr (hfree : ∀ p, t.isemptyp p = s.isemptyp p)
    (hep : ∀ p, (t.proc p).pEndpoint = (s.proc p).pEndpoint) (e : Int) :
    receiveSource e t = receiveSource e s := by
  unfold receiveSource State.okendpt
  rw [isokendpt_congr hfree hep]

lemma BeforeReceive.passive (hb : BeforeReceive l s caller srcE)
    (hfree : s.FreeOk) (hp : Passive s t) (hst : Static s t) : BeforeReceive l t caller srcE := by
  refine ⟨hb.actor, hp.live hfree hb.live, ?_, fun src hsrc => ?_, fun hsend => ?_, ?_⟩
  · cases hr : t.rtsIsset caller rtsReceiving with
    | false => rfl
    | true =>
      exact absurd ((hp caller).receiving hr)
        (by rw [Proc.shadow]; exact ne_true_of_eq_false hb.receiving)
  · rw [receiveSource_congr (hp.isemptyp hfree) hst.endpoint] at hsrc
    exact hb.source src hsrc
  · have hto : (t.proc caller).pSendtoE = (s.proc caller).pSendtoE := (hp caller).sendto
    rw [hto]
    exact hb.sendto ((hp caller).sending.symm.trans hsend)
  · rcases hb.may with hr | hm
    · exact .inl ((hp caller).replyPend.trans hr)
    · exact .inr (hm.static hst)

lemma receiveSource_nonempty {e : Int} (h : receiveSource e s = .ok src) :
    ∀ p, src = some p → s.isemptyp p = false := by
  rintro p rfl
  rcases ite_eq_iff.mp h with ⟨_, h⟩ | ⟨_, h⟩
  · cases h
  obtain ⟨q, hq, h⟩ := bind_eq_ok.mp h
  cases h
  exact isokendpt_nonempty ((s.okendpt_eq_ok).mp hq)

lemma miniReceive_eq_ok {mPtr : Nat} (h : miniReceive env caller srcE mPtr flags s = .ok (r, t)) : t = s ∨
    ∃ src, receiveSource srcE s = .ok src ∧ (∀ d, src = some d → s.rtsIsset d rtsNoEndpoint = false) ∧
      (s.rtsIsset caller rtsSending = true ∧ blockReceive caller srcE src flags s = .ok (r, t) ∨
        receiveNotify caller src s = .ok (some t) ∨ receiveCaller caller src s = .ok (some t) ∨
        ∃ found u, receiveCaller caller src s = .ok none ∧ receiveAsyn env caller src s = .ok (found, u) ∧
          (t = u ∨ blockReceive caller srcE src flags u = .ok (r, t))) := by
  rcases ite_eq_iff.mp h with ⟨_, h⟩ | ⟨_, h⟩
  · exact .inl (ok_pair_inj h).2.symm
  obtain ⟨src, hsrc, h⟩ := bind_eq_ok.mp h
  rcases ite_eq_iff.mp h with ⟨_, h⟩ | ⟨hdied, h⟩
  · exact .inl (ok_pair_inj h).2.symm
  refine .inr ⟨src, hsrc, fun d hd => by simpa [hd] using hdied, ?_⟩
  rcases ite_eq_iff.mp h with ⟨hsending, h⟩ | ⟨_, h⟩
  · exact .inl ⟨hsending, h⟩
  obtain ⟨⟨found, u⟩, hpend, h⟩ := bind_eq_ok.mp h
  rcases receivePending_eq_ok hpend with ⟨rfl, hn⟩ | ⟨rfl, _, hc⟩ | ⟨_, hc, ha⟩
  · cases h
    exact .inr (.inl hn)
  · cases h
    exact .inr (.inr (.inl hc))
  · refine .inr (.inr (.inr ⟨found, u, hc, ha, ?_⟩))
    exact (ite_eq_iff.mp h).imp (fun h => (ok_pair_inj h.2).2.symm) And.right

lemma BeforeReceive.block (hb : BeforeReceive l s caller srcE) (hsrc : receiveSource srcE s = .ok l.source)
    (hlive : ∀ d, l.source = some d → s.rtsIsset d rtsNoEndpoint = false)
    (hqueue : s.rtsIsset caller rtsSending = false → receiveCaller caller l.source s = .ok none)
    (h : blockReceive caller srcE l.source flags s = .ok (r, t)) : Updates l s t := by
  rcases blockReceive_eq_ok h with rfl | ⟨hgroup, rfl⟩
  · exact .refl l t
  · exact (Update.wait caller srcE hb.actor hb.live hb.receiving hsrc hlive hb.sendto hqueue hgroup
      hb.may).updates

lemma miniReceive_updates {mPtr : Nat} (hb : BeforeReceive l s caller srcE) (henv : l.env = env)
    (hs : s.Sound)
    (h : miniReceive env caller srcE mPtr flags s = .ok (r, t)) : Updates l s t := by
  rcases miniReceive_eq_ok h with rfl | ⟨src, hsrc, hlive, h⟩
  · exact .refl l t
  obtain rfl := hb.source src hsrc
  rcases h with ⟨hsending, h⟩ | hn | hc | ⟨found, u, hc, ha, h⟩
  · exact hb.block hsrc hlive (fun hno => absurd hsending (ne_true_of_eq_false hno)) h
  · exact receiveNotify_updates hb.live.1 hb.may hn
  · exact receiveCaller_updates hb.actor hs hb.live hc
  have hup := (receiveAsyn_updates (receiveSource_nonempty hsrc) ha henv).1
  have hidle : Updates (.idle env) s u := (receiveAsyn_updates (receiveSource_nonempty hsrc) ha rfl).1
  have hp := hidle.passive hs.freeOk
  rcases h with rfl | h
  · exact hup
  refine hup.trans ((hb.passive hs.freeOk hp hup.static).block ?_ ?_ (fun _ =>
    receiveCaller_congr hp.queues hc) h)
  · rw [receiveSource_congr (hp.isemptyp hs.freeOk) hup.static.endpoint]
    exact hsrc
  · intro d hd
    exact (hp d).noEndpoint.trans (hlive d hd)

def sourceOf (s : State) (endpt : Int) : Option Slot :=
  if endpt = endptAny then none else s.isokendpt endpt

lemma receiveSource_eq {e : Int} (h : receiveSource e s = .ok src) : src = sourceOf s e := by
  unfold receiveSource at h
  unfold sourceOf
  split at h
  · cases h
    rw [if_pos ‹_›]
  obtain ⟨p, hp, h⟩ := bind_eq_ok.mp h
  cases h
  rw [if_neg ‹_›, (s.okendpt_eq_ok).mp hp]

lemma sourceOf_congr (hfree : ∀ p, t.isemptyp p = s.isemptyp p)
    (hep : ∀ p, (t.proc p).pEndpoint = (s.proc p).pEndpoint) (e : Int) : sourceOf t e = sourceOf s e := by
  unfold sourceOf
  rw [isokendpt_congr hfree hep]

lemma maySendTo_ne (hself : ∀ i, getSysBit (s.priv i).sIpcTo (s.priv i).sId = false)
    (h : s.maySendTo p d = .ok true) : d ≠ p := by
  rintro rfl
  obtain ⟨i, hi, h⟩ := bind_eq_ok.mp h
  obtain ⟨j, hj, h⟩ := bind_eq_ok.mp h
  obtain rfl := Except.ok.inj (hi.symm.trans hj)
  rw [pure_eq_ok, hself i] at h
  cases h

/-- The process whose message a call waits for; a `KIPC_SENDREC` to oneself is refused. -/
def callSource (s : State) (caller : Slot) (callType : Nat) (endpt : Int) : Option Slot :=
  if callType = kipcReceive then sourceOf s endpt
  else if callType = kipcSendrec ∧ sourceOf s endpt ≠ some caller then sourceOf s endpt
  else none

lemma callSource_congr (hfree : ∀ p, t.isemptyp p = s.isemptyp p)
    (hep : ∀ p, (t.proc p).pEndpoint = (s.proc p).pEndpoint) (caller : Slot) (callType : Nat) (e : Int) :
    callSource t caller callType e = callSource s caller callType e := by
  unfold callSource
  rw [sourceOf_congr hfree hep]

lemma callSource_sendrec (hany : endpt ≠ endptAny) (hd : s.isokendpt endpt = some d) (hne : d ≠ caller) :
    callSource s caller kipcSendrec endpt = sourceOf s endpt := by
  have hsrc : sourceOf s endpt = some d := by rw [sourceOf, if_neg hany, hd]
  rw [callSource, if_neg (by decide), if_pos]
  exact ⟨rfl, fun h => hne (Option.some.inj (hsrc.symm.trans h))⟩

structure Admitted (s : State) (caller : Slot) (callType : Nat) (endpt : Int) : Prop where
  trap : ∃ i, (s.proc caller).pPriv = some i ∧ (s.priv i).sTrapMask.getLsbD callType = true
  notAny : endpt = endptAny → callType = kipcReceive ∨ callType = kipcSenda
  dst : callType ≠ kipcReceive → callType ≠ kipcSenda →
    ∃ d, s.isokendpt endpt = some d ∧ s.maySendTo caller d = .ok true

lemma Admitted.ne_any (h : Admitted s caller kipcSendrec endpt) : endpt ≠ endptAny := fun ha => by
  rcases h.notAny ha with hc | hc <;> exact absurd hc (by decide)

lemma ready_mfSet (h : s.Ready p) : (s.mfSet p f).Ready p := by
  have hflags : ((s.mfSet p f).proc p).pRtsFlags = (s.proc p).pRtsFlags := by
    simp [State.mfSet, State.modProc_proc]
  simpa only [State.Ready, State.Live, State.isemptyp, State.rtsIsset, hflags] using h

lemma mfIsset_mfSet (s : State) (p : Slot) (f : BitVec 16) : (s.mfSet p f).mfIsset p f = true := by
  simp [State.mfIsset, State.mfSet, State.modProc_proc]

lemma isemptyp_mfSet (s : State) (p q : Slot) (f : BitVec 16) : (s.mfSet p f).isemptyp q = s.isemptyp q :=
  s.modProc_keep (fun x => x.pRtsFlags == rtsSlotFree) rfl q

lemma isokendpt_mfSet (s : State) (p : Slot) (f : BitVec 16) (e : Int) :
    (s.mfSet p f).isokendpt e = s.isokendpt e :=
  isokendpt_congr (fun q => isemptyp_mfSet s p q f) (static_mfSet s p f).endpoint e

lemma isemptyp_mfUnset (s : State) (p q : Slot) (f : BitVec 16) : (s.mfUnset p f).isemptyp q = s.isemptyp q :=
  s.modProc_keep (fun x => x.pRtsFlags == rtsSlotFree) rfl q

lemma rtsIsset_mfSet (s : State) (p q : Slot) (f g : BitVec 16) :
    (s.mfSet p f).rtsIsset q g = s.rtsIsset q g :=
  s.modProc_keep (fun x => ChunkMap.isset x.pRtsFlags g) rfl q

lemma rtsIsset_mfUnset (s : State) (p q : Slot) (f g : BitVec 16) :
    (s.mfUnset p f).rtsIsset q g = s.rtsIsset q g :=
  s.modProc_keep (fun x => ChunkMap.isset x.pRtsFlags g) rfl q

section
variable (hactor : l.actor = some caller) (henv : l.env = env)
    (hsource : l.source = sourceOf s endpt) (hgood : ∀ u, Updates l s u → u.Sound)
    (hready : s.Ready caller)
include hactor henv hsource hgood hready

lemma sendrec_updates {r' : Int} (hany : endpt ≠ endptAny) (hd : s.isokendpt endpt = some d)
    (hallow : s.maySendTo caller d = .ok true)
    (hsend : miniSend env caller endpt msg flags (s.mfSet caller mfReplyPend) = .ok (r, u))
    (h : (if r ≠ 0 then .ok (r, u) else miniReceive env caller endpt msg 0 u) = .ok (r', t)) :
    Updates l s t := by
  have hpend := (Update.expectReply (s := s) caller hactor).updates
  have hst : Static s (s.mfSet caller mfReplyPend) := hpend.static
  have hd' := (isokendpt_mfSet s caller mfReplyPend endpt).trans hd
  have hready' := ready_mfSet (f := mfReplyPend) hready
  have hup := hpend.trans (miniSend_updates hactor hready' hd'
    ((maySendTo_static hst caller d).trans hallow) hsend)
  split at h
  · cases h
    exact hup
  rename_i hzero
  rw [not_not.mp hzero] at hsend
  have hafter := miniSend_after (hgood _ hpend).freeOk hready' hd' hsend
  have hb : BeforeReceive l u caller endpt := by
    refine ⟨hactor, hafter.live, hafter.receiving, fun src hsrc => ?_,
      fun hs => ⟨hafter.sendto hs, hany⟩, .inl ?_⟩
    · rw [receiveSource_eq hsrc, hsource, sourceOf, sourceOf, if_neg hany, if_neg hany,
        hafter.endpoint, hd]
    · exact hafter.replyPend.trans (mfIsset_mfSet s caller mfReplyPend)
  exact hup.trans (miniReceive_updates hb henv (hgood u hup) h)

lemma receive_updates (hmay : MayReceive s caller)
    (h : miniReceive env caller endpt msg flags (s.mfUnset caller mfReplyPend) = .ok (r, t)) :
    Updates l s t := by
  have hpend := (Update.expectAny caller hactor hmay).updates
  have hst := hpend.static
  have hb : BeforeReceive l (s.mfUnset caller mfReplyPend) caller endpt := by
    refine ⟨hactor, ⟨?_, ?_⟩, ?_, fun src hsrc => ?_, fun hs => ?_, .inr (hmay.static hst)⟩
    · exact (isemptyp_mfUnset s caller caller _).trans hready.1.1
    · exact (rtsIsset_mfUnset s caller caller _ _).trans hready.1.2
    · exact (rtsIsset_mfUnset s caller caller _ _).trans hready.2.2
    · rw [receiveSource_eq hsrc, hsource,
        sourceOf_congr (fun p => isemptyp_mfUnset s caller p _) hst.endpoint]
    · rw [rtsIsset_mfUnset] at hs
      exact absurd hs (ne_true_of_eq_false hready.2.1)
  exact hpend.trans (miniReceive_updates hb henv (hgood _ hpend) h)

end

lemma checkEndpt_ok {d : Option Slot} (h : checkEndpt caller callType endpt s = .ok (.ok d)) :
    (endpt = endptAny → callType = kipcReceive ∨ callType = kipcSenda) ∧
      (callType ≠ kipcReceive → callType ≠ kipcSenda →
        ∃ d', s.isokendpt endpt = some d' ∧ s.maySendTo caller d' = .ok true) := by
  unfold checkEndpt at h
  split at h
  · rename_i hc
    exact ⟨fun _ => .inr hc, fun _ hs => absurd hc hs⟩
  split at h
  · split at h
    · cases h
    · rename_i hc
      exact ⟨fun _ => .inl (not_not.mp hc), fun hr => absurd (not_not.mp hc) hr⟩
  rename_i hany
  refine ⟨fun ha => absurd ha hany, fun hr _ => ?_⟩
  split at h
  · cases h
  rename_i p hp
  rw [if_pos hr] at h
  obtain ⟨allowed, hallow, h⟩ := bind_eq_ok.mp h
  cases allowed with
  | false => cases h
  | true =>
    cases h
    exact ⟨p, hp, hallow⟩

lemma checkedCall_eq_ok (h : checkedCall env caller callType flags endpt msg s = .ok (r, t)) : t = s ∨
    Admitted s caller callType endpt ∧ performCall env caller callType flags endpt msg s = .ok (r, t) := by
  unfold checkedCall at h
  obtain ⟨x, hx, h⟩ := bind_eq_ok.mp h
  cases x with
  | error e => exact .inl (ok_pair_inj h).2.symm
  | ok d =>
    obtain ⟨hany, hdst⟩ := checkEndpt_ok hx
    rcases ite_eq_iff.mp h with ⟨_, h⟩ | ⟨_, h⟩
    · exact .inl (ok_pair_inj h).2.symm
    obtain ⟨i, hi, h⟩ := bind_eq_ok.mp h
    rcases ite_eq_iff.mp h with ⟨_, h⟩ | ⟨hmask, h⟩
    · exact .inl (ok_pair_inj h).2.symm
    rcases ite_eq_iff.mp h with ⟨_, h⟩ | ⟨_, h⟩
    · exact .inl (ok_pair_inj h).2.symm
    rcases ite_eq_iff.mp h with ⟨_, h⟩ | ⟨_, h⟩
    · exact .inl (ok_pair_inj h).2.symm
    exact .inr ⟨⟨⟨i, (s.privOf_eq_ok).mp hi, by simpa using hmask⟩, hany, hdst⟩, h⟩

lemma kipcCall_eq_ok (h : kipcCall env caller callType flags endpt msg s = .ok (r, t)) :
    ∃ u, Quiet s u ∧ (∀ p, (u.proc p).pDelivermsg = (s.proc p).pDelivermsg) ∧
      (causeSig caller sigtrap u = .ok t ∨ checkedCall env caller callType flags endpt msg u =
        .ok (r, t)) := by
  have misc : ∀ (f g : BitVec 16) (p : Slot), (((s.mfUnset caller f).mfSet caller g).proc p).pDelivermsg =
      (s.proc p).pDelivermsg := fun f g p =>
    ((s.mfUnset caller f).modProc_keep Proc.pDelivermsg rfl p).trans (s.modProc_keep Proc.pDelivermsg rfl p)
  rcases ite_eq_iff.mp h with ⟨_, h⟩ | ⟨_, h⟩
  · obtain ⟨v, hv, h⟩ := bind_eq_ok.mp h
    cases h
    exact ⟨_, (quiet_mfUnset caller s (by decide) (by decide)).trans
      (quiet_mfSet caller _ (by decide) (by decide)),
      misc mfScTrace mfScDefer, .inl hv⟩
  rcases ite_eq_iff.mp h with ⟨_, h⟩ | ⟨_, h⟩
  · exact ⟨_, (quiet_mfUnset caller s (by decide) (by decide)).trans
      (quiet_mfSet caller _ (by decide) (by decide)),
      misc mfScDefer mfScActive, .inr h⟩
  · exact ⟨s, .refl s, fun _ => rfl, .inr h⟩

lemma Quiet.live (h : Quiet s t) (hp : s.Live p) : t.Live p :=
  ⟨(h.isemptyp p).trans hp.1, (congrArg Shadow.noEndpoint (h.shadow p)).trans hp.2⟩

lemma Quiet.ready (h : Quiet s t) (hp : s.Ready p) : t.Ready p :=
  ⟨h.live hp.1, (congrArg Shadow.sending (h.shadow p)).trans hp.2.1,
    (congrArg Shadow.receiving (h.shadow p)).trans hp.2.2⟩

lemma Quiet.callSource (h : Quiet s t) (caller : Slot) (callType : Nat) (e : Int) :
    callSource t caller callType e = callSource s caller callType e :=
  callSource_congr h.isemptyp (fun p => congrArg Shadow.endpoint (h.shadow p)) caller callType e

lemma quiet_retreg (p : Slot) (r : Int) (s : State) :
    Quiet s (s.modProc p fun x => { x with retreg := r }) := by
  apply Quiet.modProc
  · rfl
  · exact id

section
variable (hactor : l.actor = some caller) (henv : l.env = env)
    (hsource : l.source = callSource s caller callType endpt)
  (hgood : ∀ u, Updates l s u → u.Sound) (hready : s.Ready caller)
include hactor henv hsource hgood hready

lemma performCall_updates (hadm : Admitted s caller callType endpt)
    (h : performCall env caller callType flags endpt msg s = .ok (r, t)) : Updates l s t := by
  unfold performCall at h
  split at h
  · rename_i hc
    subst hc
    obtain ⟨⟨r', v⟩, hsend, h⟩ := bind_eq_ok.mp h
    obtain ⟨d, hd, hallow⟩ := hadm.dst (by decide) (by decide)
    have hany := hadm.ne_any
    have hne := maySendTo_ne (hgood s (.refl l s)).noSelf hallow
    exact sendrec_updates hactor henv (hsource.trans (callSource_sendrec hany hd hne)) hgood hready hany hd
      hallow hsend h
  · split at h
    · rename_i hc
      subst hc
      obtain ⟨d, hd, hallow⟩ := hadm.dst (by decide) (by decide)
      exact miniSend_updates hactor hready hd hallow h
    · split at h
      · rename_i hc
        subst hc
        exact receive_updates hactor henv hsource hgood hready hadm.trap h
      split at h
      · rename_i hc
        subst hc
        exact miniNotify_updates (.inr ⟨hactor, hready.1, hadm.trap⟩) h
      split at h
      · exact miniSenda_updates (hgood s (.refl l s)).freeOk hready.1 hactor henv h
      · cases h
        exact .refl l _

lemma checkedCall_updates (h : checkedCall env caller callType flags endpt msg s = .ok (r, t)) :
    Updates l s t := by
  rcases checkedCall_eq_ok h with rfl | ⟨hadm, h⟩
  · exact .refl l t
  · exact performCall_updates hactor henv hsource hgood hready hadm h

lemma kipcCall_updates (h : kipcCall env caller callType flags endpt msg s = .ok (r, t)) : Updates l s t := by
  obtain ⟨u, hq, _, h⟩ := kipcCall_eq_ok h
  have hup := (Update.quiet (l := l) _ hq).updates
  rcases h with hv | h
  · exact hup.trans (causeSig_updates (hgood _ hup).epOk (hq.live hready.1).1 hv)
  · exact hup.trans (checkedCall_updates hactor henv (hsource.trans (hq.callSource _ _ endpt).symm)
      (fun u hu => hgood u (hup.trans hu)) (hq.ready hready) h)

end

lemma trapCall_updates (hq : Quiet s u) (hactor : l.actor = some p) (henv : l.env = env)
    (hsource : l.source = callSource s p callType endpt) (hgood : ∀ u, Updates l s u → u.Sound)
    (hready : s.Ready p) (h : trapCall env p callType flags endpt msg u = .ok t) : Updates l s t := by
  unfold trapCall at h
  obtain ⟨⟨r, v⟩, hcall, h⟩ := bind_eq_ok.mp h
  cases h
  have hup := (Update.quiet (l := l) _ hq).updates
  refine (hup.trans ?_).trans (Update.quiet _ (quiet_retreg p r v)).updates
  exact kipcCall_updates hactor henv (hsource.trans (hq.callSource _ _ endpt).symm)
    (fun u hu => hgood u (hup.trans hu)) (hq.ready hready) hcall

lemma clearProc_updates (hleave : l.leaving = some rc) (hker : iskerneln (procNr rc) = false)
    (h : clearProc rc s = .ok t) : Updates l s t := by
  unfold clearProc at h
  split at h
  · cases h
    exact .refl l _
  obtain ⟨v, hv, h⟩ := bind_eq_ok.mp h
  obtain ⟨i, hi, h⟩ := bind_eq_ok.mp h
  cases h
  refine (Update.gone rc v hleave hker hv).updates.trans ?_
  exact (Update.free rc i hleave hker ((v.privOf_eq_ok).mp hi) (clearEndpoint_noEndpoint hv)).updates

lemma quiet_control (p : Slot) (rts misc : BitVec 16) (hfree : s.FreeOk) (hp : s.isemptyp p = false) :
    Quiet s (s.modProc p fun x => { x with
      pRtsFlags := (x.pRtsFlags &&& ipcRtsFlags) ||| (rts &&& ~~~ipcRtsFlags)
      pMiscFlags := (x.pMiscFlags &&& ipcMiscFlags) ||| (misc &&& ~~~ipcMiscFlags) }) := by
  have hslot : ChunkMap.isset (s.proc p).pRtsFlags rtsSlotFree = false := by
    cases hf : ChunkMap.isset (s.proc p).pRtsFlags rtsSlotFree with
    | false => rfl
    | true => simp [State.isemptyp, hfree p hf] at hp
  have hslot' : ChunkMap.isset (((s.proc p).pRtsFlags &&& ipcRtsFlags) ||| (rts &&& ~~~ipcRtsFlags))
      rtsSlotFree = false :=
    (ChunkMap.isset_merge _ rts (by decide)).trans hslot
  apply Quiet.modProc
  · have hne : ((s.proc p).pRtsFlags &&& ipcRtsFlags) ||| (rts &&& ~~~ipcRtsFlags) ≠ rtsSlotFree := by
      intro heq
      rw [heq] at hslot'
      exact absurd hslot' (by decide)
    have hempty : ((s.proc p).pRtsFlags == rtsSlotFree) = false := hp
    simp (disch := decide) only [Proc.shadow, ChunkMap.isset_merge, hempty,
      beq_eq_false_iff_ne.mpr hne]
  · exact fun _ hf => absurd hf (ne_true_of_eq_false hslot')

lemma Update.isemptyp (h : Update l s t) (hs : s.FreeOk) (hleave : l.leaving = none) (q : Slot) :
    t.isemptyp q = s.isemptyp q := by
  cases h with
  | quiet t h => exact h.isemptyp q
  | sent | asynOpen | asynClose | asynSettle | asynDrop | write => rfl
  | expectReply p | asynMark p => exact isemptyp_mfSet s p q _
  | expectAny p | asynNone p => exact isemptyp_mfUnset s p q _
  | wake p => exact rtsUnset_isemptyp p q s hs (by decide)
  | block p d dstE m t _ hp _ _ _ _ _ hblock =>
    obtain ⟨xpp, _, rfl⟩ := blockSend_eq_ok hblock
    rw [State.writeCell_isemptyp, State.writeCell_isemptyp]
    exact markSending_isemptyp p q dstE m s hp.1.1
  | wait p srcE _ hlive => exact markReceiving_isemptyp p q srcE s hlive.1
  | release p x xpp _ _ _ _ =>
    rw [State.writeCell_isemptyp]
    exact rtsUnset_isemptyp x q s hs (by decide)
  | notify caller dst t _ _ heff
  | interrupt task dst i bits t _ _ _ heff
  | signal task dst i bits t _ _ _ heff => exact (passive_notify heff).isemptyp hs q
  | take p i id t _ _ _ _ h => exact (passive_take h).isemptyp hs q
  | asynDeliver | asynRefuse =>
    rw [State.isemptyp, complete_proc]
    rfl
  | gone rc t hl | free rc i hl => cases hleave.symm.trans hl

lemma Updates.isemptyp (h : Updates l s t) (hfree : ∀ u, Updates l s u → u.FreeOk)
    (hleave : l.leaving = none) (q : Slot) : t.isemptyp q = s.isemptyp q := by
  induction h with
  | refl => rfl
  | tail hup hu ih => exact (hu.isemptyp (hfree _ hup) hleave q).trans ih

def entryOf (s : State) : Action → Entry
  | .trap p callType _ endpt _ env => ⟨⟨some p, callSource s p callType.toNat endpt, none⟩, env, none⟩
  | .scall p _ endpt env => ⟨⟨some p, callSource s p kipcSendrec endpt, none⟩, env, none⟩
  | .resume p callType _ endpt _ env => ⟨⟨some p, callSource s p callType.toNat endpt, none⟩, env, none⟩
  | .kill p => ⟨⟨none, none, some p⟩, kernelEnv Msg.zero, none⟩
  | .exit p => ⟨⟨none, none, some p⟩, kernelEnv Msg.zero, none⟩
  | .write _ _ e => ⟨⟨none, none, none⟩, kernelEnv Msg.zero, some e⟩
  | _ => .idle (kernelEnv Msg.zero)

lemma ready_of_runnable (h : s.procIsRunnable p = true) : s.Ready p := by
  have hflags : (s.proc p).pRtsFlags = 0#16 := by simpa [State.procIsRunnable] using h
  simp only [State.Ready, State.Live, State.isemptyp, State.rtsIsset, hflags]
  decide

lemma reply_updates {task dst : Slot} {m : Msg} (hs : s.Sound)
    (hwill : s.willReceive dst (s.proc task).pEndpoint = true)
    (h : miniSend (kernelEnv m) task (s.proc dst).pEndpoint 0 0 s = .ok (r, t)) : Updates l s t := by
  have hdst : s.isemptyp dst = false := by
    cases he : s.isemptyp dst with
    | false => rfl
    | true =>
      have hflags : (s.proc dst).pRtsFlags = rtsSlotFree := by simpa [State.isemptyp] using he
      simp only [State.willReceive, State.rtsIsset, hflags, Bool.and_eq_true] at hwill
      exact absurd hwill.1.1 (by decide)
  rcases miniSend_eq_ok (isokendpt_endpoint hs.epOk hdst) h with
    ⟨_, rfl⟩ | ⟨_, _, _, x, y, rfl⟩ | ⟨_, _, hno, _⟩
  · exact .refl l t
  · exact ((Update.quiet _ (quiet_deposit (s.proc task).pEndpoint x dst s)).updates.trans
      (Update.wake dst).updates).trans (Update.sent task dst y).updates
  · exact absurd hwill (ne_true_of_eq_false hno)

lemma step_updates {a : Action} (hgood : ∀ u, Updates (entryOf s a) s u → u.Sound)
    (h : step s a = .ok t) : Updates (entryOf s a) s t := by
  have hs := hgood s (.refl _ s)
  cases a with
  | trap p callType flags endpt msg env =>
    rcases ite_eq_iff.mp h with ⟨hrun, h⟩ | ⟨_, h⟩
    · have hready := ready_of_runnable (Bool.and_eq_true_iff.mp (Bool.and_eq_true_iff.mp hrun).1).1
      refine trapCall_updates ?_ rfl rfl rfl hgood hready h
      apply Quiet.modProc
      · rfl
      · exact id
    · cases h
      exact .refl _ _
  | scall p m endpt env =>
    rcases ite_eq_iff.mp h with ⟨hrun, h⟩ | ⟨_, h⟩
    · have hrun' := (Bool.and_eq_true_iff.mp hrun).1
      have hready := ready_of_runnable (Bool.and_eq_true_iff.mp (Bool.and_eq_true_iff.mp hrun').1).1
      refine trapCall_updates ?_ rfl rfl rfl hgood hready h
      apply Quiet.modProc
      · rfl
      · exact id
    · cases h
      exact .refl _ _
  | resume p callType flags endpt msg env =>
    rcases ite_eq_iff.mp h with ⟨hrun, h⟩ | ⟨_, h⟩
    · have hready := ready_of_runnable (Bool.and_eq_true_iff.mp (Bool.and_eq_true_iff.mp hrun).1).1
      obtain ⟨v, hv, h⟩ := bind_eq_ok.mp h
      have hup := trapCall_updates (.refl s) rfl rfl rfl hgood hready hv
      split at h
      · have hp : v.isemptyp p = false :=
          (hup.isemptyp (fun u hu => (hgood u hu).freeOk) rfl p).trans hready.1.1
        exact hup.trans (sigDelayDone_updates (hgood v hup).epOk hp h)
      · cases h
        exact hup
    · cases h
      exact .refl _ _
  | deliver p =>
    rcases ite_eq_iff.mp h with ⟨_, h⟩ | ⟨_, h⟩
    · cases h
      exact (Update.quiet _ (quiet_mfUnset p s (by decide) (by decide))).updates
    · cases h
      exact .refl _ _
  | kill p =>
    rcases ite_eq_iff.mp h with ⟨_, h⟩ | ⟨hno, h⟩
    · cases h
      exact .refl _ _
    obtain ⟨v, hv, h⟩ := bind_eq_ok.mp h
    rw [Bool.or_eq_true, not_or] at hno
    exact (causeSig_updates hs.epOk (Bool.eq_false_iff.mpr hno.1) hv).trans
      (Update.gone p t rfl (Bool.eq_false_iff.mpr hno.2) h).updates
  | exit p =>
    rcases ite_eq_iff.mp h with ⟨_, h⟩ | ⟨hker, h⟩
    · cases h
      exact .refl _ _
    · exact clearProc_updates rfl (Bool.eq_false_iff.mpr hker) h
  | interrupt e n => exact genericHandler_updates h
  | taskNotify task e =>
    rcases ite_eq_iff.mp h with ⟨hker, h⟩ | ⟨_, h⟩
    · obtain ⟨⟨r, v⟩, hv, h⟩ := bind_eq_ok.mp h
      cases h
      exact miniNotify_updates (Or.inl hker) hv
    · cases h
      exact .refl _ _
  | signal p n =>
    rcases ite_eq_iff.mp h with ⟨_, h⟩ | ⟨hno, h⟩
    · cases h
      exact .refl _ _
    · exact causeSig_updates hs.epOk (Bool.eq_false_iff.mpr hno) h
  | taskSignal p n =>
    rcases ite_eq_iff.mp h with ⟨_, h⟩ | ⟨_, h⟩
    · cases h
      exact .refl _ _
    · exact sendSig_updates hs.epOk h
  | reply dst m =>
    obtain ⟨task, _, h⟩ := bind_eq_ok.mp h
    split at h
    · next hwill =>
      obtain ⟨⟨r, v⟩, hv, h⟩ := bind_eq_ok.mp h
      cases h
      exact reply_updates hs hwill hv
    · cases h
      exact .refl _ _
  | write p a e =>
    cases h
    exact (Update.write p a e rfl).updates
  | control p rts misc =>
    rcases ite_eq_iff.mp h with ⟨_, h⟩ | ⟨hno, h⟩
    · cases h
      exact .refl _ _
    · cases h
      exact (Update.quiet _ (quiet_control p rts misc hs.freeOk (Bool.eq_false_iff.mpr hno))).updates
  | tick uptime =>
    cases h
    have hq : Quiet s { s with uptime := uptime } := ⟨fun _ => rfl, id, rfl, rfl, rfl⟩
    exact (Update.quiet _ hq).updates

end Nucleos.Kernel
