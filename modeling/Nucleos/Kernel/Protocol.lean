import Nucleos.Kernel.Entry

/-!
# The kernel refines the rendezvous protocol

The protocol state of the kernel is read off the process table: the flags say who is
blocked, the endpoints on whom, and the pointers are the queues. Every update either leaves
this state alone or is a step of the protocol.
-/

namespace Nucleos.Kernel

open Function IntrusiveList FunctionalGraph Rendezvous Run

variable {l : Entry} {s t u : State}

namespace State

variable {p : Slot}

def protocol (s : State) : System Slot where
  live p := !s.isemptyp p && !s.rtsIsset p rtsNoEndpoint
  sendTo p := if s.rtsIsset p rtsSending then s.isokendpt (s.proc p).pSendtoE else none
  waitFor p := if s.rtsIsset p rtsReceiving then some (sourceOf s (s.proc p).pGetfromE) else none
  queues := s.queues

structure Good (s : State) : Prop where
  freeOk : s.FreeOk
  epOk : s.EpOk
  noSelf : ∀ i, getSysBit (s.priv i).sIpcTo (s.priv i).sId = false
  sender : ∀ p, s.rtsIsset p rtsSending = true → ∃ d, s.isokendpt (s.proc p).pSendtoE = some d
  waiter : ∀ p, s.rtsIsset p rtsReceiving = true → (s.proc p).pGetfromE ≠ endptAny →
    ∃ d, s.isokendpt (s.proc p).pGetfromE = some d
  inv : s.protocol.Inv

lemma live_iff : s.protocol.live p = true ↔ s.Live p := by
  simp [protocol, Live]

lemma sendTo_eq_some {d : Slot} : s.protocol.sendTo p = some d ↔
    s.rtsIsset p rtsSending = true ∧ s.isokendpt (s.proc p).pSendtoE = some d := by
  simp [protocol]

lemma waitFor_eq_some {x : Option Slot} : s.protocol.waitFor p = some x ↔
    s.rtsIsset p rtsReceiving = true ∧ sourceOf s (s.proc p).pGetfromE = x := by
  simp [protocol]

lemma sendTo_of_not (h : s.rtsIsset p rtsSending = false) : s.protocol.sendTo p = none := by
  simp [protocol, h]

lemma waitFor_of_not (h : s.rtsIsset p rtsReceiving = false) : s.protocol.waitFor p = none := by
  simp [protocol, h]

lemma Good.sending_iff (hg : s.Good) (p : Slot) :
    s.rtsIsset p rtsSending = true ↔ ∃ d, s.protocol.sendTo p = some d := by
  constructor
  · intro h
    obtain ⟨d, hd⟩ := hg.sender p h
    exact ⟨d, sendTo_eq_some.mpr ⟨h, hd⟩⟩
  · rintro ⟨d, hd⟩
    exact (sendTo_eq_some.mp hd).1

lemma Good.sound (hg : s.Good) : s.Sound := by
  refine ⟨hg.freeOk, hg.epOk, fun d hd stop xpp q hwalk hread => ?_, hg.noSelf⟩
  obtain ⟨k, hk, hmem⟩ := hg.inv.chain d (live_iff.mpr hd)
  obtain ⟨l₁, l₂, rfl, rfl, _, _⟩ := Lists.walk_split s.queues stop hk hwalk
  have hrest := Lists.read_lastCell s.queues hk
  rw [hread] at hrest
  cases hrest with
  | cons ht =>
    have hsend := (hmem q).mp (by simp)
    exact (live_iff.mp (hg.inv.sender q d hsend).1).1

end State

open State

variable {p d : Slot} {k : List Slot} {e : Int} {m : Msg}

def Shadow.flow (x : Shadow) : Shadow := { x with replyPend := false, asynmsg := false, priv := none }

lemma flow_isemptyp (h : (t.proc p).shadow.flow = (s.proc p).shadow.flow) :
    t.isemptyp p = s.isemptyp p := congrArg Shadow.free h

lemma protocol_congr (h : ∀ p, (t.proc p).shadow.flow = (s.proc p).shadow.flow) :
    t.protocol = s.protocol := by
  have hfree : ∀ p, t.isemptyp p = s.isemptyp p := fun p => flow_isemptyp (h p)
  have hep : ∀ p, (t.proc p).pEndpoint = (s.proc p).pEndpoint := fun p => congrArg Shadow.endpoint (h p)
  have hno : ∀ p, t.rtsIsset p rtsNoEndpoint = s.rtsIsset p rtsNoEndpoint :=
    fun p => congrArg Shadow.noEndpoint (h p)
  have hsend : ∀ p, t.rtsIsset p rtsSending = s.rtsIsset p rtsSending :=
    fun p => congrArg Shadow.sending (h p)
  have hrecv : ∀ p, t.rtsIsset p rtsReceiving = s.rtsIsset p rtsReceiving :=
    fun p => congrArg Shadow.receiving (h p)
  have hto : ∀ p, (t.proc p).pSendtoE = (s.proc p).pSendtoE := fun p => congrArg Shadow.sendto (h p)
  have hfrom : ∀ p, (t.proc p).pGetfromE = (s.proc p).pGetfromE := fun p => congrArg Shadow.getfrom (h p)
  have hq : t.queues = s.queues := by
    simp only [State.queues, Lists.mk.injEq]
    exact ⟨funext fun p => congrArg Shadow.callerQ (h p), funext fun p => congrArg Shadow.qLink (h p)⟩
  apply System.ext
  · funext p
    simp only [State.protocol, hfree, hno]
  · funext p
    simp only [State.protocol, hsend, hto, isokendpt_congr hfree hep]
  · funext p
    simp only [State.protocol, hrecv, hfrom, sourceOf_congr hfree hep]
  · exact hq

lemma State.Good.intro (hg : s.Good) (hst : Static s t) (hfree : t.FreeOk)
    (hempty : ∀ p, t.isemptyp p = s.isemptyp p)
    (hsend : ∀ p, t.rtsIsset p rtsSending = true → ∃ d, s.isokendpt (t.proc p).pSendtoE = some d)
    (hrecv : ∀ p, t.rtsIsset p rtsReceiving = true → (t.proc p).pGetfromE ≠ endptAny →
      ∃ d, s.isokendpt (t.proc p).pGetfromE = some d) (hinv : t.protocol.Inv) : t.Good := by
  have hok : ∀ e, t.isokendpt e = s.isokendpt e := isokendpt_congr hempty hst.endpoint
  refine ⟨hfree, epOk_congr hempty hst.endpoint hg.epOk, fun i => ?_, fun p hp => ?_,
    fun p hp hany => ?_, hinv⟩
  · rw [hst.ipcTo i, hst.id i]
    exact hg.noSelf i
  · rw [hok]
    exact hsend p hp
  · rw [hok]
    exact hrecv p hp hany

lemma State.Good.congr (hg : s.Good) (hst : Static s t) (hfree : t.FreeOk)
    (h : ∀ p, (t.proc p).shadow.flow = (s.proc p).shadow.flow) : t.Good := by
  refine State.Good.intro hg hst hfree (fun p => flow_isemptyp (h p)) (fun p hp => ?_)
    (fun p hp hany => ?_) ?_
  · have hsend : t.rtsIsset p rtsSending = s.rtsIsset p rtsSending := congrArg Shadow.sending (h p)
    have hto : (t.proc p).pSendtoE = (s.proc p).pSendtoE := congrArg Shadow.sendto (h p)
    rw [hto]
    exact hg.sender p (hsend.symm.trans hp)
  · have hrecv : t.rtsIsset p rtsReceiving = s.rtsIsset p rtsReceiving := congrArg Shadow.receiving (h p)
    have hfrom : (t.proc p).pGetfromE = (s.proc p).pGetfromE := congrArg Shadow.getfrom (h p)
    rw [hfrom] at hany ⊢
    exact hg.waiter p (hrecv.symm.trans hp) hany
  · rw [protocol_congr h]
    exact hg.inv

section Unset
variable (s : State) (p q : Slot) (f : BitVec 16)

lemma rtsUnset_sendto : ((s.rtsUnset p f).proc q).pSendtoE = (s.proc q).pSendtoE :=
  s.modProc_keep Proc.pSendtoE rfl q

lemma rtsUnset_getfrom : ((s.rtsUnset p f).proc q).pGetfromE = (s.proc q).pGetfromE :=
  s.modProc_keep Proc.pGetfromE rfl q

lemma queues_modProc {g : Proc → Proc} (hq : (g (s.proc p)).pCallerQ = (s.proc p).pCallerQ)
    (hl : (g (s.proc p)).pQLink = (s.proc p).pQLink) : (s.modProc p g).queues = s.queues := by
  simp only [State.queues, Lists.mk.injEq]
  exact ⟨funext (s.modProc_keep _ hq), funext (s.modProc_keep _ hl)⟩

lemma rtsUnset_queues : (s.rtsUnset p f).queues = s.queues := queues_modProc s p rfl rfl

lemma rtsUnset_freeOk (h : s.FreeOk) (hf : f &&& rtsSlotFree = 0#16) : (s.rtsUnset p f).FreeOk := by
  intro x
  simp only [State.rtsUnset, State.modProc_proc]
  split
  · exact (Proc.free_unset (h x) hf rfl).1
  · exact h x

end Unset

lemma protocol_wake (hfree : s.FreeOk) (p : Slot) :
    (s.rtsUnset p rtsReceiving).protocol = s.protocol.wake p := by
  have hempty := fun q => rtsUnset_isemptyp (f := rtsReceiving) p q s hfree (by decide)
  have hep := (static_rtsUnset s p rtsReceiving).endpoint
  apply System.ext
  · funext q
    simp (disch := decide) only [State.protocol, System.wake, hempty, State.rtsIsset_rtsUnset]
  · funext q
    simp (disch := decide) only [State.protocol, System.wake, State.rtsIsset_rtsUnset, rtsUnset_sendto,
      isokendpt_congr hempty hep]
  · funext q
    by_cases hq : q = p
    · simp (disch := decide) [State.protocol, System.wake, State.rtsIsset_rtsUnset_self, hq]
    simp only [System.wake, update_of_ne hq]
    simp (disch := decide) [State.protocol, State.rtsIsset_rtsUnset_self, hq, rtsUnset_getfrom,
      sourceOf_congr hempty hep]
  · exact rtsUnset_queues s p rtsReceiving

lemma State.Good.wake (hg : s.Good) (p : Slot) : (s.rtsUnset p rtsReceiving).Good := by
  refine State.Good.intro hg (static_rtsUnset s p _) (rtsUnset_freeOk s p _ hg.freeOk (by decide))
    (fun q => rtsUnset_isemptyp p q s hg.freeOk (by decide)) (fun q hq => ?_) (fun q hq hany => ?_) ?_
  · rw [s.rtsIsset_rtsUnset p q (by decide)] at hq
    rw [rtsUnset_sendto]
    exact hg.sender q hq
  · rw [s.rtsIsset_rtsUnset_self p q (by decide), Bool.and_eq_true] at hq
    rw [rtsUnset_getfrom] at hany ⊢
    exact hg.waiter q hq.2 hany
  · rw [protocol_wake hg.freeOk]
    exact (System.Step.wake (a := ⟨none, none, none⟩) p).inv hg.inv

lemma protocol_release (hfree : s.FreeOk) (q d : Slot) (k : List Slot) :
    ((s.rtsUnset q rtsSending).writeCell (Lists.lastCell (.head d) k) (s.proc q).pQLink).protocol =
      s.protocol.release d q k := by
  have hempty := fun p => rtsUnset_isemptyp (f := rtsSending) q p s hfree (by decide)
  have hep := (static_rtsUnset s q rtsSending).endpoint
  have hok := isokendpt_congr
    (fun p => ((s.rtsUnset q rtsSending).writeCell_isemptyp (Lists.lastCell (.head d) k)
      (s.proc q).pQLink p).trans (hempty p))
    (fun p => (State.writeCell_endpoint _ _ _ p).trans (hep p))
  apply System.ext
  · funext p
    simp (disch := decide) only [State.protocol, System.release, State.writeCell_isemptyp,
      State.writeCell_rtsIsset, hempty,
      State.rtsIsset_rtsUnset]
  · funext p
    by_cases hp : p = q
    · simp (disch := decide) [State.protocol, System.release, State.rtsIsset_rtsUnset_self, hp]
    · simp only [System.release, update_of_ne hp]
      simp (disch := decide) [State.protocol, State.rtsIsset_rtsUnset_self, hp, hok, rtsUnset_sendto]
  · funext p
    simp (disch := decide) only [State.protocol, System.release, State.writeCell_rtsIsset,
      State.writeCell_getfrom,
      State.rtsIsset_rtsUnset, rtsUnset_getfrom, sourceOf, hok]
  · simp (disch := decide) only [State.protocol, System.release, State.queues_writeCell,
      rtsUnset_queues, Lists.unlink]
    rfl

lemma State.Good.release (hg : s.Good) {q : Slot} {k' : List Slot} (hd : s.Live d)
    (hl : s.protocol.Chain d (k ++ q :: k')) :
    ((s.rtsUnset q rtsSending).writeCell (Lists.lastCell (.head d) k) (s.proc q).pQLink).Good := by
  refine State.Good.intro hg ((static_rtsUnset s q _).trans (static_writeCell _ _ _)) (fun p => ?_)
    (fun p => ?_) (fun p hp => ?_) (fun p hp hany => ?_) ?_
  · unfold Proc.FreeOk
    rw [State.writeCell_rtsFlags]
    exact rtsUnset_freeOk s q _ hg.freeOk (by decide) p
  · rw [State.writeCell_isemptyp, rtsUnset_isemptyp q p s hg.freeOk (by decide)]
  · rw [State.writeCell_rtsIsset, s.rtsIsset_rtsUnset_self q p (by decide), Bool.and_eq_true] at hp
    rw [State.writeCell_sendto, rtsUnset_sendto]
    exact hg.sender p hp.2
  · rw [State.writeCell_rtsIsset, s.rtsIsset_rtsUnset q p (by decide)] at hp
    rw [State.writeCell_getfrom, rtsUnset_getfrom] at hany ⊢
    exact hg.waiter p hp hany
  · rw [protocol_release hg.freeOk]
    exact System.inv_release hg.inv (State.live_iff.mpr hd) hl

lemma freeOk_block {f : BitVec 16} {g : Proc → Proc} (hfree : s.FreeOk)
    (hp : s.isemptyp p = false) (hg : (g (s.proc p)).pRtsFlags = (s.proc p).pRtsFlags ||| f)
    (hf : f &&& rtsSlotFree = 0#16) : (s.modProc p g).FreeOk := by
  intro q
  rw [State.modProc_proc]
  split
  · rename_i hq
    subst hq
    intro hset
    rw [hg, ChunkMap.isset_or_of_disjoint _ hf] at hset
    simp [State.isemptyp, hfree q hset] at hp
  · exact hfree q

section Block
variable (p q : Slot) (e : Int) (m : Msg) (s : State)

lemma markSending_sending : (markSending p e m s).rtsIsset q rtsSending =
    (decide (q = p) || s.rtsIsset q rtsSending) := by
  by_cases hq : q = p <;> simp [State.rtsIsset, markSending, State.modProc_proc, hq]

lemma markSending_sendto :
    ((markSending p e m s).proc q).pSendtoE = if q = p then e else (s.proc q).pSendtoE := by
  simp only [markSending, State.modProc_proc]
  split <;> rfl

lemma markSending_getfrom : ((markSending p e m s).proc q).pGetfromE = (s.proc q).pGetfromE :=
  s.modProc_keep Proc.pGetfromE rfl q

lemma markReceiving_receiving : (markReceiving p e s).rtsIsset q rtsReceiving =
    (decide (q = p) || s.rtsIsset q rtsReceiving) := by
  by_cases hq : q = p <;> simp [State.rtsIsset, markReceiving, State.modProc_proc, hq]

lemma markReceiving_isset {f : BitVec 16} (hf : rtsReceiving &&& f = 0#16) :
    (markReceiving p e s).rtsIsset q f = s.rtsIsset q f :=
  s.modProc_keep (fun x => ChunkMap.isset x.pRtsFlags f) (ChunkMap.isset_or_of_disjoint _ hf) q

lemma markReceiving_getfrom :
    ((markReceiving p e s).proc q).pGetfromE = if q = p then e else (s.proc q).pGetfromE := by
  simp only [markReceiving, State.modProc_proc]
  split <;> rfl

lemma markReceiving_sendto : ((markReceiving p e s).proc q).pSendtoE = (s.proc q).pSendtoE :=
  s.modProc_keep Proc.pSendtoE rfl q

end Block

def blocked (p d : Slot) (e : Int) (m : Msg) (k : List Slot) (s : State) : State :=
  ((markSending p e m s).writeCell (Lists.lastCell (.head d) k) (some p)).writeCell (.next p) none

lemma blockSend_blocked (hl : s.protocol.Chain d k) (h : blockSend p d e m s = .ok t) :
    t = blocked p d e m k s := by
  obtain ⟨xpp, hwalk, rfl⟩ := blockSend_eq_ok h
  have hq : (markSending p e m s).queues = s.queues := queues_modProc s p rfl rfl
  rw [hq] at hwalk
  obtain ⟨l₁, l₂, rfl, rfl, _, hstop⟩ := Lists.walk_split s.queues _ hl hwalk
  cases l₂ with
  | nil => rw [List.append_nil, blocked]
  | cons a l₃ => nomatch hstop a l₃ rfl

lemma blocked_ok (hp : s.isemptyp p = false) (x : Int) :
    (blocked p d e m k s).isokendpt x = s.isokendpt x := by
  refine isokendpt_congr (fun q => ?_) (fun q => ?_) x
  · simp only [blocked, State.writeCell_isemptyp]
    exact markSending_isemptyp p q e m s hp
  · simp only [blocked, State.writeCell_endpoint]
    exact s.modProc_keep Proc.pEndpoint rfl q

lemma protocol_blocked (hp : s.isemptyp p = false) (hd : s.isokendpt e = some d) :
    (blocked p d e m k s).protocol = s.protocol.send p d k := by
  have hok : ∀ x, (blocked p d e m k s).isokendpt x = s.isokendpt x := blocked_ok hp
  apply System.ext
  · funext q
    simp (disch := decide) only [State.protocol, System.send, blocked, State.writeCell_isemptyp,
      State.writeCell_rtsIsset, markSending_isset, markSending_isemptyp p q e m s hp]
  · funext q
    by_cases hq : q = p
    · subst hq
      simp only [State.protocol, System.send, update_self, hok]
      simp [blocked, markSending_sending, markSending_sendto, hd]
    · simp only [System.send, update_of_ne hq]
      simp only [State.protocol, hok]
      simp [blocked, markSending_sending, markSending_sendto, hq]
  · funext q
    simp only [State.protocol, System.send, sourceOf, hok]
    simp (disch := decide) only [blocked, State.writeCell_rtsIsset, State.writeCell_getfrom,
      markSending_isset,
      markSending_getfrom]
  · have hq : (markSending p e m s).queues = s.queues := queues_modProc s p rfl rfl
    simp only [State.protocol, System.send, blocked, State.queues_writeCell, hq, Lists.append]

lemma State.Good.block (hg : s.Good) (hp : s.Ready p)
    (hd : s.isokendpt e = some d) (hlive : s.Live d) (hl : s.protocol.Chain d k) :
    (blocked p d e m k s).Good := by
  have hst : Static s (blocked p d e m k s) := by
    refine Static.trans (Static.trans ?_ (static_writeCell _ _ _)) (static_writeCell _ _ _)
    apply Static.modProc <;> rfl
  refine State.Good.intro hg hst (fun q => ?_) (fun q => ?_) (fun q hq => ?_) (fun q hq hany => ?_) ?_
  · unfold Proc.FreeOk
    simp only [blocked, State.writeCell_rtsFlags]
    exact freeOk_block hg.freeOk hp.1.1 rfl (by decide) q
  · simp only [blocked, State.writeCell_isemptyp]
    exact markSending_isemptyp p q e m s hp.1.1
  · simp only [blocked, State.writeCell_rtsIsset, markSending_sending, State.writeCell_sendto,
      markSending_sendto, Bool.or_eq_true, decide_eq_true_eq] at hq ⊢
    split
    · exact ⟨d, hd⟩
    · rename_i hne
      exact hg.sender q (hq.resolve_left hne)
  · simp (disch := decide) only [blocked, State.writeCell_rtsIsset, markSending_isset,
      State.writeCell_getfrom, markSending_getfrom] at hq hany ⊢
    exact hg.waiter q hq hany
  · rw [protocol_blocked hp.1.1 hd]
    exact System.inv_send hg.inv (State.live_iff.mpr hp.1) (State.live_iff.mpr hlive)
      (State.sendTo_of_not hp.2.1) (State.waitFor_of_not hp.2.2) hl

lemma protocol_wait (hp : s.isemptyp p = false) :
    (markReceiving p e s).protocol = s.protocol.wait p (sourceOf s e) := by
  have hok : ∀ x, (markReceiving p e s).isokendpt x = s.isokendpt x :=
    isokendpt_congr (fun q => markReceiving_isemptyp p q e s hp) (s.modProc_keep Proc.pEndpoint rfl)
  apply System.ext
  · funext q
    simp (disch := decide) only [State.protocol, System.wait, markReceiving_isset,
      markReceiving_isemptyp p q e s hp]
  · funext q
    simp (disch := decide) only [State.protocol, System.wait, markReceiving_isset, markReceiving_sendto, hok]
  · funext q
    by_cases hq : q = p
    · subst hq
      simp [State.protocol, System.wait, sourceOf, hok, markReceiving_receiving, markReceiving_getfrom]
    · simp only [System.wait, update_of_ne hq]
      simp [State.protocol, sourceOf, hok, markReceiving_receiving, markReceiving_getfrom, hq]
  · exact queues_modProc s p rfl rfl

lemma State.Good.wait (hg : s.Good) (hp : s.Live p) (hsrc : e ≠ endptAny → ∃ d, s.isokendpt e = some d)
    (hlive : ∀ d, sourceOf s e = some d → s.Live d)
    (hsend : ∀ d, s.protocol.sendTo p = some d → sourceOf s e = some d) : (markReceiving p e s).Good := by
  have hst : Static s (markReceiving p e s) := by apply Static.modProc <;> rfl
  refine State.Good.intro hg hst (freeOk_block hg.freeOk hp.1 rfl (by decide))
    (fun q => markReceiving_isemptyp p q e s hp.1) (fun q hq => ?_) (fun q hq hany => ?_) ?_
  · rw [markReceiving_isset p q e s (by decide)] at hq
    rw [markReceiving_sendto]
    exact hg.sender q hq
  · rw [markReceiving_receiving, Bool.or_eq_true, decide_eq_true_eq] at hq
    rw [markReceiving_getfrom] at hany ⊢
    split at hany
    · rename_i heq
      rw [if_pos heq]
      exact hsrc hany
    · rename_i hne
      rw [if_neg hne]
      exact hg.waiter q (hq.resolve_left hne) hany
  · rw [protocol_wait hp.1]
    exact System.inv_wait hg.inv (State.live_iff.mpr hp) (fun d hd => State.live_iff.mpr (hlive d hd)) hsend

end Nucleos.Kernel
