import Nucleos.Kernel.Boot
import Nucleos.Lib.Mailbox

/-!
# Updates as notifications see them

Most updates are nothing to a pending notification. The others post a notification or
deliver one, or take a process out of message passing. Interrupts and signals travel the
same way, as bits that the notification of one kernel task picks up.
-/

namespace Nucleos.Kernel

open IntrusiveList Run

variable {l : Entry} {s t u : State}

/-- The two kernel tasks whose notifications carry pending bits. -/
inductive Channel where
  | int
  | sig

namespace Channel

def task : Channel → Int
  | int => hardware
  | sig => system

def pending : Channel → Priv → BitVec 32
  | int => Priv.sIntPending
  | sig => Priv.sSigPending

def raise : Channel → PrivId → Slot → BitVec 32 → State → State
  | int, i, dst, bits, s =>
    (s.modPriv i fun v => { v with sIntPending := v.sIntPending ||| bits }).record (.intr dst bits)
  | sig, i, dst, bits, s =>
    (s.modPriv i fun v => { v with sSigPending := v.sSigPending ||| bits }).record (.sig dst bits)

def op : Channel → Event → Option (Mailbox.Op Slot 32)
  | int, .intr dst bits => some (.post dst bits)
  | sig, .sig dst bits => some (.post dst bits)
  | c, .notified src dst arg => if src = c.task then some (.drain dst arg) else none
  | _, _ => none

def log (c : Channel) (s : State) : List (Mailbox.Op Slot 32) := s.history.filterMap c.op

end Channel

structure Steady (s t : State) : Prop where
  static : Static s t
  isemptyp : ∀ p, t.isemptyp p = s.isemptyp p
  noEndpoint : ∀ p, t.rtsIsset p rtsNoEndpoint = s.rtsIsset p rtsNoEndpoint
  procNr : ∀ i, (t.priv i).sProcNr = (s.priv i).sProcNr
  receiver : ∀ p, t.rtsIsset p rtsReceiving = true → t.mfIsset p mfReplyPend = false →
    (s.rtsIsset p rtsReceiving = true ∧ s.mfIsset p mfReplyPend = false) ∨ MayReceive s p

structure Still (s t : State) : Prop extends Steady s t where
  notify : ∀ i, (t.priv i).sNotifyPending = (s.priv i).sNotifyPending
  pending : ∀ (c : Channel) i, c.pending (t.priv i) = c.pending (s.priv i)
  history : t.history = s.history ∨ ∃ e : Event, e.Plain ∧ t.history = e :: s.history

/-- The updates again, with all those put together that leave pending notifications alone. -/
inductive Notice (s : State) : State → Prop where
  | still (t : State) (h : Still s t) : Notice s t
  | notify (caller dst : Slot) (t : State) (hmay : iskerneln (procNr caller) = true ∨
        s.Live caller ∧ ∃ i, (s.proc caller).pPriv = some i ∧ (s.priv i).sTrapMask.getLsbD kipcNotify = true)
      (hdst : s.isemptyp dst = false) (h : NotifyEffect caller dst s t) : Notice s t
  | raise (c : Channel) (task dst : Slot) (i : PrivId) (bits : BitVec 32) (t : State)
      (htask : procNr task = c.task) (hdst : s.isemptyp dst = false)
      (hpriv : (s.proc dst).pPriv = some i)
      (h : NotifyEffect task dst (c.raise i dst bits s) t) : Notice s t
  | take (p : Slot) (i id : PrivId) (t : State) (hp : s.isemptyp p = false)
      (hpriv : (s.proc p).pPriv = some i) (hmay : MayReceive s p)
      (hbit : getSysBit (s.priv i).sNotifyPending id = true) (h : takeNotify p i id s = .ok t) : Notice s t
  | gone (rc : Slot) (t : State) (hker : iskerneln (procNr rc) = false) (h : clearEndpoint rc s = .ok t) :
      Notice s t
  | free (rc : Slot) (i : PrivId) (hker : iskerneln (procNr rc) = false)
      (hpriv : (s.proc rc).pPriv = some i) (hgone : s.rtsIsset rc rtsNoEndpoint = true) :
      Notice s
        (if (s.priv i).sFlags &&& sysProc ≠ 0 then
          (s.modProc rc fun p => { p with pRtsFlags := rtsSlotFree }).modPriv i fun v =>
            { v with sProcNr := endptNone }
        else s.modProc rc fun p => { p with pRtsFlags := rtsSlotFree })

lemma Steady.of_passive (hst : Static s t) (h : Passive s t) (hs : s.FreeOk)
    (hnr : ∀ i, (t.priv i).sProcNr = (s.priv i).sProcNr) : Steady s t where
  static := hst
  isemptyp := h.isemptyp hs
  noEndpoint p := (h p).noEndpoint
  procNr := hnr
  receiver p hr hm := .inl ⟨(h p).receiving hr, (h p).replyPend.symm.trans hm⟩

lemma Steady.still (h : Steady s t) (hpriv : t.priv = s.priv) (hhist : t.history = s.history) :
    Still s t where
  toSteady := h
  notify i := by rw [hpriv]
  pending c i := by rw [hpriv]
  history := .inl hhist

lemma still_passive (hst : Static s t) (h : Passive s t) (hs : s.FreeOk) (hpriv : t.priv = s.priv)
    (hhist : t.history = s.history) : Still s t :=
  (Steady.of_passive hst h hs fun i => by rw [hpriv]).still hpriv hhist

lemma Still.record (h : Still s t) (hhist : t.history = s.history) {e : Event} (he : e.Plain) :
    Still s (t.record e) where
  toSteady := ⟨h.static.record e, h.isemptyp, h.noEndpoint, h.procNr, h.receiver⟩
  notify := h.notify
  pending := h.pending
  history := .inr ⟨e, he, congrArg _ hhist⟩

lemma still_table (hs : s.FreeOk) (i : PrivId) {f : Priv → Priv}
    (hst : Static s (s.modPriv i f)) (hnr : (f (s.priv i)).sProcNr = (s.priv i).sProcNr)
    (hnotify : (f (s.priv i)).sNotifyPending = (s.priv i).sNotifyPending)
    (hint : (f (s.priv i)).sIntPending = (s.priv i).sIntPending)
    (hsig : (f (s.priv i)).sSigPending = (s.priv i).sSigPending) : Still s (s.modPriv i f) := by
  refine ⟨.of_passive hst (.of_proc rfl) hs (s.modPriv_keep _ hnr), s.modPriv_keep _ hnotify,
    fun c j => ?_, .inl rfl⟩
  cases c with
  | int => exact s.modPriv_keep _ hint j
  | sig => exact s.modPriv_keep _ hsig j

lemma steady_complete (hs : s.FreeOk) (env : Env) (p : Slot) (a : Nat) (r : Int) (flags : BitVec 32) :
    Steady s (completeEntry env p a r flags s).2 :=
  .of_passive (static_complete env p a r flags s) (.of_proc (complete_proc env p a r flags s)) hs fun i => by
    rw [complete_priv]

section Flags
variable (s : State) (p q : Slot)

lemma mfIsset_modProc {f : Proc → Proc} (h : (f (s.proc p)).pMiscFlags = (s.proc p).pMiscFlags)
    (g : BitVec 16) :
    (s.modProc p f).mfIsset q g = s.mfIsset q g := by
  rw [State.mfIsset, s.modProc_keep Proc.pMiscFlags h, State.mfIsset]

lemma mfIsset_rtsUnset (f g : BitVec 16) : (s.rtsUnset p f).mfIsset q g = s.mfIsset q g :=
  mfIsset_modProc s p q rfl g

lemma rtsIsset_modProc {f : Proc → Proc} {b g : BitVec 16}
    (h : (f (s.proc p)).pRtsFlags = (s.proc p).pRtsFlags ||| b) (hb : b &&& g = 0#16) :
    (s.modProc p f).rtsIsset q g = s.rtsIsset q g := by
  refine s.modProc_keep (fun x => ChunkMap.isset x.pRtsFlags g) ?_ q
  rw [h]
  exact ChunkMap.isset_or_of_disjoint _ hb

end Flags

lemma steady_expectReply (p : Slot) : Steady s (s.mfSet p mfReplyPend) where
  static := static_mfSet s p _
  isemptyp q := isemptyp_mfSet s p q _
  noEndpoint q := rtsIsset_mfSet s p q _ _
  procNr _ := rfl
  receiver q hr hm := by
    by_cases hq : q = p
    · rw [hq, mfIsset_mfSet] at hm
      cases hm
    refine .inl ⟨(rtsIsset_mfSet s p q _ _).symm.trans hr, ?_⟩
    rw [State.mfIsset, State.mfSet, State.modProc_proc, if_neg hq] at hm
    exact hm

lemma steady_expectAny (p : Slot) (hmay : MayReceive s p) : Steady s (s.mfUnset p mfReplyPend) where
  static := static_mfUnset s p _
  isemptyp q := isemptyp_mfUnset s p q _
  noEndpoint q := rtsIsset_mfUnset s p q _ _
  procNr _ := rfl
  receiver q hr hm := by
    by_cases hq : q = p
    · exact .inr (hq ▸ hmay)
    refine .inl ⟨(rtsIsset_mfUnset s p q _ _).symm.trans hr, ?_⟩
    rw [State.mfIsset, State.mfUnset, State.modProc_proc, if_neg hq] at hm
    exact hm

lemma steady_block {p d : Slot} {dstE : Int} {m : Msg} (hp : s.isemptyp p = false)
    (h : blockSend p d dstE m s = .ok t) : Steady s t := by
  have hst := static_blockSend h
  obtain ⟨xpp, _, rfl⟩ := blockSend_eq_ok h
  refine ⟨hst, fun q => ?_, fun q => ?_, fun _ => ?_, fun q hr hm => .inl ?_⟩
  · rw [State.writeCell_isemptyp, State.writeCell_isemptyp]
    exact markSending_isemptyp p q dstE m s hp
  · rw [State.writeCell_rtsIsset, State.writeCell_rtsIsset]
    exact rtsIsset_modProc s p q rfl (by decide)
  · rw [State.writeCell_priv, State.writeCell_priv]
    rfl
  rw [State.writeCell_rtsIsset, State.writeCell_rtsIsset] at hr
  rw [State.writeCell_mfIsset, State.writeCell_mfIsset] at hm
  exact ⟨(rtsIsset_modProc s p q rfl (by decide)).symm.trans hr, (mfIsset_modProc s p q rfl _).symm.trans hm⟩

lemma steady_wait {p : Slot} {srcE : Int} (hp : s.isemptyp p = false)
    (hmay : s.mfIsset p mfReplyPend = true ∨ MayReceive s p) : Steady s (markReceiving p srcE s) where
  static := by apply Static.modProc <;> rfl
  isemptyp q := markReceiving_isemptyp p q srcE s hp
  noEndpoint q := rtsIsset_modProc s p q rfl (by decide)
  procNr _ := rfl
  receiver q hr hm := by
    have hm' := (mfIsset_modProc s p q rfl _).symm.trans hm
    by_cases hq : q = p
    · subst hq
      rcases hmay with h | h
      · exact absurd h (ne_true_of_eq_false hm')
      · exact .inr h
    · rw [State.rtsIsset, markReceiving, State.modProc_proc, if_neg hq] at hr
      exact .inl ⟨hr, hm'⟩

lemma steady_release (hs : s.FreeOk) {q : Slot} (xpp : Cell Slot Slot) (v : Option Slot) :
    Steady s ((s.rtsUnset q rtsSending).writeCell xpp v) where
  static := (static_rtsUnset s q _).trans (static_writeCell _ _ _)
  isemptyp x := by
    rw [State.writeCell_isemptyp]
    exact rtsUnset_isemptyp q x s hs (by decide)
  noEndpoint x := by
    rw [State.writeCell_rtsIsset]
    exact s.rtsIsset_rtsUnset q x (by decide)
  procNr i := by
    rw [State.writeCell_priv]
    rfl
  receiver x hr hm := by
    rw [State.writeCell_rtsIsset, s.rtsIsset_rtsUnset q x (by decide)] at hr
    rw [State.writeCell_mfIsset] at hm
    exact .inl ⟨hr, (mfIsset_modProc s q x rfl _).symm.trans hm⟩

lemma Update.notice (h : Update l s t) (hs : s.FreeOk) : Notice s t := by
  have hst := h.static
  cases h with
  | quiet t h => exact .still t (still_passive hst (.of_quiet h hs) hs h.priv h.history)
  | sent | asynSettle => exact .still _ (Still.record (still_passive (.refl s) (.refl s) hs rfl rfl)
      rfl trivial)
  | expectReply p _ => exact .still _ ((steady_expectReply p).still rfl rfl)
  | expectAny p _ hmay => exact .still _ ((steady_expectAny p hmay).still rfl rfl)
  | wake p => exact .still _ (still_passive hst (passive_wake s p) hs rfl rfl)
  | block p d dstE m t _ hp _ _ _ _ _ hblock =>
    have hsteady := steady_block hp.1.1 hblock
    obtain ⟨xpp, _, rfl⟩ := blockSend_eq_ok hblock
    refine .still _ (hsteady.still ?_ ?_)
    · rw [State.writeCell_priv, State.writeCell_priv]
      rfl
    · rw [State.writeCell_history, State.writeCell_history]
      rfl
  | wait p srcE _ hlive _ _ _ _ _ _ hmay => exact .still _ ((steady_wait hlive.1 hmay).still rfl rfl)
  | release p q xpp _ _ _ _ =>
    refine .still _ ((steady_release hs xpp _).still ?_ ?_)
    · rw [State.writeCell_priv]
      rfl
    · rw [State.writeCell_history]
      rfl
  | notify caller dst t hmay hdst heff =>
    refine .notify caller dst t ?_ hdst heff
    rcases hmay with hker | ⟨_, hlive, htrap⟩
    · exact .inl hker
    · exact .inr ⟨hlive, htrap⟩
  | interrupt task dst i bits t htask hdst hpriv heff =>
      exact .raise .int task dst i bits t htask hdst hpriv heff
  | signal task dst i bits t htask hdst hpriv heff =>
      exact .raise .sig task dst i bits t htask hdst hpriv heff
  | take p i id t hp hpriv hmay hbit h => exact .take p i id t hp hpriv hmay hbit h
  | asynOpen _ i | asynClose _ i =>
    exact .still _ ((still_table hs i hst.of_recorded rfl rfl rfl rfl).record rfl trivial)
  | asynMark d => exact .still _ (still_passive hst (passive_mfSet s d (by decide)) hs rfl rfl)
  | asynDeliver src dst a _ _ _ =>
    have hc := steady_complete (s := s.record (.asyn src dst a (s.tables src a)
      (s.mfIsset dst mfReplyPend))) hs
      l.env src a 0 (s.tables src a).flags
    refine .still _ ⟨⟨hst, hc.isemptyp, hc.noEndpoint, hc.procNr, hc.receiver⟩, fun i => ?_, fun c i => ?_,
      .inr ⟨.asyn src dst a (s.tables src a) (s.mfIsset dst mfReplyPend), trivial, ?_⟩⟩
    · rw [complete_priv, State.record_priv]
    · rw [complete_priv, State.record_priv]
    · rw [complete_history]
      rfl
  | asynRefuse src a r _ _ =>
    exact .still _ ((steady_complete hs l.env src a r _).still (complete_priv _ _ _ _)
      (complete_history _ _ _ _ _ _))
  | asynDrop src i _ _ _ => exact .still _ (still_table hs i hst rfl rfl rfl rfl)
  | asynNone p _ => exact .still _ (still_passive hst (passive_mfUnset s p (by decide)) hs rfl rfl)
  | write p a e _ =>
    have hsame : Still s (modEntry p a (fun _ => e) s) :=
      still_passive (.of_eq rfl rfl) (.of_proc rfl) hs rfl rfl
    exact .still _ (hsame.record rfl trivial)
  | gone rc t _ hker h => exact .gone rc t hker h
  | free rc i _ hker hpriv hgone => exact .free rc i hker hpriv hgone

end Nucleos.Kernel
