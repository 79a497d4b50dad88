import Nucleos.Kernel.Protocol

/-!
# The end of a process

`clear_endpoint` takes the exiting process from the queue it waits in and then lets everybody
go who is blocked on it. Its own queue is not touched: the processes on it are no longer
sending, and the pointers stay behind in a slot that no message reaches.
-/

namespace Nucleos.Kernel

open IntrusiveList Rendezvous Run

variable {s t u : State} {ep : Int} {id : PrivId} {done : List Slot} {rc : Slot}

namespace Proc
variable {f g : BitVec 16} {k : Proc → Int} {r e : Int} (x : Proc)

lemma died_isset_self (h : f ≠ 0#16) : ChunkMap.isset (x.died f k r e).pRtsFlags f =
    (ChunkMap.isset x.pRtsFlags f && k x != e) := by
  unfold died
  cases hf : ChunkMap.isset x.pRtsFlags f with
  | false => simp [hf]
  | true =>
    by_cases hp : k x = e
    · simp [hp, ChunkMap.isset_andNot_self _ h]
    · simp [hp, hf]

lemma letGo_receiving (e : Int) : ChunkMap.isset (x.letGo e).pRtsFlags rtsReceiving =
    (ChunkMap.isset x.pRtsFlags rtsReceiving && x.pGetfromE != e) :=
  (died_isset _ (by decide)).trans (died_isset_self x (by decide))

lemma letGo_sending (e : Int) : ChunkMap.isset (x.letGo e).pRtsFlags rtsSending =
    (ChunkMap.isset x.pRtsFlags rtsSending && x.pSendtoE != e) := by
  obtain ⟨r', flags, h⟩ :=
    died_eq (f := rtsReceiving) (k := Proc.pGetfromE) (r := -esrcdied) (e := e) x
  have hto : (x.died rtsReceiving Proc.pGetfromE (-esrcdied) e).pSendtoE = x.pSendtoE := by rw [h]
  rw [letGo, died_isset_self _ (by decide), died_isset x (by decide), hto]

lemma died_free (hx : x.FreeOk) (hf : f &&& rtsSlotFree = 0#16) :
    (x.died f k r e).FreeOk ∧ (x.died f k r e).shadow.free = x.shadow.free := by
  unfold died
  split
  · exact Proc.free_unset hx hf rfl
  · exact ⟨hx, rfl⟩

lemma letGo_free {e : Int} (hx : x.FreeOk) :
    (x.letGo e).FreeOk ∧ (x.letGo e).shadow.free = x.shadow.free := by
  obtain ⟨h₁, e₁⟩ := x.died_free (k := Proc.pGetfromE) (r := -esrcdied) (e := e) hx
    (by decide : rtsReceiving &&& rtsSlotFree = 0#16)
  obtain ⟨h₂, e₂⟩ := died_free (k := Proc.pSendtoE) (r := -edstdied) (e := e) _ h₁
    (by decide : rtsSending &&& rtsSlotFree = 0#16)
  exact ⟨h₂, e₂.trans e₁⟩

end Proc

lemma LetGo.queues (h : LetGo ep id done s u) : u.queues = s.queues := by
  simp only [State.queues, Lists.mk.injEq]
  constructor
  all_goals
    funext q
    obtain ⟨r', flags, he⟩ := h.proc_eq q
    rw [he]

structure Gone (rc : Slot) (s t : State) : Prop where
  isemptyp : ∀ q, t.isemptyp q = s.isemptyp q
  freeOk : t.FreeOk
  noEndpoint : ∀ q, t.rtsIsset q rtsNoEndpoint = (decide (q = rc) || s.rtsIsset q rtsNoEndpoint)
  sending : ∀ q, t.rtsIsset q rtsSending = true ↔
    s.rtsIsset q rtsSending = true ∧ q ≠ rc ∧ (s.proc q).pSendtoE ≠ (s.proc rc).pEndpoint
  receiving : ∀ q, t.rtsIsset q rtsReceiving = true ↔
    s.rtsIsset q rtsReceiving = true ∧ q ≠ rc ∧ (s.proc q).pGetfromE ≠ (s.proc rc).pEndpoint
  sendto : ∀ q, (t.proc q).pSendtoE = (s.proc q).pSendtoE
  getfrom : ∀ q, (t.proc q).pGetfromE = (s.proc q).pGetfromE

structure Left (rc : Slot) (s w : State) : Prop where
  isemptyp : ∀ q, w.isemptyp q = s.isemptyp q
  freeOk : w.FreeOk
  noEndpoint : ∀ q, w.rtsIsset q rtsNoEndpoint = (decide (q = rc) || s.rtsIsset q rtsNoEndpoint)
  sending : ∀ q, w.rtsIsset q rtsSending = (decide (q ≠ rc) && s.rtsIsset q rtsSending)
  receiving : ∀ q, w.rtsIsset q rtsReceiving = (decide (q ≠ rc) && s.rtsIsset q rtsReceiving)
  sendto : ∀ q, (w.proc q).pSendtoE = (s.proc q).pSendtoE
  getfrom : ∀ q, (w.proc q).pGetfromE = (s.proc q).pGetfromE
  endpoint : ∀ q, (w.proc q).pEndpoint = (s.proc q).pEndpoint

lemma isset_empty {q : Slot} {f : BitVec 16} (h : s.isemptyp q = true)
    (hf : f &&& rtsSlotFree = 0#16) (hne : f ≠ 0#16) : s.rtsIsset q f = false := by
  have hflags : (s.proc q).pRtsFlags = rtsSlotFree := by simpa [State.isemptyp] using h
  rw [State.rtsIsset, hflags, ChunkMap.isset, BitVec.and_comm, hf]
  simpa using hne.symm

lemma Left.gone {w : State} (hw : Left rc s w)
    (h : LetGo (w.proc rc).pEndpoint id (List.finRange (nrTasks + nrProcs)) w t) : Gone rc s t := by
  have hproc : ∀ q, t.proc q =
      if s.isemptyp q = false then (w.proc q).letGo (s.proc rc).pEndpoint else w.proc q := by
    intro q
    rw [h.proc q, hw.isemptyp q, hw.endpoint rc]
    simp [List.mem_finRange]
  have fields : ∀ q, (t.proc q).pSendtoE = (w.proc q).pSendtoE ∧
    (t.proc q).pGetfromE = (w.proc q).pGetfromE := by
    intro q
    obtain ⟨r', flags, he⟩ := (w.proc q).letGo_eq (e := (s.proc rc).pEndpoint)
    rw [hproc q]
    split
    · rw [he]
      exact ⟨rfl, rfl⟩
    · exact ⟨rfl, rfl⟩
  refine ⟨fun q => ?_, fun q => ?_, fun q => ?_, fun q => ?_, fun q => ?_,
    fun q => (fields q).1.trans (hw.sendto q), fun q => (fields q).2.trans (hw.getfrom q)⟩
  · rw [← hw.isemptyp q, State.isemptyp, hproc q]
    split
    · exact ((w.proc q).letGo_free (hw.freeOk q)).2
    · rfl
  · rw [hproc q]
    split
    · exact ((w.proc q).letGo_free (hw.freeOk q)).1
    · exact hw.freeOk q
  · rw [← hw.noEndpoint q, State.rtsIsset, hproc q]
    split
    · exact (w.proc q).letGo_isset (by decide) (by decide)
    · rfl
  all_goals
    have hs : ChunkMap.isset (w.proc q).pRtsFlags rtsSending = _ := hw.sending q
    have hr : ChunkMap.isset (w.proc q).pRtsFlags rtsReceiving = _ := hw.receiving q
    rw [State.rtsIsset, hproc q]
    cases he : s.isemptyp q with
    | false =>
      simp [Proc.letGo_sending, Proc.letGo_receiving, hw.sendto q, hw.getfrom q, hs, hr]
      tauto
    | true =>
      rw [if_neg (by decide)]
      simp (disch := decide) [hs, hr, isset_empty he]

def Dequeued (rc : Slot) (s w : State) : Prop :=
  (s.rtsIsset rc rtsSending = false ∧ w.queues = s.queues) ∨
    ∃ d l₁ l₂, s.protocol.sendTo rc = some d ∧ s.protocol.Chain d (l₁ ++ rc :: l₂) ∧
      w.queues = s.queues.unlink (Lists.lastCell (.head d) l₁) rc

lemma leaveQueue_eq_ok {d : Slot} {k : List Slot} (hs : s.rtsIsset rc rtsSending = true)
    (hd : s.isokendpt (s.proc rc).pSendtoE = some d) (hk : Links s.queues.next (s.queues.read (.head d)) k)
    (hmem : rc ∈ k) (h : leaveQueue rc s = .ok t) : ∃ l₁ l₂, k = l₁ ++ rc :: l₂ ∧
      t = (s.writeCell (Lists.lastCell (.head d) l₁) (s.proc rc).pQLink).rtsUnset rc rtsSending := by
  unfold leaveQueue at h
  rw [if_pos hs] at h
  obtain ⟨d', hd', h⟩ := bind_eq_ok.mp h
  obtain rfl := Option.some.inj (((s.okendpt_eq_ok).mp hd').symm.trans hd)
  split at h
  · cases h
  rename_i xpp hwalk
  obtain ⟨l₁, l₂, rfl, rfl, hskip, hstop⟩ := Lists.walk_split s.queues _ hk hwalk
  have hrest := Lists.read_lastCell s.queues hk
  cases l₂ with
  | nil =>
    rw [List.append_nil] at hmem
    simpa using hskip rc hmem
  | cons a l₃ =>
    obtain rfl : a = rc := by simpa using hstop a l₃ rfl
    rw [hrest.eq_some] at h
    cases h
    exact ⟨l₁, l₃, rfl, rfl⟩

lemma Unqueued.left {v x : State} (hg : s.Good) (hrc : s.isemptyp rc = false)
    (hv : v.proc = (s.rtsSet rc rtsNoEndpoint).proc)
    (hx : Unqueued rc v x) : Left rc s (x.rtsUnset rc rtsReceiving) := by
  have hproc : (v.rtsUnset rc rtsSending).proc =
    ((s.rtsSet rc rtsNoEndpoint).rtsUnset rc rtsSending).proc := by
    simp only [State.rtsUnset, State.modProc, hv]
  have hflags : ∀ q, (x.proc q).pRtsFlags =
    (((s.rtsSet rc rtsNoEndpoint).rtsUnset rc rtsSending).proc q).pRtsFlags := by
    intro q
    obtain ⟨a, b, h⟩ := hx.proc q
    rw [h, hproc]
  have hisset : ∀ q f, x.rtsIsset q f =
    ((s.rtsSet rc rtsNoEndpoint).rtsUnset rc rtsSending).rtsIsset q f := by
    intro q f
    rw [State.rtsIsset, hflags, State.rtsIsset]
  have hmark : (s.rtsSet rc rtsNoEndpoint).FreeOk := freeOk_block hg.freeOk hrc rfl (by decide)
  have hfree : x.FreeOk := by
    intro q
    unfold Proc.FreeOk
    rw [hflags]
    exact rtsUnset_freeOk _ rc rtsSending hmark (by decide) q
  refine ⟨fun q => ?_, rtsUnset_freeOk _ _ _ hfree (by decide), fun q => ?_, fun q => ?_,
    fun q => ?_, fun q => ?_, fun q => ?_, fun q => ?_⟩
  · rw [rtsUnset_isemptyp rc q _ hfree (by decide), State.isemptyp, hflags]
    refine (rtsUnset_isemptyp rc q _ hmark (by decide)).trans ?_
    exact isemptyp_block rc q s hrc rfl (by decide) (by decide)
  · simp (disch := decide) only [State.rtsIsset_rtsUnset, hisset]
    simp only [State.rtsIsset, State.rtsSet, State.modProc_proc]
    by_cases hq : q = rc
    · simp [hq]
    · simp [hq]
  · simp (disch := decide) only [State.rtsIsset_rtsUnset, State.rtsIsset_rtsUnset_self, hisset,
      State.rtsIsset_rtsSet]
  · simp (disch := decide) only [State.rtsIsset_rtsUnset, State.rtsIsset_rtsUnset_self, hisset,
      State.rtsIsset_rtsSet]
  all_goals
    obtain ⟨a, b, h⟩ := hx.proc q
    rw [hproc] at h
  · rw [rtsUnset_sendto, h]
    exact (rtsUnset_sendto _ rc q _).trans (s.modProc_keep Proc.pSendtoE rfl q)
  · rw [rtsUnset_getfrom, h]
    exact (rtsUnset_getfrom _ rc q _).trans (s.modProc_keep Proc.pGetfromE rfl q)
  · rw [(static_rtsUnset _ rc _).endpoint, h]
    exact ((static_rtsUnset _ rc _).endpoint q).trans (s.modProc_keep Proc.pEndpoint rfl q)

lemma leaveQueue_dequeued {v x : State} (hg : s.Good) (hrc : s.isemptyp rc = false)
    (hv : v.proc = (s.rtsSet rc rtsNoEndpoint).proc) (h : leaveQueue rc v = .ok x) :
    Dequeued rc s (x.rtsUnset rc rtsReceiving) := by
  have hempty : ∀ q, v.isemptyp q = s.isemptyp q := by
    intro q
    rw [State.isemptyp, hv]
    exact isemptyp_block rc q s hrc rfl (by decide) (by decide)
  have hkeep : ∀ {β : Type} (k : Proc → β) (_ : ∀ x f, k { x with pRtsFlags := f } = k x) q,
    k (v.proc q) = k (s.proc q) := by
    intro β k hk q
    rw [hv]
    exact s.modProc_keep k (hk _ _) q
  have hvs : v.rtsIsset rc rtsSending = s.rtsIsset rc rtsSending := by
    rw [State.rtsIsset, hv]
    exact s.rtsIsset_rtsSet rc rc (by decide)
  have hq : v.queues = s.queues := by
    rw [State.queues, hv]
    exact queues_modProc s rc rfl rfl
  cases hs : s.rtsIsset rc rtsSending with
  | false =>
    rw [leaveQueue, if_neg (ne_true_of_eq_false (hvs.trans hs))] at h
    cases h
    exact .inl ⟨hs, (rtsUnset_queues _ _ _).trans hq⟩
  | true =>
    obtain ⟨d, hd⟩ := (hg.sending_iff rc).mp hs
    obtain ⟨hlrc, hld⟩ := hg.inv.sender rc d hd
    obtain ⟨k, hk, hmem⟩ := hg.inv.chain d hld
    have hvd : v.isokendpt (v.proc rc).pSendtoE = some d := by
      rw [isokendpt_congr hempty (hkeep Proc.pEndpoint fun _ _ => rfl),
        hkeep Proc.pSendtoE (fun _ _ => rfl) rc]
      exact (State.sendTo_eq_some.mp hd).2
    have hvk : Links v.queues.next (v.queues.read (.head d)) k := by
      rw [hq]
      exact hk
    obtain ⟨l₁, l₂, rfl, rfl⟩ := leaveQueue_eq_ok (hvs.trans hs) hvd hvk ((hmem rc).mpr hd) h
    refine .inr ⟨d, l₁, l₂, hd, hk, ?_⟩
    rw [rtsUnset_queues, rtsUnset_queues, State.queues_writeCell, hq, hkeep Proc.pQLink (fun _ _ => rfl) rc]
    rfl

lemma markGone_proc (rc : Slot) (i : PrivId) (s : State) :
    (markGone rc i s).proc = (s.rtsSet rc rtsNoEndpoint).proc := by
  unfold markGone
  split <;> rfl

structure GonePriv (rc : Slot) (s t : State) : Prop where
  priv : ∃ i, (s.proc rc).pPriv = some i ∧ ∀ j, ∃ m n,
    t.priv j = { s.priv j with sNotifyPending := m, sAsynsize := n } ∧
      (∀ b, b ≠ (s.priv i).sId → getSysBit m b = getSysBit (s.priv j).sNotifyPending b) ∧
      (n = (s.priv j).sAsynsize ∨ (j = i ∧ (s.priv i).sFlags &&& sysProc ≠ 0 ∧ n = 0)) ∧
      ((s.priv i).sFlags &&& sysProc ≠ 0 → j = i → n = 0) ∧
      (∀ q, s.isemptyp q = false → (s.proc q).pPriv = some j → getSysBit m (s.priv i).sId = false)
  tables : t.tables = s.tables
  history : t.history = .gone rc :: s.history
  misc : ∀ q, (t.proc q).pMiscFlags = (s.proc q).pMiscFlags

lemma clearEndpoint_spec (hg : s.Good) (h : clearEndpoint rc s = .ok t) :
    s.isemptyp rc = false ∧ Gone rc s t ∧ Dequeued rc s t ∧ GonePriv rc s t := by
  obtain ⟨i, x, v, hrc, hpriv, hx, hst, hgo, rfl⟩ := clearEndpoint_inv h
  have hout := leaveQueue_unqueued hx
  have hleft := hout.left hg hrc (markGone_proc rc i s)
  have hgone : Gone rc s v := hleft.gone hgo
  refine ⟨hrc, ⟨hgone.isemptyp, hgone.freeOk, hgone.noEndpoint, hgone.sending, hgone.receiving,
    hgone.sendto, hgone.getfrom⟩, ?_, ⟨i, hpriv, fun j => ?_⟩, ?_, ?_, fun q => ?_⟩
  · rcases leaveQueue_dequeued hg hrc (markGone_proc rc i s) hx with ⟨hs, he⟩ | ⟨d, l₁, l₂, hd, hl, he⟩
    · exact .inl ⟨hs, hgo.queues.trans he⟩
    · exact .inr ⟨d, l₁, l₂, hd, hl, hgo.queues.trans he⟩
  · obtain ⟨m, hm, hbits⟩ := hgo.priv j
    have hid : ((x.rtsUnset rc rtsReceiving).priv i).sId = (s.priv i).sId := hst.id i
    rw [hid] at hbits
    have hclear : ∀ q, s.isemptyp q = false → (s.proc q).pPriv = some j →
        getSysBit m (s.priv i).sId = false := by
      intro q hq hqj
      have hc := hgo.cleared q (List.mem_finRange q) ((hleft.isemptyp q).trans hq) j ((hst.priv q).trans hqj)
      rw [hm, hid] at hc
      exact hc
    change v.priv j = { x.priv j with sNotifyPending := m } at hm
    change ∀ b, b ≠ (s.priv i).sId → getSysBit m b = getSysBit (x.priv j).sNotifyPending b at hbits
    rw [hout.priv, markGone] at hm hbits
    split at hm
    · rename_i hsys
      rw [if_pos hsys] at hbits
      simp only [State.rtsSet, State.modPriv_priv, State.modProc_priv] at hm hbits hsys
      by_cases hj : j = i
      · subst hj
        rw [if_pos rfl] at hm hbits
        exact ⟨m, 0, hm, hbits, .inr ⟨rfl, hsys, rfl⟩, fun _ _ => rfl, hclear⟩
      · rw [if_neg hj] at hm hbits
        exact ⟨m, (s.priv j).sAsynsize, hm, hbits, .inl rfl, fun _ hji => absurd hji hj, hclear⟩
    · rename_i hsys
      rw [if_neg hsys] at hbits
      exact ⟨m, (s.priv j).sAsynsize, hm, hbits, .inl rfl, fun hsys' => absurd hsys' hsys, hclear⟩
  · refine hgo.tables.trans (hout.tables.trans ?_)
    unfold markGone
    split <;> rfl
  · refine congrArg _ (hgo.history.trans (hout.history.trans ?_))
    unfold markGone
    split <;> rfl
  · obtain ⟨r', f', hq⟩ := hgo.proc_eq q
    obtain ⟨a, b, hq'⟩ := hout.proc q
    rw [State.record_proc, hq]
    refine (x.modProc_keep Proc.pMiscFlags rfl q).trans ?_
    rw [hq']
    refine (State.modProc_keep _ Proc.pMiscFlags rfl q).trans ?_
    rw [markGone_proc]
    exact s.modProc_keep Proc.pMiscFlags rfl q

lemma endpoint_ne_any (hep : s.EpOk) {p : Slot} (hp : s.isemptyp p = false) :
    (s.proc p).pEndpoint ≠ endptAny := by
  intro h
  have he := hep p hp
  rw [h] at he
  have hlt := p.isLt
  have hany : endpointP endptAny = 31438 := by decide
  rw [hany] at he
  simp only [procNr, nrTasks, nrProcs] at he hlt
  omega

lemma Gone.protocol (hg : s.Good) (hrc : s.isemptyp rc = false) (h : Gone rc s t) (hst : Static s t) :
    t.protocol = System.forget { s.protocol with queues := t.queues } rc := by
  have hok : ∀ e, t.isokendpt e = s.isokendpt e := isokendpt_congr h.isemptyp hst.endpoint
  have named : ∀ e, s.isokendpt e = some rc ↔ e = (s.proc rc).pEndpoint := by
    intro e
    constructor
    · exact fun he => ((s.isokendpt_eq_some).mp he).2.2.symm
    · rintro rfl
      exact isokendpt_endpoint hg.epOk hrc
  have source : ∀ e, sourceOf s e = some rc ↔ e = (s.proc rc).pEndpoint := by
    intro e
    unfold sourceOf
    split
    · rename_i hany
      rw [hany]
      exact iff_of_false nofun (fun he => endpoint_ne_any hg.epOk hrc he.symm)
    · exact named e
  apply System.ext
  · funext q
    by_cases hq : q = rc
    · simp [State.protocol, System.forget, h.noEndpoint, hq]
    · simp [State.protocol, System.forget, h.noEndpoint, h.isemptyp, hq]
  · funext q
    apply Option.ext
    intro d
    change t.protocol.sendTo q = some d ↔
      (if q = rc ∨ s.protocol.sendTo q = some rc then none else s.protocol.sendTo q) = some d
    rw [Option.ite_none_left_eq_some, State.sendTo_eq_some, State.sendTo_eq_some, State.sendTo_eq_some,
      h.sending, h.sendto, hok, named]
    tauto
  · funext q
    apply Option.ext
    intro x
    change t.protocol.waitFor q = some x ↔
      (if q = rc ∨ s.protocol.waitFor q = some (some rc) then none else s.protocol.waitFor q) = some x
    rw [Option.ite_none_left_eq_some, State.waitFor_eq_some, State.waitFor_eq_some,
      State.waitFor_eq_some, h.receiving, h.getfrom, sourceOf_congr h.isemptyp hst.endpoint, source]
    tauto
  · rfl

lemma clearEndpoint_step {l : Entry} (hg : s.Good) (hleave : l.leaving = some rc)
    (h : clearEndpoint rc s = .ok t) : t.Good ∧ System.Step l.toLabel s.protocol t.protocol := by
  obtain ⟨hrc, hgone, hdeq, _⟩ := clearEndpoint_spec hg h
  have hst := static_clearEndpoint h
  have hprot := hgone.protocol hg hrc hst
  have hstep : System.Step l.toLabel s.protocol t.protocol := by
    rcases hdeq with ⟨hs, hq⟩ | ⟨d, l₁, l₂, hd, hl, hq⟩
    · rw [hprot, hq]
      exact .leaveIdle rc hleave (State.sendTo_of_not hs)
    rw [hprot, hq]
    have he := System.forget_release s.protocol d rc l₁
    exact he ▸ .leaveQueued rc d l₁ l₂ hleave hd hl
  refine ⟨State.Good.intro hg hst hgone.freeOk hgone.isemptyp (fun p hp => ?_) (fun p hp hany => ?_)
    (hstep.inv hg.inv), hstep⟩
  · rw [hgone.sendto p]
    exact hg.sender p ((hgone.sending p).mp hp).1
  · rw [hgone.getfrom p] at hany ⊢
    exact hg.waiter p ((hgone.receiving p).mp hp).1 hany

end Nucleos.Kernel
