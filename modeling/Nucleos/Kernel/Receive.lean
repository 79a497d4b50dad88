import Nucleos.Kernel.Routines

/-!
# The updates of `mini_receive`

The three places where `mini_receive` looks for a message, in their order: the pending
notifications, the caller queue and the asynchronous tables. When all of them are empty
the caller blocks; what the search has found out then goes into the update.
-/

namespace Nucleos.Kernel

open IntrusiveList Run

variable {l : Entry} {s t u : State} {src : Option Slot} {caller : Slot}
variable {map : SysMap} {cs : List (Fin nrSysChunks)} {id : PrivId}

lemma findNotify_some
    (h : findNotify s map src cs = some id) :
    ∃ c ∈ cs, map c ≠ 0 ∧ id.val = c.val * bitchunkBits + ChunkMap.lowest (map c) ∧
      ∀ p, src = some p → (s.priv id).sProcNr = procNr p := by
  induction cs with
  | nil => cases h
  | cons c cs ih =>
    have rest : findNotify s map src cs = some id → ∃ c' ∈ c :: cs, map c' ≠ 0 ∧
        id.val = c'.val * bitchunkBits + ChunkMap.lowest (map c') ∧
          ∀ p, src = some p → (s.priv id).sProcNr = procNr p := by
      intro h
      obtain ⟨c', hc', hrest⟩ := ih h
      exact ⟨c', .tail c hc', hrest⟩
    rw [findNotify] at h
    split at h
    · exact rest h
    rename_i hc
    simp only at h
    split at h
    · cases src with
      | none =>
        cases h
        exact ⟨c, .head _, hc, rfl, nofun⟩
      | some p =>
        simp only at h
        split at h
        · exact rest h
        rename_i hnr
        cases h
        refine ⟨c, .head _, hc, rfl, fun q hq => ?_⟩
        rw [← Option.some.inj hq]
        exact (not_not.mp hnr).symm
    · cases h

lemma findNotify_bit
    (h : findNotify s map src cs = some id) : getSysBit map id = true := by
  obtain ⟨c, _, hc, hid, _⟩ := findNotify_some h
  obtain ⟨hlt, hbit, _⟩ := ChunkMap.lowest_spec hc
  have hdiv : id.val / bitchunkBits = c.val := by
    simp only [bitchunkBits] at hid hlt ⊢
    omega
  have hmod : id.val % bitchunkBits = ChunkMap.lowest (map c) := by
    simp only [bitchunkBits] at hid hlt ⊢
    omega
  unfold getSysBit ChunkMap.get
  rw [dif_pos (sysBit_chunk id), hmod]
  have hfin : (⟨id.val / bitchunkBits, sysBit_chunk id⟩ : Fin nrSysChunks) = c := Fin.ext hdiv
  rw [hfin]
  exact hbit

lemma receiveNotify_updates (hcaller : s.isemptyp caller = false)
    (hmay : s.mfIsset caller mfReplyPend = true ∨ MayReceive s caller)
    (h : receiveNotify caller src s = .ok (some t)) : Updates l s t := by
  unfold receiveNotify at h
  split at h
  · cases h
  rename_i hreply
  obtain ⟨i, hi, h⟩ := bind_eq_ok.mp h
  split at h
  · cases h
  rename_i id hid
  obtain ⟨v, htake, h⟩ := bind_eq_ok.mp h
  cases h
  have hmay' : MayReceive s caller := by
    rcases hmay with hr | hm
    · exact absurd hr hreply
    · exact hm
  exact (Update.take caller i id t hcaller ((s.privOf_eq_ok).mp hi) hmay' (findNotify_bit hid)
    htake).updates

def handOver (caller q : Slot) (s : State) : State :=
  (deposit (s.proc q).pEndpoint (s.proc q).pSendmsg caller s).record (.sent q caller (s.proc q).pSendmsg)

lemma handOver_updates (caller q : Slot) (s : State) : Updates l s (handOver caller q s) :=
  (Update.quiet _ (quiet_deposit _ _ caller s)).updates.trans (Update.sent q caller _).updates

lemma takeCaller_eq_ok {q : Slot} {xpp : Cell Slot Slot} (hep : s.EpOk)
    (hq : s.isemptyp q = false) (h : takeCaller caller xpp q s = .ok t) :
    ∃ u, (∀ l, Updates l (handOver caller q s) u) ∧
      t = (u.rtsUnset q rtsSending).writeCell xpp (u.proc q).pQLink := by
  unfold takeCaller at h
  obtain ⟨u, hu, h⟩ := bind_eq_ok.mp h
  cases h
  have hdep := quiet_deposit (s.proc q).pEndpoint (s.proc q).pSendmsg caller s
  refine ⟨u, fun l => ?_, rfl⟩
  unfold checkSigDelay at hu
  split at hu
  · exact sigDelayDone_updates (hdep.epOk hep) ((hdep.isemptyp q).trans hq) hu
  · cases hu
    exact .refl l _

lemma receiveCaller_eq_ok (hep : s.EpOk) (hql : s.QueueLive)
    (hlive : s.Live caller) (h : receiveCaller caller src s = .ok (some t)) :
    ∃ xpp q u, s.queues.walk (accepts src) State.queueFuel (.head caller) = some xpp ∧
      s.queues.read xpp = some q ∧ (∀ l, Updates l (handOver caller q s) u) ∧
        t = (u.rtsUnset q rtsSending).writeCell xpp (u.proc q).pQLink := by
  unfold receiveCaller at h
  split at h
  · cases h
  rename_i xpp hwalk
  split at h
  · cases h
  rename_i q hread
  obtain ⟨v, htake, h⟩ := bind_eq_ok.mp h
  cases h
  obtain ⟨u, hu, rfl⟩ := takeCaller_eq_ok hep (hql caller hlive _ xpp q hwalk hread) htake
  exact ⟨xpp, q, u, hwalk, hread, hu, rfl⟩

lemma receiveCaller_updates (hactor : l.actor = some caller) (hs : s.Sound)
    (hlive : s.Live caller) (h : receiveCaller caller l.source s = .ok (some t)) : Updates l s t := by
  obtain ⟨xpp, q, u, hwalk, hread, hu, rfl⟩ := receiveCaller_eq_ok hs.epOk hs.queueLive hlive h
  have hup : ∀ l, Updates l s u := fun l => (handOver_updates caller q s).trans (hu l)
  have hp := (hup (.idle l.env)).passive hs.freeOk
  refine (hup l).trans (Update.release caller q xpp hactor (hp.live hs.freeOk hlive) ?_ ?_).updates
  · rw [hp.queues]
    exact hwalk
  · rw [hp.queues]
    exact hread

end Nucleos.Kernel
