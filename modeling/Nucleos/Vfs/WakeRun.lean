import Nucleos.Vfs.WakeRelease

/-!
# Who resumes a blocked process

Every way in which a process is resumed is traced back to the event it waits for. A message of type
`DEV_REVIVE` is the exception: it resumes the process it names, whatever that process waits for.
-/

namespace Nucleos.Vfs.Wake

open Function Run

namespace State

variable {s s' t : State} {R : Proc → Prop} {p q : Proc} {i : SelSlot} {e r : Int} {f : FilpNr}
    {vp : VnodeNr} {maj : Major}

/-! ## Calls that block, and the process manager -/

variable {source status grant : Int} {reopened : FilpNr → Bool} {fd : Fd}

structure Sane (s : State) (q : Proc) : Prop where
  addr : (s.fproc q).live = true → (s.fproc q).endpoint ≠ endptNone ∧
    Kernel.endpointP (s.fproc q).endpoint = q.val
  gone : (s.fproc q).live = false → (s.fproc q).endpoint = endptNone
  calls : (s.fproc q).blockedOn = .lock ∨ (s.fproc q).blockedOn = .select → (s.fproc q).callNr ∉ pipeCalls
  marked : (s.fproc q).revived = true → (s.fproc q).blockedOn = .pipe ∨ (s.fproc q).blockedOn = .lock
  device : (s.fproc q).blockedOn = .other → (s.fproc q).callNr ∈ pipeCalls → s.onDevice q ≠ some false

lemma Consistent.of_sane (h : s.Consistent) (hsel : s'.selecttab = s.selecttab) (hsane : ∀ q, s'.Sane q)
    (hown : ∀ {i q}, s.OwnerOf i q → (s'.fproc q).live = true ∧
      (s'.fproc q).endpoint = (s.selecttab i).reqEndpt ∧
      (s'.fproc q).blockedOn = .select) : s'.Consistent := by
  refine ⟨(hsane _).addr, (hsane _).gone, fun {i} hi => ?_, ?_, (hsane _).calls, (hsane _).marked,
    (hsane _).device⟩
  · rw [hsel] at hi
    obtain ⟨q, hq⟩ := h.owner hi
    refine ⟨q, ?_⟩
    unfold OwnerOf
    rw [hsel]
    exact ⟨hi, hown hq⟩
  · rw [hsel]
    exact h.single

def SameWait (a b : Fproc) : Prop :=
  b.live = a.live ∧ b.endpoint = a.endpoint ∧ b.blockedOn = a.blockedOn ∧ b.callNr = a.callNr ∧
    (b.revived = true → a.revived = true)

lemma Consistent.sane (h : s.Consistent) (hq : SameWait (s.fproc q) (s'.fproc q))
    (hdev : (s.fproc q).blockedOn ≠ .none → s'.onDevice q = s.onDevice q) : s'.Sane q := by
  obtain ⟨hl, he, hb, hn, hr⟩ := hq
  refine ⟨?_, ?_, ?_, fun hq => ?_, fun hq => ?_⟩
  · rw [hl, he]
    exact h.addr
  · rw [hl, he]
    exact h.gone
  · rw [hb, hn]
    exact h.calls
  · rw [hb]
    exact h.marked (hr hq)
  rw [hb] at hq
  rw [hn, hdev (by rw [hq]; exact nofun)]
  exact h.device hq

variable {rfp : Fproc}

lemma Consistent.replace (h : s.Consistent) (hs' : s'.fproc = update s.fproc p rfp) (hfilp : s'.filp = s.filp)
    (hvnode : s'.vnode = s.vnode) (hsel : s'.selecttab = s.selecttab) (hno : ∀ i, ¬ s.OwnerOf i p)
    (haddr : rfp.live = true → rfp.endpoint ≠ endptNone ∧ Kernel.endpointP rfp.endpoint = p.val)
    (hgone : rfp.live = false → rfp.endpoint = endptNone)
    (hcalls : rfp.blockedOn = .lock ∨ rfp.blockedOn = .select → rfp.callNr ∉ pipeCalls)
    (hmarked : rfp.revived = true → rfp.blockedOn = .pipe ∨ rfp.blockedOn = .lock)
    (hdevice : rfp.blockedOn = .other → rfp.callNr ∈ pipeCalls → s'.onDevice p ≠ some false) :
    s'.Consistent := by
  have hat : s'.fproc p = rfp := by rw [hs', update_self]
  have hother : ∀ {q}, q ≠ p → s'.fproc q = s.fproc q := fun hq => by rw [hs', update_of_ne hq]
  refine h.of_sane hsel (fun q => ?_) fun {i q} hq => ?_
  · by_cases hqp : q = p
    · subst hqp
      subst hat
      exact ⟨haddr, hgone, hcalls, hmarked, hdevice⟩
    have heq := hother hqp
    refine h.sane (heq ▸ ⟨rfl, rfl, rfl, rfl, id⟩) fun _ => ?_
    unfold onDevice
    rw [heq, hfilp, hvnode]
  · rw [hother fun heq => hno i (heq ▸ hq)]
    exact hq.2

lemma Consistent.congr (h : s.Consistent) (hproc : ∀ q, SameWait (s.fproc q) (s'.fproc q))
    (hsel : s'.selecttab = s.selecttab)
    (hdev : ∀ q, (s.fproc q).blockedOn ≠ .none → s'.onDevice q = s.onDevice q) : s'.Consistent := by
  refine h.of_sane hsel (fun q => h.sane (hproc q) (hdev q)) fun {i q} hq => ?_
  obtain ⟨hl, he, hb, -⟩ := hproc q
  rw [hl, he, hb]
  exact hq.2

lemma not_ownerOf {kind : BlockedOn} (h : (s.fproc p).blockedOn = kind) (hk : kind ≠ .select)
    (i : SelSlot) : ¬ s.OwnerOf i p :=
  fun hown => hk (h.symm.trans hown.2.2.2)

variable {x : SelectEntry}

lemma Consistent.addEntry (h : s.Consistent) (hp : (s.fproc p).live = true ∧ (s.fproc p).blockedOn = .select)
    (hx : (s.fproc p).endpoint = x.reqEndpt) (hno : ∀ j, ¬ s.OwnerOf j p) : (s.setEntry i x).Consistent := by
  have hnew : ∀ {j}, j ≠ i → ((s.setEntry i x).selecttab j).requestor = true →
    ((s.setEntry i x).selecttab j).reqEndpt ≠ x.reqEndpt := by
    intro j hj hact heq
    rw [setEntry_of_ne hj] at hact heq
    obtain ⟨q, hq⟩ := h.owner hact
    have hslot := hq.slotOf h
    rw [heq, ← hx, h.slotOf hp.1] at hslot
    cases hslot
    exact hno j hq
  refine ⟨h.addr, h.gone, fun {j} hj => ?_, fun {j k} hj hk heq => ?_, h.calls, h.marked, h.device⟩
  · by_cases hji : j = i
    · refine ⟨p, hj, hp.1, ?_, hp.2⟩
      rw [hji, setEntry_self]
      exact hx
    rw [setEntry_of_ne hji] at hj
    obtain ⟨q, hq⟩ := h.owner hj
    refine ⟨q, ?_⟩
    unfold OwnerOf
    rw [setEntry_of_ne hji]
    exact hq
  · by_cases hji : j = i
    · by_cases hki : k = i
      · rw [hji, hki]
      · refine absurd ?_ (hnew hki hk)
        rw [← heq, hji, setEntry_self]
    · by_cases hki : k = i
      · refine absurd ?_ (hnew hji hj)
        rw [heq, hki, setEntry_self]
      · rw [setEntry_of_ne hji] at hj heq
        rw [setEntry_of_ne hki] at hk heq
        exact h.single hj hk heq

lemma forget_since (hc : s.Consistent) (hp : s.slotOf e = some p) (hsel : (s.fproc p).blockedOn = .select) :
    Since (fun _ => True) s ((s.selectForget e).interrupt p r) := by
  obtain ⟨hproc, hfewer, hent⟩ := selectForget_spec hc (e := e)
  obtain ⟨hep, -, -⟩ := slotOf_eq_some_iff.mp hp
  have hs' : ((s.selectForget e).interrupt p r).fproc =
    update s.fproc p { s.fproc p with blockedOn := .none } := by
    rw [← hproc]
    rfl
  have hrev : (s.fproc p).revived = false := hc.not_revived hsel ⟨nofun, nofun⟩
  have hfewer' : Fewer s ((s.selectForget e).interrupt p r) := by
    refine hfewer.trans ?_
    exact Fewer.setProc rfl id id rfl rfl
  refine (hc.since (Wakes.setProc hs' ⟨rfl, rfl, rfl, rfl⟩ (.inr (.inl ⟨rfl, hrev⟩))) hfewer'
    (fun {i} hi => ?_) fun {i q} hi hown hq => ?_).mono
    fun _ _ => trivial
  · obtain ⟨hact, -, he, hf⟩ := hent hi
    exact ⟨hact, he, hf⟩
  obtain ⟨-, hne, -⟩ := hent hi
  rw [hq] at hown
  exact hne (hown.2.2.1.symm.trans hep)

lemma interrupt_woken {x : Fproc} (hrev : (s.fproc p).revived = false)
    (hx : x = { s.fproc p with suspReopen := x.suspReopen, grant := x.grant }) :
    Woken s ((s.setProc p x).interrupt p r) p := by
  have hs' : ((s.setProc p x).interrupt p r).fproc = update s.fproc p { x with blockedOn := .none } := by
    simp only [interrupt, reply, setProc, update_idem, update_self]
  rw [hx] at hs' ⊢
  exact Woken.freed hs' ⟨rfl, rfl, rfl, rfl⟩ ⟨rfl, hrev⟩ rfl rfl rfl rfl rfl

variable {kind : BlockedOn}

section
variable (wasreviving : Bool) (cancel : Option Int) (hc : s.Consistent) (hp : s.slotOf e = some p)
    (hkind : (s.fproc p).blockedOn = kind) (hrev : (s.fproc p).revived = false)
include wasreviving cancel hc hp hkind hrev

lemma abortCall_since :
    Since (fun _ => True) s (s.abortCall kind wasreviving p e cancel) := by
  have hfreed : kind ≠ .select → ∀ u : State, Woken s u p → Since (fun _ => True) s u := by
    intro hne u hu
    rw [← hkind] at hne
    exact (hu.since hc hne).mono fun _ _ => trivial
  unfold abortCall
  cases kind with
  | none | dopen => exact Since.refl hc
  | pipe
  | popen
  | lock => exact hfreed nofun _ (Woken.freed rfl ⟨rfl, rfl, rfl, rfl⟩ ⟨rfl, hrev⟩ rfl rfl rfl rfl rfl)
  | select => exact forget_since hc hp hkind
  | other =>
    simp only
    split
    · exact hfreed nofun _ (interrupt_woken hrev rfl)
    cases cancel with
    | none => exact Since.refl hc
    | some status => exact hfreed nofun _ (interrupt_woken hrev rfl)

lemma abortCall_not_select :
    ((s.abortCall kind wasreviving p e cancel).fproc p).blockedOn ≠ .select := by
  by_cases hsel : kind = .select
  · subst hsel
    simp only [abortCall, interrupt, reply, setProc, update_self]
    simp
  have hsince := abortCall_since wasreviving cancel hc hp hkind hrev
  exact fun hb => hsel (hkind.symm.trans ((hsince.wakes.eased p).on hb (by simp)))

end

lemma unmark_spec (hc : s.Consistent)
    (ht : t.fproc = update s.fproc p { s.fproc p with revived := false }) (hfilp : t.filp = s.filp)
    (hvnode : t.vnode = s.vnode) (hsel : t.selecttab = s.selecttab) :
    t.Consistent ∧ (∀ q, (t.fproc q).live = (s.fproc q).live ∧ (t.fproc q).endpoint = (s.fproc q).endpoint) ∧
      (t.fproc p).blockedOn = (s.fproc p).blockedOn ∧ (t.fproc p).revived = false := by
  have hproc : ∀ q, ∃ b, t.fproc q = { s.fproc q with revived := b && (s.fproc q).revived } := by
    intro q
    rw [ht, update_apply]
    split_ifs with hq
    · exact ⟨false, hq ▸ rfl⟩
    · exact ⟨true, rfl⟩
  refine ⟨hc.congr (fun q => ?_) hsel fun q _ => ?_, fun q => ?_, ?_⟩
  · obtain ⟨b, hq⟩ := hproc q
    rw [hq]
    exact ⟨rfl, rfl, rfl, rfl, fun hb => (Bool.and_eq_true_iff.mp hb).2⟩
  · obtain ⟨b, hq⟩ := hproc q
    unfold onDevice
    rw [hfilp, hvnode, hq]
  · obtain ⟨b, hq⟩ := hproc q
    rw [hq]
    exact ⟨rfl, rfl⟩
  · rw [ht, update_self]
    exact ⟨rfl, rfl⟩

lemma unpause_spec (e : Int) (cancel : Option Int) (hc : s.Consistent) : (s.unpause e cancel).Consistent ∧
    (∀ q, ((s.unpause e cancel).fproc q).live = (s.fproc q).live ∧
      ((s.unpause e cancel).fproc q).endpoint = (s.fproc q).endpoint) ∧
    ∀ p, s.slotOf e = some p → ((s.unpause e cancel).fproc p).blockedOn ≠ .select := by
  unfold unpause
  split
  · next hslot => exact ⟨hc, fun _ => ⟨rfl, rfl⟩, fun p hp => nomatch hslot.symm.trans hp⟩
  next p hslot =>
  simp only
  split
  · next hidle =>
    refine ⟨hc, fun _ => ⟨rfl, rfl⟩, fun q hq => ?_⟩
    cases hslot.symm.trans hq
    rw [hidle]
    exact nofun
  -- The flag is cleared first, whatever the process waits for.
  have hclear := unmark_spec (p := p) hc (t := { s.setProc p { s.fproc p with revived := false } with
    reviving := if (s.fproc p).revived then s.reviving - 1 else s.reviving }) rfl rfl rfl rfl
  revert hclear
  generalize ({ s.setProc p _ with reviving := _ } : State) = u
  rintro ⟨hcu, hids, hb, hr⟩
  have hslot' : u.slotOf e = some p := by
    rw [slotOf_eq_some_iff, (hids p).2]
    exact slotOf_eq_some_iff.mp hslot
  have hsince := abortCall_since (s.fproc p).revived cancel hcu hslot' hb hr
  refine ⟨hsince.sound, fun q => ?_, fun q hq => ?_⟩
  · obtain ⟨hl, he, -⟩ := hsince.wakes.ids q
    exact ⟨hl.trans (hids q).1, he.trans (hids q).2⟩
  · cases hslot.symm.trans hq
    exact abortCall_not_select _ cancel hcu hslot' hb hr

/-! ## Every event -/

/-- The event is one that the process waits for: the message comes from the driver it waits for,
from the process manager or from the clock, or it is what the condition was made true by. -/
def Own (s : State) : Event → Proc → Prop
  | .devRevive source _ _ _, p => (s.fproc p).blockedOn = .other ∧ (s.fproc p).task = source
  | .devStatus source (.revive _ _ _), p => (s.fproc p).blockedOn = .other ∧ (s.fproc p).task = source
  | .devStatus source (.ioReady _ _), p => s.Watches (s.Drives source) p
  | .devStatus _ .noStatus, _ => False
  | .reopenReply source _ _ _, p => ∃ maj, (s.dmap maj).driver = source ∧ s.WaitsFor maj p
  | .closeReply _, _ => False
  | .selectReply1 source _ _, p => s.Watches (s.Drives source) p
  | .selectReply2 source _ _, p => s.Watches (s.Drives source) p
  | .clock _, p => (s.fproc p).blockedOn = .select
  | .pm _, _ => True
  | .act _ (.effect (.release vp callNr _)), p => s.Hangs vp callNr p
  | .act _ (.effect .lockRevive), p => (s.fproc p).blockedOn = .lock
  | .act _ (.devUp maj _), p => s.WaitsFor maj p
  | .act _ _, _ => False
  | .retry q, p => p = q ∧ (s.fproc p).revived = true

/-- A message of type `DEV_REVIVE`, or the answer of that type to `DEV_STATUS`, names a process that
waits for its sender. -/
def NamesOwn (s : State) (source endpt grant : Int) : Prop :=
  ∀ e p, s.revivedEp source endpt grant = some e → s.slotOf e = some p → s.Blocked p →
    (s.fproc p).revived = false →
    (s.fproc p).blockedOn = .other ∧ (s.fproc p).task = source

def LetsGo (s : State) (source : Int) (filpNo : Nat) (status : Int) (reopened : FilpNr → Bool)
    (maj : Major) : Prop :=
  ∃ (f : FilpNr) (minor : Nat), f.val = filpNo ∧ ¬ (s.filp f).count < 1 ∧
    (s.filp f).needsReopen = true ∧ s.charDev f = some (maj.val, minor) ∧
    (s.dmap maj).driver = source ∧ status = 0 ∧
      ((s.setFilp f { s.filp f with needsReopen := false }).reopenFilps maj reopened).1 = false

def Rightful (s : State) : Event → Prop
  | .devRevive source endpt _ grant => s.NamesOwn source endpt grant
  | .devStatus source (.revive endpt _ grant) => ∀ d, s.majorOf source = some d →
      (s.dmap d).asyncDriver = false → s.NamesOwn source endpt grant
  | .selectReply2 source _ _ => s.majorOf source ≠ none → ∀ i, s.Overdue i → ∀ p, s.OwnerOf i p →
      s.Watches (s.Drives source) p
  | .reopenReply source filpNo status reopened => ∀ maj,
      s.LetsGo source filpNo status reopened maj → ∀ p, s.Blocked p → s.Restarted maj p →
      ∃ maj', (s.dmap maj').driver = source ∧ s.WaitsFor maj' p
  | .act _ (.devUp maj reopened) => ∀ t, (List.finRange nrProcs).foldlM (markOpen maj) s = .ok t →
      (List.finRange nrFilps).any (t.onMajor maj) = true →
        ((t.markFiles maj).reopenFilps maj reopened).1 = false → s.NoStray maj
  | _ => True

/-! ### Messages of drivers -/

variable {endpt : Int}

lemma devRevive_own (hc : s.Consistent) (hown : s.NamesOwn source endpt grant)
    (h : s.devRevive source endpt status grant = .ok s') :
    Since (fun p => s.Blocked p → (s.fproc p).blockedOn = .other ∧ (s.fproc p).task = source) s s' := by
  unfold devRevive at h
  split at h
  · exact Except.ok.inj h ▸ Since.refl hc
  next e hep =>
  rcases revive_spec h with ⟨rfl, -⟩ | ⟨p, hslot, hawake, hwoken⟩
  · exact Since.refl hc
  have hrev := Bool.eq_false_of_not_eq_true (not_or.mp hawake).2
  refine (hwoken.since hc fun hsel => ?_).mono fun q hq hblocked => ?_
  · have hblocked : s.Blocked p := ⟨hc.live hslot, .inr (.inr (.inr hsel))⟩
    nomatch hsel.symm.trans (hown e p hep hslot hblocked hrev).1
  · subst hq
    exact hown e q hep hslot hblocked hrev

lemma namesOwn_of_own (h : s.devRevive source endpt status grant = .ok s')
    (hown : ∀ p, Resumed s s' p → (s.fproc p).blockedOn = .other ∧ (s.fproc p).task = source) :
    s.NamesOwn source endpt grant := by
  intro e p hep hslot hblocked hrev
  unfold devRevive at h
  simp only [hep] at h
  have hawake : ¬ s.Awake p := not_or.mpr ⟨hblocked.ne_none, by rw [hrev]; exact nofun⟩
  rcases revive_spec h with ⟨-, hidle⟩ | ⟨q, hslot', -, hwoken⟩
  · exact absurd (hidle p hslot) hawake
  rw [hslot] at hslot'
  cases hslot'
  exact hown p (hwoken.awake.resumed hblocked hawake)

variable {minor : Nat}

lemma watches_drives {d : Major} (hmaj : s.majorOf source = some d)
    (h : s.Watches (fun f => s.charDev f = some (d.val, minor)) p) : s.Watches (s.Drives source) p := by
  obtain ⟨i, hi, fd, f, hf, hdev⟩ := h
  exact ⟨i, hi, fd, f, hf, d, minor, majorOf_driver hmaj, hdev⟩

lemma devStatus_cases {answer : Answer} (h : s.devStatus source answer = .ok s') :
    s' = s ∨ ∃ d, s.majorOf source = some d ∧ (s.dmap d).asyncDriver = false ∧
      ((∃ endpt status grant, answer = .revive endpt status grant ∧
        s.devRevive source endpt status grant = .ok s') ∨
        ∃ minor ops, answer = .ioReady minor ops ∧ s.selectNotified d.val minor ops = .ok s') := by
  unfold devStatus at h
  split at h
  · exact .inl (Except.ok.inj h).symm
  next d hmaj =>
  split_ifs at h with hsync
  · exact .inl (Except.ok.inj h).symm
  have hsync' := Bool.eq_false_of_not_eq_true hsync
  cases answer with
  | revive endpt status grant => exact .inr ⟨d, hmaj, hsync', .inl ⟨endpt, status, grant, rfl, h⟩⟩
  | ioReady minor ops => exact .inr ⟨d, hmaj, hsync', .inr ⟨minor, ops, rfl, h⟩⟩
  | noStatus => exact .inl (Except.ok.inj h).symm

lemma reopenReply_cases {filpNo : Nat} (h : s.reopenReply source filpNo status reopened = .ok s') :
    s' = s ∨ ∃ (f : FilpNr) (maj : Major) (minor : Nat), f.val = filpNo ∧ ¬ (s.filp f).count < 1 ∧
      (s.filp f).needsReopen = true ∧
      s.charDev f = some (maj.val, minor) ∧ (s.dmap maj).driver = source ∧ status = 0 ∧
      (s.setFilp f { s.filp f with needsReopen := false }).restartReopen maj reopened = .ok s' := by
  unfold reopenReply at h
  split at h
  · next hlt =>
    simp only at h
    split_ifs at h with hcond
    · exact .inl (Except.ok.inj h).symm
    rw [not_or, Bool.not_eq_false] at hcond
    split at h
    · exact .inl (Except.ok.inj h).symm
    next major minor hdev =>
    split at h
    · next hm =>
      split_ifs at h with hok
      · exact .inl (Except.ok.inj h).symm
      · rw [not_or, not_not, not_not] at hok
        exact .inr ⟨⟨filpNo, hlt⟩, ⟨major, hm⟩, minor, rfl, hcond.1, hcond.2, hdev, hok.1, hok.2, h⟩
    · nomatch h
  · exact .inl (Except.ok.inj h).symm

lemma reopenReply_eq (hcount : ¬ (s.filp f).count < 1)
    (hneeds : (s.filp f).needsReopen = true) (hdev : s.charDev f = some (maj.val, minor))
    (hdrv : (s.dmap maj).driver = source) :
    s.reopenReply source f.val 0 reopened =
      (s.setFilp f { s.filp f with needsReopen := false }).restartReopen maj reopened := by
  unfold reopenReply
  rw [dif_pos f.isLt]
  simp only [Fin.eta, hcount, hneeds, hdev, hdrv, maj.isLt, dif_pos, Bool.true_eq_false, or_self,
    if_false, ne_eq, not_true_eq_false]

lemma setFilp_marked {x : Filp} (h : x.vno = (s.filp f).vno) : Marked s (s.setFilp f x) :=
  ⟨fun _ => .inl rfl, (setFilp_quiet h).vno, rfl, rfl, rfl⟩

/-! ### Calls -/

lemma not_resumed_of_idle (h : (s.fproc p).blockedOn = .none) : ¬ Resumed s s' p :=
    fun hres => hres.1.ne_none h

lemma not_resumed_of_caller (hs' : s'.fproc = update s.fproc p rfp) (hidle : (s.fproc p).blockedOn = .none) :
    ¬ Resumed s s' q := by
  by_cases hq : q = p
  · rw [hq]
    exact not_resumed_of_idle hidle
  · have hsame : s'.fproc q = s.fproc q := by rw [hs', update_of_ne hq]
    exact not_resumed (by rw [hsame]) (by rw [hsame]) (by rw [hsame])

variable {ev : Event}

lemma Since.own (h : Since R s s') (hR : ∀ p, s.Blocked p → R p → s.Own ev p) :
    s'.Consistent ∧ ∀ p, Resumed s s' p → s.Own ev p :=
  ⟨h.sound, fun p hp => hR p hp.1 (h.wakes.resumed hp)⟩

lemma Consistent.own_self (hc : s.Consistent) : s.Consistent ∧ ∀ p, Resumed s s p → s.Own ev p :=
  ⟨hc, fun _ hp => absurd hp (not_resumed rfl rfl rfl)⟩

lemma effect_own {x : Effect} (who : Proc) (hc : s.Consistent) (h : s.effect x = .ok s') :
    s'.Consistent ∧ ∀ p, Resumed s s' p → s.Own (.act who (.effect x)) p := by
  unfold effect at h
  cases x with
  | release vp callNr count =>
    rcases ite_eq_iff.mp h with ⟨⟨hcall, hvp⟩, h⟩ | ⟨-, h⟩
    · exact (release_since hc hcall hvp h).own fun p hp hq => hq.resolve_left hp.not_opening
    · nomatch h
  | lockRevive => exact (lockRevive_since hc h).own fun _ _ => id
  | tables filp vnode dmap fds =>
    rcases ite_eq_iff.mp h with ⟨hhold, h⟩ | ⟨-, h⟩
    · cases h
      exact ⟨hc.congr (fun _ => ⟨rfl, rfl, rfl, rfl, id⟩) rfl hhold, fun p hp =>
        absurd hp (not_resumed rfl rfl rfl)⟩
    · nomatch h

section
variable (hc : s.Consistent) (hl : (s.fproc p).live = true) (hidle : (s.fproc p).blockedOn = .none)
include hc hl hidle

variable {callNr : Nat} {nbytes : Int}

lemma suspend_consistent {why : BlockedOn}
    (hlock : why = .lock ∨ why = .select → callNr ∉ pipeCalls) (hother : why ≠ .other) :
    (s.suspend p why callNr fd nbytes).Consistent := by
  refine hc.replace rfl rfl rfl rfl (not_ownerOf hidle nofun) (fun _ => hc.addr hl)
    (fun hgone => ?_) hlock (fun hr => ?_)
    fun ho => absurd ho hother
  · nomatch hl.symm.trans hgone
  · nomatch (hc.not_revived hidle ⟨nofun, nofun⟩).symm.trans hr

lemma doSelect_own
    (h : s.doSelect p x fd = .ok s') : s'.Consistent ∧ ∀ q, ¬ Resumed s s' q := by
  unfold doSelect at h
  split at h
  · cases h
    exact ⟨hc, fun q => not_resumed rfl rfl rfl⟩
  next i _ =>
  cases h
  refine ⟨?_, fun q => not_resumed_of_caller rfl hidle⟩
  -- The entry is filled before the caller is blocked; the two changes do not touch each other.
  have hsusp : (s.suspend p .select nrSelect fd 0).Consistent :=
    suspend_consistent hc hl hidle (fun _ => by decide) nofun
  have hself : (s.suspend p .select nrSelect fd 0).fproc p = { s.fproc p with
      blockedOn := .select, callNr := nrSelect, fdNr := fd, nbytes := 0,
      suspReopen := false } := update_self ..
  refine hsusp.addEntry (p := p) (i := i)
    (x := { x with requestor := true, reqEndpt := (s.fproc p).endpoint, nreadyfds := 0 }) ?_ ?_
    fun j hj => ?_
  · rw [hself]
    exact ⟨hl, rfl⟩
  · rw [hself]
  obtain ⟨q, hq⟩ := hc.owner hj.1
  have hslot := hq.slotOf hc
  have hep : (s.fproc p).endpoint = (s.selecttab j).reqEndpt := by
    have hj' := hj.2.2.1
    rw [hself] at hj'
    exact hj'
  rw [← hep, hc.slotOf hl] at hslot
  cases hslot
  exact not_ownerOf hidle nofun j hq

lemma waitFor_consistent {driver : Int} {reopen : Bool}
    (hs' : s' = (s.suspend p .other callNr fd nbytes).setProc p
      { (s.suspend p .other callNr fd nbytes).fproc p with task := driver, grant, suspReopen := reopen })
    (hdev : ¬ (callNr ∈ pipeCalls ∧ s'.onDevice p = some false)) : s'.Consistent ∧ ∀ q, ¬ Resumed s s' q := by
  have hproc : s'.fproc = update s.fproc p { s.fproc p with
      blockedOn := .other, callNr, fdNr := fd, nbytes, task := driver, grant, suspReopen := reopen } := by
    rw [hs']
    simp only [setProc, suspend, update_idem, update_self]
  refine ⟨?_, fun q => not_resumed_of_caller hproc hidle⟩
  refine hc.replace hproc (by rw [hs']; rfl) (by rw [hs']; rfl) (by rw [hs']; rfl)
    (not_ownerOf hidle (by simp)) (fun _ => hc.addr hl)
    (fun hgone => ?_) (fun hk => ?_) (fun hr => ?_) fun _ hnr hno => hdev ⟨hnr, hno⟩
  · cases hl.symm.trans hgone
  · simp at hk
  · cases (hc.not_revived hidle (by simp)).symm.trans hr

end

variable {who : Proc}

lemma devUp_own (hc : s.Consistent) (hr : s.Rightful (.act who (.devUp maj reopened)))
    (h : s.devUp maj reopened = .ok s') : Since (fun p => s.Blocked p → s.WaitsFor maj p) s s' := by
  unfold devUp at h
  obtain ⟨t, ht, h⟩ := bind_eq_ok.mp h
  have hmark := markOpens_marked ht
  split_ifs at h with hneeds
  · have hfiles := hmark.markFiles maj
    have hsince : Since (fun p => s.Blocked p → s.WaitsFor maj p) s (t.markFiles maj) := hfiles.since hc
    refine hsince.trans ((restartReopen_since (P := fun p => (t.markFiles maj).WaitsFor maj p)
      hsince.sound (fun hdone q hq hre => ?_) h).mono
      fun q hq hblocked => ?_)
    · have hwait := hfiles.noStray.mpr (hr t ht hneeds hdone) q hq hre
      exact ⟨hwait.1, hwait⟩
    · exact (hfiles.waitsFor hblocked).mp (hq (hfiles.blocked.mpr hblocked))
  · cases h
    exact hmark.since hc

lemma rightful_of_devUp (h : s.devUp maj reopened = .ok s')
    (hown : ∀ p, Resumed s s' p → s.WaitsFor maj p) : s.Rightful (.act who (.devUp maj reopened)) := by
  intro t ht hneeds hdone p hp hre
  unfold devUp at h
  obtain ⟨t', ht', h⟩ := bind_eq_ok.mp h
  obtain rfl : t' = t := Except.ok.inj (ht'.symm.trans ht)
  rw [if_pos hneeds] at h
  have hfiles := (markOpens_marked ht).markFiles maj
  have hfree := restartReopen_resumed hdone h ((hfiles.restarted hp).mpr hre)
  refine hown p ⟨hp, .inl fun hp' => hp'.ne_none hfree⟩

lemma pmDeed_consistent {d : PmDeed} (hc : s.Consistent) (h : s.pmDeed d = .ok s') : s'.Consistent := by
  unfold pmDeed at h
  cases d with
  | unpause e cancel => exact Except.ok.inj h ▸ (unpause_spec e cancel hc).1
  | unsuspendByEndpt e => exact (unsuspendByEndpt_since hc h).sound
  | effect x => exact (effect_own ⟨0, by decide⟩ hc h).1
  | fork parent p child =>
    rcases ite_eq_iff.mp h with ⟨-, h⟩ | ⟨hwho, h⟩
    · exact nomatch h
    split at h
    · nomatch h
    next hfree =>
    cases h
    rw [not_or, not_or, not_or, not_not, not_not] at hwho
    rw [not_or, Bool.not_eq_true] at hfree
    obtain ⟨-, hidle, hchild, haddr⟩ := hwho
    refine hc.replace rfl rfl rfl rfl (fun i hown => ?_) (fun _ => ⟨hchild, haddr⟩) nofun
      (fun hk => ?_) (fun hr => ?_) fun ho => ?_
    · exact nomatch hfree.1.symm.trans hown.2.1
    · simp [hidle] at hk
    · exact nomatch (hc.not_revived hidle ⟨nofun, nofun⟩).symm.trans hr
    · exact nomatch hidle.symm.trans ho
  | exit p cancel =>
    simp only at h
    split at h
    · nomatch h
    next hl =>
    obtain ⟨t, ht, h⟩ := bind_eq_ok.mp h
    rw [pure_eq_ok] at h
    subst h
    rw [Bool.not_eq_false] at hl
    obtain ⟨hcu, -, hsel⟩ := unpause_spec (s.fproc p).endpoint cancel hc
    have hsince := unsuspendByEndpt_since hcu ht
    have hnot : (t.fproc p).blockedOn ≠ .select :=
      fun hb => hsel p (hc.slotOf hl) ((hsince.wakes.eased p).on hb nofun)
    refine hsince.sound.replace rfl rfl rfl rfl (not_ownerOf rfl hnot) nofun (fun _ => rfl)
      (fun hk => hsince.sound.calls hk)
      (fun hr => hsince.sound.marked hr) fun ho hnr => ?_
    have hdev := hsince.sound.device ho hnr
    unfold onDevice at hdev ⊢
    simp only [setProc, update_self]
    exact hdev

/-- A consistent state stays consistent in a rightful event, and only those are resumed who wait for
it. -/
theorem step_own (hc : s.Consistent) (hr : s.Rightful ev) (h : s.step ev = .ok s') :
    s'.Consistent ∧ ∀ p, Resumed s s' p → s.Own ev p := by
  cases ev with
  | devRevive source endpt status grant => exact (devRevive_own hc hr h).own fun _ hp hown => hown hp
  | reopenReply source filpNo status reopened =>
    rcases reopenReply_cases h with rfl | ⟨f, maj, minor, hf, hcount, hneeds, hdev, hdrv, hst, h⟩
    · exact hc.own_self
    have hmark : Marked s (s.setFilp f { s.filp f with needsReopen := false }) := setFilp_marked rfl
    have hset := (hmark.since (R := fun _ => True) hc).sound
    have hsince := restartReopen_since (P := fun p => ∃ maj', (s.dmap maj').driver = source ∧
      s.WaitsFor maj' p) hset (fun hdone q hq hre => by
      have hq' := hmark.blocked.mp hq
      obtain ⟨maj', hd, hw⟩ := hr maj ⟨f, minor, hf, hcount, hneeds, hdev, hdrv, hst,
        hdone⟩ q hq' ((hmark.restarted hq').mp hre)
      exact ⟨hw.1, maj', hd, hw⟩) h
    exact ⟨hsince.sound, fun p hp => hsince.wakes.resumed hp hp.1⟩
  | closeReply source => exact Except.ok.inj h ▸ hc.own_self
  | selectReply1 source minor status => exact (selectReply1_since hc h).own fun _ _ => id
  | selectReply2 source minor status =>
    cases hmaj : s.majorOf source with
    | none =>
      simp only [step, selectReply2, hmaj] at h
      exact Except.ok.inj h ▸ hc.own_self
    | some d =>
      refine (selectReply2_spec hc hmaj h).since.own fun p _ hp => ?_
      rcases hp with hw | ⟨i, hi, hdue⟩
      · exact watches_drives hmaj hw
      · exact hr (by rw [hmaj]; exact nofun) i hdue p hi
  | clock due => exact (expireTimers_since hc h).own fun _ _ => id
  | devStatus source answer =>
    rcases devStatus_cases h with rfl | ⟨d, hmaj, hsync,
      ⟨endpt, status, grant, rfl, hrev⟩ | ⟨minor, ops, rfl, hready⟩⟩
    · exact hc.own_self
    · exact (devRevive_own hc (hr d hmaj hsync) hrev).own fun _ hp hown => hown hp
    · exact (selectNotified_since hc hready).own fun _ _ => watches_drives hmaj
  | pm d => exact ⟨pmDeed_consistent hc h, fun _ _ => trivial⟩
  | act who d =>
    simp only [step, deed] at h
    split at h
    · nomatch h
    next hwho =>
    rw [not_or, Bool.not_eq_false, not_not] at hwho
    obtain ⟨hl, hidle⟩ := hwho
    cases d with
    | effect x => exact effect_own who hc h
    | suspend why callNr fd nbytes =>
      rcases ite_eq_iff.mp h with ⟨hwhy, h⟩ | ⟨-, h⟩
      · cases h
        refine ⟨suspend_consistent hc hl hidle (fun hk => ?_) fun ho => ?_, fun p hp =>
          absurd hp (not_resumed_of_caller rfl hidle)⟩
        · rcases hwhy with rfl | ⟨-, rfl⟩ | rfl | rfl <;> first | decide | simp at hk
        · rw [ho] at hwhy
          simp at hwhy
      · nomatch h
    | waitFor driver grant callNr fd nbytes reopen =>
      rcases ite_eq_iff.mp h with ⟨-, h⟩ | ⟨hdev, h⟩
      · nomatch h
      · obtain ⟨hsound, hnone⟩ :=
          waitFor_consistent hc hl hidle (Except.ok.inj h).symm
          (by rw [← Except.ok.inj h]; exact hdev)
        exact ⟨hsound, fun p hp => absurd hp (hnone p)⟩
    | select x fd =>
      obtain ⟨hsound, hnone⟩ := doSelect_own hc hl hidle h
      exact ⟨hsound, fun p hp => absurd hp (hnone p)⟩
    | devUp maj reopened =>
      exact (devUp_own hc hr h).own fun _ hp hown => hown hp
  | retry p =>
    simp only [step] at h
    rcases ite_eq_iff.mp h with ⟨⟨hl, hrev⟩, h⟩ | ⟨-, h⟩
    · cases h
      have hnot : (s.fproc p).blockedOn ≠ .select := by
        intro hb
        simpa [hb] using hc.marked hrev
      have hwoken : Woken s { s.setProc p { s.fproc p with blockedOn := .none, revived := false } with
          reviving := s.reviving - 1 } p :=
        Woken.freed rfl ⟨rfl, rfl, rfl, rfl⟩ ⟨rfl, rfl⟩ rfl rfl rfl rfl rfl
      exact (hwoken.since hc hnot).own fun q _ hq => ⟨hq, hq ▸ hrev⟩
    · nomatch h

lemma rightful_of_own (hc : s.Consistent) (h : s.step ev = .ok s')
    (hown : ∀ p, Resumed s s' p → s.Own ev p) : s.Rightful ev := by
  cases ev with
  | devRevive source endpt status grant => exact namesOwn_of_own h hown
  | reopenReply source filpNo status reopened =>
    rintro maj ⟨f, minor, rfl, hcount, hneeds, hdev, hdrv, rfl, hdone⟩ p hp hre
    have hrestart := (reopenReply_eq hcount hneeds hdev hdrv).symm.trans h
    have hmark : Marked s (s.setFilp f { s.filp f with needsReopen := false }) := setFilp_marked rfl
    have hfree := restartReopen_resumed hdone hrestart ((hmark.restarted hp).mpr hre)
    exact hown p ⟨hp, .inl fun hp' => hp'.ne_none hfree⟩
  | selectReply2 source minor status =>
    intro hmaj i hdue p hp
    obtain ⟨d, hd⟩ := Option.ne_none_iff_exists'.mp hmaj
    have hans := selectReply2_spec hc hd h
    have hrev : (s.fproc p).revived = false := hc.not_revived hp.2.2.2 ⟨nofun, nofun⟩
    refine hown p ((hans.early i (List.mem_finRange i) hdue p hp).resumed
      ⟨hp.2.1, .inr (.inr (.inr hp.2.2.2))⟩ ?_)
    rintro (hb | hb)
    · nomatch hp.2.2.2.symm.trans hb
    · nomatch hrev.symm.trans hb
  | devStatus source answer =>
    cases answer with
    | revive endpt status grant =>
      intro d hmaj hsync
      have hrev : s.devRevive source endpt status grant = .ok s' := by
        simp only [step, devStatus, hmaj, hsync] at h
        exact h
      exact namesOwn_of_own hrev hown
    | ioReady
    | noStatus => trivial
  | act who d =>
    cases d with
    | devUp maj reopened =>
      simp only [step, deed] at h
      split at h
      · nomatch h
      · exact rightful_of_devUp h hown
    | effect
    | suspend
    | waitFor
    | select => trivial
  | closeReply
  | selectReply1
  | clock
  | pm
  | retry => trivial

/-! ## Runs -/

structure Fresh (s : State) : Prop where
  addr : ∀ p, (s.fproc p).live = true → (s.fproc p).endpoint ≠ endptNone ∧
    Kernel.endpointP (s.fproc p).endpoint = p.val
  gone : ∀ p, (s.fproc p).live = false → (s.fproc p).endpoint = endptNone
  idle : ∀ p, (s.fproc p).blockedOn = .none ∧ (s.fproc p).revived = false
  noSelect : ∀ i, (s.selecttab i).requestor = false

lemma Fresh.consistent (h : s.Fresh) : s.Consistent := by
  refine ⟨fun {p} => h.addr p, fun {p} => h.gone p, fun {i} hi => ?_, fun {i j} hi _ _ => ?_,
    fun {p} hp => ?_, fun {p} hp => ?_, fun {p} hp _ => ?_⟩
  · nomatch (h.noSelect i).symm.trans hi
  · nomatch (h.noSelect i).symm.trans hi
  · simp [(h.idle p).1] at hp
  · nomatch (h.idle p).2.symm.trans hp
  · nomatch (h.idle p).1.symm.trans hp

/-- In a run of rightful events, the next event resumes only those who wait for it if and only if it
is rightful. -/
theorem resumed_by_own_event_iff {n : Nat} (tr : Trace State.step n) (hstart : (tr.state 0).Fresh)
    (hrun : ∀ k < n, (tr.state k).Rightful (tr.act k)) {k : Nat} (hk : k ≤ n) {ev : Event}
    {s' : State} (h : (tr.state k).step ev = .ok s') :
    (∀ p, Resumed (tr.state k) s' p → (tr.state k).Own ev p) ↔ (tr.state k).Rightful ev := by
  have hsound : (tr.state k).Consistent :=
    tr.invariant_of Consistent Rightful hstart.consistent hrun (fun hc hr hs => (step_own hc hr hs).1) k hk
  exact ⟨fun hown => rightful_of_own hsound h hown, fun hr => (step_own hsound hr h).2⟩

def reader : Proc := ⟨20, by decide⟩

/-- A terminal's driver, a process that reads from the terminal and a stranger. -/
def readerState : State where
  fproc p :=
    let live := p.val = 5 ∨ p.val = 20 ∨ p.val = 21
    { live, endpoint := if live then p.val else endptNone, blockedOn := .none, revived := false,
      task := 0, grant := grantInvalid, callNr := 0, fdNr := ⟨0, openMax_pos⟩, nbytes := 0, suspReopen := false,
      filp := fun fd => if fd.val = 0 then some ⟨0, nrFilps_pos⟩ else none }
  filp f :=
    { count := if f.val = 0 then 3 else 0, vno := if f.val = 0 then some ⟨0, nrVnodes_pos⟩ else none,
      needsReopen := false, oReopen := false, selectors := 0, update := false, busy := false, pipeSelectOps := 0 }
  vnode _ := { charSpecial := true, special := true, major := 4, minor := 0 }
  dmap d := { driver := if d.val = 4 then 5 else endptNone, asyncDriver := false, selFilp := none }
  selecttab _ :=
    { requestor := false, reqEndpt := 0, want := fun _ => 0, ready := fun _ => 0, filps := fun _ => none,
      deferred := false, deferredFd := 0, nfds := 0, nreadyfds := 0, block := false, expiry := 0 }
  reviving := 0
  suspCount := 0
  sent := []

lemma readerState_fresh : readerState.Fresh := by
  refine ⟨fun p hp => ?_, fun p hp => ?_, fun _ => ⟨rfl, rfl⟩, fun _ => rfl⟩
  · revert p
    decide +kernel
  · revert p
    decide +kernel

/-- The reader waits for the driver; then somebody sends a `DEV_REVIVE` that names it. -/
def readThenRevive (source status : Int) : Nat → Event
  | 0 => .act reader (.waitFor 5 grantInvalid nrRead ⟨0, openMax_pos⟩ 1 false)
  | _ => .devRevive source 20 status grantInvalid

theorem resumed_by_driver : ∃ (tr : Trace State.step 1)
    (s' : State), (tr.state 1).step (.devRevive 5 20 1 grantInvalid) = .ok s' ∧
    ((∀ p, Resumed (tr.state 1) s' p → (tr.state 1).Own (.devRevive 5 20 1 grantInvalid) p) ↔
      (tr.state 1).Rightful (.devRevive 5 20 1 grantInvalid)) := by
  have hok : ∀ k < 2, (State.step (Trace.after State.step readerState (readThenRevive 5 1) k)
    (readThenRevive 5 1 k)).isOk = true := by
    decide +kernel
  have hnext := (Trace.run State.step readerState (readThenRevive 5 1) 2 hok).ok 1 (by decide)
  refine ⟨Trace.run State.step readerState (readThenRevive 5 1) 1 fun k hk => hok k (by omega), _, hnext, ?_⟩
  refine resumed_by_own_event_iff _ readerState_fresh (fun k hk => ?_) (le_refl 1) hnext
  obtain rfl : k = 0 := by omega
  trivial

/-- A process that is neither the driver nor anything else to the reader answers its read with a
value of its choice. -/
theorem stranger_answers_read :
    ∃ tr : Trace State.step 2, (tr.state 0).Fresh ∧ tr.act 1 = .devRevive 21 20 1234 grantInvalid ∧
    ((tr.state 1).fproc reader).task = 5 ∧ Resumed (tr.state 1) (tr.state 2) reader ∧
      (tr.state 2).sent.head? = some (20, 1234) ∧
    ¬ (tr.state 1).Own (tr.act 1) reader := by
  refine ⟨Trace.run State.step readerState (readThenRevive 21 1234) 2 (by decide +kernel),
    readerState_fresh, rfl, ?_,
    ⟨⟨?_, .inl ?_⟩, .inl fun hb => hb.ne_none ?_⟩, ?_, fun hown => absurd hown.2 ?_⟩
  all_goals decide +kernel

end State

end Nucleos.Vfs.Wake
