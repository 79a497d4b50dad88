import Nucleos.Vfs.WakeSelect

/-!
# Pipes, locks and drivers that come back

Whom the calls of other processes resume: those that hang on the pipe or wait for a lock. A driver
that comes back has the processes restarted that wait for it, and a few others. -/

namespace Nucleos.Vfs.Wake

open Function Run

namespace State

variable {s s' t : State} {R : Proc → Prop} {p q : Proc} {i : SelSlot} {e r : Int} {f : FilpNr}
    {vp : VnodeNr} {maj : Major}

def Blocked (s : State) (p : Proc) : Prop :=
  (s.fproc p).live = true ∧
    ((s.fproc p).blockedOn = .other ∨ (s.fproc p).blockedOn = .pipe ∨
      (s.fproc p).blockedOn = .lock ∨ (s.fproc p).blockedOn = .select)

def Resumed (s s' : State) (p : Proc) : Prop :=
  s.Blocked p ∧ (¬ s'.Blocked p ∨ (s.fproc p).revived = false ∧ (s'.fproc p).revived = true)

lemma not_resumed (hl : (s'.fproc p).live = (s.fproc p).live)
    (hb : (s'.fproc p).blockedOn = (s.fproc p).blockedOn)
    (hr : (s'.fproc p).revived = (s.fproc p).revived) : ¬ Resumed s s' p := by
  rintro ⟨hblocked, hnot | ⟨hold, hnew⟩⟩
  · refine hnot ?_
    unfold Blocked
    rw [hl, hb]
    exact hblocked
  · rw [hr, hold] at hnew
    nomatch hnew

lemma Blocked.kind (h : s.Blocked p) : (s.fproc p).blockedOn ∉ [.none, .popen, .dopen] := by
  have hkind := h.2
  aesop

lemma Wakes.resumed (h : Wakes s s' R) (hres : Resumed s s' q) : R q := by
  by_contra hR
  obtain ⟨hb, hr⟩ := h.rest q hR
  exact not_resumed (h.ids q).1 hb hr hres

lemma Blocked.ne_none (h : s.Blocked p) : (s.fproc p).blockedOn ≠ .none :=
    fun hnone => h.kind (hnone ▸ by simp)

lemma Awake.resumed (h : s'.Awake p) (hb : s.Blocked p) (hnot : ¬ s.Awake p) : Resumed s s' p := by
  refine ⟨hb, ?_⟩
  rcases h with h | h
  · exact .inl fun hb' => hb'.ne_none h
  · exact .inr ⟨Bool.eq_false_of_not_eq_true (not_or.mp hnot).2, h⟩

def Opening (s : State) (p : Proc) : Prop := (s.fproc p).blockedOn = .popen ∨ (s.fproc p).blockedOn = .dopen

lemma opening_of_ne (hnone : (s.fproc p).blockedOn ≠ .none)
    (hother : (s.fproc p).blockedOn ≠ .other) (hpipe : (s.fproc p).blockedOn ≠ .pipe)
    (hlock : (s.fproc p).blockedOn ≠ .lock) (hsel : (s.fproc p).blockedOn ≠ .select) : s.Opening p := by
  unfold Opening
  cases hb : (s.fproc p).blockedOn <;> simp_all

lemma Blocked.not_opening (h : s.Blocked p) : ¬ s.Opening p := by
  have hkind := h.kind
  simp only [List.mem_cons, not_or] at hkind
  exact not_or.mpr ⟨hkind.2.1, hkind.2.2.1⟩

lemma Since.opening (h : Since R s t) (hq : t.Opening q) : s.Opening q :=
  hq.imp (fun hq => (h.wakes.eased q).on hq nofun) fun hq => (h.wakes.eased q).on hq nofun

/-! ## Pipes and locks -/

def At (s : State) (p : Proc) (vp : VnodeNr) : Prop :=
  ∃ f, (s.fproc p).filp (s.fproc p).fdNr = some f ∧ (s.filp f).vno = some vp

def Hangs (s : State) (vp : VnodeNr) (callNr : Nat) (p : Proc) : Prop :=
  ((s.fproc p).blockedOn = .pipe ∧ (s.fproc p).callNr = callNr ∧ s.At p vp) ∨
    s.Watches (fun f => (s.filp f).vno = some vp) p

lemma Fewer.at (h : Fewer s s') (hw : Wakes s s' R) (hp : s'.At p vp) : s.At p vp := by
  obtain ⟨f, hf, hv⟩ := hp
  rw [(hw.ids p).2.2.2] at hf
  exact ⟨f, h.fds hf, h.vno hv⟩

lemma releaseFilp_since {op : Ops} (hc : s.Consistent) (h : releaseFilp vp op s f = .ok s') :
    Since (s.Watches fun f => (s.filp f).vno = some vp) s s' := by
  unfold releaseFilp at h
  split_ifs at h with hcond
  · cases h
    exact Since.refl hc
  rw [not_or, not_or, not_not] at hcond
  obtain ⟨t, ht, h⟩ := bind_eq_ok.mp h
  rw [pure_eq_ok] at h
  subst h
  have hcall : Since (s.Watches fun f => (s.filp f).vno = some vp) s t := by
    refine (selectCallback_since hc ht).mono fun p hp => ?_
    obtain ⟨i, hi, fd, g, hg, rfl⟩ := hp
    exact ⟨i, hi, fd, g, hg, hcond.2.2⟩
  have hq : Quiet t (t.setFilp f
    { t.filp f with pipeSelectOps := (t.filp f).pipeSelectOps &&& ~~~ op }) := setFilp_quiet rfl
  exact hcall.trans (hq.since hcall.sound)

lemma releaseProc_since {callNr : Nat} {x y : Nat × State} (hc : x.2.Consistent) (hcall : callNr ∈ pipeCalls)
    (hvp : (x.2.vnode vp).charSpecial = false) (h : releaseProc vp callNr x p = .ok y) :
    Since (fun q => x.2.Opening q ∨ x.2.Hangs vp callNr q) x.2 y.2 := by
  unfold releaseProc at h
  simp only at h
  split at h
  · cases h
    exact Since.refl hc
  split_ifs at h with hcond
  · obtain ⟨hl, hb, hr, hnr⟩ := hcond
    split at h
    · nomatch h
    next f hf =>
    split_ifs at h with hvno
    · cases h
      exact Since.refl hc
    rw [not_not] at hvno
    obtain ⟨t, ht, h⟩ := bind_eq_ok.mp h
    split at h
    · nomatch h
    cases h
    rw [← hnr] at hcall
    have hsel : (x.2.fproc p).blockedOn ≠ .select := fun hsel => hc.calls (.inr hsel) hcall
    have hlock : (x.2.fproc p).blockedOn ≠ .lock := fun hlock => hc.calls (.inl hlock) hcall
    have hother : (x.2.fproc p).blockedOn ≠ .other :=
      fun hother => hc.device hother hcall (onDevice_eq_some.mpr ⟨f, vp, hf, hvno, hvp⟩)
    have hcount : Quiet t { t with suspCount := t.suspCount - 1 } :=
      ⟨rfl, fun _ => rfl, rfl, fun _ => rfl, fun _ => ⟨rfl, rfl, id⟩⟩
    have hrev : Since (fun q => x.2.Opening q ∨ x.2.Hangs vp callNr q) x.2 t := by
      rcases revive_spec ht with ⟨rfl, -⟩ | ⟨q, hslot, -, hwoken⟩
      · exact Since.refl hc
      rw [hc.slotOf hl] at hslot
      cases hslot
      refine (hwoken.since hc hsel).mono fun q hq => ?_
      subst hq
      by_cases hpipe : (x.2.fproc q).blockedOn = .pipe
      · exact .inr (.inl ⟨hpipe, hnr, f, hf, hvno⟩)
      · exact .inl (opening_of_ne hb hother hpipe hlock hsel)
    exact hrev.trans (hcount.since hrev.sound)
  · cases h
    exact Since.refl hc

lemma Since.hangs {callNr : Nat} (h : Since R s t) (hq : t.Hangs vp callNr q) : s.Hangs vp callNr q := by
  rcases hq with ⟨hb, hnr, hat⟩ | hq
  · exact .inl ⟨(h.wakes.eased q).on hb nofun, (h.wakes.ids q).2.2.1 ▸ hnr, h.fewer.at h.wakes hat⟩
  · obtain ⟨i, hi, fd, f, hf, hv⟩ := h.watches hq
    exact .inr ⟨i, hi, fd, f, hf, h.fewer.vno hv⟩

lemma release_since {callNr count : Nat} (hc : s.Consistent) (hcall : callNr ∈ pipeCalls)
    (hvp : (s.vnode vp).charSpecial = false)
    (h : s.release vp callNr count = .ok s') : Since (fun q => s.Opening q ∨ s.Hangs vp callNr q) s s' := by
  unfold release at h
  obtain ⟨t, ht, h⟩ := bind_eq_ok.mp h
  obtain ⟨x, hx, h⟩ := bind_eq_ok.mp h
  rw [pure_eq_ok] at h
  subst h
  have hfiles : Since (fun q => s.Opening q ∨ s.Hangs vp callNr q) s t := by
    unfold releaseFilps at ht
    rcases ite_eq_iff.mp ht with ⟨-, ht⟩ | ⟨-, ht⟩
    · refine Since.fold hc (fun {g u v} hu hv => (releaseFilp_since hu.sound hv).mono fun q hq => ?_) ht
      exact .inr (hu.hangs (.inr hq))
    · cases ht
      exact Since.refl hc
  refine foldlM_ok (P := fun _ y => Since (fun q => s.Opening q ∨ s.Hangs vp callNr q) s y.2)
    (fun _ p _ y z _ hy hz => ?_) hfiles hx
  refine hy.trans ((releaseProc_since hy.sound hcall (by rw [hy.fewer.vnode]; exact hvp) hz).mono
    fun q hq => ?_)
  rcases hq with hq | hq
  · exact .inl (hy.opening hq)
  · exact .inr (hy.hangs hq)

lemma revives_since {g : State → Proc → Except WakeStop State} {l : List Proc} {kind : BlockedOn}
    (hkind : kind ≠ .none ∧ kind ≠ .select)
    (hg : ∀ {t u p}, g t p = .ok u → u = t ∨ (t.fproc p).live = true ∧
      (t.fproc p).blockedOn = kind ∧ ∃ r, t.revive (t.fproc p).endpoint r = .ok u)
    (hc : s.Consistent) (h : l.foldlM g s = .ok s') : Since (fun q => (s.fproc q).blockedOn = kind) s s' := by
  refine Since.fold hc (fun {p t u} ht hu => ?_) h
  rcases hg hu with rfl | ⟨hl, hb, r, hu⟩
  · exact Since.refl ht.sound
  rcases revive_spec hu with ⟨rfl, -⟩ | ⟨q, hslot, -, hwoken⟩
  · exact Since.refl ht.sound
  rw [ht.sound.slotOf hl] at hslot
  cases hslot
  refine (hwoken.since ht.sound (hb ▸ hkind.2)).mono fun q hq => ?_
  rw [hq]
  exact (ht.wakes.eased p).on hb hkind.1

lemma lockRevive_since (hc : s.Consistent) (h : s.lockRevive = .ok s') :
    Since (fun q => (s.fproc q).blockedOn = .lock) s s' := by
  refine revives_since ⟨nofun, nofun⟩ (fun {t u p} hu => ?_) hc h
  rcases ite_eq_iff.mp hu with ⟨hw, hu⟩ | ⟨-, hu⟩
  · obtain ⟨hl, hb⟩ := of_decide_eq_true hw
    exact .inr ⟨hl, hb, 0, hu⟩
  · exact .inl (Except.ok.inj hu).symm

lemma unsuspendByEndpt_since (hc : s.Consistent) (h : s.unsuspendByEndpt e = .ok s') :
    Since (fun _ => True) s s' := by
  unfold unsuspendByEndpt at h
  obtain ⟨t, ht, h⟩ := bind_eq_ok.mp h
  have hprocs : Since (fun q => (s.fproc q).blockedOn = .other) s t := by
    refine revives_since ⟨nofun, nofun⟩ (fun {t u p} hu => ?_) hc ht
    unfold unsuspendProc at hu
    rcases ite_eq_iff.mp hu with ⟨⟨hl, hb, -⟩, hu⟩ | ⟨-, hu⟩
    · exact .inr ⟨hl, hb, _, hu⟩
    · exact .inl (Except.ok.inj hu).symm
  refine (hprocs.mono fun _ _ => trivial).trans (Since.fold hprocs.sound (fun {i u v} hu hv => ?_) h)
  unfold unsuspendEntry at hv
  split_ifs at hv with hact
  · have hloop := foldlM_ok (P := fun _ w => Since (fun _ => True) u w ∧
      w.InHand i) (fun _ fd _ w w' _ hw hw' => by
      unfold unsuspendFd at hw'
      split at hw'
      · obtain ⟨hret, hsettled⟩ := (Quiet.refl _).return_since hw.1.sound hw.2 hw'
        exact ⟨hw.1.trans (hret.mono fun _ _ => trivial), .inr hsettled⟩
      · exact Except.ok.inj hw' ▸ hw) ⟨Since.refl hu.sound, .inl hact⟩ hv
    exact hloop.1
  · cases hv
    exact Since.refl hu.sound

/-! ## Drivers that come back -/

structure Closed (maj : Major) (s t : State) : Prop where
  proc : ∀ q, ∃ fds, t.fproc q = { s.fproc q with filp := fds }
  fds : ∀ {q fd f}, (t.fproc q).filp fd = some f → (s.fproc q).filp fd = some f
  lost : ∀ {q fd f}, (s.fproc q).filp fd = some f → (t.fproc q).filp fd = none →
    (s.charDev f).map Prod.fst = some maj.val
  vno : ∀ f, (t.filp f).vno = (s.filp f).vno
  vnode : t.vnode = s.vnode
  dmap : t.dmap = s.dmap
  select : t.selecttab = s.selecttab

lemma Closed.refl (maj : Major) (s : State) : Closed maj s s :=
  ⟨fun q => ⟨(s.fproc q).filp, rfl⟩, id, fun hs ht => (nomatch hs.symm.trans ht), fun _ => rfl, rfl, rfl, rfl⟩

lemma Closed.charDev (h : Closed maj s t) (f : FilpNr) : t.charDev f = s.charDev f :=
    charDev_congr (h.vno f) h.vnode

lemma Closed.kept (h : Closed maj s t) {fd : Fd} (hs : (s.fproc q).filp fd = some f) :
    (s.charDev f).map Prod.fst = some maj.val ∨ (t.fproc q).filp fd = some f := by
  cases ht : (t.fproc q).filp fd with
  | none => exact .inl (h.lost hs ht)
  | some g => exact .inr (by rw [← hs, h.fds ht])

lemma Closed.trans (h : Closed maj s t) (h' : Closed maj t s') : Closed maj s s' := by
  refine ⟨fun q => ?_, fun hf => h.fds (h'.fds hf), fun {q fd f} hs hs' => ?_,
    fun f => (h'.vno f).trans (h.vno f), h'.vnode.trans h.vnode,
    h'.dmap.trans h.dmap, h'.select.trans h.select⟩
  · obtain ⟨fds, ht⟩ := h.proc q
    obtain ⟨fds', hs'⟩ := h'.proc q
    exact ⟨fds', by rw [hs', ht]⟩
  rcases h.kept hs with hlost | ht
  · exact hlost
  · rw [← h.charDev f]
    exact h'.lost ht hs'

lemma invalidate_closed (hf : (s.charDev f).map Prod.fst = some maj.val) : Closed maj s (s.invalidate f) := by
  have hproc : ∀ q, (s.invalidate f).fproc q =
      if (s.fproc q).live then { s.fproc q with
        filp := fun fd => if (s.fproc q).filp fd = some f then none else (s.fproc q).filp fd }
      else s.fproc q :=
    fun _ => rfl
  have hfilp : ∀ q fd, ((s.invalidate f).fproc q).filp fd = (s.fproc q).filp fd ∨
      ((s.invalidate f).fproc q).filp fd = none ∧ (s.fproc q).filp fd = some f := by
    intro q fd
    rw [hproc]
    by_cases hfd : (s.fproc q).filp fd = some f <;> split_ifs <;> simp [hfd]
  refine ⟨fun q => ?_, fun {q fd g} hg => ?_, fun {q fd g} hs ht => ?_, fun g => ?_, rfl, rfl, rfl⟩
  · rw [hproc]
    split
    · exact ⟨_, rfl⟩
    · exact ⟨(s.fproc q).filp, rfl⟩
  · rcases hfilp q fd with h | ⟨h, -⟩
    · exact h ▸ hg
    · nomatch h.symm.trans hg
  · rcases hfilp q fd with h | ⟨-, h⟩
    · nomatch hs.symm.trans (h.symm.trans ht)
    · cases hs.symm.trans h
      exact hf
  · simp only [invalidate, setFilp]
    by_cases hg : g = f
    · rw [hg, update_self]
    · rw [update_of_ne hg]

lemma reopenFilps_closed (maj : Major) (reopened : FilpNr → Bool) (s : State) :
    Closed maj s (s.reopenFilps maj reopened).2 := by
  unfold reopenFilps
  refine List.foldlRecOn (motive := fun x : Bool × State =>
    Closed maj s x.2) _ _ (Closed.refl maj s) fun x hx f _ => ?_
  unfold reopenFilp
  simp only
  split
  · exact hx
  next hcond =>
  have hmaj : (x.2.charDev f).map Prod.fst = some maj.val := by
    rw [not_or, not_or, not_or, not_not] at hcond
    exact hcond.2.2.2
  split
  · exact hx.trans (invalidate_closed hmaj)
  split
  · exact hx
  · exact hx.trans (invalidate_closed hmaj)

/-- The driver of the process has come back, or its descriptor is one of the major or none at
all. -/
def Restarted (s : State) (maj : Major) (p : Proc) : Prop :=
  (s.fproc p).live = true ∧ (s.fproc p).suspReopen = true ∧
    ((s.fproc p).blockedOn = .other ∧ (s.fproc p).task = (s.dmap maj).driver ∨
      (s.fproc p).blockedOn ≠ .dopen ∧ ∀ f, (s.fproc p).filp (s.fproc p).fdNr = some f →
        (s.charDev f).map Prod.fst = some maj.val)

structure Beside (s t : State) : Prop where
  filp : t.filp = s.filp
  vnode : t.vnode = s.vnode
  dmap : t.dmap = s.dmap
  select : t.selecttab = s.selecttab

def RestartedAs (c : Prop) (a b : Fproc) : Prop :=
  (b.live = a.live ∧ b.endpoint = a.endpoint ∧ b.callNr = a.callNr ∧ b.fdNr = a.fdNr ∧
    b.filp = a.filp ∧ b.revived = a.revived) ∧
    (c → b.blockedOn = .none) ∧ (¬ c → b = a)

lemma RestartedAs.refl {c : Prop} (hc : ¬ c) (a : Fproc) : RestartedAs c a a :=
    ⟨⟨rfl, rfl, rfl, rfl, rfl, rfl⟩, fun h => absurd h hc, fun _ => rfl⟩

lemma RestartedAs.none {c : Prop} {a b : Fproc} (h : RestartedAs c a b) (ha : a.blockedOn = .none) :
    b.blockedOn = .none := by
  by_cases hc : c
  · exact h.2.1 hc
  · rw [h.2.2 hc]
    exact ha

def WithDriver (driver : Int) (a : Fproc) : Prop :=
  a.live = true ∧ a.blockedOn = .other ∧ a.task = driver ∧ a.suspReopen = true

def WithFile (s : State) (maj : Major) (a : Fproc) : Prop :=
  a.live = true ∧ a.blockedOn ≠ .dopen ∧ a.suspReopen = true ∧
  ∀ f, a.filp a.fdNr = some f → (s.charDev f).map Prod.fst = some maj.val

lemma freed_each {c : Prop} {rfp : Fproc} (ht : Beside s t) (hs' : s' = (t.setProc p rfp).reply e r)
    (hp : RestartedAs c (t.fproc p) rfp) : Beside s s' ∧ RestartedAs c (t.fproc p) (s'.fproc p) ∧
      ∀ q, q ≠ p → s'.fproc q = t.fproc q := by
  subst hs'
  refine ⟨⟨ht.filp, ht.vnode, ht.dmap, ht.select⟩, ?_, fun q hq => ?_⟩
  · simp only [reply, setProc, update_self]
    exact hp
  · simp only [reply, setProc, update_of_ne hq]

lemma restartProcOf_each {driver : Int} (ht : Beside s t) (h : restartProcOf driver t p = .ok s') :
    Beside s s' ∧ RestartedAs (WithDriver driver (t.fproc p)) (t.fproc p) (s'.fproc p) ∧
      ∀ q, q ≠ p → s'.fproc q = t.fproc q := by
  unfold restartProcOf at h
  rcases ite_eq_iff.mp h with ⟨hcond, h⟩ | ⟨hcond, h⟩
  · exact freed_each ht (Except.ok.inj h).symm ⟨⟨rfl, rfl, rfl, rfl, rfl, rfl⟩, fun _ => rfl,
      fun hnot => absurd hcond hnot⟩
  · cases h
    exact ⟨ht, RestartedAs.refl hcond _, fun _ _ => rfl⟩

lemma restartOpenOf_each (ht : Beside s t) (h : restartOpenOf maj.val t p = .ok s') :
    Beside s s' ∧ RestartedAs (s.WithFile maj (t.fproc p)) (t.fproc p) (s'.fproc p) ∧ ∀ q, q ≠ p →
      s'.fproc q = t.fproc q := by
  have hdev : ∀ f, t.charDev f = s.charDev f := fun f => charDev_congr (by rw [ht.filp]) ht.vnode
  have hfreed : ∀ c : Prop, c → RestartedAs c (t.fproc p) { t.fproc p with blockedOn := .none } :=
    fun c hc => ⟨⟨rfl, rfl, rfl, rfl, rfl, rfl⟩, fun _ => rfl, fun hnot => absurd hc hnot⟩
  have hkept : ∀ c : Prop, ¬ c → s' = t → Beside s s' ∧ RestartedAs c (t.fproc p) (s'.fproc p) ∧
    ∀ q, q ≠ p → s'.fproc q = t.fproc q := by
    rintro c hc rfl
    exact ⟨ht, RestartedAs.refl hc _, fun _ _ => rfl⟩
  unfold restartOpenOf at h
  simp only at h
  split_ifs at h with hcond
  · refine hkept _ (fun hc => ?_) (Except.ok.inj h).symm
    rcases hcond with hcond | hcond | hcond
    · nomatch hcond.symm.trans hc.1
    · exact hc.2.1 hcond
    · nomatch hcond.symm.trans hc.2.2.1
  · rw [not_or, not_or, Bool.not_eq_false, Bool.not_eq_false] at hcond
    split at h
    · next hf =>
      refine freed_each ht (Except.ok.inj h).symm (hfreed _ ⟨hcond.1, hcond.2.1, hcond.2.2, fun g hg => ?_⟩)
      nomatch hf.symm.trans hg
    next f hf =>
    split at h
    · nomatch h
    split at h
    · next haway =>
      refine hkept _ (fun hc => haway ?_) (Except.ok.inj h).symm
      rw [hdev f]
      exact hc.2.2.2 f hf
    next hon =>
    refine freed_each ht (Except.ok.inj h).symm (hfreed _ ⟨hcond.1, hcond.2.1, hcond.2.2, fun g hg => ?_⟩)
    cases hf.symm.trans hg
    rw [← hdev]
    exact not_not.mp hon

lemma restartProcs_spec (h : s.restartProcs maj = .ok s') :
    Beside s s' ∧ ∀ q, RestartedAs (s.Restarted maj q) (s.fproc q) (s'.fproc q) := by
  unfold restartProcs at h
  obtain ⟨t, ht, h⟩ := bind_eq_ok.mp h
  obtain ⟨hbeside, hprocs, -⟩ := foldlM_each (g := State.fproc)
    (Q := fun _ a b => RestartedAs (WithDriver (s.dmap maj).driver a) a b)
    (List.nodup_finRange nrProcs) (fun hu hv => restartProcOf_each hu hv) ⟨rfl, rfl, rfl, rfl⟩ ht
  obtain ⟨hbeside', hopens, -⟩ :=
    foldlM_each (g := State.fproc) (Q := fun _ a b => RestartedAs (s.WithFile maj a) a b)
    (List.nodup_finRange nrProcs) (fun hu hv => restartOpenOf_each hu hv) hbeside h
  refine ⟨hbeside', fun q => ?_⟩
  obtain ⟨⟨hl, he, hn, hd, hf, hr⟩, hwake, hsame⟩ := hprocs q (List.mem_finRange q)
  obtain ⟨⟨hl', he', hn', hd', hf', hr'⟩, hwake', hsame'⟩ := hopens q (List.mem_finRange q)
  refine ⟨⟨hl'.trans hl, he'.trans he, hn'.trans hn, hd'.trans hd, hf'.trans hf, hr'.trans hr⟩,
    fun hre => ?_, fun hnot => ?_⟩
  · by_cases hfirst : WithDriver (s.dmap maj).driver (s.fproc q)
    · exact RestartedAs.none (hopens q (List.mem_finRange q)) (hwake hfirst)
    · obtain ⟨hlive, hsusp, hkind⟩ := hre
      have hsecond := hkind.resolve_left fun hk => hfirst ⟨hlive, hk.1, hk.2, hsusp⟩
      refine hwake' ?_
      rw [hsame hfirst]
      exact ⟨hlive, hsecond.1, hsusp, hsecond.2⟩
  · have hfirst : ¬ WithDriver (s.dmap maj).driver (s.fproc q) :=
      fun hc => hnot ⟨hc.1, hc.2.2.2, .inl ⟨hc.2.1, hc.2.2.1⟩⟩
    rw [hsame'] <;> rw [hsame hfirst]
    exact fun hc => hnot ⟨hc.1, hc.2.2.1, .inr ⟨hc.2.1, hc.2.2.2⟩⟩

lemma Closed.since (h : Closed maj s t) (hc : s.Consistent) : Since R s t := by
  have hfewer : Fewer s t := ⟨h.fds, fun {f v} hv => h.vno f ▸ hv, h.vnode, fun d => by rw [h.dmap]⟩
  refine hc.still (Wakes.of_call fun q => ?_) hfewer (Entries.of_eq h.select)
  obtain ⟨fds, hq⟩ := h.proc q
  rw [hq]
  rfl

lemma Closed.restarted (h : Closed maj s t) : t.Restarted maj q ↔ s.Restarted maj q := by
  obtain ⟨fds, hq⟩ := h.proc q
  have hfile : (∀ f, (t.fproc q).filp (t.fproc q).fdNr = some f → (t.charDev f).map Prod.fst = some maj.val) ↔
      ∀ f, (s.fproc q).filp (s.fproc q).fdNr = some f → (s.charDev f).map Prod.fst = some maj.val := by
    have hfd : (t.fproc q).fdNr = (s.fproc q).fdNr := by rw [hq]
    rw [hfd]
    refine ⟨fun hall f hf => ?_, fun hall f hf => ?_⟩
    · rcases h.kept hf with hlost | ht
      · exact hlost
      · rw [← h.charDev f]
        exact hall f ht
    · rw [h.charDev f]
      exact hall f (h.fds hf)
  unfold Restarted
  rw [hfile, h.dmap, hq]

def WaitsFor (s : State) (maj : Major) (p : Proc) : Prop :=
  (s.fproc p).blockedOn = .other ∧ ((s.fproc p).task = (s.dmap maj).driver ∨
    ∃ f, (s.fproc p).filp (s.fproc p).fdNr = some f ∧ (s.charDev f).map Prod.fst = some maj.val)

def NoStray (s : State) (maj : Major) : Prop := ∀ p, s.Blocked p → s.Restarted maj p → s.WaitsFor maj p

lemma restartProcs_since (hc : s.Consistent) (hother : ∀ q, s.Blocked q → s.Restarted maj q →
    (s.fproc q).blockedOn = .other) (h : s.restartProcs maj = .ok s') :
    Since (fun q => s.Restarted maj q) s s' := by
  obtain ⟨hbeside, hall⟩ := restartProcs_spec h
  have hkind : ∀ {q}, s.Restarted maj q → (s.fproc q).blockedOn ≠ .pipe ∧
    (s.fproc q).blockedOn ≠ .lock ∧ (s.fproc q).blockedOn ≠ .select := by
    intro q hq
    by_cases hb : s.Blocked q
    · simp [hother q hb hq]
    · exact (not_or.mp fun h => hb ⟨hq.1, .inr h⟩).imp_right not_or.mp
  have hwakes : Wakes s s' (fun q => s.Restarted maj q) := by
    refine ⟨fun q => ?_, fun q => ?_, fun q hq => ?_⟩
    · obtain ⟨⟨hl, he, hn, hd, -⟩, -⟩ := hall q
      exact ⟨hl, he, hn, hd⟩
    · obtain ⟨⟨-, -, -, -, -, hr⟩, hwoken, hkept⟩ := hall q
      by_cases hq : s.Restarted maj q
      · refine .inr (.inl ⟨hwoken hq, hr.trans ?_⟩)
        exact hc.not_revived rfl ⟨(hkind hq).1, (hkind hq).2.1⟩
      · rw [hkept hq]
        exact Eased.refl _
    · rw [(hall q).2.2 hq]
      exact ⟨rfl, rfl⟩
  have hfewer : Fewer s s' := by
    refine ⟨fun {q fd f} hf => ?_, fun {f v} hv => ?_, hbeside.vnode, fun d => by rw [hbeside.dmap]⟩
    · obtain ⟨⟨-, -, -, -, hfds, -⟩, -⟩ := hall q
      rwa [hfds] at hf
    · rwa [hbeside.filp] at hv
  exact hc.since hwakes hfewer (Entries.of_eq hbeside.select) fun {i q} _ hown hq => (hkind hq).2.2 hown.2.2.2

lemma Closed.blocked (h : Closed maj s t) : t.Blocked q ↔ s.Blocked q := by
  obtain ⟨fds, hproc⟩ := h.proc q
  unfold Blocked
  rw [hproc]

lemma restartReopen_since {reopened : FilpNr → Bool} {P : Proc → Prop} (hc : s.Consistent)
    (hP : (s.reopenFilps maj reopened).1 = false → ∀ q, s.Blocked q → s.Restarted maj q →
      (s.fproc q).blockedOn = .other ∧ P q)
    (h : s.restartReopen maj reopened = .ok s') : Since (fun q => s.Blocked q → P q) s s' := by
  have hclosed := reopenFilps_closed maj reopened s
  unfold restartReopen at h
  simp only at h
  split_ifs at h with hdone
  · obtain rfl := Except.ok.inj h
    exact hclosed.since hc
  have hno := hP (Bool.eq_false_of_not_eq_true hdone)
  have hsince : Since (fun q => s.Blocked q → P q) s (s.reopenFilps maj reopened).2 := hclosed.since hc
  refine hsince.trans ((restartProcs_since hsince.sound (fun q hq hre => ?_) h).mono fun q hq hblocked => ?_)
  · obtain ⟨fds, hproc⟩ := hclosed.proc q
    rw [hproc]
    exact (hno q (hclosed.blocked.mp hq) (hclosed.restarted.mp hre)).1
  · exact (hno q hblocked (hclosed.restarted.mp hq)).2

lemma restartReopen_resumed {reopened : FilpNr → Bool} (hdone : (s.reopenFilps maj reopened).1 = false)
    (h : s.restartReopen maj reopened = .ok s') (hq : s.Restarted maj q) :
    (s'.fproc q).blockedOn = .none := by
  unfold restartReopen at h
  simp only [hdone] at h
  obtain ⟨-, hall⟩ := restartProcs_spec h
  exact (hall q).2.1 ((reopenFilps_closed maj reopened s).restarted.mpr hq)

lemma markOpen_each (ht : Beside s t) (h : markOpen maj t p = .ok s') :
    Beside s s' ∧ (s'.fproc p = t.fproc p ∨ (t.fproc p).blockedOn = .dopen ∧
      s'.fproc p = { t.fproc p with suspReopen := true }) ∧
      ∀ q, q ≠ p → s'.fproc q = t.fproc q := by
  unfold markOpen at h
  simp only at h
  rcases ite_eq_iff.mp h with ⟨⟨-, hopen⟩, h⟩ | ⟨-, h⟩
  · split at h
    · nomatch h
    split at h
    · nomatch h
    split at h
    · cases h
      exact ⟨ht, .inl rfl, fun _ _ => rfl⟩
    cases h
    refine ⟨⟨ht.filp, ht.vnode, ht.dmap, ht.select⟩, .inr ⟨hopen, ?_⟩, fun q hq => ?_⟩
    · simp only [setProc, update_self]
    · simp only [setProc, update_of_ne hq]
  · cases h
    exact ⟨ht, .inl rfl, fun _ _ => rfl⟩

structure Marked (s t : State) : Prop where
  proc : ∀ q, t.fproc q = s.fproc q ∨ (s.fproc q).blockedOn = .dopen ∧
    t.fproc q = { s.fproc q with suspReopen := true }
  vno : ∀ f, (t.filp f).vno = (s.filp f).vno
  vnode : t.vnode = s.vnode
  dmap : t.dmap = s.dmap
  select : t.selecttab = s.selecttab

section
variable (h : Marked s t)
include h

lemma Marked.flag (q : Proc) : ∃ b, t.fproc q = { s.fproc q with suspReopen := b } := by
  rcases h.proc q with hq | ⟨-, hq⟩
  · exact ⟨(s.fproc q).suspReopen, hq⟩
  · exact ⟨true, hq⟩

lemma Marked.since (hc : s.Consistent) : Since R s t := by
  have hfewer : Fewer s t := by
    refine ⟨fun {q fd f} hf => ?_, fun {f v} hv => h.vno f ▸ hv, h.vnode, fun d => by rw [h.dmap]⟩
    obtain ⟨b, hq⟩ := h.flag q
    rwa [hq] at hf
  refine hc.still (Wakes.of_call fun q => ?_) hfewer (Entries.of_eq h.select)
  obtain ⟨b, hq⟩ := h.flag q
  rw [hq]
  rfl

lemma Marked.proc_eq (hq : s.Blocked q) : t.fproc q = s.fproc q := by
  rcases h.proc q with heq | ⟨hopen, -⟩
  · exact heq
  · exact absurd (.inr hopen) hq.not_opening

lemma Marked.charDev (f : FilpNr) : t.charDev f = s.charDev f := charDev_congr (h.vno f) h.vnode

lemma Marked.restarted (hq : s.Blocked q) : t.Restarted maj q ↔ s.Restarted maj q := by
  unfold Restarted
  simp only [h.proc_eq hq, h.dmap, h.charDev]

lemma Marked.waitsFor (hq : s.Blocked q) : t.WaitsFor maj q ↔ s.WaitsFor maj q := by
  unfold WaitsFor
  simp only [h.proc_eq hq, h.dmap, h.charDev]

lemma Marked.blocked : t.Blocked q ↔ s.Blocked q := by
  obtain ⟨b, hq⟩ := h.flag q
  unfold Blocked
  rw [hq]

lemma Marked.noStray : t.NoStray maj ↔ s.NoStray maj := by
  refine ⟨fun hno p hp hre => ?_, fun hno p hp hre => ?_⟩
  · exact (h.waitsFor hp).mp (hno p (h.blocked.mpr hp) ((h.restarted hp).mpr hre))
  · have hp' := h.blocked.mp hp
    exact (h.waitsFor hp').mpr (hno p hp' ((h.restarted hp').mp hre))

end

lemma markOpens_marked (h : (List.finRange nrProcs).foldlM (markOpen maj) s = .ok t) : Marked s t := by
  obtain ⟨hbeside, hall, -⟩ := foldlM_each (g := State.fproc)
    (Q := fun _ a b => b = a ∨ a.blockedOn = .dopen ∧
      b = { a with suspReopen := true }) (List.nodup_finRange nrProcs)
    (fun hu hv => markOpen_each hu hv) ⟨rfl, rfl, rfl, rfl⟩ h
  exact ⟨fun q => hall q (List.mem_finRange q), fun f => by rw [hbeside.filp], hbeside.vnode,
    hbeside.dmap, hbeside.select⟩

lemma Marked.markFiles (h : Marked s t) (maj : Major) : Marked s (t.markFiles maj) :=
    ⟨h.proc, h.vno, h.vnode, h.dmap, h.select⟩

end State

end Nucleos.Vfs.Wake
