import Nucleos.Vfs.Wake

/-!
# What a wake-up changes, and whom a select wakes

A select that waits belongs to one process, which is blocked in it. Waking entries for the files
they watch therefore resumes processes that watch those files and no others. -/

namespace Nucleos.Vfs.Wake

open Function Run

namespace State

/-! ## What a wake-up changes -/

variable {rfp : Fproc} {dev : Nat × Nat} {x : SelectEntry} {ops : Ops} {minor : Nat} {status : Int}

/-- A process is as blocked as it was, or no longer blocked, or to have its call taken up again. -/
def Eased (a b : Fproc) : Prop :=
  (b.blockedOn = a.blockedOn ∧ b.revived = a.revived) ∨ (b.blockedOn = .none ∧ b.revived = false) ∨
    (b.blockedOn = a.blockedOn ∧ (a.blockedOn = .pipe ∨ a.blockedOn = .lock) ∧ b.revived = true)

lemma Eased.refl (a : Fproc) : Eased a a := .inl ⟨rfl, rfl⟩

lemma Eased.trans {a b c : Fproc} (h : Eased a b) (h' : Eased b c) : Eased a c := by
  rcases h' with ⟨hb', hr'⟩ | hb' | ⟨hb', hk', hr'⟩
  · rcases h with ⟨hb, hr⟩ | ⟨hb, hr⟩ | ⟨hb, hk, hr⟩
    · exact .inl ⟨hb'.trans hb, hr'.trans hr⟩
    · exact .inr (.inl ⟨hb'.trans hb, hr'.trans hr⟩)
    · exact .inr (.inr ⟨hb'.trans hb, hk, hr'.trans hr⟩)
  · exact .inr (.inl hb')
  rcases h with ⟨hb, -⟩ | ⟨hb, -⟩ | ⟨hb, hk, -⟩
  · exact .inr (.inr ⟨hb'.trans hb, hb ▸ hk', hr'⟩)
  · rw [hb] at hk'
    rcases hk' with hk' | hk' <;> cases hk'
  · exact .inr (.inr ⟨hb'.trans hb, hk, hr'⟩)

lemma Eased.on {a b : Fproc} {kind : BlockedOn} (h : Eased a b) (hb : b.blockedOn = kind)
    (hk : kind ≠ .none) : a.blockedOn = kind := by
  rcases h with ⟨h, -⟩ | ⟨h, -⟩ | ⟨h, -⟩
  · exact h.symm.trans hb
  · exact absurd (hb.symm.trans h) hk
  · exact h.symm.trans hb

/-- Some processes are resumed, and the others are left as they are. -/
structure Wakes (s s' : State) (R : Proc → Prop) : Prop where
  ids : ∀ q, (s'.fproc q).live = (s.fproc q).live ∧ (s'.fproc q).endpoint = (s.fproc q).endpoint ∧
    (s'.fproc q).callNr = (s.fproc q).callNr ∧ (s'.fproc q).fdNr = (s.fproc q).fdNr
  eased : ∀ q, Eased (s.fproc q) (s'.fproc q)
  rest : ∀ q, ¬ R q → (s'.fproc q).blockedOn = (s.fproc q).blockedOn ∧
    (s'.fproc q).revived = (s.fproc q).revived

/-- No file has come to a descriptor or to a filp, and the devices are what they were. -/
structure Fewer (s s' : State) : Prop where
  fds : ∀ {p fd f}, (s'.fproc p).filp fd = some f → (s.fproc p).filp fd = some f
  vno : ∀ {f v}, (s'.filp f).vno = some v → (s.filp f).vno = some v
  vnode : s'.vnode = s.vnode
  driver : ∀ d, (s'.dmap d).driver = (s.dmap d).driver

variable {s s' t : State} {R R' : Proc → Prop} {p q : Proc} {i j : SelSlot} {e r : Int} {f : FilpNr}

def call (x : Fproc) : Bool × Int × Nat × Fd × BlockedOn × Bool :=
  (x.live, x.endpoint, x.callNr, x.fdNr, x.blockedOn, x.revived)

lemma Wakes.of_call (h : ∀ q, call (s'.fproc q) = call (s.fproc q)) : Wakes s s' R := by
  simp only [call, Prod.mk.injEq] at h
  refine ⟨fun q => ?_, fun q => .inl (h q).2.2.2.2, fun q _ => (h q).2.2.2.2⟩
  obtain ⟨hl, he, hn, hd, -⟩ := h q
  exact ⟨hl, he, hn, hd⟩

lemma Wakes.of_fproc (h : s'.fproc = s.fproc) : Wakes s s' R := Wakes.of_call fun q => by rw [h]

lemma Wakes.trans (h : Wakes s t R) (h' : Wakes t s' R) : Wakes s s' R := by
  refine ⟨fun q => ?_, fun q => (h.eased q).trans (h'.eased q), fun q hq => ?_⟩
  · obtain ⟨h₁, h₂, h₃, h₄⟩ := h.ids q
    obtain ⟨h₁', h₂', h₃', h₄'⟩ := h'.ids q
    exact ⟨h₁'.trans h₁, h₂'.trans h₂, h₃'.trans h₃, h₄'.trans h₄⟩
  · obtain ⟨hb, hr⟩ := h.rest q hq
    obtain ⟨hb', hr'⟩ := h'.rest q hq
    exact ⟨hb'.trans hb, hr'.trans hr⟩

lemma Wakes.mono (h : Wakes s s' R) (hR : ∀ q, R q → R' q) : Wakes s s' R' :=
  ⟨h.ids, h.eased, fun q hq => h.rest q fun hRq => hq (hR q hRq)⟩

lemma Wakes.setProc (hs' : s'.fproc = update s.fproc p rfp)
    (hids : rfp.live = (s.fproc p).live ∧ rfp.endpoint = (s.fproc p).endpoint ∧
      rfp.callNr = (s.fproc p).callNr ∧ rfp.fdNr = (s.fproc p).fdNr)
    (heased : Eased (s.fproc p) rfp) : Wakes s s' (· = p) := by
  refine ⟨fun q => ?_, fun q => ?_, fun q hq => ?_⟩
  all_goals rw [hs', update_apply]
  · split_ifs with hq
    · exact hq ▸ hids
    · exact ⟨rfl, rfl, rfl, rfl⟩
  · split_ifs with hq
    · exact hq ▸ heased
    · exact Eased.refl _
  · rw [if_neg hq]
    exact ⟨rfl, rfl⟩

lemma Fewer.refl (s : State) : Fewer s s := ⟨id, id, rfl, fun _ => rfl⟩

lemma Fewer.trans (h : Fewer s t) (h' : Fewer t s') : Fewer s s' :=
  ⟨fun hf => h.fds (h'.fds hf), fun hv => h.vno (h'.vno hv), h'.vnode.trans h.vnode,
    fun d => (h'.driver d).trans (h.driver d)⟩

lemma Fewer.setProc (hs' : s'.fproc = update s.fproc p rfp)
    (hfds : ∀ {fd f}, rfp.filp fd = some f → (s.fproc p).filp fd = some f)
    (hvno : ∀ {f v}, (s'.filp f).vno = some v → (s.filp f).vno = some v)
    (hvnode : s'.vnode = s.vnode) (hdmap : s'.dmap = s.dmap) : Fewer s s' := by
  refine ⟨fun {q fd f} hf => ?_, hvno, hvnode, fun d => by rw [hdmap]⟩
  rw [hs'] at hf
  by_cases hqp : q = p
  · rw [hqp, update_self] at hf
    rw [hqp]
    exact hfds hf
  · rwa [update_of_ne hqp] at hf

lemma Fewer.charDev (h : Fewer s s') (hdev : s'.charDev f = some dev) : s.charDev f = some dev := by
  unfold State.charDev at hdev ⊢
  split at hdev
  · nomatch hdev
  next v hv =>
  simp only [h.vno hv]
  rw [h.vnode] at hdev
  exact hdev

lemma onDevice_eq_some {b : Bool} : s.onDevice p = some b ↔
    ∃ f v, (s.fproc p).filp (s.fproc p).fdNr = some f ∧ (s.filp f).vno = some v ∧
      (s.vnode v).charSpecial = b := by
  unfold onDevice
  cases hf : (s.fproc p).filp (s.fproc p).fdNr <;> simp

lemma Fewer.onDevice {b : Bool} (h : Fewer s s') (hw : Wakes s s' R) (hb : s'.onDevice p = some b) :
    s.onDevice p = some b := by
  obtain ⟨f, v, hf, hv, hc⟩ := onDevice_eq_some.mp hb
  rw [(hw.ids p).2.2.2] at hf
  rw [h.vnode] at hc
  exact onDevice_eq_some.mpr ⟨f, v, h.fds hf, h.vno hv, hc⟩

/-! ## Reviving a process -/

lemma slotOf_eq_some_iff :
    s.slotOf e = some p ↔ (s.fproc p).endpoint = e ∧ e ≠ endptNone ∧ Kernel.endpointP e = p.val := by
  unfold slotOf
  refine ⟨fun h => ?_, fun ⟨he, hne, haddr⟩ => ?_⟩
  · simp only at h
    split_ifs at h with hne hr he
    obtain rfl := Option.some.inj h
    exact ⟨he, hne, (Int.toNat_of_nonneg hr.1).symm⟩
  simp only [if_neg hne]
  rw [dif_pos ⟨by rw [haddr]; exact Int.natCast_nonneg _, by rw [haddr]; exact Int.ofNat_lt.mpr p.isLt⟩]
  have hslot : (⟨(Kernel.endpointP e).toNat, by rw [haddr]; exact p.isLt⟩ : Proc) = p :=
    Fin.ext (by simp only [haddr, Int.toNat_natCast])
  simp only [hslot, he, if_true]

def Awake (s : State) (p : Proc) : Prop := (s.fproc p).blockedOn = .none ∨ (s.fproc p).revived = true

lemma Awake.wakes (h : s.Awake p) (hw : Wakes s s' R) : s'.Awake p := by
  rcases hw.eased p with ⟨hb, hr⟩ | ⟨hb, -⟩ | ⟨-, -, hr⟩
  · unfold Awake
    rw [hb, hr]
    exact h
  · exact .inl hb
  · exact .inr hr

/-- A process was resumed, and nothing else is different but the file of an open that has failed. -/
structure Woken (s s' : State) (p : Proc) : Prop where
  wakes : Wakes s s' (· = p)
  awake : s'.Awake p
  fewer : Fewer s s'
  select : s'.selecttab = s.selecttab
  filp : s'.filp = s.filp ∨ (s.fproc p).blockedOn = .dopen

lemma Woken.freed (hs' : s'.fproc = update s.fproc p rfp)
    (hids : rfp.live = (s.fproc p).live ∧ rfp.endpoint = (s.fproc p).endpoint ∧
      rfp.callNr = (s.fproc p).callNr ∧ rfp.fdNr = (s.fproc p).fdNr)
    (hfree : rfp.blockedOn = .none ∧ rfp.revived = false) (hfds : rfp.filp = (s.fproc p).filp)
    (hselect : s'.selecttab = s.selecttab)
    (hvnode : s'.vnode = s.vnode) (hdmap : s'.dmap = s.dmap) (hfilp : s'.filp = s.filp) : Woken s s' p := by
  refine ⟨Wakes.setProc hs' hids (.inr (.inl hfree)), .inl ?_, ?_, hselect, .inl hfilp⟩
  · rw [hs', update_self]
    exact hfree.1
  refine Fewer.setProc hs' (fun hf => ?_) (fun hv => ?_) hvnode hdmap
  · rwa [hfds] at hf
  · rwa [hfilp] at hv

lemma dropOpen_woken (hon : (s.fproc p).blockedOn = .dopen) (hr : (s.fproc p).revived = false)
    (h : s.dropOpen p r = .ok s') :
    Woken s s' p := by
  unfold dropOpen at h
  simp only at h
  split at h
  · nomatch h
  next f hf =>
  split at h
  · nomatch h
  cases h
  refine ⟨Wakes.setProc rfl ⟨rfl, rfl, rfl, rfl⟩ (.inr (.inl ⟨rfl, hr⟩)), .inl ?_, ?_, rfl, .inr hon⟩
  · simp only [reply, setFilp, State.setProc, update_self]
  refine Fewer.setProc rfl (fun {fd g} hg => ?_) (fun {g v} hv => ?_) rfl rfl
  · simp only at hg
    by_cases hfd : fd = (s.fproc p).fdNr
    · rw [hfd, update_self] at hg
      nomatch hg
    · rwa [update_of_ne hfd] at hg
  · simp only [reply, setFilp, State.setProc] at hv
    by_cases hgf : g = f
    · rw [hgf, update_self] at hv
      nomatch hv
    · rwa [update_of_ne hgf] at hv

lemma awaken_woken {kind : BlockedOn} (hon : (s.fproc p).blockedOn = kind) (hb : kind ≠ .none)
    (hr : (s.fproc p).revived = false)
    (h : s.awaken kind p r = .ok s') : Woken s s' p := by
  unfold awaken at h
  have hmark : (kind = .pipe ∨ kind = .lock) →
      s' = { s with
        fproc := update s.fproc p { s.fproc p with revived := true }, reviving := s.reviving + 1 } →
      Woken s s' p := by
    rintro hkind rfl
    rw [← hon] at hkind
    refine ⟨Wakes.setProc rfl ⟨rfl, rfl, rfl, rfl⟩ (.inr (.inr ⟨rfl, hkind, rfl⟩)), .inr ?_,
      Fewer.setProc rfl id id rfl rfl, rfl,
      .inl rfl⟩
    simp only [update_self]
  cases kind with
  | none => exact absurd rfl hb
  | pipe | lock => exact hmark (by simp) (Except.ok.inj h).symm
  | popen | select | other =>
    obtain rfl := Except.ok.inj h
    exact Woken.freed rfl ⟨rfl, rfl, rfl, rfl⟩ ⟨rfl, hr⟩ rfl rfl rfl rfl rfl
  | dopen =>
    rcases ite_eq_iff.mp h with ⟨-, h⟩ | ⟨-, h⟩
    · exact dropOpen_woken hon hr h
    · obtain rfl := Except.ok.inj h
      exact Woken.freed rfl ⟨rfl, rfl, rfl, rfl⟩ ⟨rfl, hr⟩ rfl rfl rfl rfl rfl

lemma revive_spec (h : s.revive e r = .ok s') : (s' = s ∧ ∀ p, s.slotOf e = some p → s.Awake p) ∨
      ∃ p, s.slotOf e = some p ∧ ¬ s.Awake p ∧ Woken s s' p := by
  unfold revive at h
  split at h
  · next hslot => exact .inl ⟨(Except.ok.inj h).symm, fun p hp => nomatch hslot.symm.trans hp⟩
  next p hslot =>
  split at h
  · next hidle =>
    refine .inl ⟨(Except.ok.inj h).symm, fun q hq => ?_⟩
    cases hslot.symm.trans hq
    exact hidle
  · next hnot =>
    have hparts := not_or.mp hnot
    exact .inr ⟨p, hslot, hnot, awaken_woken rfl hparts.1 (Bool.eq_false_of_not_eq_true hparts.2) h⟩

/-! ## Select entries and their processes -/

def OwnerOf (s : State) (i : SelSlot) (p : Proc) : Prop :=
  (s.selecttab i).requestor = true ∧ (s.fproc p).live = true ∧
    (s.fproc p).endpoint = (s.selecttab i).reqEndpt ∧
    (s.fproc p).blockedOn = .select

/-- Endpoints lead to their processes, and a select that waits belongs to one process blocked in
it. -/
structure Consistent (s : State) : Prop where
  addr : ∀ {p}, (s.fproc p).live = true → (s.fproc p).endpoint ≠ endptNone ∧
    Kernel.endpointP (s.fproc p).endpoint = p.val
  gone : ∀ {p}, (s.fproc p).live = false → (s.fproc p).endpoint = endptNone
  owner : ∀ {i}, (s.selecttab i).requestor = true → ∃ p, s.OwnerOf i p
  single : ∀ {i j}, (s.selecttab i).requestor = true → (s.selecttab j).requestor = true →
    (s.selecttab i).reqEndpt = (s.selecttab j).reqEndpt → i = j
  calls : ∀ {p}, ((s.fproc p).blockedOn = .lock ∨ (s.fproc p).blockedOn = .select) →
    (s.fproc p).callNr ∉ pipeCalls
  marked : ∀ {p}, (s.fproc p).revived = true → (s.fproc p).blockedOn = .pipe ∨ (s.fproc p).blockedOn = .lock
  device : ∀ {p}, (s.fproc p).blockedOn = .other → (s.fproc p).callNr ∈ pipeCalls → s.onDevice p ≠ some false

lemma Consistent.slotOf (h : s.Consistent) (hp : (s.fproc p).live = true) :
    s.slotOf (s.fproc p).endpoint = some p :=
  slotOf_eq_some_iff.mpr ⟨rfl, h.addr hp⟩

lemma Consistent.live (h : s.Consistent) (hslot : s.slotOf e = some p) : (s.fproc p).live = true := by
  obtain ⟨he, hne, -⟩ := slotOf_eq_some_iff.mp hslot
  refine Bool.eq_true_of_not_eq_false fun hl => hne ?_
  rw [← he, h.gone hl]

lemma Consistent.not_revived {kind : BlockedOn} (h : s.Consistent)
    (hb : (s.fproc p).blockedOn = kind) (hk : kind ≠ .pipe ∧ kind ≠ .lock) :
    (s.fproc p).revived = false := by
  refine Bool.eq_false_of_not_eq_true fun hr => ?_
  rcases h.marked hr with hr | hr
  · exact hk.1 (hb.symm.trans hr)
  · exact hk.2 (hb.symm.trans hr)

lemma OwnerOf.slotOf (h : s.OwnerOf i p) (hc : s.Consistent) : s.slotOf (s.selecttab i).reqEndpt = some p :=
  h.2.2.1 ▸ hc.slotOf h.2.1

lemma OwnerOf.unique (h : s.OwnerOf i p) (hc : s.Consistent)
    (hslot : s.slotOf (s.selecttab i).reqEndpt = some q) : q = p := by
  rw [h.slotOf hc] at hslot
  exact (Option.some.inj hslot).symm

def Watches (s : State) (F : FilpNr → Prop) (p : Proc) : Prop :=
  ∃ i, s.OwnerOf i p ∧ ∃ fd f, (s.selecttab i).filps fd = some f ∧ F f

abbrev Entries (s s' : State) : Prop :=
  ∀ {i}, (s'.selecttab i).requestor = true → (s.selecttab i).requestor = true ∧
  (s'.selecttab i).reqEndpt = (s.selecttab i).reqEndpt ∧ ∀ {fd f},
    (s'.selecttab i).filps fd = some f → (s.selecttab i).filps fd = some f

/-- What wake-ups have done to a state: who was resumed, and that it is consistent again. -/
structure Since (R : Proc → Prop) (s s' : State) : Prop where
  wakes : Wakes s s' R
  fewer : Fewer s s'
  entries : Entries s s'
  sound : s'.Consistent

lemma Since.refl (h : s.Consistent) : Since R s s :=
    ⟨Wakes.of_fproc rfl, Fewer.refl s, fun hi => ⟨hi, rfl, id⟩, h⟩

lemma Since.trans (h : Since R s t) (h' : Since R t s') : Since R s s' := by
  refine ⟨h.wakes.trans h'.wakes, h.fewer.trans h'.fewer, fun hi => ?_, h'.sound⟩
  obtain ⟨ht, he', hf'⟩ := h'.entries hi
  obtain ⟨hs, he, hf⟩ := h.entries ht
  exact ⟨hs, he'.trans he, fun hfd => hf (hf' hfd)⟩

lemma Since.mono (h : Since R s s') (hR : ∀ q, R q → R' q) : Since R' s s' :=
    ⟨h.wakes.mono hR, h.fewer, h.entries, h.sound⟩

lemma Since.ownerOf (h : Since R s t) (hi : t.OwnerOf i p) : s.OwnerOf i p := by
  obtain ⟨hact, hl, he, hb⟩ := hi
  obtain ⟨hact', he', -⟩ := h.entries hact
  obtain ⟨hl', hep, -⟩ := h.wakes.ids p
  refine ⟨hact', hl' ▸ hl, ?_, (h.wakes.eased p).on hb nofun⟩
  rw [← hep, he, he']

lemma Since.watches {F : FilpNr → Prop} (h : Since R s t) (hp : t.Watches F p) : s.Watches F p := by
  obtain ⟨i, hi, fd, f, hf, hF⟩ := hp
  exact ⟨i, h.ownerOf hi, fd, f, (h.entries hi.1).2.2 hf, hF⟩

lemma Since.fold {ι : Type} {g : State → ι → Except WakeStop State} {l : List ι} (hc : s.Consistent)
    (hstep : ∀ {x t u}, Since R s t → g t x = .ok u → Since R t u) (h : l.foldlM g s = .ok s') :
    Since R s s' :=
  foldlM_ok (P := fun _ t => Since R s t) (fun _ _ _ _ _ _ ht hu => ht.trans (hstep ht hu)) (Since.refl hc) h

lemma Entries.of_eq (h : s'.selecttab = s.selecttab) : Entries s s' :=
    fun hi => ⟨h ▸ hi, by rw [h], fun hf => h ▸ hf⟩

lemma Consistent.since (h : s.Consistent) (hw : Wakes s s' R) (ht : Fewer s s') (hent : Entries s s')
    (hkeep : ∀ {i p}, (s'.selecttab i).requestor = true → s.OwnerOf i p → ¬ R p) : Since R s s' := by
  refine ⟨hw, ht, hent, fun {p} hp => ?_, fun {p} hp => ?_, fun {i} hi => ?_, fun {i j} hi hj heq =>
    ?_, fun {p} hp => ?_, fun {p} hp => ?_,
    fun {p} hp hnr => ?_⟩
  · obtain ⟨hl, he, -⟩ := hw.ids p
    rw [he]
    exact h.addr (hl ▸ hp)
  · obtain ⟨hl, he, -⟩ := hw.ids p
    rw [he]
    exact h.gone (hl ▸ hp)
  · obtain ⟨hi', he', -⟩ := hent hi
    obtain ⟨p, hown⟩ := h.owner hi'
    obtain ⟨hl, he, -⟩ := hw.ids p
    obtain ⟨hb, -⟩ := hw.rest p (hkeep hi hown)
    exact ⟨p, hi, hl.trans hown.2.1, (he.trans hown.2.2.1).trans he'.symm, hb.trans hown.2.2.2⟩
  · obtain ⟨hi', hei, -⟩ := hent hi
    obtain ⟨hj', hej, -⟩ := hent hj
    rw [hei, hej] at heq
    exact h.single hi' hj' heq
  · rw [(hw.ids p).2.2.1]
    exact h.calls (hp.imp (fun hb => (hw.eased p).on hb nofun) fun hb => (hw.eased p).on hb nofun)
  · rcases hw.eased p with ⟨hb, hr⟩ | ⟨-, hr⟩ | ⟨hb, hk, -⟩
    · rw [hb]
      exact h.marked (hr ▸ hp)
    · rw [hr] at hp
      nomatch hp
    · rw [hb]
      exact hk
  · rw [(hw.ids p).2.2.1] at hnr
    exact fun hdev => h.device ((hw.eased p).on hp nofun) hnr (ht.onDevice hw hdev)

lemma Consistent.still (h : s.Consistent) (hw : Wakes s s' fun _ => False) (ht : Fewer s s')
    (hent : Entries s s') : Since R s s' :=
  (h.since hw ht hent fun _ _ => id).mono fun _ => False.elim

lemma Woken.since (h : Woken s s' p) (hc : s.Consistent) (hsel : (s.fproc p).blockedOn ≠ .select) :
    Since (· = p) s s' := by
  refine hc.since h.wakes h.fewer (Entries.of_eq h.select) fun {i q} _ hown hq => ?_
  rw [hq] at hown
  exact hsel hown.2.2.2

/-! ## Changes that wake nobody -/

/-- Only what a select has found out, and the number of those that wait at a file, is different. -/
structure Quiet (s s' : State) : Prop where
  fproc : s'.fproc = s.fproc
  vno : ∀ f, (s'.filp f).vno = (s.filp f).vno
  vnode : s'.vnode = s.vnode
  driver : ∀ d, (s'.dmap d).driver = (s.dmap d).driver
  entry : ∀ i, (s'.selecttab i).requestor = (s.selecttab i).requestor ∧
    (s'.selecttab i).reqEndpt = (s.selecttab i).reqEndpt ∧
    ∀ {fd f}, (s'.selecttab i).filps fd = some f → (s.selecttab i).filps fd = some f

lemma Quiet.refl (s : State) : Quiet s s := ⟨rfl, fun _ => rfl, rfl, fun _ => rfl, fun _ => ⟨rfl, rfl, id⟩⟩

lemma Quiet.trans (h : Quiet s t) (h' : Quiet t s') : Quiet s s' := by
  refine ⟨h'.fproc.trans h.fproc, fun f => (h'.vno f).trans (h.vno f), h'.vnode.trans h.vnode,
    fun d => (h'.driver d).trans (h.driver d),
    fun i => ?_⟩
  obtain ⟨hr, he, hf⟩ := h.entry i
  obtain ⟨hr', he', hf'⟩ := h'.entry i
  exact ⟨hr'.trans hr, he'.trans he, fun hfd => hf (hf' hfd)⟩

lemma Quiet.since (h : Quiet s s') (hc : s.Consistent) : Since R s s' := by
  have hfewer : Fewer s s' := ⟨fun hf => h.fproc ▸ hf, fun hv => (h.vno _) ▸ hv, h.vnode, h.driver⟩
  refine hc.still (Wakes.of_fproc h.fproc) hfewer fun {i} hi => ?_
  obtain ⟨hr, he, hf⟩ := h.entry i
  exact ⟨hr ▸ hi, he, hf⟩

lemma Quiet.slotOf (h : Quiet s s') : s'.slotOf e = s.slotOf e := by
  unfold State.slotOf
  rw [h.fproc]

@[simp] lemma setEntry_self (x : SelectEntry) : (s.setEntry i x).selecttab i = x := by
  unfold setEntry
  exact update_self ..

lemma setEntry_of_ne (h : j ≠ i) : (s.setEntry i x).selecttab j = s.selecttab j := by
  unfold setEntry
  exact update_of_ne h ..

lemma setEntry_quiet (hr : x.requestor = (s.selecttab i).requestor)
    (he : x.reqEndpt = (s.selecttab i).reqEndpt)
    (hf : ∀ {fd f}, x.filps fd = some f → (s.selecttab i).filps fd = some f) : Quiet s (s.setEntry i x) := by
  refine ⟨rfl, fun _ => rfl, rfl, fun _ => rfl, fun j => ?_⟩
  by_cases hj : j = i
  · rw [hj, setEntry_self]
    exact ⟨hr, he, hf⟩
  · rw [setEntry_of_ne hj]
    exact ⟨rfl, rfl, id⟩

lemma setFilp_quiet {x : Filp} (h : x.vno = (s.filp f).vno) : Quiet s (s.setFilp f x) := by
  refine ⟨rfl, fun g => ?_, rfl, fun _ => rfl, fun _ => ⟨rfl, rfl, id⟩⟩
  unfold setFilp
  by_cases hg : g = f
  · simp only [hg, update_self]
    exact h
  · simp only [update_of_ne hg]

lemma cancelFd_quiet (i : SelSlot) (s : State) (fd : Fd) : Quiet s (cancelFd i s fd) := by
  unfold cancelFd
  split
  · exact Quiet.refl s
  next f _ =>
  split
  · exact Quiet.refl s
  refine Quiet.trans (t := s.setFilp f { s.filp f with selectors := (s.filp f).selectors - 1 })
    (setFilp_quiet rfl)
    (setEntry_quiet rfl rfl fun {fd' g} hg => ?_)
  simp only [setFilp] at hg ⊢
  by_cases hfd : fd' = fd
  · rw [hfd, update_self] at hg
    nomatch hg
  · rwa [update_of_ne hfd] at hg

lemma selectCancelAll_quiet (i : SelSlot) (s : State) : Quiet s (s.selectCancelAll i) := by
  have hfold : Quiet s ((List.finRange openMax).foldl (cancelFd i) s) :=
    List.foldlRecOn (motive := Quiet s) _ _ (Quiet.refl s) fun t ht fd _ => ht.trans (cancelFd_quiet i t fd)
  refine hfold.trans ?_
  exact setEntry_quiet rfl rfl id

/-! ## Waking the process of an entry -/

def Settled (s : State) (i : SelSlot) : Prop := ∀ p, s.slotOf (s.selecttab i).reqEndpt = some p → s.Awake p

lemma Settled.quiet (h : s.Settled i) (hq : Quiet s s') : s'.Settled i := by
  intro p hp
  rw [hq.slotOf, (hq.entry i).2.1] at hp
  unfold Awake
  rw [hq.fproc]
  exact h p hp

def InHand (s : State) (i : SelSlot) : Prop := (s.selecttab i).requestor = true ∨ s.Settled i

lemma InHand.quiet (h : s.InHand i) (hq : Quiet s s') : s'.InHand i := by
  rcases h with h | h
  · exact .inl ((hq.entry i).1.trans h)
  · exact .inr (h.quiet hq)

lemma Wakes.slotOf (h : Wakes s s' R) : s'.slotOf e = s.slotOf e := by
  refine Option.ext fun p => ?_
  rw [slotOf_eq_some_iff, slotOf_eq_some_iff, (h.ids p).2.1]

lemma selectWakeup_since (hc : s.Consistent) (hi : s.InHand i) (h : s.selectWakeup i r = .ok s') :
    Since (s.OwnerOf i) s s' ∧ s'.Settled i ∧ ((s.selecttab i).requestor = true → s'.filp = s.filp) ∧
      (∀ j, j ≠ i → s'.selecttab j = s.selecttab j) ∧ ∀ p, s.OwnerOf i p → s'.Awake p := by
  unfold selectWakeup at h
  obtain ⟨t, ht, h⟩ := bind_eq_ok.mp h
  rw [pure_eq_ok] at h
  subst h
  have hother : ∀ {j}, ((t.setEntry i { t.selecttab i with requestor := false }).selecttab
    j).requestor = true →
      j ≠ i ∧ (t.setEntry i { t.selecttab i with requestor := false }).selecttab j = t.selecttab j := by
    intro j hj
    by_cases hji : j = i
    · rw [hji, setEntry_self] at hj
      nomatch hj
    · exact ⟨hji, setEntry_of_ne hji⟩
  have hreq : ((t.setEntry i { t.selecttab i with requestor := false }).selecttab i).reqEndpt =
    (t.selecttab i).reqEndpt := by
    rw [setEntry_self]
  rcases revive_spec ht with ⟨rfl, hidle⟩ | ⟨p, hslot, hawake, hwoken⟩
  · refine ⟨hc.still (Wakes.of_fproc rfl) ⟨id, id, rfl, fun _ => rfl⟩ fun {j} hj => ?_, fun p hp =>
      ?_, fun _ => rfl,
      fun j hj => setEntry_of_ne hj, fun p hp => hidle p (hp.slotOf hc)⟩
    · have hsame := (hother hj).2
      rw [hsame] at hj ⊢
      exact ⟨hj, rfl, id⟩
    · rw [hreq] at hp
      exact hidle p hp
  · have hown : s.OwnerOf i p := by
      rcases hi with hi | hi
      · obtain ⟨q, hq⟩ := hc.owner hi
        rw [hq.unique hc hslot]
        exact hq
      · exact absurd (hi p hslot) hawake
    refine ⟨(hc.since (R := (· = p)) ?_ ?_ (fun {j} hj => ?_) fun {j q} hj hq hqp =>
      ?_).mono fun q hq => hq ▸ hown, fun q hq => ?_, fun _ => ?_,
      fun j hj => ?_, fun q hq => ?_⟩
    · exact hwoken.wakes.trans (Wakes.of_fproc rfl)
    · exact hwoken.fewer.trans ⟨id, id, rfl, fun _ => rfl⟩
    · obtain ⟨-, hsame⟩ := hother hj
      rw [hsame] at hj ⊢
      rw [hwoken.select] at hj ⊢
      exact ⟨hj, rfl, id⟩
    · obtain ⟨hji, hsame⟩ := hother hj
      rw [hqp] at hq
      exact hji (hc.single hq.1 hown.1 (hq.2.2.1.symm.trans hown.2.2.1))
    · rw [hreq, hwoken.select] at hq
      have hq' : t.slotOf (s.selecttab i).reqEndpt = some q := hq
      rw [hwoken.wakes.slotOf, hslot] at hq'
      cases hq'
      exact hwoken.awake
    · rcases hwoken.filp with hfilp | hopen
      · exact hfilp
      · rw [hown.2.2.2] at hopen
        nomatch hopen
    · rw [setEntry_of_ne hj, hwoken.select]
    · rw [← hq.unique hc hslot]
      exact hwoken.awake

lemma Quiet.wakeup_since (hq : Quiet s t) (hc : s.Consistent) (hi : s.InHand i)
    (h : t.selectWakeup i r = .ok s') :
    Since (s.OwnerOf i) s s' ∧ s'.Settled i := by
  have hsince : Since (s.OwnerOf i) s t := hq.since hc
  obtain ⟨hwake, hsettled, -⟩ := selectWakeup_since hsince.sound (hi.quiet hq) h
  exact ⟨hsince.trans (hwake.mono fun p hp => hsince.ownerOf hp), hsettled⟩

lemma Quiet.return_since (hq : Quiet s t) (hc : s.Consistent) (hi : s.InHand i)
    (h : t.selectReturn i r = .ok s') :
    Since (s.OwnerOf i) s s' ∧ s'.Settled i :=
  (hq.trans (selectCancelAll_quiet i t)).wakeup_since hc hi h

/-- Nothing is expected for the select any more, and it has something to report or is not to
wait. -/
def Ripe (s : State) (i : SelSlot) : Prop :=
  ((s.selecttab i).deferred = true → s.awaiting (s.selecttab i) = none) ∧
    (0 < (s.selecttab i).nreadyfds ∨ (s.selecttab i).block = false)

lemma restartProc_cases (h : s.restartProc i = .ok s') :
    (¬ s.Ripe i ∧ ∃ x : SelectEntry, x.requestor = (s.selecttab i).requestor ∧
      x.reqEndpt = (s.selecttab i).reqEndpt ∧
      x.filps = (s.selecttab i).filps ∧ s' = s.setEntry i x) ∨
    (s.Ripe i ∧ (s.setEntry i { s.selecttab i with deferred := false }).selectWakeup i
      (s.selecttab i).nreadyfds = .ok s') := by
  unfold restartProc at h
  simp only at h
  split at h
  · next fd hpend =>
    obtain ⟨hdef, hpend⟩ : (s.selecttab i).deferred = true ∧ s.awaiting (s.selecttab i) = some fd := by
      split at hpend
      · next hdef => exact ⟨hdef, hpend⟩
      · nomatch hpend
    refine .inl ⟨fun hripe => ?_, { s.selecttab i with deferredFd := fd.val }, rfl, rfl, rfl,
      (Except.ok.inj h).symm⟩
    rw [hripe.1 hdef] at hpend
    nomatch hpend
  · next hpend =>
    split_ifs at h with hready
    · refine .inr ⟨⟨fun hdef => ?_, hready⟩, h⟩
      rwa [if_pos hdef] at hpend
    · exact .inl ⟨fun hripe => hready hripe.2, { s.selecttab i with deferred := false }, rfl, rfl,
        rfl, (Except.ok.inj h).symm⟩

lemma Quiet.restart_since (hq : Quiet s t) (hc : s.Consistent) (hi : s.InHand i)
    (h : t.restartProc i = .ok s') :
    Since (fun p => s.OwnerOf i p ∧ t.Ripe i) s s' ∧ s'.InHand i := by
  rcases restartProc_cases h with ⟨-, x, hr, he, hf, rfl⟩ | ⟨hripe, h⟩
  · have hq := hq.trans (setEntry_quiet hr he fun hfd => hf ▸ hfd)
    exact ⟨hq.since hc, hi.quiet hq⟩
  have hend : Quiet t (t.setEntry i { t.selecttab i with deferred := false }) := setEntry_quiet rfl rfl id
  obtain ⟨hwake, hsettled⟩ := (hq.trans hend).wakeup_since hc hi h
  exact ⟨hwake.mono fun p hp => ⟨hp, hripe⟩, .inr hsettled⟩

/-! ## Files that have become ready -/

/-- What is noted about an entry when a file is ready leaves its process and its files alone. -/
structure SameWatch (e e' : SelectEntry) : Prop where
  requestor : e'.requestor = e.requestor
  reqEndpt : e'.reqEndpt = e.reqEndpt
  filps : e'.filps = e.filps
  deferred : e'.deferred = e.deferred ∧ e'.deferredFd = e.deferredFd

lemma SameWatch.refl (e : SelectEntry) : SameWatch e e := ⟨rfl, rfl, rfl, rfl, rfl⟩

lemma SameWatch.trans {a b c : SelectEntry} (h : SameWatch a b) (h' : SameWatch b c) : SameWatch a c :=
  ⟨h'.requestor.trans h.requestor, h'.reqEndpt.trans h.reqEndpt, h'.filps.trans h.filps,
    h'.deferred.1.trans h.deferred.1,
    h'.deferred.2.trans h.deferred.2⟩

lemma ops2tab_sameWatch (ops : Ops) (fd : Fd) (x : SelectEntry) : SameWatch x (ops2tab ops fd x) :=
    ⟨rfl, rfl, rfl, rfl, rfl⟩

lemma SameWatch.quiet (h : SameWatch (s.selecttab i) x) : Quiet s (s.setEntry i x) :=
  setEntry_quiet h.requestor h.reqEndpt fun hf => h.filps ▸ hf

lemma noteReady_spec (f : FilpNr) (ops : Ops) (x : SelectEntry) :
    SameWatch x (noteReady f ops x).1 ∧ ((noteReady f ops x).2 = true → ∃ fd, x.filps fd = some f) := by
  unfold noteReady
  refine List.foldlRecOn (motive := fun y : SelectEntry × Bool => SameWatch x y.1 ∧
    (y.2 = true → ∃ fd, x.filps fd = some f)) _ _
    ⟨SameWatch.refl x, nofun⟩ fun y hy fd _ => ?_
  unfold noteReadyFd
  split
  · next hcond => exact ⟨hy.1.trans (ops2tab_sameWatch ops fd y.1), fun _ => ⟨fd, hy.1.filps ▸ hcond.2.1⟩⟩
  · exact hy

lemma callbackEntry_since (hc : s.Consistent) (h : callbackEntry f ops s i = .ok s') :
    Since (s.Watches (· = f)) s s' := by
  unfold callbackEntry at h
  split_ifs at h with hact
  · obtain ⟨hsame, hfound⟩ := noteReady_spec f ops (s.selecttab i)
    rcases ite_eq_iff.mp h with ⟨hready, h⟩ | ⟨-, h⟩
    · obtain ⟨fd, hfd⟩ := hfound hready
      exact (hsame.quiet.return_since hc (.inl hact) h).1.mono fun p hp => ⟨i, hp, fd, f, hfd, rfl⟩
    · cases h
      exact Since.refl hc
  · cases h
    exact Since.refl hc

lemma selectCallback_since (hc : s.Consistent) (h : s.selectCallback f ops = .ok s') :
    Since (s.Watches (· = f)) s s' :=
  Since.fold hc (fun ht hu => (callbackEntry_since ht.sound hu).mono fun _ => ht.watches) h

lemma selectNotified_since {major : Nat} (hc : s.Consistent) (h : s.selectNotified major minor ops = .ok s') :
    Since (s.Watches fun f => s.charDev f = some (major, minor)) s s' := by
  unfold selectNotified at h
  split at h
  · refine Since.fold hc (fun {i t u} ht hu => ?_) h
    unfold notifyEntry at hu
    split at hu
    · refine Since.fold ht.sound (fun {fd v w} hv hw => ?_) hu
      unfold notifyFd at hw
      simp only at hw
      split at hw
      · cases hw
        exact Since.refl hv.sound
      rcases ite_eq_iff.mp hw with ⟨⟨-, hdev, -⟩, hw⟩ | ⟨-, hw⟩
      · have hsv := ht.trans hv
        refine (selectCallback_since hv.sound hw).mono fun p hp => ?_
        obtain ⟨j, hj, fd', g, hg, rfl⟩ := hsv.watches hp
        exact ⟨j, hj, fd', g, hg, hsv.fewer.charDev hdev⟩
      · cases hw
        exact Since.refl hv.sound
    · cases hu
      exact Since.refl ht.sound
  · cases h
    exact Since.refl hc

lemma statusFd_since {fd : Fd} (hc : s.Consistent) (hi : s.InHand i) (h : statusFd f status i s fd = .ok s') :
    Since (s.Watches (· = f)) s s' ∧ s'.InHand i := by
  unfold statusFd at h
  split at h
  · next hfd =>
    have hq : Quiet s (if status < 0 then s
      else s.setEntry i (ops2tab (BitVec.ofInt 3 status) fd (s.selecttab i))) := by
      split
      · exact Quiet.refl s
      · exact (ops2tab_sameWatch _ fd _).quiet
    obtain ⟨hre, hi'⟩ := hq.restart_since hc hi h
    exact ⟨hre.mono fun p hp => ⟨i, hp.1, fd, f, hfd, rfl⟩, hi'⟩
  · cases h
    exact ⟨Since.refl hc, hi⟩

lemma filpStatus_since (hc : s.Consistent) (h : s.filpStatus f status = .ok s') :
    Since (s.Watches (· = f)) s s' := by
  refine Since.fold hc (fun {i t u} ht hu => ?_) h
  unfold statusEntry at hu
  split_ifs at hu with hact
  · -- The entry may be woken for each of its descriptors; after the first time nobody is blocked in it.
    have hloop := foldlM_ok (P := fun _ v => Since (s.Watches (· = f)) t v ∧
      v.InHand i) (fun _ fd _ v w _ hv hw => by
      obtain ⟨hfd, hi⟩ := statusFd_since hv.1.sound hv.2 hw
      exact ⟨hv.1.trans (hfd.mono fun _ hp => ht.watches (hv.1.watches hp)), hi⟩)
        ⟨Since.refl ht.sound, .inl hact⟩ hu
    exact hloop.1
  · cases hu
    exact Since.refl ht.sound

def Drives (s : State) (driver : Int) (f : FilpNr) : Prop :=
  ∃ (d : Major) (minor : Nat), (s.dmap d).driver = driver ∧ s.charDev f = some (d.val, minor)

lemma majorOf_driver {driver : Int} {d : Major} (h : s.majorOf driver = some d) :
    (s.dmap d).driver = driver := by
  unfold majorOf at h
  have hfound := List.find?_some h
  simpa using hfound

lemma answered_quiet (d : Major) (f : FilpNr) (s : State) : Quiet s (s.answered d f) := by
  refine Quiet.trans (t := s.setFilp f
    { s.filp f with busy := false, count := (s.filp f).count - 1 }) (setFilp_quiet rfl)
    ⟨rfl, fun _ => rfl, rfl, fun d' => ?_, fun _ => ⟨rfl, rfl, id⟩⟩
  simp only [answered]
  by_cases hd : d' = d
  · rw [hd, update_self]
  · rw [update_of_ne hd]

lemma selectReply1_since {source : Int} (hc : s.Consistent)
    (h : s.selectReply1 source minor status = .ok s') :
    Since (s.Watches (s.Drives source)) s s' := by
  unfold selectReply1 at h
  split at h
  · exact Except.ok.inj h ▸ Since.refl hc
  next d hmaj =>
  split at h
  · exact Except.ok.inj h ▸ Since.refl hc
  next f hsel =>
  split at h
  · exact nomatch h
  split at h
  · exact nomatch h
  next dev hdev =>
  split at h
  · exact Except.ok.inj h ▸ Since.refl hc
  next hsame =>
  have hans : Since (s.Watches (s.Drives source)) s (s.answered d f) := (answered_quiet d f s).since hc
  split at h
  · exact Except.ok.inj h ▸ hans
  refine hans.trans ((filpStatus_since hans.sound h).mono fun p hp => ?_)
  obtain ⟨i, hi, fd, g, hg, rfl⟩ := hans.watches hp
  exact ⟨i, hi, fd, g, hg, d, minor, majorOf_driver hmaj, hdev.trans (congrArg some (not_not.mp hsame))⟩

lemma expireTimers_since {due : SelSlot → Bool} (hc : s.Consistent) (h : s.expireTimers due = .ok s') :
    Since (fun p => (s.fproc p).blockedOn = .select) s s' := by
  refine Since.fold hc (fun {i t u} ht hu => ?_) h
  unfold timeoutEntry at hu
  rcases ite_eq_iff.mp hu with ⟨⟨-, hact, -⟩, hu⟩ | ⟨-, hu⟩
  · have hq : Quiet t (t.setEntry i { t.selecttab i with expiry := 0 }) := setEntry_quiet rfl rfl id
    exact (hq.return_since ht.sound (.inl hact) hu).1.mono fun p hp => (ht.ownerOf hp).2.2.2
  · cases hu
    exact Since.refl ht.sound

lemma selectForget_spec (hc : s.Consistent) :
    (s.selectForget e).fproc = s.fproc ∧ Fewer s (s.selectForget e) ∧
    ∀ {i}, ((s.selectForget e).selecttab i).requestor = true → (s.selecttab i).requestor = true ∧
      (s.selecttab i).reqEndpt ≠ e ∧
      ((s.selectForget e).selecttab i).reqEndpt = (s.selecttab i).reqEndpt ∧
      ∀ {fd f}, ((s.selectForget e).selecttab i).filps fd = some f → (s.selecttab i).filps fd = some f := by
  unfold selectForget
  cases hfind : (List.finRange maxSelects).find? fun i => (s.selecttab i).requestor &&
    (s.selecttab i).reqEndpt = e with
  | none =>
    refine ⟨rfl, Fewer.refl s, fun {i} hi => ⟨hi, fun he => ?_, rfl, id⟩⟩
    have hnot := List.find?_eq_none.mp hfind i (List.mem_finRange i)
    simp only [hi, he, decide_true, Bool.and_true, not_true] at hnot
  | some j =>
    have hfound := List.find?_some hfind
    simp only [Bool.and_eq_true, decide_eq_true_eq] at hfound
    have hq := selectCancelAll_quiet j s
    have hfewer : Fewer s (s.selectCancelAll j) := (hq.since (R := fun _ => False) hc).fewer
    refine ⟨hq.fproc, hfewer.trans ⟨id, id, rfl, fun _ => rfl⟩, fun {i} hi => ?_⟩
    simp only at hi ⊢
    by_cases hij : i = j
    · rw [hij, setEntry_self] at hi
      nomatch hi
    rw [setEntry_of_ne hij] at hi ⊢
    obtain ⟨hr, he, hf⟩ := hq.entry i
    exact ⟨hr ▸ hi, fun heq => hij (hc.single (hr ▸ hi) hfound.1 (heq.trans hfound.2.symm)), he, hf⟩

/-! ## The second answer of a driver -/

/-- A select that had found something before, and that nothing but this answer was still expected
for. -/
def Overdue (s : State) (i : SelSlot) : Prop :=
  (s.selecttab i).requestor = true ∧ 0 < (s.selecttab i).nreadyfds ∧
    ((s.selecttab i).deferred = true → s.awaiting (s.selecttab i) = none)

lemma noteDev_spec (dev : Nat × Nat) (status : Int) (s : State) (x : SelectEntry) :
    SameWatch x (s.noteDev dev status x) ∧ x.nreadyfds ≤ (s.noteDev dev status x).nreadyfds ∧
      ((s.noteDev dev status x).nreadyfds = x.nreadyfds ∨ ∃ fd f, x.filps fd = some f ∧
        s.charDev f = some dev) := by
  unfold noteDev
  refine List.foldlRecOn (motive := fun y => SameWatch x y ∧ x.nreadyfds ≤ y.nreadyfds ∧
      (y.nreadyfds = x.nreadyfds ∨ ∃ fd f, x.filps fd = some f ∧ s.charDev f = some dev)) _ _
    ⟨SameWatch.refl x, le_refl _, .inl rfl⟩ fun y hy fd _ => ?_
  unfold noteDevFd
  split
  · exact hy
  next f hf =>
  split
  · next hcond =>
    exact ⟨hy.1.trans (ops2tab_sameWatch _ fd y), hy.2.1.trans (Nat.le_add_right _ _),
      .inr ⟨fd, f, hy.1.filps ▸ hf, hcond.1⟩⟩
  · exact hy

lemma awaiting_congr {y : SelectEntry} (hw : SameWatch x y) (hf : s'.filp = s.filp) :
    s'.awaiting y = s.awaiting x := by
  unfold awaiting
  rw [hw.filps, hw.deferred.2, hf]

lemma charDev_congr (hf : (s'.filp f).vno = (s.filp f).vno) (hv : s'.vnode = s.vnode) :
    s'.charDev f = s.charDev f := by
  unfold charDev
  rw [hf, hv]

lemma reply2Entry_spec (hc : s.Consistent) (h : reply2Entry dev status s i = .ok s') :
    Since (fun p => s.OwnerOf i p ∧
      ((∃ fd f, (s.selecttab i).filps fd = some f ∧ s.charDev f = some dev) ∨ s.Overdue i)) s s' ∧
      s'.filp = s.filp ∧ (∀ j, j ≠ i → s'.selecttab j = s.selecttab j) ∧
        (s.Overdue i → ∀ p, s.OwnerOf i p → s'.Awake p) := by
  unfold reply2Entry at h
  split_ifs at h with hact
  · simp only at h
    obtain ⟨hsame, hle, hnew⟩ := noteDev_spec dev status s (s.selecttab i)
    generalize s.noteDev dev status (s.selecttab i) = x at h hsame hle hnew
    have hq := hsame.quiet
    have hwait : (s.setEntry i x).awaiting x = s.awaiting (s.selecttab i) := awaiting_congr hsame rfl
    split_ifs at h with hready
    · refine ⟨(hq.restart_since hc (.inl hact) h).1.mono fun p hp => ⟨hp.1, ?_⟩, ?_⟩
      · rcases hnew with hnew | hnew
        · refine .inr ⟨hact, hnew ▸ hready, fun hdef => ?_⟩
          have hripe := hp.2.1
          rw [setEntry_self, hwait, hsame.deferred.1] at hripe
          exact hripe hdef
        · exact .inl hnew
      · rcases restartProc_cases h with ⟨hunripe, y, -, -, -, rfl⟩ | ⟨-, hwake⟩
        · refine ⟨rfl, fun j hj => (setEntry_of_ne hj).trans (setEntry_of_ne hj), fun hover =>
            absurd ?_ hunripe⟩
          rw [Ripe, setEntry_self, hwait, hsame.deferred.1]
          exact ⟨hover.2.2, .inl hready⟩
        rw [setEntry_self] at hwake
        have hq' : Quiet (s.setEntry i x) ((s.setEntry i x).setEntry i { x with deferred := false }) :=
          setEntry_quiet (by rw [setEntry_self]) (by rw [setEntry_self]) (by rw [setEntry_self]; exact id)
        have hall := hq.trans hq'
        have hactive := (hall.entry i).1.trans hact
        obtain ⟨-, -, hfilp, hsel, hawake⟩ :=
          selectWakeup_since (hall.since (R := fun _ => False) hc).sound (.inl hactive) hwake
        refine ⟨hfilp hactive, fun j hj => ?_, fun _ p hp => hawake p ?_⟩
        · rw [hsel j hj, setEntry_of_ne hj, setEntry_of_ne hj]
        refine ⟨(hall.entry i).1.trans hp.1, ?_⟩
        rw [hall.fproc, (hall.entry i).2.1]
        exact hp.2
    · cases h
      exact ⟨hq.since hc, rfl, fun j hj => setEntry_of_ne hj, fun hover =>
        absurd (hover.2.1.trans_le hle) hready⟩
  · cases h
    exact ⟨Since.refl hc, rfl, fun _ _ => rfl, fun hover => absurd hover.1 hact⟩

structure Answered (dev : Nat × Nat) (s t : State) (done : List SelSlot) : Prop where
  since : Since (fun p => s.Watches (fun f => s.charDev f = some dev) p ∨ ∃ i, s.OwnerOf i p ∧
    s.Overdue i) s t
  later : ∀ i ∉ done, t.selecttab i = s.selecttab i
  filp : t.filp = s.filp
  early : ∀ i ∈ done, s.Overdue i → ∀ p, s.OwnerOf i p → t.Awake p

lemma Answered.step {done : List SelSlot} {u : State} (h : Answered dev s t done) (hi : i ∉ done)
    (hu : reply2Entry dev status t i = .ok u) : Answered dev s u (done ++ [i]) := by
  have hent : t.selecttab i = s.selecttab i := h.later i hi
  have hover : t.Overdue i ↔ s.Overdue i := by
    unfold Overdue
    rw [hent, awaiting_congr (SameWatch.refl _) h.filp]
  obtain ⟨hsince, hfilp, hsel, hawake⟩ := reply2Entry_spec h.since.sound hu
  have hdev : ∀ f, t.charDev f = s.charDev f := fun f => charDev_congr (by rw [h.filp]) h.since.fewer.vnode
  simp only [hent, hdev, hover] at hsince
  refine ⟨h.since.trans (hsince.mono fun p hp => ?_), fun j hj => ?_, hfilp.trans h.filp,
    fun j hj hdue p hp => ?_⟩
  · have hown := h.since.ownerOf hp.1
    rcases hp.2 with ⟨fd, f, hf, hdev⟩ | hdue
    · exact .inl ⟨i, hown, fd, f, hf, hdev⟩
    · exact .inr ⟨i, hown, hdue⟩
  · rw [List.mem_append, List.mem_singleton, not_or] at hj
    rw [hsel j hj.2, h.later j hj.1]
  rcases List.mem_append.mp hj with hj | hj
  · exact (h.early j hj hdue p hp).wakes hsince.wakes
  obtain rfl := List.mem_singleton.mp hj
  by_cases hp' : t.Awake p
  · exact hp'.wakes hsince.wakes
  refine hawake (hover.mpr hdue) p ⟨hent ▸ hp.1, ?_⟩
  obtain ⟨hl, he, -⟩ := h.since.wakes.ids p
  rw [hl, he, hent, ← (h.since.wakes.eased p).on rfl (not_or.mp hp').1]
  exact hp.2

lemma selectReply2_spec {source : Int} {d : Major} (hc : s.Consistent) (hmaj : s.majorOf source = some d)
    (h : s.selectReply2 source minor status = .ok s') :
    Answered (d.val, minor) s s' (List.finRange maxSelects) := by
  unfold selectReply2 at h
  simp only [hmaj] at h
  refine foldlM_ok (P := fun done t => Answered (d.val, minor) s t done)
    (fun done i rest t u hl ht hu => ht.step ?_ hu)
    ⟨Since.refl hc, fun _ _ => rfl, rfl, nofun⟩ h
  intro hi
  have hnodup := List.nodup_finRange maxSelects
  rw [hl] at hnodup
  exact (List.nodup_append.mp hnodup).2.2 i hi i (.head _) rfl

end State

end Nucleos.Vfs.Wake
