import Nucleos.Kernel.Notice

/-!
# Pending notifications

A bit of `s_notify_pending` always belongs to a process that can still be reached, and only
processes with a privilege structure of their own ever take one. `mini_receive` looks at
one bit of every chunk, so that is what decides whether it finds a given source.
-/

namespace Nucleos.Kernel

open IntrusiveList Run

variable {s t u : State} {i id : PrivId} {p dst caller : Slot}

def State.SysPriv (s : State) (i : PrivId) : Prop := (s.priv i).sFlags &&& sysProc ≠ 0

/-- Who owns which privilege structure, and who is behind a pending notification. -/
structure Notices (s : State) : Prop where
  id : ∀ i, (s.priv i).sId = i
  user : ∀ i c, ¬ s.SysPriv i → (s.priv i).sTrapMask.getLsbD c = true → c = kipcSendrec
  owner : ∀ p i, s.isemptyp p = false → (s.proc p).pPriv = some i → s.SysPriv i →
    (s.priv i).sProcNr = procNr p
  task : ∀ p, iskerneln (procNr p) = true → s.Live p ∧ ∃ i, (s.proc p).pPriv = some i ∧ s.SysPriv i
  receiver : ∀ p, s.rtsIsset p rtsReceiving = true → s.mfIsset p mfReplyPend = false → MayReceive s p
  pending : ∀ p j b, s.isemptyp p = false → (s.proc p).pPriv = some j →
    getSysBit (s.priv j).sNotifyPending b = true → ∃ q, s.Live q ∧ (s.proc q).pPriv = some b ∧ s.SysPriv b

namespace Notices

variable {p : Slot} {i : PrivId}

lemma unshared (h : Notices s) {q : Slot} (hp : s.isemptyp p = false)
    (hq : s.isemptyp q = false) (hpi : (s.proc p).pPriv = some i) (hqi : (s.proc q).pPriv = some i)
    (hsys : s.SysPriv i) : p = q :=
  procNr_injective ((h.owner p i hp hpi hsys).symm.trans (h.owner q i hq hqi hsys))

lemma sysPriv (h : Notices s) {c : Nat} (hi : (s.proc p).pPriv = some i)
    (hmay : ∃ j, (s.proc p).pPriv = some j ∧ (s.priv j).sTrapMask.getLsbD c = true) (hc : c ≠ kipcSendrec) :
    s.SysPriv i := by
  obtain ⟨j, hj, htrap⟩ := hmay
  obtain rfl : i = j := Option.some.inj (hi.symm.trans hj)
  by_contra hsys
  exact hc (h.user i c hsys htrap)

lemma sysPriv_of_receive (h : Notices s) (hi : (s.proc p).pPriv = some i) (hmay : MayReceive s p) :
    s.SysPriv i :=
  h.sysPriv hi hmay (by decide)

end Notices

lemma Static.sysPriv (h : Static s t) : t.SysPriv i ↔ s.SysPriv i := by
  rw [State.SysPriv, h.flags, State.SysPriv]

lemma Static.mayReceive (h : Static s t) : MayReceive t p ↔ MayReceive s p := by
  simp only [MayReceive, h.priv, h.trapMask]

lemma Notices.static (hn : Notices s) (h : Static s t)
    (howner : ∀ p i, t.isemptyp p = false → (s.proc p).pPriv = some i → s.SysPriv i →
      (t.priv i).sProcNr = procNr p)
    (hlive : ∀ p, iskerneln (procNr p) = true → s.Live p → t.Live p)
    (hrecv : ∀ p, t.rtsIsset p rtsReceiving = true → t.mfIsset p mfReplyPend = false → MayReceive s p)
    (hpend : ∀ p j b, t.isemptyp p = false → (s.proc p).pPriv = some j →
      getSysBit (t.priv j).sNotifyPending b = true →
      ∃ q, t.Live q ∧ (s.proc q).pPriv = some b ∧ s.SysPriv b) : Notices t where
  id i := (h.id i).trans (hn.id i)
  user i c hsys htrap := by
    rw [h.trapMask] at htrap
    exact hn.user i c (fun hs => hsys (h.sysPriv.mpr hs)) htrap
  owner p i hp hi hsys := howner p i hp ((h.priv p).symm.trans hi) (h.sysPriv.mp hsys)
  task p hp := by
    obtain ⟨hp', i, hi, hsys⟩ := hn.task p hp
    exact ⟨hlive p hp hp', i, (h.priv p).trans hi, h.sysPriv.mpr hsys⟩
  receiver p hr hm := h.mayReceive.mpr (hrecv p hr hm)
  pending p j b hp hj hbit := by
    obtain ⟨q, hq, hqb, hsys⟩ := hpend p j b hp ((h.priv p).symm.trans hj) hbit
    exact ⟨q, hq, (h.priv q).trans hqb, h.sysPriv.mpr hsys⟩

namespace Steady

lemma live (h : Steady s t) {p : Slot} : t.Live p ↔ s.Live p := by
  rw [State.Live, State.Live, h.isemptyp, h.noEndpoint]

lemma notices (h : Steady s t) (hn : Notices s)
    (hpend : ∀ p j b, s.isemptyp p = false → (s.proc p).pPriv = some j →
      getSysBit (t.priv j).sNotifyPending b = true → getSysBit (s.priv j).sNotifyPending b = true ∨
        ∃ q, s.Live q ∧ (s.proc q).pPriv = some b ∧ s.SysPriv b) : Notices t := by
  refine hn.static h.static (fun p i hp hi hsys => ?_) (fun p _ => h.live.mpr) (fun p hr hm => ?_)
    fun p j b hp hj hbit => ?_
  · rw [h.procNr]
    exact hn.owner p i ((h.isemptyp p).symm.trans hp) hi hsys
  · rcases h.receiver p hr hm with ⟨hr', hm'⟩ | hmay
    · exact hn.receiver p hr' hm'
    · exact hmay
  have hp' := (h.isemptyp p).symm.trans hp
  simp only [h.live]
  rcases hpend p j b hp' hj hbit with hb | hq
  · exact hn.pending p j b hp' hj hb
  · exact hq

end Steady

structure Built (src : Int) (dst : Slot) (arg : BitVec 32) (s u : State) : Prop where
  proc : u.proc = s.proc
  history : u.history = s.history
  notify : ∀ j, (u.priv j).sNotifyPending = (s.priv j).sNotifyPending
  procNr : ∀ j, (u.priv j).sProcNr = (s.priv j).sProcNr
  pending : ∀ (c : Channel) j, c.pending (u.priv j) =
    if src = c.task ∧ (s.proc dst).pPriv = some j then 0 else c.pending (s.priv j)
  arg : ∀ c : Channel, src = c.task → ∃ j, (s.proc dst).pPriv = some j ∧ arg = c.pending (s.priv j)

lemma Channel.built (c : Channel) {src : Int} {f : Priv → Priv} (hsrc : src = c.task)
    (hi : (s.proc dst).pPriv = some i) (hnotify : (f (s.priv i)).sNotifyPending = (s.priv i).sNotifyPending)
    (hnr : (f (s.priv i)).sProcNr = (s.priv i).sProcNr) (hzero : c.pending (f (s.priv i)) = 0)
    (hother : ∀ c', c' ≠ c → c'.pending (f (s.priv i)) = c'.pending (s.priv i)) :
    Built src dst (c.pending (s.priv i)) s (s.modPriv i f) := by
  have hc : ∀ c' : Channel, src = c'.task → c' = c := by
    intro c' hc'
    rw [hsrc] at hc'
    cases c <;> cases c' <;> first | rfl | exact absurd hc' (by decide)
  refine ⟨rfl, rfl, s.modPriv_keep _ hnotify, s.modPriv_keep _ hnr, fun c' j => ?_, fun c' hc' => ?_⟩
  · rw [State.modPriv_priv]
    split
    · next hj =>
      rw [hj]
      by_cases hcc : c' = c
      · rw [if_pos ⟨hcc ▸ hsrc, hi⟩, hcc, hzero]
      · rw [if_neg (fun h => hcc (hc c' h.1)), hother c' hcc]
    · next hj =>
      rw [if_neg (fun h => hj (Option.some.inj (hi.symm.trans h.2)).symm)]
  · rw [hc c' hc']
    exact ⟨i, hi, rfl⟩

lemma buildNotify_built {src : Int} {m : Msg} (h : buildNotifyMessage src dst s = .ok (m, u)) :
    Built src dst m.mData4 s u := by
  unfold buildNotifyMessage at h
  split at h
  · next hsrc =>
    obtain ⟨i, hi, h⟩ := bind_eq_ok.mp h
    cases h
    refine Channel.int.built hsrc ((s.privOf_eq_ok).mp hi) rfl rfl rfl fun c hc => ?_
    cases c with
    | int => exact absurd rfl hc
    | sig => rfl
  · next hhw =>
    split at h
    · next hsrc =>
      obtain ⟨i, hi, h⟩ := bind_eq_ok.mp h
      cases h
      refine Channel.sig.built hsrc ((s.privOf_eq_ok).mp hi) rfl rfl rfl fun c hc => ?_
      cases c with
      | int => rfl
      | sig => exact absurd rfl hc
    · next hsys =>
      cases h
      have hnone : ∀ c : Channel, src ≠ c.task := by
        intro c
        cases c with
        | int => exact hhw
        | sig => exact hsys
      refine ⟨rfl, rfl, fun _ => rfl, fun _ => rfl, fun c j => ?_, fun c hc => absurd hc (hnone c)⟩
      rw [if_neg fun h => hnone c h.1]

lemma steady_notify (hs : s.FreeOk) (h : NotifyEffect caller dst s t) : Steady s t := by
  refine .of_passive (static_notify h) (passive_notify h) hs fun i => ?_
  cases h with
  | direct m u _ _ hbuild => exact (buildNotify_built hbuild).procNr i
  | posted i' j _ _ =>
    rw [State.record_priv]
    exact s.modPriv_keep Priv.sProcNr rfl i

lemma takeNotify_eq_ok (h : takeNotify p i id s = .ok t) : ∃ src arg u, (s.priv id).sProcNr = procNr src ∧
      Built (procNr src) p arg
        (s.modPriv i fun v => { v with sNotifyPending := unsetSysBit v.sNotifyPending id }) u ∧
      t.priv = u.priv ∧ t.history = .notified (procNr src) p arg :: s.history := by
  obtain ⟨m, u, src, hbuild, hsrc, rfl⟩ := takeNotify_inv h
  rw [slotOf_eq_ok] at hsrc
  rw [← hsrc] at hbuild ⊢
  have hb := buildNotify_built hbuild
  exact ⟨src, m.mData4, u, rfl, hb, rfl, congrArg _ hb.history⟩

lemma steady_take (hs : s.FreeOk) (h : takeNotify p i id s = .ok t) : Steady s t := by
  refine .of_passive (static_take h) (passive_take h) hs fun j => ?_
  obtain ⟨src, arg, u, _, hb, hpriv, _⟩ := takeNotify_eq_ok h
  rw [hpriv, hb.procNr]
  exact s.modPriv_keep Priv.sProcNr rfl j

lemma notify_bits (hid : ∀ i, (s.priv i).sId = i) (h : NotifyEffect caller dst s t)
    {j b : PrivId} (hbit : getSysBit (t.priv j).sNotifyPending b = true) :
    getSysBit (s.priv j).sNotifyPending b = true ∨ (s.proc caller).pPriv = some b := by
  cases h with
  | direct m u _ _ hbuild =>
    refine .inl ?_
    rw [← (buildNotify_built hbuild).notify j]
    exact hbit
  | posted i j' hcaller _ =>
    simp only [State.record_priv, State.modPriv_priv] at hbit
    split at hbit
    · rw [getSysBit_set, hid, Bool.or_eq_true, decide_eq_true_eq] at hbit
      rcases hbit with rfl | hbit
      · exact .inr hcaller
      · exact .inl hbit
    · exact .inl hbit

lemma take_bits (h : takeNotify p i id s = .ok t) (j b : PrivId) : getSysBit (t.priv j).sNotifyPending b =
      (decide (¬ (j = i ∧ b = id)) && getSysBit (s.priv j).sNotifyPending b) := by
  obtain ⟨src, arg, u, _, hb, hpriv, _⟩ := takeNotify_eq_ok h
  rw [hpriv, hb.notify, State.modPriv_priv]
  split
  · rename_i hj
    rw [getSysBit_unset]
    simp [hj]
  · rename_i hj
    simp [hj]

section
variable (c : Channel) (i : PrivId) (dst : Slot) (bits : BitVec 32)

lemma Channel.raise_proc (s : State) :
    (c.raise i dst bits s).proc = s.proc := by
  cases c <;> rfl

lemma Channel.raise_priv (s : State) (j : PrivId) :
    ((c.raise i dst bits s).priv j).sNotifyPending = (s.priv j).sNotifyPending ∧
      ((c.raise i dst bits s).priv j).sProcNr = (s.priv j).sProcNr := by
  cases c with
  | int | sig =>
    simp only [raise, State.record_priv, State.modPriv_priv]
    split <;> exact ⟨rfl, rfl⟩

lemma Channel.raise_static (s : State) :
    Static s (c.raise i dst bits s) := by
  cases c with
  | int | sig =>
    apply Static.record
    apply Static.modPriv <;> rfl

lemma Channel.steady_raise (hs : s.FreeOk) :
    Steady s (c.raise i dst bits s) :=
  .of_passive (c.raise_static i dst bits s) (.of_proc (c.raise_proc i dst bits s)) hs fun j =>
    (c.raise_priv i dst bits s j).2

end

structure Freed (rc : Slot) (i : PrivId) (s t : State) : Prop where
  static : Static s t
  empty : t.isemptyp rc = true
  other : ∀ q, q ≠ rc → t.proc q = s.proc q
  priv : ∀ j, t.priv j = s.priv j ∨ j = i ∧ s.SysPriv i ∧ t.priv j = { s.priv j with sProcNr := endptNone }
  unowned : s.SysPriv i → (t.priv i).sProcNr = endptNone
  tables : t.tables = s.tables
  history : t.history = s.history

lemma freed (s : State) (rc : Slot) (i : PrivId) : Freed rc i s
    (if (s.priv i).sFlags &&& sysProc ≠ 0 then
      (s.modProc rc fun p => { p with pRtsFlags := rtsSlotFree }).modPriv i fun v =>
        { v with sProcNr := endptNone }
    else s.modProc rc fun p => { p with pRtsFlags := rtsSlotFree }) := by
  have hst : Static s (s.modProc rc fun p => { p with pRtsFlags := rtsSlotFree }) := by
    apply Static.modProc <;> rfl
  have hempty : (s.modProc rc fun p => { p with pRtsFlags := rtsSlotFree }).isemptyp rc = true := by
    simp [State.isemptyp, State.modProc_proc]
  have hother : ∀ q, q ≠ rc → (s.modProc rc fun p => { p with pRtsFlags := rtsSlotFree }).proc q =
    s.proc q := by
    intro q hq
    rw [State.modProc_proc, if_neg hq]
  split
  · rename_i hsys
    refine ⟨hst.trans (by apply Static.modPriv <;> rfl), hempty, hother, fun j => ?_, fun _ => ?_, rfl, rfl⟩
    · rw [State.modPriv_priv]
      split
      · rename_i hj
        exact .inr ⟨hj, hsys, rfl⟩
      · exact .inl rfl
    · rw [State.modPriv_priv, if_pos rfl]
  · rename_i hsys
    exact ⟨hst, hempty, hother, fun j => .inl rfl, fun h => absurd h hsys, rfl, rfl⟩

namespace Freed
variable {rc : Slot} {i : PrivId}

lemma isemptyp (h : Freed rc i s t) {q : Slot} (hq : t.isemptyp q = false) :
    q ≠ rc ∧ s.isemptyp q = false := by
  have hne : q ≠ rc := by
    rintro rfl
    exact absurd h.empty (ne_true_of_eq_false hq)
  rw [State.isemptyp, h.other q hne] at hq
  exact ⟨hne, hq⟩

lemma live (h : Freed rc i s t) (hgone : s.rtsIsset rc rtsNoEndpoint = true) {q : Slot} (hq : s.Live q) :
    t.Live q := by
  have hne : q ≠ rc := by
    rintro rfl
    exact absurd hgone (ne_true_of_eq_false hq.2)
  rw [State.Live, State.isemptyp, State.rtsIsset, h.other q hne]
  exact hq

lemma notify (h : Freed rc i s t) (j : PrivId) : (t.priv j).sNotifyPending = (s.priv j).sNotifyPending := by
  rcases h.priv j with hj | ⟨_, _, hj⟩ <;> rw [hj]

lemma table (h : Freed rc i s t) (j : PrivId) :
    (t.priv j).sAsynsize = (s.priv j).sAsynsize ∧ (t.priv j).sAsyntab = (s.priv j).sAsyntab := by
  rcases h.priv j with hj | ⟨_, _, hj⟩ <;> rw [hj] <;> exact ⟨rfl, rfl⟩

lemma notices (h : Freed rc i s t) (hn : Notices s) (hpriv : (s.proc rc).pPriv = some i)
    (hgone : s.rtsIsset rc rtsNoEndpoint = true) : Notices t := by
  refine hn.static h.static (fun p j hp hj hsys => ?_) (fun p _ => h.live hgone) (fun p hr hm => ?_)
    fun p j b hp hj hbit => ?_
  · obtain ⟨hne, hp'⟩ := h.isemptyp hp
    rcases h.priv j with heq | ⟨hji, hsys', _⟩
    · rw [heq]
      exact hn.owner p j hp' hj hsys
    -- only the freed process had this structure
    have hrc : s.isemptyp rc = false := by
      cases hrc : s.isemptyp rc with
      | false => rfl
      | true => exact absurd hgone (ne_true_of_eq_false (isset_empty hrc (by decide) (by decide)))
    exact absurd (hn.unshared hp' hrc (hji ▸ hj) hpriv hsys') hne
  · have hne : p ≠ rc := by
      rintro rfl
      exact absurd hr (ne_true_of_eq_false (isset_empty h.empty (by decide) (by decide)))
    rw [State.rtsIsset, h.other p hne] at hr
    rw [State.mfIsset, h.other p hne] at hm
    exact hn.receiver p hr hm
  · rw [h.notify j] at hbit
    obtain ⟨q, hq, hqb, hsys⟩ := hn.pending p j b (h.isemptyp hp).2 hj hbit
    exact ⟨q, h.live hgone hq, hqb, hsys⟩

end Freed

section Gone
variable {rc : Slot}

lemma Gone.live (h : Gone rc s t) {q : Slot} : t.Live q ↔ s.Live q ∧ q ≠ rc := by
  rw [State.Live, State.Live, h.isemptyp, h.noEndpoint]
  by_cases hq : q = rc
  · simp [hq]
  · simp [hq]

lemma GonePriv.bit (h : GonePriv rc s t) (hn : Notices s) {p : Slot} {j b : PrivId}
    (hp : s.isemptyp p = false) (hj : (s.proc p).pPriv = some j) : getSysBit (t.priv j).sNotifyPending b =
      (decide ((s.proc rc).pPriv ≠ some b) && getSysBit (s.priv j).sNotifyPending b) := by
  obtain ⟨i, hi, hpriv⟩ := h.priv
  obtain ⟨m, n, hm, hkeep, _, _, hclear⟩ := hpriv j
  rw [hn.id] at hkeep hclear
  rw [hm, hi]
  by_cases hb : b = i
  · rw [hb, hclear p hp hj]
    simp
  · have hne : i ≠ b := fun h => hb h.symm
    simp [hne, hkeep b hb]

lemma Gone.notices (h : Gone rc s t) (hpriv : GonePriv rc s t) (hst : Static s t) (hn : Notices s)
    (hker : iskerneln (procNr rc) = false) : Notices t := by
  refine hn.static hst (fun p j hp hj hsys => ?_) (fun p hp hlive => h.live.mpr ⟨hlive, ?_⟩)
    (fun p hr hm => ?_)
    fun p j b hp hj hbit => ?_
  · obtain ⟨i, _, hp'⟩ := hpriv.priv
    obtain ⟨m, n, hm, _⟩ := hp' j
    rw [hm]
    exact hn.owner p j ((h.isemptyp p).symm.trans hp) hj hsys
  · rintro rfl
    exact absurd hp (ne_true_of_eq_false hker)
  · rw [State.mfIsset, hpriv.misc p] at hm
    exact hn.receiver p ((h.receiving p).mp hr).1 hm
  have hp' := (h.isemptyp p).symm.trans hp
  rw [hpriv.bit hn hp' hj, Bool.and_eq_true, decide_eq_true_eq] at hbit
  obtain ⟨q, hq, hqb, hsys⟩ := hn.pending p j b hp' hj hbit.2
  refine ⟨q, h.live.mpr ⟨hq, ?_⟩, hqb, hsys⟩
  rintro rfl
  exact hbit.1 hqb

end Gone

lemma Notices.notifier (hn : Notices s) (hmay : iskerneln (procNr caller) = true ∨
      s.Live caller ∧ ∃ i, (s.proc caller).pPriv = some i ∧ (s.priv i).sTrapMask.getLsbD kipcNotify = true) :
    s.Live caller ∧ ∀ i, (s.proc caller).pPriv = some i → s.SysPriv i := by
  rcases hmay with hker | ⟨hlive, htrap⟩
  · obtain ⟨hlive, j, hj, hsys⟩ := hn.task caller hker
    refine ⟨hlive, fun i hi => ?_⟩
    rw [Option.some.inj (hi.symm.trans hj)]
    exact hsys
  · exact ⟨hlive, fun i hi => hn.sysPriv hi htrap (by decide)⟩

lemma Channel.kernel_task (c : Channel) {task : Slot} (h : procNr task = c.task) :
    iskerneln (procNr task) = true := by
  rw [h]
  cases c <;> decide

lemma Notices.raise (hn : Notices s) (hs : s.FreeOk) (c : Channel) (i : PrivId) (dst : Slot)
    (bits : BitVec 32) :
    Notices (c.raise i dst bits s) := by
  refine (c.steady_raise i dst bits hs).notices hn fun p j b _ _ hbit => .inl ?_
  rw [← (c.raise_priv i dst bits s j).1]
  exact hbit

lemma Notices.notified (hn : Notices s) (hs : s.FreeOk) (hmay : iskerneln (procNr caller) = true ∨
      s.Live caller ∧ ∃ i, (s.proc caller).pPriv = some i ∧ (s.priv i).sTrapMask.getLsbD kipcNotify = true)
    (heff : NotifyEffect caller dst s t) : Notices t := by
  obtain ⟨hlive, hsys⟩ := hn.notifier hmay
  refine (steady_notify hs heff).notices hn fun p j b _ _ hbit => ?_
  rcases notify_bits hn.id heff hbit with h | h
  · exact .inl h
  · exact .inr ⟨caller, hlive, h, hsys b h⟩

lemma Notice.notices (h : Notice s t) (hg : s.Good) (hn : Notices s) : Notices t := by
  cases h with
  | still t h =>
    refine h.notices hn fun p j b _ _ hbit => .inl ?_
    rw [← h.notify j]
    exact hbit
  | notify caller dst t hmay _ heff => exact hn.notified hg.freeOk hmay heff
  | raise c task dst i bits t htask _ _ heff =>
    have hfree : (c.raise i dst bits s).FreeOk :=
      (Passive.of_proc (c.raise_proc i dst bits s)).freeOk hg.freeOk
    exact (hn.raise hg.freeOk c i dst bits).notified hfree (.inl (c.kernel_task htask)) heff
  | take p i id t _ _ _ _ h =>
    refine (steady_take hg.freeOk h).notices hn fun q j b _ _ hbit => .inl ?_
    rw [take_bits h, Bool.and_eq_true] at hbit
    exact hbit.2
  | gone rc t hker h =>
    obtain ⟨_, hgone, _, hpriv⟩ := clearEndpoint_spec hg h
    exact hgone.notices hpriv (static_clearEndpoint h) hn hker
  | free rc i _ hpriv hgone => exact (freed s rc i).notices hn hpriv hgone

lemma Boot.notices (h : Boot s) : Notices s where
  id := h.id
  user i c hsys := h.user i c (not_not.mp hsys)
  owner := h.owner
  task p hp := by
    obtain ⟨hempty, i, hi, hsys⟩ := h.task p hp
    exact ⟨⟨hempty, h.isset p hempty (by decide) (by decide)⟩, i, hi, hsys⟩
  receiver p hr := absurd hr (ne_true_of_eq_false (h.idle p).2)
  pending p j b _ _ hbit := absurd hbit (ne_true_of_eq_false (h.notify j b))

lemma Trace.notice_invariant {n : Nat} (tr : Trace step n) (hboot : Boot (tr.state 0)) {P : State → Prop}
    (h0 : P (tr.state 0)) (hstep : ∀ {s t}, s.Good → Notices s → P s → Notice s t → P t) :
    ∀ k ≤ n, Notices (tr.state k) ∧ P (tr.state k) := by
  have hall : ∀ k ≤ n, (tr.state k).Good ∧ Notices (tr.state k) ∧ P (tr.state k) := by
    refine tr.invariant (fun s => s.Good ∧ Notices s ∧ P s) ⟨hboot.good, hboot.notices, h0⟩ ?_
    rintro s a t ⟨hg, hn, hp⟩ hs
    have hup := hg.updates hs
    refine ⟨hg.step hs, ?_⟩
    clear hs
    induction hup with
    | refl => exact ⟨hn, hp⟩
    | tail hup hu ih =>
      have hgood := Updates.good hup hg
      have hnotice := hu.notice hgood.freeOk
      exact ⟨hnotice.notices hgood ih.1, hstep hgood ih.1 ih.2 hnotice⟩
  exact fun k hk => (hall k hk).2

end Nucleos.Kernel
