import Nucleos.Kernel.Update

/-!
# What updates leave alone

No update changes the identity of a process or its privileges. The updates of an entry that
has no actor and no leaving process, such as the routines a call uses on the way, leave the
queues and the blocked senders alone and block nobody.
-/

namespace Nucleos.Kernel

open IntrusiveList Run

variable {l : Entry} {s t : State}

structure Static (s t : State) : Prop where
  priv : ∀ p, (t.proc p).pPriv = (s.proc p).pPriv
  endpoint : ∀ p, (t.proc p).pEndpoint = (s.proc p).pEndpoint
  id : ∀ i, (t.priv i).sId = (s.priv i).sId
  flags : ∀ i, (t.priv i).sFlags = (s.priv i).sFlags
  trapMask : ∀ i, (t.priv i).sTrapMask = (s.priv i).sTrapMask
  ipcTo : ∀ i, (t.priv i).sIpcTo = (s.priv i).sIpcTo

namespace Static
variable {s t u : State}

lemma refl (s : State) : Static s s :=
  ⟨fun _ => rfl, fun _ => rfl, fun _ => rfl, fun _ => rfl, fun _ => rfl, fun _ => rfl⟩

lemma trans (h : Static s t) (h' : Static t u) : Static s u :=
  ⟨fun p => (h'.priv p).trans (h.priv p), fun p => (h'.endpoint p).trans (h.endpoint p),
    fun i => (h'.id i).trans (h.id i), fun i => (h'.flags i).trans (h.flags i),
    fun i => (h'.trapMask i).trans (h.trapMask i), fun i => (h'.ipcTo i).trans (h.ipcTo i)⟩

lemma of_eq (hproc : t.proc = s.proc) (hpriv : t.priv = s.priv) : Static s t := by
  rcases s with ⟨proc, priv, tables, uptime, history⟩
  rcases t with ⟨proc', priv', tables', uptime', history'⟩
  obtain rfl : proc' = proc := hproc
  obtain rfl : priv' = priv := hpriv
  exact ⟨fun _ => rfl, fun _ => rfl, fun _ => rfl, fun _ => rfl, fun _ => rfl, fun _ => rfl⟩

lemma modProc (s : State) (p : Slot) {f : Proc → Proc} (hp : (f (s.proc p)).pPriv = (s.proc p).pPriv)
    (he : (f (s.proc p)).pEndpoint = (s.proc p).pEndpoint) : Static s (s.modProc p f) :=
  ⟨s.modProc_keep _ hp, s.modProc_keep _ he, fun _ => rfl, fun _ => rfl, fun _ => rfl, fun _ => rfl⟩

lemma modPriv (s : State) (i : PrivId) {f : Priv → Priv} (hid : (f (s.priv i)).sId = (s.priv i).sId)
    (hflags : (f (s.priv i)).sFlags = (s.priv i).sFlags)
    (htrap : (f (s.priv i)).sTrapMask = (s.priv i).sTrapMask)
    (hto : (f (s.priv i)).sIpcTo = (s.priv i).sIpcTo) : Static s (s.modPriv i f) :=
  ⟨fun _ => rfl, fun _ => rfl, s.modPriv_keep _ hid, s.modPriv_keep _ hflags,
    s.modPriv_keep _ htrap, s.modPriv_keep _ hto⟩

lemma of_quiet (h : Quiet s t) : Static s t :=
  ⟨fun p => congrArg Shadow.priv (h.shadow p), fun p => congrArg Shadow.endpoint (h.shadow p),
    fun i => by rw [h.priv], fun i => by rw [h.priv], fun i => by rw [h.priv],
    fun i => by rw [h.priv]⟩

lemma record (h : Static s t) (e : Event) : Static s (t.record e) :=
  ⟨h.priv, h.endpoint, h.id, h.flags, h.trapMask, h.ipcTo⟩

lemma of_recorded {e : Event} (h : Static s (t.record e)) : Static s t :=
  ⟨h.priv, h.endpoint, h.id, h.flags, h.trapMask, h.ipcTo⟩

lemma of_record {e : Event} (h : Static (s.record e) t) : Static s t :=
  ⟨h.priv, h.endpoint, h.id, h.flags, h.trapMask, h.ipcTo⟩

end Static

section Routines
variable {s t : State} {rc : Slot}

section
variable (s : State) (p : Slot) (f : BitVec 16)

lemma static_rtsSet : Static s (s.rtsSet p f) := by
  apply Static.modProc <;> rfl

lemma static_rtsUnset : Static s (s.rtsUnset p f) := by
  apply Static.modProc <;> rfl

lemma static_mfSet : Static s (s.mfSet p f) := by
  apply Static.modProc <;> rfl

lemma static_mfUnset : Static s (s.mfUnset p f) := by
  apply Static.modProc <;> rfl

end

lemma static_deposit (ep : Int) (m : Msg) (dst : Slot) (s : State) : Static s (deposit ep m dst s) := by
  apply Static.modProc <;> rfl

lemma buildNotify_cases {src : Int} {dst : Slot} {m : Msg}
    (h : buildNotifyMessage src dst s = .ok (m, t)) : m.mType = notifyFrom src ∧
    (t = s ∨ ∃ i, (t = s.modPriv i fun v => { v with sIntPending := 0 }) ∨ t = s.modPriv i fun v =>
      { v with sSigPending := 0 }) := by
  unfold buildNotifyMessage at h
  split at h
  · obtain ⟨i, _, h⟩ := bind_eq_ok.mp h
    cases h
    exact ⟨rfl, .inr ⟨i, .inl rfl⟩⟩
  split at h
  · obtain ⟨i, _, h⟩ := bind_eq_ok.mp h
    cases h
    exact ⟨rfl, .inr ⟨i, .inr rfl⟩⟩
  · cases h
    exact ⟨rfl, .inl rfl⟩

lemma takeNotify_inv {p : Slot} {i id : PrivId} (h : takeNotify p i id s = .ok t) : ∃ m u src,
    buildNotifyMessage (s.priv id).sProcNr p (s.modPriv i fun v =>
      { v with sNotifyPending := unsetSysBit v.sNotifyPending id }) =
      .ok (m, u) ∧ slotOf (s.priv id).sProcNr = .ok src ∧
    t = (deposit (u.proc src).pEndpoint m p u).record (.notified (s.priv id).sProcNr p m.mData4) := by
  unfold takeNotify at h
  simp only [s.modPriv_keep Priv.sProcNr (i := i) (f := fun v =>
    { v with sNotifyPending := unsetSysBit v.sNotifyPending id }) rfl id] at h
  obtain ⟨⟨m, u⟩, hbuild, h⟩ := bind_eq_ok.mp h
  obtain ⟨src, hsrc, h⟩ := bind_eq_ok.mp h
  simp only [queueMess, bind, Except.bind, ne_eq, not_true_eq_false, if_false] at h
  cases h
  exact ⟨m, u, src, hbuild, hsrc, rfl⟩

lemma static_buildNotify {src : Int} {dst : Slot} {m : Msg}
    (h : buildNotifyMessage src dst s = .ok (m, t)) : Static s t := by
  rcases (buildNotify_cases h).2 with rfl | ⟨i, rfl | rfl⟩
  · exact .refl t
  all_goals apply Static.modPriv <;> rfl

lemma static_notify {caller dst : Slot} (h : NotifyEffect caller dst s t) : Static s t := by
  cases h with
  | direct m u _ _ hbuild =>
    apply Static.record
    apply Static.record
    exact ((static_buildNotify hbuild).trans (static_deposit _ m dst u)).trans (static_rtsUnset _ dst _)
  | posted i j _ _ =>
    apply Static.record
    apply Static.modPriv <;> rfl

lemma static_take {p : Slot} {i id : PrivId} (h : takeNotify p i id s = .ok t) : Static s t := by
  obtain ⟨m, u, src, hbuild, -, rfl⟩ := takeNotify_inv h
  apply Static.record
  refine Static.trans ?_ ((static_buildNotify hbuild).trans (static_deposit _ m p u))
  apply Static.modPriv <;> rfl

lemma static_complete (env : Env) (p : Slot) (a : Nat) (r : Int) (flags : BitVec 32) (s : State) :
    Static s (completeEntry env p a r flags s).2 := by
  unfold completeEntry
  split
  · exact .refl s
  · simp only
    split <;> exact .of_eq rfl rfl

lemma static_writeCell (s : State) (c : Cell Slot Slot) (v : Option Slot) : Static s (s.writeCell c v) := by
  cases c with
  | head d | next q =>
    rw [State.writeCell]
    apply Static.modProc <;> rfl

lemma static_blockSend {p d : Slot} {dstE : Int} {m : Msg} (h : blockSend p d dstE m s = .ok t) :
    Static s t := by
  unfold blockSend at h
  split at h
  · cases h
  cases h
  refine Static.trans (Static.trans ?_ (static_writeCell _ _ _)) (static_writeCell _ _ _)
  apply Static.modProc <;> rfl

end Routines

/-! ## The end of a process -/

section Exit
variable {s t u : State} {ep : Int} {id : PrivId} {done : List Slot} {rc : Slot}

def Proc.died (flag : BitVec 16) (partner : Proc → Int) (r ep : Int) (x : Proc) : Proc :=
  if ChunkMap.isset x.pRtsFlags flag && partner x == ep then
    { x with retreg := r, pRtsFlags := x.pRtsFlags &&& ~~~flag }
  else x

def Proc.letGo (ep : Int) (x : Proc) : Proc :=
  (x.died rtsReceiving Proc.pGetfromE (-esrcdied) ep).died rtsSending Proc.pSendtoE (-edstdied) ep

namespace Proc
variable {f g : BitVec 16} {k : Proc → Int} {r e : Int} (x : Proc)

lemma died_isset (h : f &&& g = 0#16) :
    ChunkMap.isset (x.died f k r e).pRtsFlags g = ChunkMap.isset x.pRtsFlags g := by
  unfold died
  split
  · exact ChunkMap.isset_andNot_of_disjoint _ h
  · rfl

lemma died_eq : ∃ r' flags, x.died f k r e = { x with retreg := r', pRtsFlags := flags } := by
  unfold died
  split
  · exact ⟨_, _, rfl⟩
  · exact ⟨x.retreg, x.pRtsFlags, rfl⟩

lemma letGo_eq : ∃ r' flags, x.letGo e = { x with retreg := r', pRtsFlags := flags } := by
  obtain ⟨r₁, f₁, h₁⟩ :=
    died_eq (f := rtsReceiving) (k := Proc.pGetfromE) (r := -esrcdied) (e := e) x
  obtain ⟨r₂, f₂, h₂⟩ := died_eq (f := rtsSending) (k := Proc.pSendtoE) (r := -edstdied) (e := e)
    (x.died rtsReceiving Proc.pGetfromE (-esrcdied) e)
  exact ⟨r₂, f₂, by rw [letGo, h₂, h₁]⟩

lemma letGo_isset {e : Int} (hf : rtsSending &&& f = 0#16) (hf' : rtsReceiving &&& f = 0#16) :
    ChunkMap.isset (x.letGo e).pRtsFlags f = ChunkMap.isset x.pRtsFlags f :=
  (died_isset _ hf).trans (died_isset x hf')

end Proc

lemma partnerDied_eq (rc rp : Slot) (f : BitVec 16) (g : Proc → Int) (r : Int) (s : State) :
    partnerDied rc rp f g r s = s.modProc rp (Proc.died f g r (s.proc rc).pEndpoint) := by
  unfold partnerDied State.rtsIsset
  split
  · next h =>
      simp only [State.rtsUnset, State.modProc, Proc.died, if_pos h, Function.update_self,
        Function.update_idem]
  · next h => simp only [State.modProc, Proc.died, if_neg h, Function.update_eq_self]

lemma partnerDied_both (rc rp : Slot) (s : State) :
    partnerDied rc rp rtsSending Proc.pSendtoE (-edstdied) (partnerDied rc rp rtsReceiving
      Proc.pGetfromE (-esrcdied) s) =
      s.modProc rp (Proc.letGo (s.proc rc).pEndpoint) := by
  have hep : (Proc.died rtsReceiving Proc.pGetfromE (-esrcdied) (s.proc rc).pEndpoint
    (s.proc rp)).pEndpoint = (s.proc rp).pEndpoint := by
    obtain ⟨r', flags, h⟩ := (s.proc rp).died_eq
    rw [h]
  rw [partnerDied_eq, partnerDied_eq, s.modProc_keep Proc.pEndpoint hep]
  simp only [State.modProc, Function.update_self, Function.update_idem]
  rfl

structure LetGo (ep : Int) (id : PrivId) (done : List Slot) (s w : State) : Prop where
  proc : ∀ q, w.proc q =
    if q ∈ done ∧ s.isemptyp q = false then (s.proc q).letGo ep else s.proc q
  priv : ∀ j, ∃ m, w.priv j = { s.priv j with sNotifyPending := m } ∧
    ∀ b, b ≠ id → getSysBit m b = getSysBit (s.priv j).sNotifyPending b
  cleared : ∀ q ∈ done, s.isemptyp q = false → ∀ j, (s.proc q).pPriv = some j →
    getSysBit (w.priv j).sNotifyPending id = false
  tables : w.tables = s.tables
  history : w.history = s.history

lemma LetGo.proc_eq (h : LetGo ep id done s u) (q : Slot) :
    ∃ r' flags, u.proc q = { s.proc q with retreg := r', pRtsFlags := flags } := by
  rw [h.proc q]
  split
  · exact (s.proc q).letGo_eq
  · exact ⟨(s.proc q).retreg, (s.proc q).pRtsFlags, rfl⟩

lemma LetGo.endpoint (h : LetGo ep id done s u) (q : Slot) :
    (u.proc q).pEndpoint = (s.proc q).pEndpoint ∧ (u.proc q).pPriv = (s.proc q).pPriv := by
  obtain ⟨r', flags, he⟩ := h.proc_eq q
  rw [he]
  exact ⟨rfl, rfl⟩

lemma LetGo.static (h : LetGo ep id done s t) : Static s t := by
  have hpriv : ∀ {β : Type} (k : Priv → β) (_ : ∀ v m, k { v with sNotifyPending := m } = k v) i,
    k (t.priv i) = k (s.priv i) := by
    intro β k hk i
    obtain ⟨m, hm, _⟩ := h.priv i
    rw [hm, hk]
  exact ⟨fun p => (h.endpoint p).2, fun p => (h.endpoint p).1, hpriv Priv.sId fun _ _ => rfl,
    hpriv Priv.sFlags fun _ _ => rfl,
    hpriv Priv.sTrapMask fun _ _ => rfl, hpriv Priv.sIpcTo fun _ _ => rfl⟩

lemma clearOther_spec {x : Slot} {i : PrivId}
    (hep : (s.proc rc).pEndpoint = ep) (hpriv : (s.proc rc).pPriv = some i) (hid : (s.priv i).sId = id)
    (hx : x ∉ done) (h : LetGo ep id done s u) (hstep : clearOther rc u x = .ok t) :
    LetGo ep id (done ++ [x]) s t := by
  have hux : u.proc x = s.proc x := by
    rw [h.proc x, if_neg (fun hd => hx hd.1)]
  have hempty : u.isemptyp x = s.isemptyp x := by rw [State.isemptyp, hux, State.isemptyp]
  unfold clearOther at hstep
  split_ifs at hstep with he
  · cases hstep
    refine ⟨fun q => ?_, h.priv, fun q hq hne => ?_, h.tables, h.history⟩
    · rw [h.proc q]
      by_cases hq : q = x
      · subst hq
        simp [hx, hempty.symm.trans he]
      · simp [hq]
    · rcases List.mem_append.mp hq with hq | hq
      · exact h.cleared q hq hne
      · obtain rfl := List.mem_singleton.mp hq
        exact absurd (hempty.symm.trans he) (ne_true_of_eq_false hne)
  · obtain ⟨j, hj, hstep⟩ := bind_eq_ok.mp hstep
    obtain ⟨i', hi', hstep⟩ := bind_eq_ok.mp hstep
    cases hstep
    have hi : i' = i := by
      rw [u.privOf_eq_ok, (h.endpoint rc).2, hpriv, Option.some.injEq] at hi'
      exact hi'.symm
    have huid : (u.priv i').sId = id := by
      obtain ⟨m, hm, _⟩ := h.priv i'
      rw [hm, hi]
      exact hid
    have hep' : ((u.modPriv j fun v =>
      { v with sNotifyPending := unsetSysBit v.sNotifyPending (u.priv i').sId }).proc
      rc).pEndpoint = ep :=
      (h.endpoint rc).1.trans hep
    rw [partnerDied_both, hep']
    refine ⟨fun q => ?_, fun k => ?_, fun q hq hne k hk => ?_, h.tables, h.history⟩
    · rw [State.modProc_proc, State.modPriv_proc]
      by_cases hq : q = x
      · subst hq
        simp [hux, Bool.eq_false_iff.mpr (hempty ▸ he)]
      · rw [if_neg hq, h.proc q]
        simp [hq]
    · rw [State.modProc_priv, State.modPriv_priv]
      obtain ⟨m, hm, hbits⟩ := h.priv k
      split
      · refine ⟨unsetSysBit (u.priv k).sNotifyPending id, ?_, fun b hb => ?_⟩
        · rw [huid, hm]
        · rw [getSysBit_unset, hm]
          simp [hb, hbits b hb]
      · exact ⟨m, hm, hbits⟩
    · rw [State.modProc_priv, State.modPriv_priv, huid]
      rcases List.mem_append.mp hq with hq | hq
      · have hold := h.cleared q hq hne k hk
        split
        · rw [getSysBit_unset, hold, Bool.and_false]
        · exact hold
      · obtain rfl := List.mem_singleton.mp hq
        rw [u.privOf_eq_ok, hux, hk, Option.some.injEq] at hj
        rw [if_pos hj, getSysBit_unset]
        simp

lemma clearLoop_spec {i : PrivId} (hpriv : (s.proc rc).pPriv = some i)
    (h : (List.finRange (nrTasks + nrProcs)).foldlM (clearOther rc) s = .ok t) :
    LetGo (s.proc rc).pEndpoint (s.priv i).sId (List.finRange (nrTasks + nrProcs)) s t := by
  refine foldlM_ok (P := fun done w => LetGo (s.proc rc).pEndpoint (s.priv i).sId done s w) ?_ ?_ h
  · intro done x rest a b hl hP hb
    have hx : x ∉ done := by
      have hnd := List.nodup_finRange (nrTasks + nrProcs)
      rw [hl, List.nodup_append] at hnd
      exact fun hmem => hnd.2.2 x hmem x (by simp) rfl
    exact clearOther_spec rfl hpriv rfl hx hP hb
  · exact ⟨fun q => by simp, fun j => ⟨(s.priv j).sNotifyPending, rfl, fun b _ => rfl⟩,
      nofun, rfl, rfl⟩

lemma rtsUnset_of_not (h : s.rtsIsset rc rtsSending = false) : s.rtsUnset rc rtsSending = s := by
  have hbit : (s.proc rc).pRtsFlags &&& rtsSending = 0#16 := by
    rw [State.rtsIsset, ChunkMap.isset, beq_eq_false_iff_ne, show rtsSending = BitVec.twoPow 16 2
      from rfl, BitVec.and_twoPow] at h
    rw [show rtsSending = BitVec.twoPow 16 2 from rfl, BitVec.and_twoPow]
    split at h
    · exact absurd rfl h
    · next hbit => exact if_neg hbit
  have hflags := ChunkMap.andNot_eq_self ((BitVec.and_comm _ _).trans hbit)
  simp only [State.rtsUnset, State.modProc, hflags, Function.update_eq_self]

structure Unqueued (rc : Slot) (s t : State) : Prop where
  proc : ∀ q, ∃ a b, t.proc q = { (s.rtsUnset rc rtsSending).proc q with pCallerQ := a, pQLink := b }
  priv : t.priv = s.priv
  tables : t.tables = s.tables
  history : t.history = s.history

lemma leaveQueue_unqueued (h : leaveQueue rc s = .ok t) : Unqueued rc s t := by
  unfold leaveQueue at h
  split at h
  · obtain ⟨d, _, h⟩ := bind_eq_ok.mp h
    split at h
    · cases h
    split at h
    · cases h
      exact ⟨fun q => ⟨_, _, rfl⟩, rfl, rfl, rfl⟩
    cases h
    refine ⟨fun q => ?_, State.writeCell_priv _ _ _, State.writeCell_tables _ _ _,
      State.writeCell_history _ _ _⟩
    obtain ⟨a, b, hq⟩ := s.writeCell_proc _ _ q
    refine ⟨a, b, ?_⟩
    simp only [State.rtsUnset, State.modProc_proc]
    split
    · rw [hq]
    · exact hq
  · next hs =>
    cases h
    have hself := rtsUnset_of_not (Bool.eq_false_iff.mpr hs)
    refine ⟨fun q => ⟨(s.proc q).pCallerQ, (s.proc q).pQLink, ?_⟩, rfl, rfl, rfl⟩
    rw [hself]

lemma Unqueued.static (h : Unqueued rc s t) : Static s t := by
  refine (static_rtsUnset s rc rtsSending).trans ⟨fun q => ?_, fun q => ?_, fun i => ?_,
    fun i => ?_, fun i => ?_, fun i => ?_⟩
  · obtain ⟨a, b, hq⟩ := h.proc q
    rw [hq]
  · obtain ⟨a, b, hq⟩ := h.proc q
    rw [hq]
  all_goals
    rw [h.priv]
    rfl

def markGone (rc : Slot) (i : PrivId) (s : State) : State :=
  if ((s.rtsSet rc rtsNoEndpoint).priv i).sFlags &&& sysProc ≠ 0 then
    (s.rtsSet rc rtsNoEndpoint).modPriv i fun v => { v with sAsynsize := 0 }
  else s.rtsSet rc rtsNoEndpoint

lemma static_markGone (rc : Slot) (i : PrivId) (s : State) : Static s (markGone rc i s) := by
  refine (static_rtsSet s rc rtsNoEndpoint).trans ?_
  unfold markGone
  split
  · apply Static.modPriv <;> rfl
  · exact .refl _

lemma clearEndpoint_inv (h : clearEndpoint rc s = .ok t) :
    ∃ i x w, s.isemptyp rc = false ∧ (s.proc rc).pPriv = some i ∧
    leaveQueue rc (markGone rc i s) = .ok x ∧ Static s (x.rtsUnset rc rtsReceiving) ∧
    LetGo ((x.rtsUnset rc rtsReceiving).proc rc).pEndpoint ((x.rtsUnset rc rtsReceiving).priv i).sId
      (List.finRange (nrTasks + nrProcs))
      (x.rtsUnset rc rtsReceiving) w ∧ t = w.record (.gone rc) := by
  unfold clearEndpoint at h
  split at h
  · cases h
  next hrc =>
  split at h
  · cases h
  obtain ⟨i, hi, h⟩ := bind_eq_ok.mp h
  obtain ⟨x, hx, h⟩ := bind_eq_ok.mp h
  obtain ⟨w, hw, h⟩ := bind_eq_ok.mp h
  cases h
  have hpriv : (s.proc rc).pPriv = some i := by
    rw [State.privOf_eq_ok] at hi
    exact ((static_rtsSet s rc rtsNoEndpoint).priv rc).symm.trans hi
  have hst : Static s (x.rtsUnset rc rtsReceiving) :=
    ((static_markGone rc i s).trans (leaveQueue_unqueued hx).static).trans (static_rtsUnset x rc _)
  exact ⟨i, x, w, Bool.eq_false_iff.mpr hrc, hpriv, hx, hst,
    clearLoop_spec ((hst.priv rc).trans hpriv) hw, rfl⟩

lemma static_clearEndpoint (h : clearEndpoint rc s = .ok t) : Static s t := by
  obtain ⟨i, x, w, _, _, _, hst, hgo, rfl⟩ := clearEndpoint_inv h
  exact (hst.trans hgo.static).record _

lemma clearEndpoint_noEndpoint (h : clearEndpoint rc s = .ok t) : t.rtsIsset rc rtsNoEndpoint = true := by
  obtain ⟨i, x, w, _, _, hx, _, hgo, rfl⟩ := clearEndpoint_inv h
  have hmark : (markGone rc i s).rtsIsset rc rtsNoEndpoint = true := by
    unfold markGone
    split <;> exact s.rtsIsset_rtsSet_self rc
  have hleft : (x.rtsUnset rc rtsReceiving).rtsIsset rc rtsNoEndpoint = true := by
    obtain ⟨a, b, hq⟩ := (leaveQueue_unqueued hx).proc rc
    rw [State.rtsIsset_rtsUnset _ rc rc (by decide), State.rtsIsset, hq]
    exact (State.rtsIsset_rtsUnset _ rc rc (by decide)).trans hmark
  rw [State.rtsIsset, State.record_proc, hgo.proc rc]
  split
  · exact (Proc.letGo_isset _ (by decide) (by decide)).trans hleft
  · exact hleft

lemma clearEndpoint_procNr (h : clearEndpoint rc s = .ok t) (j : PrivId) :
    (t.priv j).sProcNr = (s.priv j).sProcNr := by
  obtain ⟨i, x, w, _, _, hx, _, hgo, rfl⟩ := clearEndpoint_inv h
  obtain ⟨m, hm, -⟩ := hgo.priv j
  rw [State.record_priv, hm]
  refine (congrArg (fun f => (f j).sProcNr) (leaveQueue_unqueued hx).priv).trans ?_
  unfold markGone
  split
  · exact State.modPriv_keep _ Priv.sProcNr rfl j
  · rfl

end Exit

lemma Update.static (h : Update l s t) : Static s t := by
  cases h with
  | quiet t h => exact .of_quiet h
  | sent | asynSettle | write => exact .of_eq rfl rfl
  | expectReply p | asynMark p => exact static_mfSet s p _
  | expectAny p | asynNone p => exact static_mfUnset s p _
  | wake p => exact static_rtsUnset s p _
  | block p d dstE m t _ _ _ _ _ _ _ hblock => exact static_blockSend hblock
  | wait p srcE _ _ _ _ _ _ _ _ _ => apply Static.modProc <;> rfl
  | release p q xpp _ _ _ _ => exact (static_rtsUnset s q _).trans (static_writeCell _ _ _)
  | notify caller dst t _ _ heff => exact static_notify heff
  | interrupt task dst i bits t _ _ _ heff | signal task dst i bits t _ _ _ heff =>
    refine Static.trans ?_ (Static.of_record (static_notify heff))
    apply Static.modPriv <;> rfl
  | take p i id t _ _ _ _ h => exact static_take h
  | asynOpen | asynClose =>
    apply Static.record
    apply Static.modPriv <;> rfl
  | asynDeliver src dst a _ _ _ => exact (static_complete l.env src a 0 _ _).of_record
  | asynRefuse src a r _ _ => exact static_complete l.env src a r _ s
  | asynDrop src i _ _ _ => apply Static.modPriv <;> rfl
  | gone rc t _ _ h => exact static_clearEndpoint h
  | free rc i =>
    split
    · refine Static.trans (t := s.modProc rc fun p => { p with pRtsFlags := rtsSlotFree }) ?_ ?_
      · apply Static.modProc <;> rfl
      · apply Static.modPriv <;> rfl
    · apply Static.modProc <;> rfl

lemma Updates.static (h : Updates l s t) : Static s t := by
  induction h with
  | refl => exact .refl s
  | tail _ hu ih => exact ih.trans hu.static

structure Calm (x y : Proc) : Prop where
  free : x.FreeOk → y.FreeOk ∧ y.shadow.free = x.shadow.free
  sending : y.shadow.sending = x.shadow.sending
  noEndpoint : y.shadow.noEndpoint = x.shadow.noEndpoint
  replyPend : y.shadow.replyPend = x.shadow.replyPend
  sendto : y.shadow.sendto = x.shadow.sendto
  callerQ : y.shadow.callerQ = x.shadow.callerQ
  qLink : y.shadow.qLink = x.shadow.qLink
  receiving : y.shadow.receiving = true → x.shadow.receiving = true

lemma Calm.refl (x : Proc) : Calm x x := ⟨fun h => ⟨h, rfl⟩, rfl, rfl, rfl, rfl, rfl, rfl, id⟩

lemma Calm.trans {x y z : Proc} (h : Calm x y) (h' : Calm y z) : Calm x z :=
  ⟨fun hx => ⟨(h'.free (h.free hx).1).1, (h'.free (h.free hx).1).2.trans (h.free hx).2⟩,
    h'.sending.trans h.sending, h'.noEndpoint.trans h.noEndpoint, h'.replyPend.trans h.replyPend,
    h'.sendto.trans h.sendto, h'.callerQ.trans h.callerQ, h'.qLink.trans h.qLink,
    fun hz => h.receiving (h'.receiving hz)⟩

def Passive (s t : State) : Prop := ∀ p, Calm (s.proc p) (t.proc p)

namespace Passive
variable {s t u : State}

lemma refl (s : State) : Passive s s := fun p => .refl (s.proc p)

lemma trans (h : Passive s t) (h' : Passive t u) : Passive s u := fun p => (h p).trans (h' p)

lemma of_proc (h : t.proc = s.proc) : Passive s t := fun p => h ▸ .refl (t.proc p)

lemma of_quiet (h : Quiet s t) (hs : s.FreeOk) : Passive s t := by
  intro p
  have hp := h.shadow p
  refine ⟨fun _ => ⟨h.freeOk hs p, by rw [hp]⟩, ?_, ?_, ?_, ?_, ?_, ?_, ?_⟩ <;> rw [hp]
  exact id

lemma modProc (s : State) (p : Slot) {f : Proc → Proc} (h : Calm (s.proc p) (f (s.proc p))) :
    Passive s (s.modProc p f) := by
  intro q
  rw [State.modProc_proc]
  split
  · rename_i hq
    exact hq ▸ h
  · exact .refl _

section
variable (h : Passive s t) (hs : s.FreeOk)
include h hs

lemma freeOk : t.FreeOk := fun p => ((h p).free (hs p)).1

lemma isemptyp (p : Slot) : t.isemptyp p = s.isemptyp p :=
  ((h p).free (hs p)).2

lemma live {p : Slot} (hp : s.Live p) : t.Live p :=
  ⟨(h.isemptyp hs p).trans hp.1, (h p).noEndpoint.trans hp.2⟩

lemma ready {p : Slot} (hp : s.Ready p) : t.Ready p := by
  refine ⟨h.live hs hp.1, (h p).sending.trans hp.2.1, ?_⟩
  rw [Bool.eq_false_iff]
  intro hr
  have := (h p).receiving hr
  exact Bool.false_ne_true (hp.2.2.symm.trans this)

end

lemma queues (h : Passive s t) : t.queues = s.queues := by
  simp only [State.queues, Lists.mk.injEq]
  exact ⟨funext fun p => (h p).callerQ, funext fun p => (h p).qLink⟩

end Passive

lemma calm_unreceive {x : Proc} : Calm x { x with pRtsFlags := x.pRtsFlags &&& ~~~rtsReceiving } := by
  refine ⟨fun hx => Proc.free_unset hx (by decide) rfl, ?_, ?_, rfl, rfl, rfl, rfl, ?_⟩
  · exact ChunkMap.isset_andNot_of_disjoint _ (by decide)
  · exact ChunkMap.isset_andNot_of_disjoint _ (by decide)
  intro h
  simp only [Proc.shadow, ChunkMap.isset_andNot_self x.pRtsFlags (by decide : rtsReceiving ≠ 0#16)] at h
  cases h

lemma passive_wake (s : State) (p : Slot) : Passive s (s.rtsUnset p rtsReceiving) :=
  .modProc s p calm_unreceive

lemma passive_deposit (ep : Int) (m : Msg) (dst : Slot) (s : State) : Passive s (deposit ep m dst s) := by
  apply Passive.modProc
  exact ⟨fun h => ⟨h, rfl⟩, rfl, rfl, ChunkMap.isset_or_of_disjoint _ (by decide), rfl, rfl, rfl, id⟩

lemma passive_mfSet (s : State) (p : Slot) {f : BitVec 16} (hf : f &&& mfReplyPend = 0#16) :
    Passive s (s.mfSet p f) := by
  apply Passive.modProc
  exact ⟨fun h => ⟨h, rfl⟩, rfl, rfl, ChunkMap.isset_or_of_disjoint _ hf, rfl, rfl, rfl, id⟩

lemma passive_mfUnset (s : State) (p : Slot) {f : BitVec 16} (hf : f &&& mfReplyPend = 0#16) :
    Passive s (s.mfUnset p f) := by
  apply Passive.modProc
  exact ⟨fun h => ⟨h, rfl⟩, rfl, rfl, ChunkMap.isset_andNot_of_disjoint _ hf, rfl, rfl, rfl, id⟩

section Passive
variable {s t : State}

lemma buildNotify_proc {src : Int} {dst : Slot} {m : Msg}
    (h : buildNotifyMessage src dst s = .ok (m, t)) : t.proc = s.proc := by
  rcases (buildNotify_cases h).2 with rfl | ⟨i, rfl | rfl⟩ <;> rfl

lemma passive_notify {caller dst : Slot} (h : NotifyEffect caller dst s t) : Passive s t := by
  cases h with
  | direct m u _ _ hbuild =>
    exact ((Passive.of_proc (buildNotify_proc hbuild)).trans (passive_deposit _ m dst u)).trans
      (passive_wake _ dst)
  | posted i j _ _ => exact .of_proc rfl

lemma passive_take {p : Slot} {i id : PrivId} (h : takeNotify p i id s = .ok t) : Passive s t := by
  obtain ⟨m, u, src, hbuild, -, rfl⟩ := takeNotify_inv h
  exact (Passive.of_proc (buildNotify_proc hbuild)).trans (passive_deposit _ m p u)

lemma complete_proc (env : Env) (p : Slot) (a : Nat) (r : Int) (flags : BitVec 32) (s : State) :
    (completeEntry env p a r flags s).2.proc = s.proc := by
  unfold completeEntry
  split
  · rfl
  · simp only
    split <;> rfl

end Passive

lemma Update.passive (h : Update l s t) (hs : s.FreeOk)
    (hactor : l.actor = none) (hleave : l.leaving = none) : Passive s t := by
  cases h with
  | quiet t h => exact .of_quiet h hs
  | sent | asynDrop | write => exact .of_proc rfl
  | wake p => exact passive_wake s p
  | expectReply _ ha | expectAny _ ha | block _ _ _ _ _ ha | wait _ _ ha | release _ _ _ ha | asynOpen _ _ ha
  | asynClose _ _ _ _ ha | asynSettle _ _ _ ha => nomatch hactor.symm.trans ha
  | notify caller dst t _ _ heff => exact passive_notify heff
  | interrupt task dst i bits t _ _ _ heff | signal task dst i bits t _ _ _ heff =>
    have h := passive_notify heff
    exact h
  | take p i id t _ _ _ _ h => exact passive_take h
  | asynMark d => exact passive_mfSet s d (by decide)
  | asynDeliver src dst a _ _ _ => exact .of_proc (complete_proc l.env src a 0 _ _)
  | asynRefuse src a r _ _ => exact .of_proc (complete_proc l.env src a r _ s)
  | asynNone p _ => exact passive_mfUnset s p (by decide)
  | gone rc t hl | free rc i hl => nomatch hleave.symm.trans hl

def Entry.idle (env : Env) : Entry := ⟨⟨none, none, none⟩, env, none⟩

lemma Updates.passive {env : Env} (h : Updates (.idle env) s t) (hs : s.FreeOk) : Passive s t := by
  induction h with
  | refl => exact .refl s
  | tail _ hu ih => exact ih.trans (hu.passive (ih.freeOk hs) rfl rfl)

end Nucleos.Kernel
