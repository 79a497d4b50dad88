import Nucleos.Kernel.Pending

/-!
# Asynchronous sends over whole runs

A table that `mini_senda` has accepted stays with the kernel until everything in it is
delivered. The kernel then looks into it again only when the destination receives, and
what makes it look are `MF_ASYNMSG` of the destination and `s_asynsize` of the sender.
-/

namespace Nucleos.Kernel

open IntrusiveList Run

variable {l : Entry} {s t u : State}

def Event.Aside : Event → Prop
  | .sent _ _ _ => True
  | .notify _ _ => True
  | .notified _ _ _ => True
  | .intr _ _ => True
  | .sig _ _ => True
  | _ => False

structure Idle (s t : State) : Prop extends Steady s t where
  asynmsg : ∀ d, s.mfIsset d mfAsynmsg = true → t.mfIsset d mfAsynmsg = true
  asyntab : ∀ i, (t.priv i).sAsyntab = (s.priv i).sAsyntab
  asynsize : ∀ i, (t.priv i).sAsynsize = (s.priv i).sAsynsize
  tables : t.tables = s.tables
  history : Logs Event.Aside s t

lemma Steady.idle (h : Steady s t) (hmsg : ∀ d, s.mfIsset d mfAsynmsg = true → t.mfIsset d mfAsynmsg = true)
    (hpriv : t.priv = s.priv) (htab : t.tables = s.tables) (hhist : Logs Event.Aside s t) : Idle s t :=
  ⟨h, hmsg, fun i => by rw [hpriv], fun i => by rw [hpriv], htab, hhist⟩

lemma mfIsset_mfSet_other (s : State) (p q : Slot) {f g : BitVec 16} (h : f &&& g = 0#16) :
    (s.mfSet p f).mfIsset q g = s.mfIsset q g :=
  s.modProc_keep (fun x => ChunkMap.isset x.pMiscFlags g) (ChunkMap.isset_or_of_disjoint _ h) q

lemma mfIsset_mfUnset_other (s : State) (p q : Slot) {f g : BitVec 16} (h : f &&& g = 0#16) :
    (s.mfUnset p f).mfIsset q g = s.mfIsset q g :=
  s.modProc_keep (fun x => ChunkMap.isset x.pMiscFlags g) (ChunkMap.isset_andNot_of_disjoint _ h) q

lemma idle_block {p d : Slot} {dstE : Int} {m : Msg} (hp : s.isemptyp p = false)
    (h : blockSend p d dstE m s = .ok t) : Idle s t := by
  have hsteady := steady_block hp h
  obtain ⟨xpp, _, rfl⟩ := blockSend_eq_ok h
  refine hsteady.idle (fun q hq => ?_) ?_ ?_ (.of_eq ?_)
  · rw [State.writeCell_mfIsset, State.writeCell_mfIsset]
    exact (mfIsset_modProc s p q rfl _).trans hq
  · rw [State.writeCell_priv, State.writeCell_priv]
    rfl
  · rw [State.writeCell_tables, State.writeCell_tables]
    rfl
  · rw [State.writeCell_history, State.writeCell_history]
    rfl

lemma idle_release (hs : s.FreeOk) {q : Slot} (xpp : Cell Slot Slot) (v : Option Slot) :
    Idle s ((s.rtsUnset q rtsSending).writeCell xpp v) := by
  refine (steady_release hs xpp v).idle (fun p hp => ?_) ?_ ?_ (.of_eq ?_)
  · rw [State.writeCell_mfIsset]
    exact (mfIsset_modProc s q p rfl _).trans hp
  · rw [State.writeCell_priv]
    rfl
  · rw [State.writeCell_tables]
    rfl
  · rw [State.writeCell_history]
    rfl

lemma buildNotify_table {src : Int} {dst : Slot} {m : Msg} (h : buildNotifyMessage src dst s = .ok (m, u)) :
    (∀ i, (u.priv i).sAsyntab = (s.priv i).sAsyntab ∧ (u.priv i).sAsynsize = (s.priv i).sAsynsize) ∧
      u.tables = s.tables := by
  rcases (buildNotify_cases h).2 with rfl | ⟨j, rfl | rfl⟩
  · exact ⟨fun _ => ⟨rfl, rfl⟩, rfl⟩
  all_goals exact ⟨fun i => ⟨s.modPriv_keep _ rfl i, s.modPriv_keep _ rfl i⟩, rfl⟩

lemma deposit_asynmsg (ep : Int) (m : Msg) (dst : Slot) {d : Slot} (h : s.mfIsset d mfAsynmsg = true) :
    (deposit ep m dst s).mfIsset d mfAsynmsg = true :=
  (congrArg Shadow.asynmsg ((quiet_deposit ep m dst s).shadow d)).trans h

lemma idle_notify {caller dst : Slot} (hs : s.FreeOk) (h : NotifyEffect caller dst s t) : Idle s t := by
  have hsteady := steady_notify hs h
  cases h with
  | direct m u _ _ hbuild =>
    have hproc := buildNotify_proc hbuild
    obtain ⟨htab, hmem⟩ := buildNotify_table hbuild
    refine ⟨hsteady, fun d hd => ?_, fun i => (htab i).1, fun i => (htab i).2, hmem, ?_⟩
    · have hu : u.mfIsset d mfAsynmsg = true := by
        rw [State.mfIsset, hproc]
        exact hd
      have hdep := deposit_asynmsg (u.proc caller).pEndpoint m dst hu
      exact (mfIsset_rtsUnset _ dst d rtsReceiving _).trans hdep
    · refine ⟨[.notified (procNr caller) dst m.mData4, .notify caller dst], ?_,
        List.forall_mem_cons.mpr ⟨trivial, List.forall_mem_singleton.mpr trivial⟩⟩
      rw [← (buildNotify_built hbuild).history]
      rfl
  | posted i j _ _ =>
    refine ⟨hsteady, fun _ h => h, ?_, ?_, rfl, .cons rfl trivial⟩
    all_goals
      rw [State.record_priv]
      exact s.modPriv_keep _ rfl

lemma idle_raise (hs : s.FreeOk) (c : Channel) (i : PrivId) (dst : Slot) (bits : BitVec 32) :
    Idle s (c.raise i dst bits s) := by
  refine ⟨c.steady_raise i dst bits hs, fun d hd => ?_, fun k => ?_, fun k => ?_, ?_, ?_⟩
  · rw [State.mfIsset, c.raise_proc]
    exact hd
  · cases c <;> simp only [Channel.raise, State.record_priv, State.modPriv_priv] <;> split <;> rfl
  · cases c <;> simp only [Channel.raise, State.record_priv, State.modPriv_priv] <;> split <;> rfl
  · cases c <;> rfl
  · cases c with
    | int | sig => exact .cons rfl trivial

lemma Idle.trans (h : Idle s t) (h' : Idle t u) : Idle s u where
  static := h.static.trans h'.static
  isemptyp p := (h'.isemptyp p).trans (h.isemptyp p)
  noEndpoint p := (h'.noEndpoint p).trans (h.noEndpoint p)
  procNr i := (h'.procNr i).trans (h.procNr i)
  receiver p hr hm := by
    rcases h'.receiver p hr hm with ⟨hr', hm'⟩ | hmay
    · exact h.receiver p hr' hm'
    · exact .inr (h.static.mayReceive.mp hmay)
  asynmsg d hd := h'.asynmsg d (h.asynmsg d hd)
  asyntab i := (h'.asyntab i).trans (h.asyntab i)
  asynsize i := (h'.asynsize i).trans (h.asynsize i)
  tables := h'.tables.trans h.tables
  history := h.history.trans h'.history

lemma idle_take {p : Slot} {i id : PrivId} (hs : s.FreeOk) (h : takeNotify p i id s = .ok t) : Idle s t := by
  have hsteady := steady_take hs h
  obtain ⟨src, arg, _, _, _, _, hhist⟩ := takeNotify_eq_ok h
  obtain ⟨m, u, src', hbuild, -, rfl⟩ := takeNotify_inv h
  obtain ⟨htab, hmem⟩ := buildNotify_table hbuild
  refine ⟨hsteady, fun d hd => ?_, fun k => ?_, fun k => ?_, hmem, .cons hhist trivial⟩
  · have hu : u.mfIsset d mfAsynmsg = true := by
      rw [State.mfIsset, buildNotify_proc hbuild]
      exact hd
    exact deposit_asynmsg _ m p hu
  · exact (htab k).1.trans (s.modPriv_keep _ rfl k)
  · exact (htab k).2.trans (s.modPriv_keep _ rfl k)

/-- The updates again, with all those put together that leave the tables alone. -/
inductive Traffic (l : Entry) (s : State) : State → Prop where
  | idle (t : State) (h : Idle s t) : Traffic l s t
  | clear (p : Slot) (i : PrivId) (hlive : s.Live p) (hpriv : (s.proc p).pPriv = some i)
      (hsys : s.SysPriv i) :
      Traffic l s ((s.modPriv i fun v => { v with sAsyntab := 2 ^ 32 - 1, sAsynsize := 0 }).record
        (.asynClear p))
  | accept (p : Slot) (i : PrivId) (table count : Nat) (hlive : s.Live p) (hpriv : (s.proc p).pPriv = some i)
      (hsys : s.SysPriv i) (hscan : ∀ k < count, Settled s p (entryAddr table k)) :
      Traffic l s ((s.modPriv i fun v => { v with sAsyntab := table, sAsynsize := count }).record
        (.asynAccept p table count))
  | settle (p : Slot) (table count : Nat)
      (hdone : ∀ k < count, ¬ Undelivered (s.tables p (entryAddr table k))) :
      Traffic l s (s.record (.asynAccept p table count))
  | deliver (src dst : Slot) (a : Nat) (hund : Undelivered (s.tables src a))
      (hreply : (s.tables src a).flags &&& amfNoreply = 0 ∨ s.mfIsset dst mfReplyPend = false) :
      Traffic l s (completeEntry l.env src a 0 (s.tables src a).flags
        (s.record (.asyn src dst a (s.tables src a) (s.mfIsset dst mfReplyPend)))).2
  | refuse (src : Slot) (a : Nat) (r : Int) (hund : Undelivered (s.tables src a)) :
      Traffic l s (completeEntry l.env src a r (s.tables src a).flags s).2
  | drop (src : Slot) (i : PrivId) (hpriv : (s.proc src).pPriv = some i) (howner : s.Named src)
      (hwhy : s.Spent src i) :
      Traffic l s (s.modPriv i fun v => { v with sAsynsize := 0 })
  | none (p : Slot) (hnone : ∀ i src, (s.priv i).sProcNr = procNr src → NothingFor l.env s src p) :
      Traffic l s (s.mfUnset p mfAsynmsg)
  | write (p : Slot) (a : Nat) (e : AsynMsg) (hwrite : l.write = some e) :
      Traffic l s ((modEntry p a (fun _ => e) s).record (.wrote p a))
  | gone (rc : Slot) (t : State) (h : clearEndpoint rc s = .ok t) : Traffic l s t
  | free (rc : Slot) (i : PrivId) (t : State) (hpriv : (s.proc rc).pPriv = some i) (h : Freed rc i s t)
      (hgone : s.rtsIsset rc rtsNoEndpoint = true) : Traffic l s t

lemma Update.traffic (h : Update l s t) (hs : s.FreeOk) : Traffic l s t := by
  cases h with
  | quiet t h =>
    refine .idle t ((Steady.of_passive (.of_quiet h) (.of_quiet h hs) hs fun i => by rw [h.priv]).idle
      (fun d hd => ?_) h.priv h.tables (.of_eq h.history))
    exact (congrArg Shadow.asynmsg (h.shadow d)).trans hd
  | sent src dst m =>
    exact .idle _ (Steady.idle (.of_passive (.of_eq rfl rfl) (.of_proc rfl) hs fun _ =>
      rfl) (fun _ h => h) rfl rfl
      (.cons rfl trivial))
  | expectReply p _ =>
    refine .idle _ ((steady_expectReply p).idle (fun d hd => ?_) rfl rfl (.of_eq rfl))
    rw [mfIsset_mfSet_other s p d (by decide)]
    exact hd
  | expectAny p _ hmay =>
    refine .idle _ ((steady_expectAny p hmay).idle (fun d hd => ?_) rfl rfl (.of_eq rfl))
    rw [mfIsset_mfUnset_other s p d (by decide)]
    exact hd
  | wake p =>
    refine .idle _ (Steady.idle (.of_passive (static_rtsUnset s p _) (passive_wake s p) hs fun _ => rfl)
      (fun d hd => ?_) rfl rfl (.of_eq rfl))
    rw [mfIsset_rtsUnset]
    exact hd
  | block p d dstE m t _ hp _ _ _ _ _ hblock => exact .idle t (idle_block hp.1.1 hblock)
  | wait p srcE _ hlive _ _ _ _ _ _ hmay =>
    refine .idle _ ((steady_wait hlive.1 hmay).idle (fun d hd => ?_) rfl rfl (.of_eq rfl))
    exact (mfIsset_modProc s p d rfl _).trans hd
  | release p q xpp _ _ _ _ => exact .idle _ (idle_release hs xpp _)
  | notify caller dst t _ _ heff => exact .idle t (idle_notify hs heff)
  | interrupt task dst i bits t _ _ _ heff =>
    exact .idle t ((idle_raise hs .int i dst bits).trans (idle_notify hs heff))
  | signal task dst i bits t _ _ _ heff =>
    exact .idle t ((idle_raise hs .sig i dst bits).trans (idle_notify hs heff))
  | take p i id t _ _ _ _ h => exact .idle t (idle_take hs h)
  | asynOpen p i _ hlive hpriv hsys => exact .clear p i hlive hpriv hsys
  | asynMark d =>
    refine .idle _ (Steady.idle (.of_passive (static_mfSet s d _) (passive_mfSet s d (by decide)) hs
      fun _ => rfl)
      (fun p hp => ?_) rfl rfl (.of_eq rfl))
    exact mark_asynmsg s p d hp
  | asynClose p i table count _ hlive hpriv hsys hscan => exact .accept p i table count hlive hpriv hsys hscan
  | asynSettle p table count _ hdone => exact .settle p table count hdone
  | asynDeliver src dst a hund _ hreply => exact .deliver src dst a hund hreply
  | asynRefuse src a r hund _ => exact .refuse src a r hund
  | asynDrop src i hpriv howner hwhy => exact .drop src i hpriv howner hwhy
  | asynNone p hnone => exact .none p hnone
  | write p a e hwrite => exact .write p a e hwrite
  | gone rc t _ _ h => exact .gone rc t h
  | free rc i _ _ hpriv hgone => exact .free rc i _ hpriv (freed s rc i) hgone

end Nucleos.Kernel
