import Nucleos.Kernel.Outbox

/-!
# What a receive finds in the tables

`try_one` hands over the first entry of a table that is for the receiver, `try_async` goes
through the tables of all system processes. With the invariants of the tables this makes a
receive of the destination find what a `mini_senda` has left for it.
-/

namespace Nucleos.Kernel

open IntrusiveList Run

variable {s t u : State} {env : Env}

structure Deliverable (s : State) (src dst : Slot) (a : Nat) : Prop where
  undelivered : Undelivered (s.tables src a)
  addressed : (s.tables src a).dst = (s.proc dst).pEndpoint
  reply : (s.tables src a).flags &&& amfNoreply = 0 ∨ s.mfIsset dst mfReplyPend = false

section One
variable {src dst : Slot} {i : PrivId}

/-- What a search in one table can come to, when the memory of its owner can be reached. -/
inductive Found (s : State) (src dst : Slot) (i : PrivId) :
    Except Stop (Int × Bool × State) → Prop where
  | handed (a : Nat) (b : Bool) (t : State)
      (hlog : t.history = .asyn src dst a (s.tables src a) (s.mfIsset dst mfReplyPend) ::
        s.history) :
      Found s src dst i (.ok (0, b, t))
  | same (r : Int) (b : Bool) (hr : r ≠ 0) : Found s src dst i (.ok (r, b, s))
  | dropped (r : Int) (b : Bool) (hr : r ≠ 0) :
      Found s src dst i (.ok (r, b, s.modPriv i fun v => { v with sAsynsize := 0 }))

lemma handed_log (env : Env) (a : Nat) (r : Int) (flags : BitVec 32) (m : Msg) (e : Event) :
    (completeEntry env src a r flags
      ((deposit (s.proc src).pEndpoint m dst s).record e)).2.history = e :: s.history := by
  rw [complete_history]
  rfl

lemma tryScan_found (hreach : env.Reaches src) (tab n k : Nat) (done post : Bool) :
    Found s src dst i (tryScan env src dst i tab n k done post s) := by
  induction n generalizing k done post with
  | zero =>
    unfold tryScan
    cases done with
    | true => exact .dropped _ _ (by decide)
    | false => exact .same _ _ (by decide)
  | succ n ih =>
    rw [tryScan]
    have hread : ∀ a, (!env.canRead src a) ≠ true := fun a => by simp [(hreach a).1]
    rw [if_neg (hread _), if_neg (hread _), if_neg (hread _)]
    split
    · exact ih _ _ _
    split
    · exact .dropped _ _ (by decide)
    split
    · exact ih _ _ _
    split
    · exact ih _ _ _
    split
    · exact ih _ _ _
    simp only [queueMess, bind, Except.bind]
    rw [complete_reaches hreach]
    exact .handed _ _ _ (handed_log _ _ _ _ _ _)

lemma tryScan_delivers {tab n k m : Nat} {done post : Bool} (hreach : env.Reaches src)
    (hwf : ∀ j < k + n, WellFormed (s.tables src (entryAddr tab j))) (hkm : k ≤ m) (hm : m < k + n)
    (hent : Deliverable s src dst (entryAddr tab m)) :
    ∃ b t j, tryScan env src dst i tab n k done post s = .ok (0, b, t) ∧ j ≤ m ∧
      t.history = .asyn src dst (entryAddr tab j) (s.tables src (entryAddr tab j))
        (s.mfIsset dst mfReplyPend) ::
        s.history := by
  induction n generalizing k done post with
  | zero => omega
  | succ n ih =>
    have next : ∀ {done post}, ¬ Deliverable s src dst (entryAddr tab k) →
        ∃ b t j, tryScan env src dst i tab n (k + 1) done post s = .ok (0, b, t) ∧ j ≤ m ∧
          t.history = .asyn src dst (entryAddr tab j) (s.tables src (entryAddr tab j))
            (s.mfIsset dst mfReplyPend) ::
            s.history := by
      intro done post hno
      have hne : k ≠ m := by
        rintro rfl
        exact hno hent
      exact ih (fun j hj => hwf j (by omega)) (by omega) (by omega)
    rw [tryScan]
    have hread : ∀ a, (!env.canRead src a) ≠ true := fun a => by simp [(hreach a).1]
    rw [if_neg (hread _), if_neg (hread _), if_neg (hread _)]
    split
    · rename_i hzero
      exact next fun h => h.undelivered.1 hzero
    rename_i hzero
    have hok := (hwf k (by omega)).resolve_left hzero
    rw [if_neg (ne_true_of_eq_false hok)]
    split
    · rename_i hdone
      exact next fun h => hdone h.undelivered.2.2
    split
    · rename_i hdst
      exact next fun h => hdst h.addressed
    split
    · rename_i hpost
      rw [Bool.and_eq_true, decide_eq_true_eq] at hpost
      refine next fun h => ?_
      rcases h.reply with hr | hr
      · exact hpost.1 hr
      · exact absurd hpost.2 (ne_true_of_eq_false hr)
    · simp only [queueMess, bind, Except.bind]
      rw [complete_reaches hreach]
      exact ⟨_, _, k, rfl, hkm, handed_log _ _ _ _ _ _⟩

lemma tryOne_found (hreach : env.Reaches src) (hi : (s.proc src).pPriv = some i)
    (hdst : ∃ j, (s.proc dst).pPriv = some j) : Found s src dst i (tryOne env src dst s) := by
  obtain ⟨j, hj⟩ := hdst
  unfold tryOne State.maySendTo
  rw [(s.privOf_eq_ok).mpr hi, (s.privOf_eq_ok).mpr hj]
  simp only [bind, Except.bind, pure, Except.pure]
  split
  · exact .same _ _ (by decide)
  split
  · exact .same _ _ (by decide)
  split
  · exact .same _ _ (by decide)
  · exact tryScan_found hreach _ _ _ _ _

end One

structure Waits (s : State) (src dst : Slot) (i : PrivId) (m : Nat) : Prop where
  priv : (s.proc src).pPriv = some i
  id : (s.priv i).sId ≠ userPrivId
  owner : (s.priv i).sProcNr = procNr src
  may : s.maySendTo src dst = .ok true
  wellFormed : ∀ j < (s.priv i).sAsynsize, WellFormed (s.entry src i j)
  lt : m < (s.priv i).sAsynsize
  entry : Deliverable s src dst (entryAddr (s.priv i).sAsyntab m)

namespace Waits
variable {src dst : Slot} {i : PrivId} {m : Nat}

lemma tryOne (h : Waits s src dst i m) (hreach : env.Reaches src) :
    ∃ b t j, tryOne env src dst s = .ok (0, b, t) ∧ j ≤ m ∧
      t.history = .asyn src dst (entryAddr (s.priv i).sAsyntab j) (s.entry src i j)
        (s.mfIsset dst mfReplyPend) ::
        s.history := by
  have hlt := h.lt
  unfold Kernel.tryOne
  rw [(s.privOf_eq_ok).mpr h.priv, h.may]
  simp only [bind, Except.bind, if_neg h.id, Bool.not_true, Bool.false_eq_true, if_false]
  rw [if_neg (by omega)]
  exact tryScan_delivers hreach (fun j hj => h.wellFormed j (by omega)) (Nat.zero_le m)
    (by omega) h.entry

lemma drop (h : Waits s src dst i m) {j : PrivId} (hj : j ≠ i) :
    Waits (s.modPriv j fun v => { v with sAsynsize := 0 }) src dst i m := by
  have hst : Static s (s.modPriv j fun v => { v with sAsynsize := 0 }) := by
    apply Static.modPriv <;> rfl
  have hi : (s.modPriv j fun v => { v with sAsynsize := 0 }).priv i = s.priv i := by
    rw [State.modPriv_priv, if_neg (Ne.symm hj)]
  refine ⟨h.priv, ?_, ?_, (maySendTo_static hst src dst).trans h.may, ?_, ?_, ?_⟩
  · rw [hi]
    exact h.id
  · rw [hi]
    exact h.owner
  · rw [hi]
    intro k hk
    rw [State.entry, hi]
    exact h.wellFormed k hk
  · rw [hi]
    exact h.lt
  · rw [hi]
    exact ⟨h.entry.undelivered, h.entry.addressed, h.entry.reply⟩

end Waits

/-- The process table and who owns which privilege structure, as far as `try_async` needs it. -/
def State.Owned (s : State) : Prop :=
  ∀ j, (s.priv j).sProcNr = endptNone ∨ ∃ q, (s.priv j).sProcNr = procNr q ∧
    (s.proc q).pPriv = some j

lemma Owned.drop (h : s.Owned) (i : PrivId) :
    (s.modPriv i fun v => { v with sAsynsize := 0 }).Owned := by
  intro j
  have hj : ((s.modPriv i fun v => { v with sAsynsize := 0 }).priv j).sProcNr =
    (s.priv j).sProcNr :=
    s.modPriv_keep Priv.sProcNr rfl j
  rw [hj]
  exact h j

lemma tryPrivs_delivers {src dst : Slot} {i : PrivId} {m : Nat} {rest : List PrivId} (post : Bool)
    (hreach : ∀ q, env.Reaches q) (hown : s.Owned) (hw : Waits s src dst i m) (hi : i ∈ rest)
    (hlog : u.history = s.history) :
    ∃ t q a e b, tryPrivs env dst rest post s = .ok (0, t) ∧ t.history = .asyn q dst a e b ::
      u.history := by
  induction rest generalizing s post with
  | nil => exact absurd hi List.not_mem_nil
  | cons j rest ih =>
    rw [tryPrivs]
    have hdst : ∃ k, (s.proc dst).pPriv = some k := by
      have hmay := hw.may
      unfold State.maySendTo at hmay
      obtain ⟨_, _, hmay⟩ := bind_eq_ok.mp hmay
      obtain ⟨k, hk, _⟩ := bind_eq_ok.mp hmay
      exact ⟨k, (s.privOf_eq_ok).mp hk⟩
    have hrest : i ≠ j → i ∈ rest := fun hne => (List.mem_cons.mp hi).resolve_left hne
    rcases hown j with hnone | ⟨q, hq, hqj⟩
    · rw [if_pos hnone]
      refine ih _ hown hw (hrest ?_) hlog
      rintro rfl
      exact procNr_ne_none src (hw.owner.symm.trans hnone)
    rw [if_neg (fun h => procNr_ne_none q (hq.symm.trans h)), hq, slotOf_procNr]
    simp only [bind, Except.bind]
    by_cases hij : i = j
    · subst hij
      obtain rfl := procNr_injective (hw.owner.symm.trans hq)
      obtain ⟨b, t, k, hone, _, hhist⟩ := hw.tryOne (hreach src)
      rw [hone]
      exact ⟨t, src, _, _, _, rfl, hhist.trans (congrArg _ hlog.symm)⟩
    · have hfound := tryOne_found (hreach q) hqj hdst
      cases hone : tryOne env q dst s with
      | error e =>
        rw [hone] at hfound
        cases hfound
      | ok x =>
        rw [hone] at hfound
        cases hfound with
        | handed a b t hhist =>
          exact ⟨t, q, _, _, _, rfl, hhist.trans (congrArg _ hlog.symm)⟩
        | same r b hr =>
          simp only [if_neg hr]
          exact ih _ hown hw (hrest hij) hlog
        | dropped r b hr =>
          simp only [if_neg hr]
          exact ih _ (Owned.drop hown j) (hw.drop (Ne.symm hij)) (hrest hij) hlog

lemma entryAddr_le {table j k : Nat} (h : j ≤ k) : entryAddr table j ≤ entryAddr table k := by
  simp only [entryAddr, sizeofAsynmsg]
  omega

section Receive
variable {src dst : Slot} {i : PrivId} {m : Nat}

lemma Waits.receive_from (h : Waits s src dst i m) (hreach : env.Reaches src)
    (hmark : s.mfIsset dst mfAsynmsg = true) :
    ∃ t b, b ≤ entryAddr (s.priv i).sAsyntab m ∧ receiveAsyn env dst (some src) s = .ok (true, t) ∧
      t.history = .asyn src dst b (s.tables src b) (s.mfIsset dst mfReplyPend) :: s.history := by
  obtain ⟨_, t, j, hone, hj, hlog⟩ := h.tryOne hreach
  refine ⟨t, entryAddr (s.priv i).sAsyntab j, entryAddr_le hj, ?_, hlog⟩
  rw [receiveAsyn, if_pos hmark, trySource, hone]
  rfl

lemma Waits.receive_any (h : Waits s src dst i m) (hreach : ∀ q, env.Reaches q) (hown : s.Owned)
    (hmark : s.mfIsset dst mfAsynmsg = true) :
    ∃ t q b e c, receiveAsyn env dst none s = .ok (true, t) ∧ t.history = .asyn q dst b e c ::
      s.history := by
  obtain ⟨t, q, b, e, c, hall, hlog⟩ :=
    tryPrivs_delivers false hreach hown h (List.mem_finRange i) rfl
  refine ⟨t, q, b, e, c, ?_, hlog⟩
  rw [receiveAsyn, if_pos hmark, trySource, tryAsync, hall]
  rfl

end Receive

lemma Held.owned (h : Held s) : s.Owned := fun j =>
  (h.slots j).imp_right fun ⟨q, hq⟩ => ⟨q, hq, (h.assigned j q hq).1⟩

lemma Held.waits (h : Held s) (hn : Notices s) {p d : Slot} {a : Nat}
    (hsub : Submitted p a s.history)
    (hund : Undelivered (s.tables p a)) (hd : s.isokendpt (s.tables p a).dst = some d) :
    s.mfIsset d mfAsynmsg = true ∧ ∃ i m, (s.proc p).pPriv = some i ∧ m < (s.priv i).sAsynsize ∧
      a = entryAddr (s.priv i).sAsyntab m ∧
      ((s.tables p a).flags &&& amfNoreply = 0 ∨ s.mfIsset d mfReplyPend = false →
        Waits s p d i m) := by
  obtain ⟨⟨hlive, i, m, hi, hsys, hm, ha⟩, d', hp, _, hmay, hmark⟩ := h.held p a hsub hund
  obtain ⟨hp', hempty, hep⟩ := (s.isokendpt_eq_some).mp hd
  obtain rfl := procNr_injective (hp.symm.trans hp')
  refine ⟨hmark hempty, i, m, hi, hm, ha, fun hreply => ⟨hi, ?_, hn.owner p i hlive.1 hi hsys, hmay,
    ?_, hm, ?_⟩⟩
  · rw [hn.id]
    rintro rfl
    exact h.user hsys
  · exact fun j hj => h.wellFormed p i j hlive.1 hi hsys hj
  · rw [← ha]
    exact ⟨hund, hep.symm, hreply⟩

theorem asyn_tables_of_run {n : Nat} (tr : Trace step n) (hboot : Boot (tr.state 0))
    (hreach : ∀ k < n, (tr.act k).Reaching (tr.state k)) {k : Nat} (hk : k ≤ n) :
    (∀ new old p d a e b, (tr.state k).history = new ++ .asyn p d a e b :: old →
      ¬ Delivered p a old) ∧
    (∀ p d a e b, .asyn p d a e b ∈ (tr.state k).history → e.flags &&& amfNoreply ≠ 0 → b = false) ∧
    (¬ (tr.state 0).SysPriv userPrivId → (∀ k < n, (tr.act k).Tidy (tr.state k)) →
      ∀ p a d, Submitted p a (tr.state k).history → Undelivered ((tr.state k).tables p a) →
      (tr.state k).isokendpt ((tr.state k).tables p a).dst = some d →
        (tr.state k).mfIsset d mfAsynmsg = true ∧
        (∃ i, ((tr.state k).proc p).pPriv = some i ∧ ((tr.state k).priv i).sAsynsize ≠ 0) ∧
        ∀ env : Env, (∀ q, env.Reaches q) →
          (((tr.state k).tables p a).flags &&& amfNoreply = 0 ∨
            (tr.state k).mfIsset d mfReplyPend = false) →
            (∃ t b, b ≤ a ∧ receiveAsyn env d (some p) (tr.state k) = .ok (true, t) ∧
              t.history = .asyn p d b ((tr.state k).tables p b)
                ((tr.state k).mfIsset d mfReplyPend) ::
                (tr.state k).history) ∧
            ∃ t q b e c, receiveAsyn env d none (tr.state k) = .ok (true, t) ∧
              t.history = .asyn q d b e c :: (tr.state k).history) := by
  have hsealed := Trace.sealed tr hboot hreach k hk
  refine ⟨fun new old p d a e b hhist => ?_, fun p d a e b hmem hno => ?_,
    fun huser htidy p a d hsub hund hd => ?_⟩
  · have honce := hsealed.once
    rw [hhist] at honce
    exact honce.of_append.1
  · exact (hsealed.reply p d a e b hmem).resolve_left hno
  obtain ⟨hheld, hn⟩ := Trace.outbox tr hboot huser hreach htidy k hk
  obtain ⟨hmark, i, m, hi, hm, ha, hwaits⟩ := hheld.waits hn hsub hund hd
  refine ⟨hmark, ⟨i, hi, by omega⟩, fun env hreach hreply => ?_⟩
  obtain ⟨t, b, hb, hrecv, hlog⟩ := (hwaits hreply).receive_from (hreach p) hmark
  exact ⟨⟨t, b, ha ▸ hb, hrecv, hlog⟩, (hwaits hreply).receive_any hreach hheld.owned hmark⟩

/-- The process manager leaves a message for the file system in the second entry of a table, then
writes reserved bits into the first entry, which is not in use; the file system then receives. -/
def spoiltTable : Trace step 4 :=
  Trace.run step bootKernel
    (fun k =>
      if k = 0 then .write 4 (entryAddr 0 1) ⟨amfValid, vfsProcNr, 0, Msg.zero⟩
      else if k = 1 then .trap 4 5 2 0 0 (kernelEnv Msg.zero)
      else if k = 2 then .write 4 (entryAddr 0 0) ⟨0x80, 0, 0, Msg.zero⟩
      else .trap 5 2 0 endptAny 0 (kernelEnv Msg.zero))
    4 (by decide +kernel)

def leftTable : Trace step 2 :=
  ⟨spoiltTable.state, spoiltTable.act, fun i hi => spoiltTable.ok i (by omega)⟩

lemma bootKernel_user : ¬ bootKernel.SysPriv userPrivId := not_not.mpr (by decide +kernel)

lemma reaches_kernelEnv (m : Msg) (q : Slot) : (kernelEnv m).Reaches q := fun _ => ⟨rfl, rfl⟩

theorem asyn_tables_of_leftTable :
    ∃ t b, b ≤ entryAddr 0 1 ∧ receiveAsyn (kernelEnv Msg.zero) 5 (some 4) (leftTable.state 2) =
      .ok (true, t) ∧
      t.history = .asyn 4 5 b ((leftTable.state 2).tables 4 b)
        ((leftTable.state 2).mfIsset 5 mfReplyPend) :: (leftTable.state 2).history := by
  have hreach : ∀ k < 2, (leftTable.act k).Reaching (leftTable.state k) := by
    intro k hk
    match k, hk with
    | 0, _ | 1, _ => exact reaches_kernelEnv _
  have htidy : ∀ k < 2, (leftTable.act k).Tidy (leftTable.state k) := by
    intro k hk
    match k, hk with
    | 0, _ =>
      rintro e he
      cases he
      exact .inr (by decide)
    | 1, _ => exact nofun
  have hrun := asyn_tables_of_run leftTable boot_bootKernel hreach (k := 2) (by decide)
  have hsub : Submitted 4 (entryAddr 0 1) (leftTable.state 2).history := by
    rw [show (leftTable.state 2).history = [.asynAccept 4 0 2, .asynClear 4,
      .wrote 4 (entryAddr 0 1)] by decide +kernel]
    exact .accept 0 _ (by decide) rfl
  have hund : Undelivered ((leftTable.state 2).tables 4 (entryAddr 0 1)) := by
    refine ⟨?_, ?_, ?_⟩ <;> decide +kernel
  obtain ⟨_, _, hrecv⟩ := hrun.2.2 bootKernel_user htidy 4 (entryAddr 0 1) 5 hsub hund
    (by decide +kernel)
  exact (hrecv (kernelEnv Msg.zero) (reaches_kernelEnv _) (.inl (by decide +kernel))).1

/-- The message is lost to the receiver although nothing but the unused entry was written. -/
theorem asyn_entry_forgotten : Boot (spoiltTable.state 0) ∧
    ¬ (spoiltTable.state 0).SysPriv userPrivId ∧
      (∀ k < 4, ∀ q, (entryOf (spoiltTable.state k) (spoiltTable.act k)).env.Reaches q) ∧
      (spoiltTable.state 2).history = [.asynAccept 4 0 2, .asynClear 4, .wrote 4 (entryAddr 0 1)] ∧
      (spoiltTable.state 4).history = .wrote 4 (entryAddr 0 0) :: (spoiltTable.state 2).history ∧
      ((spoiltTable.state 2).tables 4 (entryAddr 0 0)).flags = 0 ∧
      ((spoiltTable.state 4).tables 4 (entryAddr 0 1)).flags = amfValid ∧
      (spoiltTable.state 4).isokendpt ((spoiltTable.state 4).tables 4 (entryAddr 0 1)).dst =
        some 5 ∧
      (spoiltTable.state 4).rtsIsset 5 rtsNoEndpoint = false ∧
      (spoiltTable.state 4).mfIsset 5 mfAsynmsg = false ∧
      ((spoiltTable.state 4).proc 4).pPriv = some 4 ∧
        ((spoiltTable.state 4).priv 4).sAsynsize = 0 := by
  refine ⟨boot_bootKernel, bootKernel_user, ?_, ?_, ?_, ?_, ?_, ?_, ?_, ?_, ?_, ?_⟩
  · intro k hk q
    match k, hk with
    | 0, _ | 1, _ | 2, _ | 3, _ => exact reaches_kernelEnv _ q
  all_goals decide +kernel

end Nucleos.Kernel
