import Nucleos.Kernel.Receive

/-!
# The updates of the asynchronous tables

`try_one` and `try_async` scan the tables on behalf of a receiver, `mini_senda` on behalf of
the sender. The loops carry what they have learnt about the entries already passed, and that
is what justifies clearing `MF_ASYNMSG` or keeping the table at their end.
-/

namespace Nucleos.Kernel

open IntrusiveList Run

variable {l : Entry} {s t u : State} {env : Env} {a : Nat}

def Event.Plain : Event → Prop
  | .sent _ _ _ => True
  | .asyn _ _ _ _ _ => True
  | .asynClear _ => True
  | .asynAccept _ _ _ => True
  | .wrote _ _ => True
  | _ => False

def Logs (P : Event → Prop) (s t : State) : Prop := ∃ es, t.history = es ++ s.history ∧ ∀ e ∈ es, P e

namespace Logs
variable {P : Event → Prop}

lemma of_eq (h : t.history = s.history) : Logs P s t := ⟨[], h, List.forall_mem_nil P⟩

lemma refl (s : State) : Logs P s s := of_eq rfl

variable {e : Event}

lemma cons (h : t.history = e :: s.history) (he : P e) : Logs P s t :=
  ⟨[e], h, List.forall_mem_singleton.mpr he⟩

lemma trans (h : Logs P s t) (h' : Logs P t u) : Logs P s u := by
  obtain ⟨es, hes, hP⟩ := h
  obtain ⟨es', hes', hP'⟩ := h'
  exact ⟨es' ++ es, by rw [hes', hes, List.append_assoc], List.forall_mem_append.mpr ⟨hP', hP⟩⟩

lemma single (h : Logs P s t) (ht : t.history = e :: s.history) : P e := by
  obtain ⟨es, hes, hP⟩ := h
  obtain rfl : [e] = es := List.append_cancel_right (ht.symm.trans hes)
  exact hP e (List.mem_singleton.mpr rfl)

end Logs

structure Kept (env : Env) (s t : State) : Prop where
  procNr : ∀ i, (t.priv i).sProcNr = (s.priv i).sProcNr
  size : ∀ i, (t.priv i).sAsynsize = 0 ∨
    ((t.priv i).sAsynsize = (s.priv i).sAsynsize ∧ (t.priv i).sAsyntab = (s.priv i).sAsyntab)
  tables : ∀ p, env.Reaches p → t.tables p = s.tables p

lemma Kept.refl (env : Env) (s : State) : Kept env s s :=
  ⟨fun _ => rfl, fun _ => .inr ⟨rfl, rfl⟩, fun _ _ => rfl⟩

lemma Kept.drop (env : Env) (s : State) (i : PrivId) :
    Kept env s (s.modPriv i fun v => { v with sAsynsize := 0 }) := by
  refine ⟨fun j => ?_, fun j => ?_, fun _ _ => rfl⟩
  · exact s.modPriv_keep Priv.sProcNr rfl j
  rw [State.modPriv_priv]
  split
  · exact .inl rfl
  · exact .inr ⟨rfl, rfl⟩

lemma maySendTo_static (h : Static s t) (p q : Slot) : t.maySendTo p q = s.maySendTo p q := by
  unfold State.maySendTo State.privOf
  rw [h.priv p, h.priv q]
  cases (s.proc p).pPriv with
  | none => rfl
  | some i =>
    cases (s.proc q).pPriv with
    | none => rfl
    | some j =>
      simp only [bind, Except.bind, pure, Except.pure]
      rw [h.ipcTo i, h.id j]

lemma NothingFor.kept {src dst : Slot} (h : NothingFor env s src dst) (hst : Static s t)
    (hk : Kept env s t) : NothingFor env t src dst := by
  intro i hi hid hmay hreach k hlt hund
  have hi' := (hst.priv src).symm.trans hi
  rcases hk.size i with hzero | ⟨hsize, htab⟩
  · rw [hzero] at hlt
    exact absurd hlt (Nat.not_lt_zero k)
  have hentry : t.entry src i k = s.entry src i k := by
    rw [State.entry, State.entry, htab, hk.tables src hreach]
  rw [hentry] at hund ⊢
  rw [hst.endpoint dst]
  exact h i hi' ((hst.id i).symm.trans_ne hid) ((maySendTo_static hst src dst).symm.trans hmay)
    hreach k (hsize ▸ hlt) hund

lemma complete_reaches {p : Slot} {r : Int} {flags : BitVec 32} (h : env.Reaches p) :
    (completeEntry env p a r flags s).1 = 0 := by
  simp [completeEntry, (h (a + offResult)).2, (h a).2]

lemma complete_kept {p q : Slot} {r : Int} {flags : BitVec 32} (hq : q ≠ p) :
    (completeEntry env p a r flags s).2.tables q = s.tables q := by
  unfold completeEntry
  split
  · rfl
  simp only
  split
  · simp [modEntry, hq]
  · simp [modEntry, hq]

lemma complete_priv (p : Slot) (a : Nat) (r : Int) (flags : BitVec 32) :
    (completeEntry env p a r flags s).2.priv = s.priv := by
  unfold completeEntry
  split
  · rfl
  · simp only
    split <;> rfl

lemma complete_history (env : Env) (p : Slot) (a : Nat) (r : Int) (flags : BitVec 32) (s : State) :
    (completeEntry env p a r flags s).2.history = s.history := by
  unfold completeEntry
  split
  · rfl
  · simp only
    split <;> rfl

lemma deposit_mfIsset (ep : Int) (m : Msg) (dst p : Slot) (s : State) :
    (deposit ep m dst s).mfIsset p mfReplyPend = s.mfIsset p mfReplyPend :=
  (passive_deposit ep m dst s p).replyPend

lemma deliver_updates {src dst : Slot} (hund : Undelivered (s.tables src a))
    (hdst : (s.tables src a).dst = (s.proc dst).pEndpoint)
    (hreply : (s.tables src a).flags &&& amfNoreply = 0 ∨ s.mfIsset dst mfReplyPend = false)
    (henv : l.env = env) : Updates l s
      (completeEntry env src a 0 (s.tables src a).flags
        ((deposit (s.proc src).pEndpoint (s.tables src a).msg dst s).record
          (.asyn src dst a (s.tables src a) (s.mfIsset dst mfReplyPend)))).2 := by
  subst henv
  have hq := quiet_deposit (s.proc src).pEndpoint (s.tables src a).msg dst s
  have hrep := deposit_mfIsset (s.proc src).pEndpoint (s.tables src a).msg dst dst s
  refine (Update.quiet _ hq).updates.trans ?_
  rw [← hrep] at hreply ⊢
  have hep := congrArg Shadow.endpoint (hq.shadow dst)
  exact (Update.asynDeliver (s := deposit (s.proc src).pEndpoint (s.tables src a).msg dst s)
    src dst a hund (hdst.trans hep.symm) hreply).updates

lemma Undelivered.intro {e : AsynMsg} (h₀ : ¬ e.flags = 0) (hbad : ¬ badFlags e.flags = true)
    (hdone : ¬ e.flags &&& amfDone ≠ 0) : Undelivered e :=
  ⟨h₀, Bool.eq_false_iff.mpr hbad, not_not.mp hdone⟩

section Search
variable {src dst : Slot} {i : PrivId} {r : Int} {postponed' : Bool} {k : Nat}
    {done postponed : Bool}

structure Passed (s : State) (src dst : Slot) (i : PrivId) (k : Nat) (done postponed : Bool) : Prop where
  done : done = true → ∀ j < k, ¬ Undelivered (s.entry src i j)
  postponed : postponed = false → ∀ j < k, Undelivered (s.entry src i j) →
    (s.entry src i j).dst ≠ (s.proc dst).pEndpoint

lemma Passed.skip (h : Passed s src dst i k done postponed)
    (hnot : ¬ Undelivered (s.entry src i k)) : Passed s src dst i (k + 1) done postponed := by
  refine ⟨fun hd j hj => ?_, fun hp j hj hund => ?_⟩
  · rcases Nat.lt_succ_iff_lt_or_eq.mp hj with hlt | rfl
    · exact h.done hd j hlt
    · exact hnot
  · rcases Nat.lt_succ_iff_lt_or_eq.mp hj with hlt | rfl
    · exact h.postponed hp j hlt hund
    · exact absurd hund hnot

lemma Passed.other (h : Passed s src dst i k done postponed)
    (hne : (s.entry src i k).dst ≠ (s.proc dst).pEndpoint) :
    Passed s src dst i (k + 1) false postponed := by
  refine ⟨nofun, fun hp j hj hund => ?_⟩
  rcases Nat.lt_succ_iff_lt_or_eq.mp hj with hlt | rfl
  · exact h.postponed hp j hlt hund
  · exact hne

structure Searched (env : Env) (s t : State) (src dst : Slot) (r : Int) (postponed : Bool) : Prop where
  updates : ∀ l : Entry, l.env = env → Updates l s t
  kept : r ≠ 0 → Kept env s t
  nothing : r ≠ 0 → postponed = false → NothingFor env t src dst
  logs : Logs Event.Plain s t

lemma searched_fault (postponed : Bool) (hr : ¬ env.Reaches src) :
    Searched env s s src dst (-efault) postponed :=
  ⟨fun l _ => .refl l s, fun _ => .refl env s, fun _ _ _ _ _ _ hreach => absurd hreach hr, .refl s⟩

lemma searched_drop (postponed : Bool) (hpriv : (s.proc src).pPriv = some i) (howner : s.Named src)
    (hwhy : s.Spent src i) :
    Searched env s (s.modPriv i fun v => { v with sAsynsize := 0 }) src dst r postponed := by
  refine ⟨fun l _ => (Update.asynDrop src i hpriv howner hwhy).updates, fun _ => .drop env s i,
    ?_, .of_eq rfl⟩
  intro _ _ j hj _ _ _ k hlt
  obtain rfl := Option.some.inj (hpriv.symm.trans hj)
  simp [State.modPriv_priv] at hlt

lemma notPostponed {e : AsynMsg}
    (h : ¬ (decide (e.flags &&& amfNoreply ≠ 0) && s.mfIsset dst mfReplyPend) = true) :
    e.flags &&& amfNoreply = 0 ∨ s.mfIsset dst mfReplyPend = false := by
  rw [Bool.and_eq_true, not_and_or] at h
  rcases h with h | h
  · exact .inl (by simpa using h)
  · exact .inr (Bool.eq_false_iff.mpr h)

lemma searched_deliver {a : Nat} (hund : Undelivered (s.tables src a))
    (hdst : (s.tables src a).dst = (s.proc dst).pEndpoint)
    (hreply : (s.tables src a).flags &&& amfNoreply = 0 ∨ s.mfIsset dst mfReplyPend = false)
    (h : completeEntry env src a 0 (s.tables src a).flags
        ((deposit (s.proc src).pEndpoint (s.tables src a).msg dst s).record
          (.asyn src dst a (s.tables src a) (s.mfIsset dst mfReplyPend))) = (r, t)) :
    Searched env s t src dst r postponed := by
  obtain ⟨rfl, rfl⟩ := Prod.ext_iff.mp h
  refine ⟨fun l hl => deliver_updates hund hdst hreply hl, fun hr => ?_, fun hr _ => ?_,
    .cons (complete_history env src a _ _ _) trivial⟩
  · refine ⟨fun j => ?_, fun j => ?_, fun p hp => ?_⟩
    · rw [complete_priv]
      rfl
    · rw [complete_priv]
      exact .inr ⟨rfl, rfl⟩
    · by_cases hps : p = src
      · subst hps
        exact absurd (complete_reaches hp) hr
      · rw [complete_kept hps]
        rfl
  · intro _ _ _ _ hreach
    exact absurd (complete_reaches hreach) hr

lemma tryScan_spec {n : Nat} (hpriv : (s.proc src).pPriv = some i) (howner : s.Named src)
    (hsize : (s.priv i).sAsynsize = k + n) (hpass : Passed s src dst i k done postponed)
    (h : tryScan env src dst i (s.priv i).sAsyntab n k done postponed s = .ok (r, postponed', t)) :
    Searched env s t src dst r postponed' := by
  induction n generalizing k done postponed with
  | zero =>
    simp only [tryScan, Except.ok.injEq, Prod.mk.injEq] at h
    obtain ⟨rfl, rfl, rfl⟩ := h
    split
    · rename_i hd
      exact searched_drop postponed hpriv howner (Or.inr fun j hj => hpass.done hd j (by omega))
    refine ⟨fun l _ => .refl l s, fun _ => .refl env s, ?_, .refl s⟩
    intro _ hpost j hj _ _ _ m hm hund
    obtain rfl := Option.some.inj (hpriv.symm.trans hj)
    exact hpass.postponed hpost m (by omega) hund
  | succ n ih =>
    have next : ∀ {d p}, Passed s src dst i (k + 1) d p →
        tryScan env src dst i (s.priv i).sAsyntab n (k + 1) d p s = .ok (r, postponed', t) →
          Searched env s t src dst r postponed' := fun hp hrec => ih (by omega) hp hrec
    have hreach : ∀ a, (!env.canRead src a) = true → ¬ env.Reaches src := by
      intro a ha hr
      simp [(hr a).1] at ha
    rw [tryScan] at h
    rcases ite_eq_iff.mp h with ⟨hread, h⟩ | ⟨_, h⟩
    · cases h
      exact searched_fault _ (hreach _ hread)
    rcases ite_eq_iff.mp h with ⟨h₀, h⟩ | ⟨h₀, h⟩
    · exact next (hpass.skip fun hund => hund.1 h₀) h
    rcases ite_eq_iff.mp h with ⟨hbad, h⟩ | ⟨hbad, h⟩
    · cases h
      exact searched_drop _ hpriv howner (Or.inl ⟨k, by omega, h₀, hbad⟩)
    rcases ite_eq_iff.mp h with ⟨hdone, h⟩ | ⟨hdone, h⟩
    · exact next (hpass.skip fun hund => hdone hund.2.2) h
    have hund : Undelivered (s.entry src i k) := .intro h₀ hbad hdone
    rcases ite_eq_iff.mp h with ⟨hread, h⟩ | ⟨_, h⟩
    · cases h
      exact searched_fault _ (hreach _ hread)
    rcases ite_eq_iff.mp h with ⟨hdst, h⟩ | ⟨hdst, h⟩
    · exact next (hpass.other hdst) h
    rcases ite_eq_iff.mp h with ⟨_, h⟩ | ⟨hpost, h⟩
    · exact next (d := false) (p := true) ⟨nofun, nofun⟩ h
    rcases ite_eq_iff.mp h with ⟨hread, h⟩ | ⟨_, h⟩
    · cases h
      exact searched_fault _ (hreach _ hread)
    simp only [queueMess, bind, Except.bind, Except.ok.injEq, Prod.mk.injEq] at h
    obtain ⟨rfl, rfl, rfl⟩ := h
    exact searched_deliver hund (not_not.mp hdst) (notPostponed hpost) rfl

lemma tryOne_spec (howner : s.Named src) (h : tryOne env src dst s = .ok (r, postponed', t)) :
    Searched env s t src dst r postponed' := by
  unfold tryOne at h
  obtain ⟨i, hi, h⟩ := bind_eq_ok.mp h
  have hpriv := (s.privOf_eq_ok).mp hi
  have unchanged : NothingFor env s src dst → Searched env s s src dst (-eagain) false :=
    fun hn => ⟨fun l _ => .refl l s, fun _ => .refl env s, fun _ _ => hn, .refl s⟩
  split at h
  · rename_i huser
    cases h
    refine unchanged fun j hj hid => ?_
    obtain rfl := Option.some.inj (hpriv.symm.trans hj)
    exact absurd huser hid
  · split at h
    · rename_i hzero
      cases h
      refine unchanged fun j hj _ _ _ k hlt => ?_
      obtain rfl := Option.some.inj (hpriv.symm.trans hj)
      rw [hzero] at hlt
      exact absurd hlt (Nat.not_lt_zero k)
    · obtain ⟨allowed, hallow, h⟩ := bind_eq_ok.mp h
      split at h
      · rename_i hno
        cases h
        refine unchanged fun j _ _ hmay => ?_
        rw [hallow] at hmay
        cases hmay
        cases hno
      · exact tryScan_spec hpriv howner (by omega)
          ⟨fun _ j hj => absurd hj (Nat.not_lt_zero j), fun _ j hj => absurd hj (Nat.not_lt_zero j)⟩ h

lemma tryPrivs_updates {caller : Slot} {rest : List PrivId}
    (hpassed : postponed = false → ∀ i ∉ rest, ∀ src, (s.priv i).sProcNr = procNr src →
      NothingFor env s src caller)
    (h : tryPrivs env caller rest postponed s = .ok (r, t)) (henv : l.env = env) :
    Updates l s t ∧ Logs Event.Plain s t := by
  induction rest generalizing s postponed with
  | nil =>
    simp only [tryPrivs, Except.ok.injEq, Prod.mk.injEq] at h
    obtain ⟨rfl, rfl⟩ := h
    split
    · exact ⟨.refl l s, .refl s⟩
    rename_i hpost
    refine ⟨(Update.asynNone caller fun i src hnr => ?_).updates, .of_eq rfl⟩
    rw [henv]
    exact hpassed (Bool.eq_false_iff.mpr hpost) i (by simp) src hnr
  | cons i rest ih =>
    rw [tryPrivs] at h
    split at h
    · rename_i hnone
      refine ih (fun hp j hj src hnr => ?_) h
      by_cases hji : j = i
      · subst hji
        exact absurd (hnr.symm.trans hnone) (procNr_ne_none src)
      · exact hpassed hp j (by simp [hji, hj]) src hnr
    · obtain ⟨src, hsrc, h⟩ := bind_eq_ok.mp h
      obtain ⟨⟨r', post', u⟩, hone, h⟩ := bind_eq_ok.mp h
      simp only at h
      have hspec := tryOne_spec (.inr ⟨i, (slotOf_eq_ok.mp hsrc).symm⟩) hone
      split at h
      · cases h
        exact ⟨hspec.updates l henv, hspec.logs⟩
      rename_i hr
      have hrest : Updates l u t ∧ Logs Event.Plain u t := ih (fun hp j hj src' hnr => ?_) h
      · exact ⟨(hspec.updates l henv).trans hrest.1, hspec.logs.trans hrest.2⟩
      rw [Bool.or_eq_false_iff] at hp
      have hkept := hspec.kept hr
      rw [hkept.procNr j] at hnr
      by_cases hji : j = i
      · subst hji
        obtain rfl := procNr_injective ((slotOf_eq_ok.mp hsrc).trans hnr)
        exact hspec.nothing hr hp.2
      · have hst := (hspec.updates l henv).static
        exact (hpassed hp.1 j (by simp [hji, hj]) src' hnr).kept hst hkept

lemma receiveAsyn_updates {caller : Slot} {from' : Option Slot} {found : Bool}
    (hsrc : ∀ p, from' = some p → s.isemptyp p = false)
    (h : receiveAsyn env caller from' s = .ok (found, t)) (henv : l.env = env) :
    Updates l s t ∧ Logs Event.Plain s t := by
  unfold receiveAsyn at h
  split at h
  · obtain ⟨⟨r, u⟩, htry, h⟩ := bind_eq_ok.mp h
    cases h
    cases from' with
    | none =>
      exact tryPrivs_updates (fun _ i hi => absurd (List.mem_finRange i) hi) htry henv
    | some p =>
      obtain ⟨⟨r', post, v⟩, hone, htry⟩ := bind_eq_ok.mp htry
      cases htry
      have hspec := tryOne_spec (.inl (hsrc p rfl)) hone
      exact ⟨hspec.updates l henv, hspec.logs⟩
  · cases h
    exact ⟨.refl l s, .refl s⟩

end Search

section Senda
variable {caller : Slot} {a table : Nat} {r : Int} {flags : BitVec 32}

structure Scans (env : Env) (s u : State) (caller : Slot) (a : Nat) : Prop where
  updates : ∀ l : Entry, l.env = env → Updates l s u
  asynmsg : ∀ p, s.mfIsset p mfAsynmsg = true → u.mfIsset p mfAsynmsg = true
  tables : ∀ b, b ≠ a → u.tables caller b = s.tables caller b

lemma Scans.refl (env : Env) (s : State) (caller : Slot) (a : Nat) : Scans env s s caller a :=
  ⟨fun l _ => .refl l s, fun _ h => h, fun _ _ => rfl⟩

def Done (s : State) (src : Slot) (a : Nat) : Prop :=
  WellFormed (s.tables src a) ∧ ¬ Undelivered (s.tables src a)

lemma Done.settled (h : Done s caller a) : Settled s caller a :=
  ⟨h.1, fun hund => absurd hund h.2⟩

lemma or_done (flags : BitVec 32) : (flags ||| amfDone) &&& amfDone ≠ 0 := by
  intro h
  have hbit := congrArg (fun y : BitVec 32 => y.getLsbD 1) h
  simp [amfDone] at hbit

lemma badFlags_done (flags : BitVec 32) : badFlags (flags ||| amfDone) = badFlags flags := by
  have hres : (flags ||| amfDone) &&& ~~~(amfValid ||| amfDone ||| amfNotify ||| amfNoreply) =
      flags &&& ~~~(amfValid ||| amfDone ||| amfNotify ||| amfNoreply) := by
    rw [BitVec.and_or_distrib_right,
      (by decide : amfDone &&& ~~~(amfValid ||| amfDone ||| amfNotify ||| amfNoreply) =
      0#32), BitVec.or_zero]
  have hvalid : (flags ||| amfDone) &&& amfValid = flags &&& amfValid := by
    rw [BitVec.and_or_distrib_right, (by decide : amfDone &&& amfValid = 0#32), BitVec.or_zero]
  rw [badFlags, hres, hvalid, badFlags]

lemma complete_done {p : Slot} (hbad : badFlags flags = false)
    (h : (completeEntry env p a r flags s).1 = 0) : Done (completeEntry env p a r flags s).2 p a := by
  unfold completeEntry at h ⊢
  split at h
  · exact absurd h (by decide : ¬ -efault = 0)
  rename_i hw
  rw [if_neg hw]
  simp only at h ⊢
  split at h
  · exact absurd h (by decide : ¬ -efault = 0)
  rename_i hw'
  rw [if_neg hw']
  refine ⟨.inr ?_, fun hund => ?_⟩
  · simpa [modEntry] using (badFlags_done flags).trans hbad
  · refine or_done flags ?_
    simpa [modEntry] using hund.2.2

lemma complete_other {p : Slot} {b : Nat} (hb : b ≠ a) :
    (completeEntry env p a r flags s).2.tables p b = s.tables p b := by
  unfold completeEntry
  split
  · rfl
  simp only
  split
  · simp [modEntry, hb]
  · simp [modEntry, hb]

def Scanned.Ok (env : Env) (s : State) (caller : Slot) (a : Nat) : Scanned → Prop
  | .next u => Scans env s u caller a ∧ Done u caller a
  | .pending u => Scans env s u caller a ∧ Settled u caller a
  | .exit r u => r ≠ 0 ∧ ∀ l : Entry, l.env = env → Updates l s u

lemma finishEntry_ok (hbad : badFlags flags = false)
    (hu : ∀ l : Entry, l.env = env → Updates l s (completeEntry env caller a r flags u).2)
    (hmsg : ∀ p, s.mfIsset p mfAsynmsg = true → u.mfIsset p mfAsynmsg = true)
    (htab : u.tables = s.tables) : (finishEntry env caller a r flags u).Ok env s caller a := by
  unfold finishEntry
  simp only
  split
  · rename_i hr
    exact ⟨hr, hu⟩
  rename_i hr
  refine ⟨⟨hu, fun p hp => ?_, fun b hb => ?_⟩, complete_done hbad (not_not.mp hr)⟩
  · rw [State.mfIsset, complete_proc]
    exact hmsg p hp
  · rw [complete_other hb, htab]

lemma refuse_ok (hund : Undelivered (s.tables caller a)) (hwhy : Refused env s caller a) :
    (finishEntry env caller a r (s.tables caller a).flags s).Ok env s caller a := by
  refine finishEntry_ok hund.2.1 (fun l hl => ?_) (fun _ h => h) rfl
  subst hl
  exact (Update.asynRefuse caller a r hund hwhy).updates

lemma mark_asynmsg (s : State) (p d : Slot) (h : s.mfIsset p mfAsynmsg = true) :
    (s.mfSet d mfAsynmsg).mfIsset p mfAsynmsg = true := by
  simp only [State.mfIsset, State.mfSet, State.modProc_proc]
  split
  · exact ChunkMap.isset_or_left mfAsynmsg h
  · exact h

lemma mark_ok {dst : Slot} (hund : Undelivered (s.tables caller a))
    (hdst : s.isokendpt (s.tables caller a).dst = some dst)
    (hallow : s.maySendTo caller dst = .ok true) :
    Scanned.Ok env s caller a (.pending (s.mfSet dst mfAsynmsg)) := by
  refine ⟨⟨fun l _ => (Update.asynMark dst).updates, fun p => mark_asynmsg s p dst, fun _ _ => rfl⟩,
    .inr hund.2.1, fun _ => ⟨dst, ?_, ?_, ?_⟩⟩
  · refine (isokendpt_congr (fun q => ?_) (static_mfSet s dst _).endpoint _).trans hdst
    exact s.modProc_keep (fun x => x.pRtsFlags == rtsSlotFree) rfl q
  · exact (maySendTo_static (static_mfSet s dst _) caller dst).trans hallow
  · simp [State.mfIsset, State.mfSet, State.modProc_proc]

lemma hand_over_ok {dst : Slot} (hund : Undelivered (s.tables caller a))
    (hdst : (s.tables caller a).dst = (s.proc dst).pEndpoint)
    (hreply : (s.tables caller a).flags &&& amfNoreply = 0 ∨ s.mfIsset dst mfReplyPend = false) :
    (finishEntry env caller a 0 (s.tables caller a).flags
      (((deposit (s.proc caller).pEndpoint (s.tables caller a).msg dst s).rtsUnset dst
        rtsReceiving).record
          (.asyn caller dst a (s.tables caller a) (s.mfIsset dst mfReplyPend)))).Ok env s caller a := by
  have hq := quiet_deposit (s.proc caller).pEndpoint (s.tables caller a).msg dst s
  have hp := (passive_deposit (s.proc caller).pEndpoint (s.tables caller a).msg dst s).trans
    (passive_wake _ dst)
  have hst := (static_deposit (s.proc caller).pEndpoint (s.tables caller a).msg dst s).trans
    (static_rtsUnset _ dst rtsReceiving)
  refine finishEntry_ok hund.2.1 (fun l hl => ?_) (fun p h => ?_) rfl
  · subst hl
    have hrep : ((deposit (s.proc caller).pEndpoint (s.tables caller a).msg dst s).rtsUnset dst
        rtsReceiving).mfIsset dst mfReplyPend = s.mfIsset dst mfReplyPend := (hp dst).replyPend
    refine ((Update.quiet _ hq).updates.trans (Update.wake dst).updates).trans ?_
    rw [← hrep] at hreply ⊢
    exact (Update.asynDeliver (s := (deposit (s.proc caller).pEndpoint (s.tables caller a).msg dst
      s).rtsUnset dst rtsReceiving) caller dst a hund (hdst.trans (hst.endpoint dst).symm)
        hreply).updates
  · have hd : (deposit (s.proc caller).pEndpoint (s.tables caller a).msg dst s).mfIsset p mfAsynmsg =
        true := (congrArg Shadow.asynmsg (hq.shadow p)).trans h
    simp only [State.mfIsset, State.record_proc, State.rtsUnset, State.modProc_proc] at hd ⊢
    split <;> exact hd

lemma sendaEntry_ok {x : Scanned} (h : sendaEntry env caller a s = .ok x) : x.Ok env s caller a := by
  have fault : Scanned.Ok env s caller a (.exit (-efault) s) := ⟨by decide, fun l _ => .refl l s⟩
  unfold sendaEntry at h
  rcases ite_eq_iff.mp h with ⟨_, h⟩ | ⟨_, h⟩
  · cases h
    exact fault
  rcases ite_eq_iff.mp h with ⟨h₀, h⟩ | ⟨h₀, h⟩
  · cases h
    exact ⟨.refl env s caller a, Or.inl h₀, fun hund => hund.1 h₀⟩
  rcases ite_eq_iff.mp h with ⟨_, h⟩ | ⟨hbad, h⟩
  · cases h
    exact ⟨(by decide : -einval ≠ 0), fun l _ => .refl l s⟩
  rcases ite_eq_iff.mp h with ⟨hdone, h⟩ | ⟨hdone, h⟩
  · cases h
    exact ⟨.refl env s caller a, Or.inr (Bool.eq_false_iff.mpr hbad), fun hund => hdone hund.2.2⟩
  have hund : Undelivered (s.tables caller a) := .intro h₀ hbad hdone
  rcases ite_eq_iff.mp h with ⟨_, h⟩ | ⟨_, h⟩
  · cases h
    exact fault
  split at h
  · next hdst =>
    cases h
    exact refuse_ok hund fun d hd => nomatch hdst.symm.trans hd
  next dst hdst =>
  have only : ∀ d, s.isokendpt (s.tables caller a).dst = some d → d = dst :=
    fun d hd => Option.some.inj (hd.symm.trans hdst)
  split at h
  · next hker =>
    cases h
    exact refuse_ok hund fun d hd => Or.inl (only d hd ▸ hker)
  obtain ⟨allowed, hallow, h⟩ := bind_eq_ok.mp h
  split at h
  · next hno =>
    cases h
    refine refuse_ok hund fun d hd => Or.inr (Or.inl ?_)
    rw [only d hd, hallow]
    simpa using hno
  next hyes =>
  split at h
  · next hgone =>
    cases h
    exact refuse_ok hund fun d hd => Or.inr (Or.inr (Or.inl (only d hd ▸ hgone)))
  split at h
  · next hwill =>
    rw [Bool.and_eq_true, Bool.or_eq_true, beq_iff_eq, Bool.not_eq_true'] at hwill
    have hep := ((s.isokendpt_eq_some).mp hdst).2.2
    obtain ⟨⟨r, v⟩, hqueue, h⟩ := bind_eq_ok.mp h
    cases hread : env.canRead caller (a + offMsg) with
    | true =>
      rw [if_pos hread] at hqueue
      cases hqueue
      cases h
      exact hand_over_ok hund hep.symm hwill.2
    | false =>
      rw [if_neg (ne_true_of_eq_false hread)] at hqueue
      rcases ite_eq_iff.mp hqueue with ⟨_, hqueue⟩ | ⟨_, hqueue⟩
      · cases hqueue
      cases hqueue
      cases h
      exact refuse_ok hund fun d _ => Or.inr (Or.inr (Or.inr hread))
  · cases h
    refine mark_ok hund hdst ?_
    rw [hallow]
    simpa using hyes

lemma entryAddr_ne {j k : Nat} (h : j ≠ k) : entryAddr table j ≠ entryAddr table k := by
  simp only [entryAddr, sizeofAsynmsg]
  omega

lemma Settled.scans {b : Nat} (h : Settled s caller b) (hfree : s.FreeOk)
    (hs : Scans env s u caller a) (hne : b ≠ a) : Settled u caller b := by
  have hup := hs.updates (.idle env) rfl
  have hp := hup.passive hfree
  have hst := hup.static
  unfold Settled at h ⊢
  rw [hs.tables b hne]
  refine ⟨h.1, fun hund => ?_⟩
  obtain ⟨d, hd, hmay, hmark⟩ := h.2 hund
  exact ⟨d, (isokendpt_congr (hp.isemptyp hfree) hst.endpoint _).trans hd,
    (maySendTo_static hst caller d).trans hmay, hs.asynmsg d hmark⟩

/-- The whole scan of `mini_senda`: when it ends regularly every entry is settled, and if the flag
`done` is still set, every entry is out of the way. -/
theorem sendaLoop_spec {n i : Nat} {done done' : Bool} (hfree : s.FreeOk)
    (hset : ∀ j < i, Settled s caller (entryAddr table j))
    (hdone : done = true → ∀ j < i, Done s caller (entryAddr table j))
    (h : sendaLoop env caller table n i done s = .ok (r, done', t)) :
    (∀ l : Entry, l.env = env → Updates l s t) ∧
      (r = 0 → ∀ j < i + n, Settled t caller (entryAddr table j)) ∧
      (r = 0 → done' = true → ∀ j < i + n, Done t caller (entryAddr table j)) := by
  induction n generalizing i done s with
  | zero =>
    cases h
    exact ⟨fun l _ => .refl l _, fun _ => hset, fun _ => hdone⟩
  | succ n ih =>
    rw [sendaLoop] at h
    obtain ⟨x, hx, h⟩ := bind_eq_ok.mp h
    have hok := sendaEntry_ok hx
    have settled : ∀ {v}, Scans env s v caller (entryAddr table i) →
        Settled v caller (entryAddr table i) → ∀ j < i + 1, Settled v caller (entryAddr table j) := by
      intro v hv hi j hj
      rcases Nat.lt_succ_iff_lt_or_eq.mp hj with hlt | rfl
      · exact (hset j hlt).scans hfree hv (entryAddr_ne (by omega))
      · exact hi
    have free : ∀ {v}, Scans env s v caller (entryAddr table i) → v.FreeOk :=
      fun hv => ((hv.updates (.idle env) rfl).passive hfree).freeOk hfree
    cases x with
    | next v =>
      obtain ⟨hv, hi⟩ := hok
      obtain ⟨hup, hall, hout⟩ := ih (free hv) (settled hv hi.settled) (fun hd j hj => by
        rcases Nat.lt_succ_iff_lt_or_eq.mp hj with hlt | rfl
        · unfold Done
          rw [hv.tables _ (entryAddr_ne (by omega))]
          exact hdone hd j hlt
        · exact hi) h
      rw [Nat.add_right_comm] at hall hout
      exact ⟨fun l hl => (hv.updates l hl).trans (hup l hl), hall, hout⟩
    | pending v =>
      obtain ⟨hv, hi⟩ := hok
      have hno : false = true → ∀ j < i + 1, Done v caller (entryAddr table j) :=
        nofun
      obtain ⟨hup, hall, hout⟩ := ih (free hv) (settled hv hi) hno h
      rw [Nat.add_right_comm] at hall hout
      exact ⟨fun l hl => (hv.updates l hl).trans (hup l hl), hall, hout⟩
    | exit r' v =>
      cases h
      exact ⟨hok.2, fun hr => absurd hr hok.1, fun hr => absurd hr hok.1⟩

lemma miniSenda_updates {count : Nat} (hfree : s.FreeOk) (hlive : s.Live caller)
    (hactor : l.actor = some caller) (henv : l.env = env)
    (h : miniSenda env caller table count s = .ok (r, t)) : Updates l s t := by
  unfold miniSenda at h
  obtain ⟨i, hi, h⟩ := bind_eq_ok.mp h
  have hpriv := (s.privOf_eq_ok).mp hi
  split at h
  · cases h
    exact .refl l s
  rename_i hsys
  have hopen := (Update.asynOpen caller i hactor hlive hpriv hsys).updates
  split at h
  · cases h
    exact hopen
  split at h
  · cases h
    exact hopen
  split at h
  · cases h
    exact hopen
  obtain ⟨⟨r', done, v⟩, hloop, h⟩ := bind_eq_ok.mp h
  simp only at h
  have hfree' : ((s.modPriv i fun v => { v with sAsyntab := 2 ^ 32 - 1, sAsynsize := 0 }).record
      (.asynClear caller)).FreeOk := hfree
  obtain ⟨hup, hall, hout⟩ := sendaLoop_spec hfree' (fun j hj => absurd hj (Nat.not_lt_zero j))
    (fun _ j hj => absurd hj (Nat.not_lt_zero j)) hloop
  have hscan := hopen.trans (hup l henv)
  have hst := hscan.static
  split at h
  · cases h
    exact hscan
  rename_i hr
  split at h
  · rename_i hdone
    cases h
    refine hscan.trans (Update.asynSettle caller table count hactor fun k hk => ?_).updates
    exact (hout (not_not.mp hr) hdone k (by omega)).2
  cases h
  have hp := (hup (.idle env) rfl).passive hfree'
  refine hscan.trans (Update.asynClose caller i table count hactor ?_ ?_ ?_ ?_).updates
  · exact hp.live hfree' hlive
  · exact (hst.priv caller).trans hpriv
  · rw [hst.flags i]
    exact hsys
  · intro k hk
    exact hall (not_not.mp hr) k (by omega)

end Senda

end Nucleos.Kernel
