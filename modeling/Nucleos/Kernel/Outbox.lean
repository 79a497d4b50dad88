import Nucleos.Kernel.Senda

/-!
# Every entry at most once, and none forgotten

Two invariants of the asynchronous tables. What is delivered is marked, and what is marked is
not delivered again until its owner writes it anew. What a successful `mini_senda` leaves
undelivered stays in the table the kernel holds, and its destination stays marked, until the
owner takes it back, or goes.
-/

namespace Nucleos.Kernel

open IntrusiveList Run

variable {l : Entry} {s t u : State} {p : Slot} {a : Nat} {h es : List Event}

inductive Delivered (p : Slot) (a : Nat) : List Event → Prop where
  | now (dst : Slot) (e : AsynMsg) (b : Bool) (h : List Event) :
      Delivered p a (.asyn p dst a e b :: h)
  | later {h : List Event} (e : Event) (hold : Delivered p a h) (hne : e ≠ .wrote p a) :
      Delivered p a (e :: h)

def Event.Withdraws (p : Slot) (a : Nat) : Event → Prop
  | .asynClear q => q = p
  | .asynAccept q _ _ => q = p
  | .gone q => q = p
  | .wrote q b => q = p ∧ b = a
  | _ => False

/-- The entry is one of those that the latest successful `mini_senda` of the process left. -/
inductive Submitted (p : Slot) (a : Nat) : List Event → Prop where
  | accept {k count : Nat} (table : Nat) (h : List Event) (hk : k < count)
      (ha : a = entryAddr table k) :
      Submitted p a (.asynAccept p table count :: h)
  | later {h : List Event} (e : Event) (hold : Submitted p a h) (he : ¬ e.Withdraws p a) : Submitted
      p a (e :: h)

def OnceOnly : List Event → Prop
  | [] => True
  | .asyn p _ a _ _ :: h => ¬ Delivered p a h ∧ OnceOnly h
  | _ :: h => OnceOnly h

def Event.Dull : Event → Prop
  | .asyn _ _ _ _ _ => False
  | .asynAccept _ _ _ => False
  | _ => True

lemma wrote_tables {q : Slot} {b : Nat} {e : AsynMsg} :
    ((modEntry p a (fun _ => e) s).record (.wrote p a)).tables q b = if q = p ∧
      b = a then e else s.tables q b := by
  by_cases hq : q = p
  · by_cases hb : b = a
    all_goals simp [modEntry, hq, hb]
  · simp [modEntry, hq]

lemma Event.Aside.dull {e : Event} (he : e.Aside) : e.Dull := by
  cases e <;> trivial

lemma Delivered.of_cons {e : Event} (hd : Delivered p a (e :: h))
    (he : ∀ d x b, e ≠ .asyn p d a x b) :
    Delivered p a h := by
  cases hd with
  | now d x b => exact absurd rfl (he d x b)
  | later _ hold _ => exact hold

lemma Delivered.of_dull (hd : Delivered p a (es ++ h)) (hes : ∀ e ∈ es, e.Dull) :
    Delivered p a h := by
  induction es with
  | nil => exact hd
  | cons e es ih =>
    refine ih (hd.of_cons fun d x b he => ?_) fun e' he' => hes e' (.tail e he')
    have hdull := hes e (.head _)
    rw [he] at hdull
    exact hdull

lemma Submitted.of_dull (hd : Submitted p a (es ++ h)) (hes : ∀ e ∈ es, e.Dull) :
    Submitted p a h := by
  induction es with
  | nil => exact hd
  | cons e es ih =>
    cases hd with
    | accept _ _ _ _ => exact absurd (hes _ (.head _)) id
    | later _ hold _ => exact ih hold fun e' he' => hes e' (.tail e he')

lemma OnceOnly.of_append (ho : OnceOnly (es ++ h)) : OnceOnly h := by
  induction es with
  | nil => exact ho
  | cons e es ih =>
    cases e with
    | asyn _ _ _ _ _ => exact ih ho.2
    | _ => exact ih ho

lemma OnceOnly.append (ho : OnceOnly h) (hes : ∀ p d a x b, .asyn p d a x b ∉ es) :
    OnceOnly (es ++ h) := by
  induction es with
  | nil => exact ho
  | cons e es ih =>
    have hrest := ih fun p d a x b hmem => hes p d a x b (.tail e hmem)
    cases e with
    | asyn p d a x b => exact absurd (.head _) (hes p d a x b)
    | _ => exact hrest

structure Sealed (s : State) : Prop where
  done : ∀ p a, Delivered p a s.history → ¬ Undelivered (s.tables p a)
  once : OnceOnly s.history
  reply : ∀ p d a e b, .asyn p d a e b ∈ s.history → e.flags &&& amfNoreply = 0 ∨ b = false

lemma Sealed.log (hs : Sealed s) (es : List Event) (hhist : t.history = es ++ s.history)
    (hes : ∀ p d a x b, .asyn p d a x b ∉ es)
    (hdone : ∀ p a, Delivered p a t.history → ¬ Undelivered (t.tables p a)) : Sealed t := by
  refine ⟨hdone, ?_, fun p d a e b hmem => ?_⟩
  · rw [hhist]
    exact hs.once.append hes
  · rw [hhist, List.mem_append] at hmem
    exact hs.reply p d a e b (hmem.resolve_left (hes p d a e b))

lemma Sealed.dull (hs : Sealed s) (htab : t.tables = s.tables) (hlog : Logs Event.Dull s t) :
    Sealed t := by
  obtain ⟨es, hes, hdull⟩ := hlog
  refine hs.log es hes (fun p d a x b hmem => hdull _ hmem) fun p a hd => ?_
  rw [hes] at hd
  rw [htab]
  exact hs.done p a (hd.of_dull hdull)

lemma complete_tables {env : Env} {r : Int} (hreach : env.Reaches p)
    (hund : Undelivered (s.tables p a))
    (q : Slot) (b : Nat) :
    ¬ (q = p ∧ b = a) ∧ (completeEntry env p a r (s.tables p a).flags s).2.tables q b =
      s.tables q b ∨
      (q = p ∧ b = a) ∧ Done (completeEntry env p a r (s.tables p a).flags s).2 p a := by
  by_cases hq : q = p
  · subst hq
    by_cases hb : b = a
    · subst hb
      exact .inr ⟨⟨rfl, rfl⟩, complete_done hund.2.1 (complete_reaches hreach)⟩
    · exact .inl ⟨fun h => hb h.2, complete_other hb⟩
  · exact .inl ⟨fun h => hq h.1, congrFun (complete_kept hq) b⟩

lemma Traffic.sealed (ht : Traffic l s t) (hg : s.Good) (hreach : ∀ p, l.env.Reaches p)
    (hs : Sealed s) :
    Sealed t := by
  cases ht with
  | idle t h =>
    obtain ⟨es, hes, haside⟩ := h.history
    exact hs.dull h.tables ⟨es, hes, fun e he => (haside e he).dull⟩
  | clear p i _ _ _ => exact hs.dull rfl (.cons rfl trivial)
  | accept p i table count _ _ _ _ | settle p table count _ =>
    exact hs.log [.asynAccept p table count] rfl (by simp) fun q a hd =>
      hs.done q a (hd.of_cons nofun)
  | deliver src dst a hund hreply =>
    have hund' : Undelivered ((s.record (.asyn src dst a (s.tables src a)
      (s.mfIsset dst mfReplyPend))).tables src a) :=
      hund
    have hhist := complete_history l.env src a 0 (s.tables src a).flags
      (s.record (.asyn src dst a (s.tables src a) (s.mfIsset dst mfReplyPend)))
    refine ⟨fun p b hd => ?_, ?_, fun p d b e c hmem => ?_⟩
    · rcases complete_tables (r := 0) (hreach src) hund' p b with ⟨hne, heq⟩ | ⟨⟨rfl, rfl⟩, hdone⟩
      · rw [hhist] at hd
        have hold := hd.of_cons fun d x c he => hne (by cases he; exact ⟨rfl, rfl⟩)
        exact fun hu => hs.done p b hold (heq ▸ hu)
      · exact hdone.2
    · rw [hhist]
      exact ⟨fun hd => hs.done src a hd hund, hs.once⟩
    · rw [hhist] at hmem
      rcases List.mem_cons.mp hmem with he | hmem
      · cases he
        exact hreply
      · exact hs.reply p d b e c hmem
  | refuse src a r hund =>
    have hhist := complete_history l.env src a r (s.tables src a).flags s
    refine hs.log [] hhist (by simp) fun p b hd => ?_
    rw [hhist] at hd
    rcases complete_tables (r := r) (hreach src) hund p b with ⟨_, heq⟩ | ⟨⟨rfl, rfl⟩, hdone⟩
    · rw [heq]
      exact hs.done p b hd
    · exact hdone.2
  | drop src i _ _ _ => exact hs.dull rfl (.refl _)
  | none p _ => exact hs.dull rfl (.of_eq rfl)
  | write p a e _ =>
    refine hs.log [.wrote p a] rfl (by simp) fun q b hd => ?_
    cases hd with
    | later _ hold hne =>
      have hcell : ¬ (q = p ∧ b = a) := by
        rintro ⟨rfl, rfl⟩
        exact hne rfl
      rw [wrote_tables, if_neg hcell]
      exact hs.done q b hold
  | gone rc t h =>
    obtain ⟨_, _, _, hpriv⟩ := clearEndpoint_spec hg h
    exact hs.dull hpriv.tables (.cons hpriv.history trivial)
  | free rc i t _ h _ => exact hs.dull h.tables (.of_eq h.history)

def State.Holds (s : State) (p : Slot) (a : Nat) : Prop :=
  s.Live p ∧ ∃ i k, (s.proc p).pPriv = some i ∧ s.SysPriv i ∧ k < (s.priv i).sAsynsize ∧
    a = entryAddr (s.priv i).sAsyntab k

def State.Marked (s : State) (p : Slot) (a : Nat) : Prop :=
  ∃ d, endpointP (s.tables p a).dst = procNr d ∧ (s.proc d).pEndpoint = (s.tables p a).dst ∧
    s.maySendTo p d = .ok true ∧ (s.isemptyp d = false → s.mfIsset d mfAsynmsg = true)

structure Held (s : State) : Prop where
  slots : ∀ j, (s.priv j).sProcNr = endptNone ∨ ∃ q, (s.priv j).sProcNr = procNr q
  assigned : ∀ j q, (s.priv j).sProcNr = procNr q →
    (s.proc q).pPriv = some j ∧ (s.isemptyp q = false ∨ ¬ s.SysPriv j)
  user : ¬ s.SysPriv userPrivId
  wellFormed : ∀ p i k, s.isemptyp p = false → (s.proc p).pPriv = some i → s.SysPriv i →
    k < (s.priv i).sAsynsize → WellFormed (s.entry p i k)
  held : ∀ p a, Submitted p a s.history → Undelivered (s.tables p a) → s.Holds p a ∧ s.Marked p a

lemma State.Holds.mono (h : s.Holds p a) (hst : Static s t) (hlive : t.Live p)
    (htab : ∀ i, (s.proc p).pPriv = some i → s.SysPriv i →
      (t.priv i).sAsynsize = (s.priv i).sAsynsize ∧
        (t.priv i).sAsyntab = (s.priv i).sAsyntab) : t.Holds p a := by
  obtain ⟨_, i, k, hi, hsys, hk, ha⟩ := h
  obtain ⟨hsize, hbase⟩ := htab i hi hsys
  refine ⟨hlive, i, k, (hst.priv p).trans hi, hst.sysPriv.mpr hsys, ?_, ?_⟩
  · rw [hsize]
    exact hk
  · rw [hbase]
    exact ha

lemma State.Marked.mono (h : s.Marked p a) (hst : Static s t) (hcell : t.tables p a = s.tables p a)
    (hempty : ∀ d, t.isemptyp d = false → s.isemptyp d = false)
    (hmark : ∀ d, (s.proc d).pEndpoint = (s.tables p a).dst → s.maySendTo p d = .ok true →
      t.isemptyp d = false → s.mfIsset d mfAsynmsg = true →
        t.mfIsset d mfAsynmsg = true) : t.Marked p a := by
  obtain ⟨d, hp, hep, hmay, hd⟩ := h
  unfold State.Marked
  rw [hcell]
  exact ⟨d, hp, (hst.endpoint d).trans hep, (maySendTo_static hst p d).trans hmay,
    fun he => hmark d hep hmay he (hd (hempty d he))⟩

namespace Held

lemma intro (h : Held s) (hst : Static s t) (hempty : ∀ q, t.isemptyp q = s.isemptyp q)
    (hnr : ∀ j, (t.priv j).sProcNr = (s.priv j).sProcNr)
    (hwf : ∀ p i k, s.isemptyp p = false → (s.proc p).pPriv = some i → s.SysPriv i →
      k < (t.priv i).sAsynsize → WellFormed (t.entry p i k))
    (hheld : ∀ p a, Submitted p a t.history → Undelivered (t.tables p a) → t.Holds p a ∧
      t.Marked p a) : Held t where
  slots j := by
    rw [hnr]
    exact h.slots j
  assigned j q hq := by
    rw [hst.priv, hempty, hst.sysPriv]
    exact h.assigned j q ((hnr j).symm.trans hq)
  user hsys := h.user (hst.sysPriv.mp hsys)
  wellFormed p i k hp hi hsys hk :=
    hwf p i k ((hempty p).symm.trans hp) ((hst.priv p).symm.trans hi) (hst.sysPriv.mp hsys) hk
  held := hheld

lemma idle (h : Held s) (hi : Idle s t) : Held t := by
  refine h.intro hi.static hi.isemptyp hi.procNr (fun p i k hp hpi hsys hk => ?_) fun p a
    hsub hund => ?_
  · rw [hi.asynsize] at hk
    rw [State.entry, hi.asyntab, hi.tables]
    exact h.wellFormed p i k hp hpi hsys hk
  obtain ⟨es, hes, haside⟩ := hi.history
  rw [hes] at hsub
  have hcell : t.tables p a = s.tables p a := by rw [hi.tables]
  rw [hcell] at hund
  obtain ⟨hholds, hmarked⟩ := h.held p a (hsub.of_dull fun e he => (haside e he).dull) hund
  exact ⟨hholds.mono hi.static (hi.live.mpr hholds.1) fun i _ _ => ⟨hi.asynsize i, hi.asyntab i⟩,
    hmarked.mono hi.static hcell (fun d hd => (hi.isemptyp d).symm.trans hd) fun d _ _ _ =>
      hi.asynmsg d⟩

end Held

section Tables
variable {i : PrivId} {table count : Nat} {e : Event}

def State.setTable (s : State) (i : PrivId) (table count : Nat) : State :=
  s.modPriv i fun v => { v with sAsyntab := table, sAsynsize := count }

lemma setTable_static (s : State) (i : PrivId) (table count : Nat) :
    Static s (s.setTable i table count) := by
  apply Static.modPriv <;> rfl

lemma setTable_procNr (s : State) (i j : PrivId) (table count : Nat) :
    ((s.setTable i table count).priv j).sProcNr = (s.priv j).sProcNr :=
  s.modPriv_keep Priv.sProcNr rfl j

lemma setTable_other (s : State) {i j : PrivId} (table count : Nat) (hj : j ≠ i) :
    (s.setTable i table count).priv j = s.priv j := by
  rw [State.setTable, State.modPriv_priv, if_neg hj]

lemma setTable_self (s : State) (i : PrivId) (table count : Nat) :
    ((s.setTable i table count).priv i).sAsyntab = table ∧
      ((s.setTable i table count).priv i).sAsynsize = count := by
  rw [State.setTable, State.modPriv_priv, if_pos rfl]
  exact ⟨rfl, rfl⟩

lemma Held.setTable (h : Held s) (hn : Notices s) (hlive : s.Live p)
    (hpriv : (s.proc p).pPriv = some i)
    (hsys : s.SysPriv i) (hdull : e.Dull ∨ e = .asynAccept p table count)
    (hwf : ∀ k < count, WellFormed (s.tables p (entryAddr table k)))
    (hheld : ∀ a, Submitted p a (e :: s.history) → Undelivered (s.tables p a) →
      ((s.setTable i table count).record e).Holds p a ∧
        ((s.setTable i table count).record e).Marked p a) :
    Held ((s.setTable i table count).record e) := by
  have hst : Static s ((s.setTable i table count).record e) :=
    (setTable_static s i table count).record e
  have hne : ∀ {q j}, s.isemptyp q = false → (s.proc q).pPriv = some j → q ≠ p →
    s.SysPriv j → j ≠ i := by
    rintro q j hq hj hqp hsysj rfl
    exact hqp (hn.unshared hq hlive.1 hj hpriv hsysj)
  refine h.intro hst (fun _ => rfl) (setTable_procNr s i · table count)
    (fun q j k hq hj hsysj hk => ?_)
    fun q a hsub hund => ?_
  · by_cases hqp : q = p
    · subst hqp
      obtain rfl : i = j := Option.some.inj (hpriv.symm.trans hj)
      rw [State.record_priv, (setTable_self s i table count).2] at hk
      rw [State.entry, State.record_priv, (setTable_self s i table count).1]
      exact hwf k hk
    · have hji := hne hq hj hqp hsysj
      rw [State.record_priv, setTable_other s table count hji] at hk
      rw [State.entry, State.record_priv, setTable_other s table count hji]
      exact h.wellFormed q j k hq hj hsysj hk
  · by_cases hqp : q = p
    · subst hqp
      exact hheld a hsub hund
    have hold : Submitted q a s.history := by
      cases hsub with
      | accept _ _ _ _ =>
        rcases hdull with hdull | he
        · exact absurd hdull id
        · cases he
          exact absurd rfl hqp
      | later _ hold _ => exact hold
    obtain ⟨hholds, hmarked⟩ := h.held q a hold hund
    refine ⟨hholds.mono hst hholds.1 fun j hj hsysj => ?_,
      hmarked.mono hst rfl (fun _ hd => hd) fun _ _ _ _ hd => hd⟩
    rw [State.record_priv, setTable_other s table count (hne hholds.1.1 hj hqp hsysj)]
    exact ⟨rfl, rfl⟩

end Tables

namespace Held

variable {i : PrivId} {env : Env} {src : Slot}

lemma clear (h : Held s) (hn : Notices s) (hlive : s.Live p) (hpriv : (s.proc p).pPriv = some i)
    (hsys : s.SysPriv i) : Held ((s.setTable i (2 ^ 32 - 1) 0).record (.asynClear p)) := by
  refine h.setTable hn hlive hpriv hsys (.inl trivial) (fun k hk => absurd hk (Nat.not_lt_zero k))
    fun a hsub _ => ?_
  cases hsub with
  | later _ _ he => exact absurd rfl he

lemma accept {table count : Nat} (h : Held s) (hn : Notices s) (hlive : s.Live p)
    (hpriv : (s.proc p).pPriv = some i) (hsys : s.SysPriv i)
    (hscan : ∀ k < count, Settled s p (entryAddr table k)) :
    Held ((s.setTable i table count).record (.asynAccept p table count)) := by
  refine h.setTable hn hlive hpriv hsys (.inr rfl) (fun k hk => (hscan k hk).1) fun a hsub hund =>
    ?_
  cases hsub with
  | later _ _ he => exact absurd rfl he
  | @accept k _ _ _ hk ha =>
    subst ha
    obtain ⟨d, hd, hmay, hmark⟩ := (hscan k hk).2 hund
    obtain ⟨hp, _, hep⟩ := (s.isokendpt_eq_some).mp hd
    have hst := (setTable_static s i table count).record (.asynAccept p table count)
    obtain ⟨htab, hsize⟩ := setTable_self s i table count
    refine ⟨⟨hlive, i, k, hpriv, hst.sysPriv.mpr hsys, ?_, ?_⟩, d, hp, hep, ?_, fun _ => hmark⟩
    · rw [State.record_priv, hsize]
      exact hk
    · rw [State.record_priv, htab]
    · exact (maySendTo_static hst p d).trans hmay

lemma settle {table count : Nat} (h : Held s)
    (hdone : ∀ k < count, ¬ Undelivered (s.tables p (entryAddr table k))) :
    Held (s.record (.asynAccept p table count)) := by
  refine h.intro ((Static.refl s).record _) (fun _ => rfl) (fun _ => rfl)
    (fun q i k hq hi hsys hk =>
    h.wellFormed q i k hq hi hsys hk) fun q a hsub hund => ?_
  cases hsub with
  | @accept k _ _ _ hk ha => exact absurd (ha ▸ hund) (hdone k hk)
  | later _ hold _ => exact h.held q a hold hund

lemma mark (h : Held s) (hproc : t.proc = s.proc) (hpriv : t.priv = s.priv)
    (hcells : ∀ q b, t.tables q b = s.tables q b ∨ Done t q b)
    (hsub : ∀ q b, Submitted q b t.history → Submitted q b s.history) : Held t := by
  have hst : Static s t := .of_eq hproc hpriv
  have hempty : ∀ q, t.isemptyp q = s.isemptyp q := fun q => by
    rw [State.isemptyp, hproc, State.isemptyp]
  refine h.intro hst hempty (fun j => by rw [hpriv]) (fun q i k hq hi hsys hk => ?_) fun q a
    hs hund => ?_
  · rw [hpriv] at hk
    rw [State.entry, hpriv]
    rcases hcells q (entryAddr (s.priv i).sAsyntab k) with heq | hd
    · rw [heq]
      exact h.wellFormed q i k hq hi hsys hk
    · exact hd.1
  · rcases hcells q a with heq | hd
    · rw [heq] at hund
      obtain ⟨hholds, hmarked⟩ := h.held q a (hsub q a hs) hund
      refine ⟨hholds.mono hst ?_ fun i _ _ => by rw [hpriv]; exact ⟨rfl, rfl⟩,
        hmarked.mono hst heq (fun d hd => (hempty d).symm.trans hd) fun d _ _ _ hd => ?_⟩
      · rw [State.Live, State.isemptyp, State.rtsIsset, hproc]
        exact hholds.1
      · rw [State.mfIsset, hproc]
        exact hd
    · exact absurd hund hd.2

lemma refuse {r : Int} (h : Held s) (hreach : env.Reaches src)
    (hund : Undelivered (s.tables src a)) :
    Held (completeEntry env src a r (s.tables src a).flags s).2 := by
  refine h.mark (complete_proc _ _ _ _ _ _) (complete_priv _ _ _ _) (fun q c => ?_) fun q c hs => ?_
  · rcases complete_tables (r := r) hreach hund q c with ⟨_, heq⟩ | ⟨⟨rfl, rfl⟩, hd⟩
    · exact .inl heq
    · exact .inr hd
  · rw [complete_history] at hs
    exact hs

lemma deliver {dst : Slot} {b : Bool} {r : Int} (h : Held s) (hreach : env.Reaches src)
    (hund : Undelivered (s.tables src a)) : Held (completeEntry env src a r (s.tables src a).flags
      (s.record (.asyn src dst a (s.tables src a) b))).2 := by
  have hrec : Held (s.record (.asyn src dst a (s.tables src a) b)) := by
    refine h.mark rfl rfl (fun _ _ => .inl rfl) fun q c hs => ?_
    cases hs with
    | later _ hold _ => exact hold
  exact hrec.refuse hreach hund

lemma drop (h : Held s) (hn : Notices s) (hpriv : (s.proc src).pPriv = some i)
    (howner : s.Named src) (hwhy : s.Spent src i) :
    Held (s.modPriv i fun v => { v with sAsynsize := 0 }) := by
  have hst : Static s (s.modPriv i fun v => { v with sAsynsize := 0 }) := by
    apply Static.modPriv <;> rfl
  have hother : ∀ {j}, j ≠ i → (s.modPriv i fun v => { v with sAsynsize := 0 }).priv j =
    s.priv j := by
    intro j hj
    rw [State.modPriv_priv, if_neg hj]
  refine h.intro hst (fun _ => rfl) (s.modPriv_keep Priv.sProcNr rfl)
    (fun q j k hq hj hsys hk => ?_)
    fun q b hsub hund => ?_
  · have hji : j ≠ i := by
      rintro rfl
      rw [State.modPriv_priv, if_pos rfl] at hk
      exact absurd hk (Nat.not_lt_zero k)
    rw [hother hji] at hk
    rw [State.entry, hother hji]
    exact h.wellFormed q j k hq hj hsys hk
  · obtain ⟨hholds, hmarked⟩ := h.held q b hsub hund
    refine ⟨hholds.mono hst hholds.1 fun j hj hsys => ?_,
      hmarked.mono hst rfl (fun _ hd => hd) fun _ _ _ _ hd => hd⟩
    have hji : j ≠ i := by
      rintro rfl
      have hsrc : s.isemptyp src = false := by
        rcases howner with hsrc | ⟨j', hj'⟩
        · exact hsrc
        obtain ⟨hj'', hlive⟩ := h.assigned j' src hj'
        obtain rfl : j = j' := Option.some.inj (hpriv.symm.trans hj'')
        exact hlive.resolve_right (not_not.mpr hsys)
      obtain rfl := hn.unshared hholds.1.1 hsrc hj hpriv hsys
      obtain ⟨_, j', k, hj', _, hk, rfl⟩ := hholds
      obtain rfl : j = j' := Option.some.inj (hj.symm.trans hj')
      rcases hwhy with ⟨k', hk', hne, hbad⟩ | hall
      · rcases h.wellFormed q j k' hsrc hj hsys hk' with hzero | hok
        · exact hne hzero
        · exact absurd hbad (ne_true_of_eq_false hok)
      · exact hall k hk hund
    rw [hother hji]
    exact ⟨rfl, rfl⟩

lemma none {d : Slot} (h : Held s) (hn : Notices s) (hreach : ∀ q, env.Reaches q)
    (hnone : ∀ i src, (s.priv i).sProcNr = procNr src → NothingFor env s src d) :
    Held (s.mfUnset d mfAsynmsg) := by
  have hst := static_mfUnset s d mfAsynmsg
  have hrts : ∀ q, ((s.mfUnset d mfAsynmsg).proc q).pRtsFlags = (s.proc q).pRtsFlags :=
    s.modProc_keep Proc.pRtsFlags rfl
  have hempty : ∀ q, (s.mfUnset d mfAsynmsg).isemptyp q = s.isemptyp q := by
    intro q
    rw [State.isemptyp, hrts, State.isemptyp]
  refine h.intro hst hempty (fun _ => rfl) h.wellFormed fun q b hsub hund => ?_
  obtain ⟨hholds, hmarked⟩ := h.held q b hsub hund
  refine ⟨hholds.mono hst ?_ fun _ _ _ => ⟨rfl, rfl⟩,
    hmarked.mono hst rfl (fun x hx => (hempty x).symm.trans hx) fun x hep hmay _ hx => ?_⟩
  · rw [State.Live, hempty, State.rtsIsset, hrts]
    exact hholds.1
  by_cases hxd : x = d
  · subst hxd
    obtain ⟨hlive, i, k, hi, hsys, hk, rfl⟩ := hholds
    have hid : (s.priv i).sId ≠ userPrivId := by
      rw [hn.id]
      rintro rfl
      exact h.user hsys
    exact absurd hep.symm (hnone i q (hn.owner q i hlive.1 hi hsys) i hi hid hmay
      (hreach q) k hk hund)
  · rw [State.mfIsset, State.mfUnset, State.modProc_proc, if_neg hxd]
    exact hx

lemma write {e : AsynMsg} (h : Held s) (he : WellFormed e) :
    Held ((modEntry p a (fun _ => e) s).record (.wrote p a)) := by
  have hst : Static s ((modEntry p a (fun _ => e) s).record (.wrote p a)) := .of_eq rfl rfl
  refine h.intro hst (fun _ => rfl) (fun _ => rfl) (fun q i k hq hi hsys hk => ?_) fun q b
    hsub hund => ?_
  · rw [State.entry, wrote_tables]
    split
    · exact he
    · exact h.wellFormed q i k hq hi hsys hk
  cases hsub with
  | later _ hold hkeep =>
    have hne : ¬ (q = p ∧ b = a) := by
      rintro ⟨rfl, rfl⟩
      exact hkeep ⟨rfl, rfl⟩
    have heq : ((modEntry p a (fun _ => e) s).record (.wrote p a)).tables q b = s.tables q b := by
      rw [wrote_tables, if_neg hne]
    rw [heq] at hund
    obtain ⟨hholds, hmarked⟩ := h.held q b hold hund
    exact ⟨hholds.mono hst hholds.1 fun _ _ _ => ⟨rfl, rfl⟩,
      hmarked.mono hst heq (fun _ hd => hd) fun _ _ _ _ hd => hd⟩

lemma gone {rc : Slot} (h : Held s) (hn : Notices s) (hst : Static s t)
    (hrc : s.isemptyp rc = false)
    (hgone : Gone rc s t) (hpriv : GonePriv rc s t) : Held t := by
  obtain ⟨i, hi, hall⟩ := hpriv.priv
  have hcell : ∀ q b, t.tables q b = s.tables q b := fun q b => by rw [hpriv.tables]
  have htab : ∀ j, (t.priv j).sAsyntab = (s.priv j).sAsyntab := by
    intro j
    obtain ⟨m, n, hm, _⟩ := hall j
    rw [hm]
  have hsize : ∀ j, (t.priv j).sAsynsize = (s.priv j).sAsynsize ∨ j = i ∧
    (t.priv j).sAsynsize = 0 := by
    intro j
    obtain ⟨m, n, hm, _, hn, _⟩ := hall j
    rw [hm]
    rcases hn with hn | ⟨hji, _, hn⟩
    · exact .inl hn
    · exact .inr ⟨hji, hn⟩
  refine h.intro hst hgone.isemptyp (fun j => ?_) (fun q j k hq hj hsys hk => ?_) fun q b
    hsub hund => ?_
  · obtain ⟨m, n, hm, _⟩ := hall j
    rw [hm]
  · rw [State.entry, htab, hcell]
    rcases hsize j with heq | ⟨_, hzero⟩
    · exact h.wellFormed q j k hq hj hsys (heq ▸ hk)
    · rw [hzero] at hk
      exact absurd hk (Nat.not_lt_zero k)
  · rw [hpriv.history] at hsub
    rw [hcell] at hund
    cases hsub with
    | later _ hold hkeep =>
      obtain ⟨hholds, hmarked⟩ := h.held q b hold hund
      have hne : q ≠ rc := fun hq => hkeep hq.symm
      refine ⟨hholds.mono hst (hgone.live.mpr ⟨hholds.1, hne⟩) fun j hj hsys => ⟨?_, htab j⟩,
        hmarked.mono hst (hcell q b) (fun d hd => (hgone.isemptyp d).symm.trans hd) fun d _
          _ _ hd => ?_⟩
      · refine (hsize j).resolve_right fun hji => ?_
        obtain ⟨rfl, _⟩ := hji
        exact hne (hn.unshared hholds.1.1 hrc hj hi hsys)
      · rw [State.mfIsset, hpriv.misc]
        exact hd

lemma free {rc : Slot} (h : Held s) (hpriv : (s.proc rc).pPriv = some i) (hf : Freed rc i s t)
    (hgone : s.rtsIsset rc rtsNoEndpoint = true) : Held t where
  slots j := by
    rcases hf.priv j with heq | ⟨_, _, heq⟩
    · rw [heq]
      exact h.slots j
    · rw [heq]
      exact .inl rfl
  assigned j q hq := by
    have hold : (s.priv j).sProcNr = procNr q := by
      rcases hf.priv j with heq | ⟨_, _, heq⟩
      · rwa [heq] at hq
      · rw [heq] at hq
        exact absurd hq.symm (procNr_ne_none q)
    obtain ⟨hj, hlive⟩ := h.assigned j q hold
    rw [hf.static.priv, hf.static.sysPriv]
    refine ⟨hj, ?_⟩
    by_cases hqrc : q = rc
    · subst hqrc
      obtain rfl : i = j := Option.some.inj (hpriv.symm.trans hj)
      exact .inr fun hsys => (procNr_ne_none q) (hq.symm.trans (hf.unowned hsys))
    · rw [State.isemptyp, hf.other q hqrc]
      exact hlive
  user hsys := h.user (hf.static.sysPriv.mp hsys)
  wellFormed q j k hq hj hsys hk := by
    obtain ⟨_, hq'⟩ := hf.isemptyp hq
    obtain ⟨hsize, htab⟩ := hf.table j
    rw [hsize] at hk
    rw [State.entry, htab, hf.tables]
    exact h.wellFormed q j k hq' ((hf.static.priv q).symm.trans hj) (hf.static.sysPriv.mp hsys) hk
  held q b hsub hund := by
    rw [hf.history] at hsub
    rw [hf.tables] at hund
    obtain ⟨hholds, hmarked⟩ := h.held q b hsub hund
    refine ⟨hholds.mono hf.static (hf.live hgone hholds.1) fun j _ _ => hf.table j,
      hmarked.mono hf.static (by rw [hf.tables]) (fun d hd => (hf.isemptyp hd).2) fun d _ _ hd
        hmark => ?_⟩
    rw [State.mfIsset, hf.other d (hf.isemptyp hd).1]
    exact hmark

end Held

lemma Traffic.held (ht : Traffic l s t) (hg : s.Good) (hn : Notices s)
    (hreach : ∀ p, l.env.Reaches p)
    (hwrite : ∀ e, l.write = some e → WellFormed e) (h : Held s) : Held t := by
  cases ht with
  | idle t hi => exact h.idle hi
  | clear p i hlive hpriv hsys => exact h.clear hn hlive hpriv hsys
  | accept p i table count hlive hpriv hsys hscan => exact h.accept hn hlive hpriv hsys hscan
  | settle p table count hdone => exact h.settle hdone
  | deliver src dst a hund _ => exact h.deliver (hreach src) hund
  | refuse src a r hund => exact h.refuse (hreach src) hund
  | drop src i hpriv howner hwhy => exact h.drop hn hpriv howner hwhy
  | none p hnone => exact h.none hn hreach hnone
  | write p a e he => exact h.write (hwrite e he)
  | gone rc t hclear =>
    obtain ⟨hrc, hgone, _, hpriv⟩ := clearEndpoint_spec hg hclear
    exact h.gone hn (static_clearEndpoint hclear) hrc hgone hpriv
  | free rc i t hpriv hf hgone => exact h.free hpriv hf hgone

lemma Boot.sealed (h : Boot s) : Sealed s where
  done p a hd := by
    rw [h.history] at hd
    cases hd
  once := by
    rw [h.history]
    exact trivial
  reply p d a e b hmem := by
    rw [h.history] at hmem
    nomatch hmem

lemma Boot.held (h : Boot s) (huser : ¬ s.SysPriv userPrivId) : Held s where
  slots j := (h.assigned j).imp_right fun ⟨q, hq, _⟩ => ⟨q, hq⟩
  assigned j q hq := by
    rcases h.assigned j with hnone | ⟨q', hq', hempty, hj⟩
    · exact absurd (hq.symm.trans hnone) (procNr_ne_none q)
    · obtain rfl := procNr_injective (hq'.symm.trans hq)
      exact ⟨hj, .inl hempty⟩
  user := huser
  wellFormed p i k _ _ _ hk := by
    rw [h.asynsize] at hk
    exact absurd hk (Nat.not_lt_zero k)
  held p a hsub _ := by
    rw [h.history] at hsub
    cases hsub

/-- The kernel reaches the memory it needs. -/
def Action.Reaching (s : State) (act : Action) : Prop := ∀ p, (entryOf s act).env.Reaches p

/-- What is written is a flag word the kernel accepts. -/
def Action.Tidy (s : State) (act : Action) : Prop :=
  ∀ e, (entryOf s act).write = some e → WellFormed e

lemma Trace.sealed {n : Nat} (tr : Trace step n) (hboot : Boot (tr.state 0))
    (hreach : ∀ k < n, (tr.act k).Reaching (tr.state k)) :
    ∀ k ≤ n, Sealed (tr.state k) := by
  refine fun k hk => (tr.invariant_of (fun s => s.Good ∧
    Sealed s) (fun s a => a.Reaching s) ⟨hboot.good, hboot.sealed⟩
    hreach ?_ k hk).2
  rintro s a t ⟨hg, hsealed⟩ hr hs
  have hup := hg.updates hs
  refine ⟨hg.step hs, ?_⟩
  clear hs
  induction hup with
  | refl => exact hsealed
  | tail hup hu ih =>
    have hgood := Updates.good hup hg
    exact (hu.traffic hgood.freeOk).sealed hgood hr ih

lemma Trace.outbox {n : Nat} (tr : Trace step n) (hboot : Boot (tr.state 0))
    (huser : ¬ (tr.state 0).SysPriv userPrivId)
    (hreach : ∀ k < n, (tr.act k).Reaching (tr.state k))
    (htidy : ∀ k < n, (tr.act k).Tidy (tr.state k)) :
    ∀ k ≤ n, Held (tr.state k) ∧ Notices (tr.state k) := by
  refine fun k hk => (tr.invariant_of (fun s => s.Good ∧ Held s ∧
    Notices s) (fun s a => a.Reaching s ∧ a.Tidy s)
    ⟨hboot.good, hboot.held huser, hboot.notices⟩ (fun k hk => ⟨hreach k hk, htidy k hk⟩) ?_ k hk).2
  rintro s a t ⟨hg, hheld, hn⟩ ⟨hr, hw⟩ hs
  have hup := hg.updates hs
  refine ⟨hg.step hs, ?_⟩
  clear hs
  induction hup with
  | refl => exact ⟨hheld, hn⟩
  | tail hup hu ih =>
    obtain ⟨ihh, ihn⟩ := ih
    have hgood := Updates.good hup hg
    exact ⟨(hu.traffic hgood.freeOk).held hgood ihn hr hw ihh,
      (hu.notice hgood.freeOk).notices hgood ihn⟩

end Nucleos.Kernel
