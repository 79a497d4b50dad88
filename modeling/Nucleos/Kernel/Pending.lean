import Nucleos.Kernel.Notify

/-!
# Which pending notification `mini_receive` finds

For every chunk of `s_notify_pending` the scan looks at the lowest bit that is set, and at
no other. A receiver that accepts anybody therefore finds some notification whenever there
is one; a receiver that asks for one source finds it only behind no other bit of the chunk.
-/

namespace Nucleos.Kernel

open IntrusiveList Run

variable {s t u : State} {map : SysMap} {src : Option Slot} {b : PrivId} {R dst : Slot} {env : Env}
    {post : Bool} {r srcE : Int} {flags : BitVec 32}

def lowestId (map : SysMap) (c : Fin nrSysChunks) : Nat := c.val * bitchunkBits + ChunkMap.lowest (map c)

variable {c : Fin nrSysChunks}

lemma lowestId_lt (h : map c ≠ 0) : lowestId map c < nrSysProcs := by
  obtain ⟨hlt, _⟩ := ChunkMap.lowest_spec h
  have hc := c.isLt
  simp only [lowestId, nrSysProcs, bitchunkBits, nrSysChunks] at hlt hc ⊢
  omega

variable {cs : List (Fin nrSysChunks)}

lemma findNotify_cons
    (h : map c ≠ 0) : findNotify s map src (c :: cs) =
      if ∃ p, src = some p ∧ procNr p ≠ (s.priv ⟨lowestId map c, lowestId_lt h⟩).sProcNr then
        findNotify s map src cs
      else some ⟨lowestId map c, lowestId_lt h⟩ := by
  rw [findNotify, if_neg h]
  refine (dif_pos (lowestId_lt h)).trans ?_
  cases src with
  | none | some p => simp [lowestId]

lemma findNotify_none
    (h : findNotify s map src cs = none) (hc : c ∈ cs) (hne : map c ≠ 0) :
    ∃ p, src = some p ∧ ∀ id : PrivId, id.val = lowestId map c → (s.priv id).sProcNr ≠ procNr p := by
  induction cs with
  | nil => nomatch hc
  | cons x cs ih =>
    by_cases hx : map x = 0
    · rw [findNotify, if_pos hx] at h
      rcases List.mem_cons.mp hc with rfl | hc
      · exact absurd hx hne
      · exact ih h hc
    rw [findNotify_cons hx] at h
    rcases ite_eq_iff.mp h with ⟨⟨p, hp, hnr⟩, h⟩ | ⟨_, h⟩
    · rcases List.mem_cons.mp hc with rfl | hc
      · refine ⟨p, hp, fun id hid => ?_⟩
        have hfin : id = ⟨lowestId map c, lowestId_lt hne⟩ := Fin.ext hid
        rw [hfin]
        exact hnr.symm
      · exact ih h hc
    · cases h

def chunkOf (b : PrivId) : Fin nrSysChunks := ⟨b.val / bitchunkBits, sysBit_chunk b⟩

lemma getSysBit_chunkOf (h : getSysBit map b = true) : map (chunkOf b) ≠ 0 := by
  intro hz
  rw [getSysBit, ChunkMap.get, dif_pos (sysBit_chunk b)] at h
  rw [chunkOf] at hz
  rw [hz] at h
  simp at h

def IsLowest (map : SysMap) (b : PrivId) : Prop := ChunkMap.lowest (map (chunkOf b)) = b.val % bitchunkBits

instance (map : SysMap) (b : PrivId) : Decidable (IsLowest map b) :=
  inferInstanceAs (Decidable (_ = _))

lemma isLowest_iff : IsLowest map b ↔ b.val = lowestId map (chunkOf b) := by
  simp only [IsLowest, lowestId, chunkOf, bitchunkBits]
  omega

variable {j : PrivId}

lemma findNotify_source {S : Slot} (hn : Notices s) (hR : s.isemptyp R = false)
    (hj : (s.proc R).pPriv = some j) (hbit : getSysBit (s.priv j).sNotifyPending b = true)
    (hS : (s.priv b).sProcNr = procNr S) :
    findNotify s (s.priv j).sNotifyPending (some S) (List.finRange nrSysChunks) =
      if IsLowest (s.priv j).sNotifyPending b then some b else none := by
  have hown : ∀ id, getSysBit (s.priv j).sNotifyPending id = true → (s.priv id).sProcNr = procNr S →
    id = b := by
    intro id hid hnr
    obtain ⟨q, hq, hqi, hsys⟩ := hn.pending R j id hR hj hid
    obtain ⟨q', hq', hqb, hsys'⟩ := hn.pending R j b hR hj hbit
    have h := procNr_injective ((hn.owner q id hq.1 hqi hsys).symm.trans hnr)
    have h' := procNr_injective ((hn.owner q' b hq'.1 hqb hsys').symm.trans hS)
    rw [h] at hqi
    rw [h'] at hqb
    exact Option.some.inj (hqi.symm.trans hqb)
  have hfound : ∀ id, findNotify s (s.priv j).sNotifyPending (some S) (List.finRange nrSysChunks) = some id →
      id = b ∧ IsLowest (s.priv j).sNotifyPending b := by
    intro id hid
    obtain ⟨c, _, hc, hval, hnr⟩ := findNotify_some hid
    obtain rfl := hown id (findNotify_bit hid) (hnr S rfl)
    refine ⟨rfl, ?_⟩
    obtain ⟨hlt, _⟩ := ChunkMap.lowest_spec hc
    have hcc : chunkOf id = c := by
      apply Fin.ext
      simp only [chunkOf, bitchunkBits] at hval hlt ⊢
      omega
    rw [isLowest_iff, hcc]
    exact hval
  split
  · rename_i hlow
    cases hf : findNotify s (s.priv j).sNotifyPending (some S) (List.finRange nrSysChunks) with
    | some id => rw [(hfound id hf).1]
    | none =>
      obtain ⟨p, hp, hno⟩ := findNotify_none hf (List.mem_finRange (chunkOf b)) (getSysBit_chunkOf hbit)
      cases hp
      exact absurd hS (hno b (isLowest_iff.mp hlow))
  · rename_i hlow
    cases hf : findNotify s (s.priv j).sNotifyPending (some S) (List.finRange nrSysChunks) with
    | some id => exact absurd (hfound id hf).2 hlow
    | none => rfl

lemma findNotify_any (hbit : getSysBit map b = true) :
    ∃ id, findNotify s map none (List.finRange nrSysChunks) = some id := by
  cases hf : findNotify s map none (List.finRange nrSysChunks) with
  | some id => exact ⟨id, rfl⟩
  | none =>
    obtain ⟨p, hp, _⟩ := findNotify_none hf (List.mem_finRange (chunkOf b)) (getSysBit_chunkOf hbit)
    cases hp

/-- `mini_receive` returns at once, and what it hands over is a notification of this process
number. -/
def CompletesWithNotice (env : Env) (R : Slot) (srcE : Int) (mPtr : Nat) (flags : BitVec 32) (s : State)
    (nr : Int) : Prop :=
  ∃ t arg, miniReceive env R srcE mPtr flags s = .ok (0, t) ∧ t.history = .notified nr R arg :: s.history

variable {i : PrivId} {found : Bool}

lemma blockReceive_logs {P : Event → Prop} (h : blockReceive R srcE src flags s = .ok (r, t)) :
    Logs P s t := by
  rcases blockReceive_eq_ok h with rfl | ⟨_, rfl⟩ <;> exact .of_eq rfl

lemma notify_logs {caller : Slot} (h : NotifyEffect caller dst s t) : Logs (fun _ => True) s t := by
  cases h with
  | direct m u _ _ hbuild =>
    refine ⟨[.notified (procNr caller) dst m.mData4, .notify caller dst], ?_, fun _ _ => trivial⟩
    rw [← (buildNotify_built hbuild).history]
    rfl
  | posted i j _ _ => exact .cons rfl trivial

lemma Notice.logs (h : Notice s t) (hg : s.Good) : Logs (fun _ => True) s t := by
  cases h with
  | still t h =>
    rcases h.history with hh | ⟨e, _, hh⟩
    · exact .of_eq hh
    · exact .cons hh trivial
  | notify caller dst t _ _ heff => exact notify_logs heff
  | raise c task dst i bits t _ _ _ heff =>
    refine Logs.trans ?_ (notify_logs heff)
    cases c with
    | int | sig => exact .cons rfl trivial
  | take p i id t _ _ _ _ h =>
    obtain ⟨src, arg, u, _, _, _, hh⟩ := takeNotify_eq_ok h
    exact .cons hh trivial
  | gone rc t _ h => exact .cons (clearEndpoint_spec hg h).2.2.2.history trivial
  | free rc i _ _ _ => exact .of_eq (freed s rc i).history

lemma Updates.logs {l : Entry} (h : Updates l s t) (hg : s.Good) : Logs (fun _ => True) s t := by
  induction h with
  | refl => exact .refl _
  | tail hup hu ih =>
    have hgood := Updates.good hup hg
    exact ih.trans ((hu.notice hgood.freeOk).logs hgood)

lemma receiveCaller_logs (hg : s.Good) (hR : s.Live R) (h : receiveCaller R src s = .ok (some t)) :
    ∃ es q m, t.history = es ++ .sent q R m :: s.history := by
  obtain ⟨xpp, q, u, _, _, hu, rfl⟩ := receiveCaller_eq_ok hg.epOk hg.sound.queueLive hR h
  have hsent : Updates (.idle (kernelEnv Msg.zero)) s (handOver R q s) := handOver_updates R q s
  obtain ⟨es, hes, _⟩ := (hu (.idle (kernelEnv Msg.zero))).logs (hsent.good hg)
  refine ⟨es, q, (s.proc q).pSendmsg, ?_⟩
  rw [State.writeCell_history]
  exact hes

variable {nr : Int}

lemma receive_not_notice
    {arg : BitVec 32} (hg : s.Good) (hR : s.Live R) (hsrc : ∀ p, src = some p → s.isemptyp p = false)
    (hno : receiveNotify R src s = .ok none)
    (hpend : receivePending env R src s = .ok (found, u))
    (h : (if found then .ok (0, u) else blockReceive R srcE src flags u) =
      (.ok (r, t) : Except Stop (Int × State))) :
    t.history ≠ .notified nr R arg :: s.history := by
  intro ht
  rcases receivePending_eq_ok hpend with ⟨_, hsome⟩ | ⟨hf, _, hcaller⟩ | ⟨_, _, hasyn⟩
  · nomatch hno.symm.trans hsome
  · rw [hf] at h
    cases h
    obtain ⟨es, q, m, hes⟩ := receiveCaller_logs hg hR hcaller
    have heq : [Event.notified nr R arg] = es ++ [.sent q R m] := by
      refine List.append_cancel_right (?_ : _ ++ s.history = _)
      rw [List.append_assoc]
      exact ht.symm.trans hes
    rcases List.append_eq_singleton_iff.mp heq.symm with ⟨_, he⟩ | ⟨_, he⟩
    · cases he
    · cases he
  · have hlog : Logs Event.Plain s t := by
      refine (receiveAsyn_updates (l := .idle env) hsrc hasyn rfl).2.trans ?_
      split at h
      · cases h
        exact .refl _
      · exact blockReceive_logs h
    exact hlog.single ht

lemma takeNotify_ok {src : Slot} {id : PrivId} (hi : (s.proc R).pPriv = some i)
    (hsrc : (s.priv id).sProcNr = procNr src) :
    ∃ t arg, takeNotify R i id s = .ok t ∧ t.history = .notified (procNr src) R arg :: s.history := by
  have hnr : ((s.modPriv i fun v =>
    { v with sNotifyPending := unsetSysBit v.sNotifyPending id }).priv id).sProcNr =
      procNr src := (s.modPriv_keep Priv.sProcNr rfl id).trans hsrc
  have hbuild : ∃ m u, buildNotifyMessage (procNr src) R
      (s.modPriv i fun v => { v with sNotifyPending := unsetSysBit v.sNotifyPending id }) = .ok (m, u) := by
    have hpriv := (State.privOf_eq_ok (s.modPriv i fun v =>
      { v with sNotifyPending := unsetSysBit v.sNotifyPending id })).mpr hi
    unfold buildNotifyMessage
    rw [hpriv]
    simp only
    split
    · exact ⟨_, _, rfl⟩
    split
    · exact ⟨_, _, rfl⟩
    · exact ⟨_, _, rfl⟩
  obtain ⟨m, u, hbuild⟩ := hbuild
  have htake : takeNotify R i id s =
      .ok ((deposit (u.proc src).pEndpoint m R u).record (.notified (procNr src) R m.mData4)) := by
    unfold takeNotify
    simp only [hnr, hbuild, slotOf_procNr, queueMess, bind, Except.bind, ne_eq, not_true_eq_false, if_false]
  refine ⟨_, m.mData4, htake, ?_⟩
  change _ :: u.history = _
  rw [(buildNotify_built hbuild).history]
  rfl

def BufferOk (env : Env) (s : State) (R : Slot) (mPtr : Nat) : Prop :=
  (s.proc R).syscall0x80 = true ∨ env.umapLocal R mPtr sizeofMsg = true

lemma completesWithNotice_iff {mPtr : Nat} (hg : s.Good) (hn : Notices s) (hR : s.Live R)
    (hsend : s.rtsIsset R rtsSending = false) (hreply : s.mfIsset R mfReplyPend = false)
    (hj : (s.proc R).pPriv = some j) (hsrc : receiveSource srcE s = .ok src)
    (hlive : ∀ p, src = some p → s.rtsIsset p rtsNoEndpoint = false) :
    CompletesWithNotice env R srcE mPtr flags s nr ↔ BufferOk env s R mPtr ∧
      ∃ id, findNotify s (s.priv j).sNotifyPending src (List.finRange nrSysChunks) = some id ∧
        (s.priv id).sProcNr = nr := by
  have hpriv : s.privOf R = .ok j := (s.privOf_eq_ok).mpr hj
  have hdead : (src.any fun p => s.rtsIsset p rtsNoEndpoint) = false := by
    cases src with
    | none => rfl
    | some p => exact hlive p rfl
  have hrecv : miniReceive env R srcE mPtr flags s =
      if !(s.proc R).syscall0x80 && !env.umapLocal R mPtr sizeofMsg then .ok (-efault, s)
      else receivePending env R src s >>= fun x =>
        if x.1 then .ok (0, x.2) else blockReceive R srcE src flags x.2 := by
    unfold miniReceive
    rw [hsrc]
    simp only [bind, Except.bind, hdead, hsend, if_neg Bool.false_ne_true]
  have hbuf : BufferOk env s R mPtr ↔
    ¬ (!(s.proc R).syscall0x80 && !env.umapLocal R mPtr sizeofMsg) = true := by
    simp only [BufferOk, Bool.and_eq_true, Bool.not_eq_true', not_and_or, Bool.not_eq_false]
  rw [CompletesWithNotice, hrecv]
  constructor
  · rintro ⟨t, arg, h, ht⟩
    split_ifs at h with hmap
    · have hr : -efault = 0 := congrArg Prod.fst (Except.ok.inj h)
      exact absurd hr (by decide)
    refine ⟨hbuf.mpr hmap, ?_⟩
    obtain ⟨⟨found, u⟩, hpend, h⟩ := bind_eq_ok.mp h
    cases hf : findNotify s (s.priv j).sNotifyPending src (List.finRange nrSysChunks) with
    | none =>
      have hno : receiveNotify R src s = .ok none := by
        unfold receiveNotify
        simp only [hreply, if_neg Bool.false_ne_true, hpriv, bind, Except.bind, hf]
      exact absurd ht (receive_not_notice hg hR (receiveSource_nonempty hsrc) hno hpend h)
    | some id =>
      obtain ⟨q, hq, hqi, hsys⟩ := hn.pending R j id hR.1 hj (findNotify_bit hf)
      obtain ⟨v, arg', htake, hv⟩ := takeNotify_ok hj (hn.owner q id hq.1 hqi hsys)
      have hsome : receivePending env R src s = .ok (true, v) := by
        unfold receivePending receiveNotify
        simp only [hreply, if_neg Bool.false_ne_true, hpriv, bind, Except.bind, hf, htake]
      cases hsome.symm.trans hpend
      cases h
      refine ⟨id, rfl, ?_⟩
      rw [hn.owner q id hq.1 hqi hsys]
      have he := List.cons.inj (ht.symm.trans hv)
      exact (Event.notified.inj he.1).1.symm
  · rintro ⟨hmap, id, hf, hnr⟩
    rw [if_neg (hbuf.mp hmap)]
    obtain ⟨q, hq, hqi, hsys⟩ := hn.pending R j id hR.1 hj (findNotify_bit hf)
    have hown := hn.owner q id hq.1 hqi hsys
    obtain ⟨v, arg, htake, hv⟩ := takeNotify_ok hj hown
    refine ⟨v, arg, ?_, by rw [← hnr, hown]; exact hv⟩
    unfold receivePending receiveNotify
    simp only [hreply, if_neg Bool.false_ne_true, hpriv, bind, Except.bind, hf, htake, if_true]

/-- In every state of a run from boot, `RECEIVE` from the process behind a pending notification
hands it over exactly if its bit is the lowest of its chunk; `RECEIVE` from anybody always hands
over one. -/
theorem receive_pending_iff {n : Nat} (tr : Trace step n) (hboot : Boot (tr.state 0)) {k : Nat} (hk : k ≤ n)
    {R S : Slot} {j b : PrivId} (hR : (tr.state k).Live R)
    (hsend : (tr.state k).rtsIsset R rtsSending = false)
    (hreply : (tr.state k).mfIsset R mfReplyPend = false) (hj : ((tr.state k).proc R).pPriv = some j)
    (hbit : getSysBit ((tr.state k).priv j).sNotifyPending b = true)
    (hS : ((tr.state k).priv b).sProcNr = procNr S) (env : Env) (mPtr : Nat) (flags : BitVec 32) :
    (CompletesWithNotice env R ((tr.state k).proc S).pEndpoint mPtr flags (tr.state k) (procNr S) ↔
        BufferOk env (tr.state k) R mPtr ∧ IsLowest ((tr.state k).priv j).sNotifyPending b) ∧
      ((∃ nr, CompletesWithNotice env R endptAny mPtr flags (tr.state k) nr) ↔
        BufferOk env (tr.state k) R mPtr) := by
  have hg := Trace.good tr hboot k hk
  have hn : Notices (tr.state k) :=
    (Trace.notice_invariant tr hboot (P := fun _ => True) trivial (fun _ _ _ _ => trivial) k hk).1
  generalize tr.state k = s at *
  obtain ⟨q, hq, hqb, hsys⟩ := hn.pending R j b hR.1 hj hbit
  obtain rfl := procNr_injective ((hn.owner q b hq.1 hqb hsys).symm.trans hS)
  constructor
  · have hne := endpoint_ne_any hg.epOk hq.1
    have hsrc : receiveSource (s.proc q).pEndpoint s = .ok (some q) := by
      rw [receiveSource, if_neg hne, (s.okendpt_eq_ok).mpr (isokendpt_endpoint hg.epOk hq.1)]
      rfl
    rw [completesWithNotice_iff hg hn hR hsend hreply hj hsrc fun p hp => Option.some.inj hp ▸ hq.2,
      findNotify_source hn hR.1 hj hbit hS]
    refine and_congr_right fun _ => ⟨?_, fun hlow => ⟨b, if_pos hlow, hS⟩⟩
    rintro ⟨id, hid, _⟩
    rcases ite_eq_iff.mp hid with ⟨hlow, _⟩ | ⟨_, h⟩
    · exact hlow
    · cases h
  · have hsrc : receiveSource endptAny s = .ok none := if_pos rfl
    obtain ⟨id, hid⟩ := findNotify_any (s := s) hbit
    constructor
    · rintro ⟨nr, h⟩
      exact ((completesWithNotice_iff hg hn hR hsend hreply hj hsrc (by simp)).mp h).1
    intro hbuf
    exact ⟨_, (completesWithNotice_iff hg hn hR hsend hreply hj hsrc (by simp)).mpr
      ⟨hbuf, id, hid, rfl⟩⟩

def twoNotices : Trace step 2 :=
  Trace.run step bootKernel
    (fun k =>
      if k = 0 then .trap 5 4 0 pmProcNr 0 (kernelEnv Msg.zero)
      else .trap 6 4 0 pmProcNr 0 (kernelEnv Msg.zero))
    2 (by decide +kernel)

/-- With the notification of VFS alone PM gets it, whether it asks for VFS or for anybody. -/
theorem receive_pending_of_twoNotices :
    (∃ t arg, miniReceive (kernelEnv Msg.zero) 4 vfsProcNr 0 0 (twoNotices.state 1) = .ok (0, t) ∧
        t.history = .notified vfsProcNr 4 arg :: (twoNotices.state 1).history) ∧
      ∃ nr, CompletesWithNotice (kernelEnv Msg.zero) 4 endptAny 0 0 (twoNotices.state 1) nr := by
  have h := receive_pending_iff twoNotices boot_bootKernel (k := 1) (by decide) (R := 4) (S := 5)
    (j := 4) (b := 5)
    ⟨by decide +kernel, by decide +kernel⟩ (by decide +kernel) (by decide +kernel)
      (by decide +kernel) (by decide +kernel)
    (by decide +kernel) (kernelEnv Msg.zero) 0 0
  exact ⟨h.1.mpr ⟨.inr rfl, by decide +kernel⟩, h.2.mpr (.inr rfl)⟩

/-- The bit of RS is set as well, but that of VFS hides it: PM blocks when it asks for RS, and is
told that nothing is ready when it must not block. -/
theorem receive_skips_pending :
    Boot (twoNotices.state 0) ∧ (twoNotices.state 2).rtsIsset 4 rtsSending = false ∧
      (twoNotices.state 2).mfIsset 4 mfReplyPend = false ∧
      ((twoNotices.state 2).proc 4).pPriv = some 4 ∧
      getSysBit ((twoNotices.state 2).priv 4).sNotifyPending 6 = true ∧
      ((twoNotices.state 2).priv 6).sProcNr = procNr 6 ∧
      (miniReceive (kernelEnv Msg.zero) 4 ((twoNotices.state 2).proc 6).pEndpoint 0 0
        (twoNotices.state 2)).toOption.map (fun x => (x.1, x.2.rtsIsset 4 rtsReceiving)) = some (0, true) ∧
      (miniReceive (kernelEnv Msg.zero) 4 ((twoNotices.state 2).proc 6).pEndpoint 0 kipcFlgNonblock
        (twoNotices.state 2)).toOption.map Prod.fst = some (-enotready) := by
  refine ⟨boot_bootKernel, ?_, ?_, ?_, ?_, ?_, ?_, ?_⟩ <;> decide +kernel

end Nucleos.Kernel
