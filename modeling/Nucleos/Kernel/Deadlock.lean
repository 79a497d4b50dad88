import Nucleos.Kernel.Protocol

/-!
# The deadlock check

`deadlock` follows the wait-for graph from the partner of the caller. A result of zero says
that the chain does not lead back to the caller, except over one edge in the two cases in
which the partner is ready for the caller.
-/

namespace Nucleos.Kernel

open IntrusiveList FunctionalGraph Rendezvous Run

variable {s t : State} {function : Nat} {cp x : Slot}

lemma dependency_spec (hg : s.Good) (x : Slot) :
    ∃ y, dependency x s = .ok y ∧ y.join = s.protocol.waits x := by
  cases hr : s.rtsIsset x rtsReceiving with
  | true =>
    have hwait : s.protocol.waitFor x = some (sourceOf s (s.proc x).pGetfromE) := by
      simp [State.protocol, hr]
    have hsrc : s.protocol.waits x = sourceOf s (s.proc x).pGetfromE := by
      cases hs : s.protocol.sendTo x with
      | none => simp [System.waits, hs, hwait]
      | some d => simp [System.waits, hs, hg.inv.both x d _ hs hwait]
    by_cases hany : (s.proc x).pGetfromE = endptAny
    · refine ⟨some none, ?_, ?_⟩
      · simp [dependency, hr, hany]
      · simp [hsrc, sourceOf, hany]
    obtain ⟨d, hd⟩ := hg.waiter x hr hany
    refine ⟨some (some d), ?_, ?_⟩
    · simp [dependency, hr, hany, (s.okendpt_eq_ok).mpr hd, bind, Except.bind]
    · simp [hsrc, sourceOf, hany, hd]
  | false =>
    have hwait := State.waitFor_of_not hr
    cases hs : s.rtsIsset x rtsSending with
    | true =>
      obtain ⟨d, hd⟩ := hg.sender x hs
      refine ⟨some (some d), ?_, ?_⟩
      · simp [dependency, hr, hs, (s.okendpt_eq_ok).mpr hd, bind, Except.bind]
      · simp [System.waits, State.sendTo_eq_some.mpr ⟨hs, hd⟩]
    | false =>
      refine ⟨none, ?_, ?_⟩
      · simp [dependency, hr, hs]
      · simp [System.waits, State.sendTo_of_not hs, hwait]

/-- The test of `deadlock` for a partner that is about to take the message of the caller, or has
one for it. -/
def exempt (function : Nat) (s : State) (xp : Slot) : Prop :=
  ((s.proc xp).pRtsFlags ^^^ (BitVec.ofNat 16 function <<< 2)) &&& rtsSending ≠ 0

lemma rtsSending_bit (s : State) (p : Slot) : s.rtsIsset p rtsSending = (s.proc p).pRtsFlags.getLsbD 2 := by
  have htwo : rtsSending = BitVec.twoPow 16 2 := by decide
  simp only [State.rtsIsset, ChunkMap.isset, htwo, BitVec.and_twoPow]
  cases (s.proc p).pRtsFlags.getLsbD 2 with
  | true => simp
  | false => decide

lemma exempt_iff (function : Nat) (s : State) (p : Slot) : exempt function s p ↔
    ((s.rtsIsset p rtsSending) ^^ (BitVec.ofNat 16 function <<< 2).getLsbD 2) = true := by
  have htwo : rtsSending = BitVec.twoPow 16 2 := by decide
  rw [rtsSending_bit, ← BitVec.getLsbD_xor, exempt, htwo, BitVec.and_twoPow]
  cases ((s.proc p).pRtsFlags ^^^ BitVec.ofNat 16 function <<< 2).getLsbD 2 with
  | true => exact iff_of_true (by decide) rfl
  | false => simp

lemma exempt_send (h : exempt kipcSend s x) : s.rtsIsset x rtsSending = false := by
  have hbit : (BitVec.ofNat 16 kipcSend <<< 2).getLsbD 2 = true := by decide
  rw [exempt_iff, hbit] at h
  simpa using h

lemma exempt_receive (h : exempt kipcReceive s x) : s.rtsIsset x rtsSending = true := by
  have hbit : (BitVec.ofNat 16 kipcReceive <<< 2).getLsbD 2 = false := by decide
  rw [exempt_iff, hbit] at h
  simpa using h

instance (function : Nat) (s : State) (xp : Slot) : Decidable (exempt function s xp) :=
  inferInstanceAs (Decidable (_ ≠ _))

lemma deadlockLoop_succ (hg : s.Good) (fuel g : Nat) :
    deadlockLoop function cp s (fuel + 1) g (some x) =
      match s.protocol.waits x with
      | none => .ok 0
      | some y =>
        if y = cp then if g + 1 = 2 ∧ exempt function s x then .ok 0 else .ok (g + 1)
        else deadlockLoop function cp s fuel (g + 1) (some y) := by
  obtain ⟨y, hy, hw⟩ := dependency_spec hg x
  rw [deadlockLoop, hy, ← hw]
  match y with
  | none => rfl
  | some none =>
    simp only [bind, Except.bind, Option.join_some]
    rw [if_neg nofun]
    cases fuel <;> rfl
  | some (some z) =>
    simp only [bind, Except.bind, Option.join_some, Option.some.injEq, exempt]
    rfl

/-- If the check finds no deadlock, the chain does not lead back to the caller. -/
theorem deadlockLoop_zero (hg : s.Good) {fuel g : Nat} (hpos : 0 < g) (hx : x ≠ cp)
    (h : deadlockLoop function cp s fuel g (some x) = .ok 0) : ¬ Reaches s.protocol.waits x cp ∨
      (g = 1 ∧ s.protocol.waits x = some cp ∧ exempt function s x) := by
  induction fuel generalizing g x with
  | zero => cases h
  | succ fuel ih =>
    rw [deadlockLoop_succ hg] at h
    cases hw : s.protocol.waits x with
    | none =>
      left
      intro hr
      rcases Relation.ReflTransGen.cases_head hr with rfl | ⟨z, hz, _⟩
      · exact hx rfl
      · nomatch hw.symm.trans hz
    | some y =>
      simp only [hw] at h
      by_cases hy : y = cp
      · rw [if_pos hy] at h
        rcases ite_eq_iff.mp h with ⟨⟨hgroup, hexempt⟩, _⟩ | ⟨_, h⟩
        · exact .inr ⟨by omega, by rw [hy], hexempt⟩
        · cases h
      rw [if_neg hy] at h
      rcases ih (by omega) hy h with hno | ⟨hgroup, _, _⟩
      · left
        intro hr
        rcases Relation.ReflTransGen.cases_head hr with rfl | ⟨z, hz, hzc⟩
        · exact hx rfl
        · obtain rfl := Option.some.inj (hw.symm.trans hz)
          exact hno hzc
      · omega

lemma deadlockLoop_pos (hg : s.Good) {fuel g r : Nat} (hr : r ≠ 0)
    (h : deadlockLoop function cp s fuel g (some x) = .ok r) :
    ∃ m, r = g + (m + 1) ∧ follow s.protocol.waits (m + 1) x = some cp ∧
      ¬ (g = 1 ∧ s.protocol.waits x = some cp ∧ exempt function s x) := by
  induction fuel generalizing g x with
  | zero => cases h
  | succ fuel ih =>
    rw [deadlockLoop_succ hg] at h
    cases hw : s.protocol.waits x with
    | none =>
      simp only [hw] at h
      exact absurd (Except.ok.inj h).symm hr
    | some y =>
      simp only [hw] at h
      by_cases hy : y = cp
      · rw [if_pos hy] at h
        rcases ite_eq_iff.mp h with ⟨_, h⟩ | ⟨hnot, h⟩
        · exact absurd (Except.ok.inj h).symm hr
        refine ⟨0, (Except.ok.inj h).symm, by simp [follow, hw, hy], ?_⟩
        rintro ⟨hone, _, hexempt⟩
        exact hnot ⟨by omega, hexempt⟩
      · rw [if_neg hy] at h
        obtain ⟨m, rfl, hfollow, _⟩ := ih h
        refine ⟨m + 1, by omega, by rw [follow, hw]; exact hfollow, ?_⟩
        rintro ⟨_, hyc, _⟩
        exact hy (Option.some.inj hyc)

lemma deadlock_send {p d : Slot} (hg : s.Good) (hne : d ≠ p)
    (hwill : s.willReceive d (s.proc p).pEndpoint = false)
    (h : deadlock kipcSend p (some d) s = .ok 0) : ¬ Reaches s.protocol.waits d p := by
  rcases deadlockLoop_zero hg Nat.one_pos hne h with hno | ⟨_, hw, hexempt⟩
  · exact hno
  exfalso
  -- `d` does not send, so it waits for `p` and would take the message
  have hs := exempt_send hexempt
  simp only [System.waits, State.sendTo_of_not hs] at hw
  cases hr : s.rtsIsset d rtsReceiving with
  | false => simp [State.waitFor_of_not hr] at hw
  | true =>
    simp only [State.protocol, hr, if_true, Option.join_some, sourceOf] at hw
    split at hw
    · cases hw
    · have hep := ((s.isokendpt_eq_some).mp hw).2.2
      simp [State.willReceive, hr, hs, hep] at hwill

lemma deadlock_receive {p d : Slot} (hg : s.Good) (hne : d ≠ p) (hp : s.Live p)
    (hqueue : receiveCaller p (some d) s = .ok none)
    (h : deadlock kipcReceive p (some d) s = .ok 0) : ¬ Reaches s.protocol.waits d p := by
  rcases deadlockLoop_zero hg Nat.one_pos hne h with hno | ⟨_, hw, hexempt⟩
  · exact hno
  exfalso
  have hs := exempt_receive hexempt
  obtain ⟨e, he⟩ := (hg.sending_iff d).mp hs
  simp only [System.waits, he, Option.some.injEq] at hw
  -- `d` sends to `p`, so the search through the queue of `p` has found it
  obtain ⟨k, hk, hmem⟩ := hg.inv.chain p (State.live_iff.mpr hp)
  have hd := (hmem d).mpr (hw ▸ he)
  unfold receiveCaller at hqueue
  split at hqueue
  · cases hqueue
  rename_i xpp hwalk
  obtain ⟨l₁, l₂, rfl, rfl, hskip, _⟩ := Lists.walk_split s.queues _ hk hwalk
  have hrest := Lists.read_lastCell s.queues hk
  split at hqueue
  · rename_i hread
    rw [hread] at hrest
    cases hrest
    rw [List.append_nil] at hd
    simpa [accepts] using hskip d hd
  · obtain ⟨v, _, hqueue⟩ := bind_eq_ok.mp hqueue
    cases hqueue

lemma deadlock_ends (hg : s.Good) (hacyc : Acyclic s.protocol.waits) (srcDst : Option Slot) :
    ∃ n, deadlock function cp srcDst s = .ok n := by
  have go : ∀ fuel g x, follow s.protocol.waits fuel x = none →
      ∃ n, deadlockLoop function cp s fuel g (some x) = .ok n := by
    intro fuel
    induction fuel with
    | zero =>
      intro g x h
      cases h
    | succ fuel ih =>
      intro g x h
      rw [deadlockLoop_succ hg]
      cases hw : s.protocol.waits x with
      | none => exact ⟨0, rfl⟩
      | some y =>
        simp only
        split
        · split
          · exact ⟨0, rfl⟩
          · exact ⟨g + 1, rfl⟩
        · simp only [follow, hw, Option.bind_some] at h
          exact ih (g + 1) y h
  cases srcDst with
  | none => exact ⟨0, by simp [deadlock, deadlockLoop]⟩
  | some d =>
    apply go
    have hcard := hacyc.follow_card d
    rw [Fintype.card_fin] at hcard
    rw [State.queueFuel, follow_add, hcard]
    rfl

end Nucleos.Kernel
