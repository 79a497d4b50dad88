import Nucleos.Kernel.NoHang

/-!
# The wait-for graph

As long as nobody receives from itself, the processes that wait for each other never form a
cycle, and the kernel never runs for ever. `mini_receive` does not stop a process from
receiving from itself: `deadlock` looks at the caller before it is blocked. The next sender
then makes `deadlock` follow the loop without end.
-/

namespace Nucleos.Kernel

open FunctionalGraph Rendezvous Run

variable {s : State}

def State.waitsFor (s : State) (p : Slot) : Option Slot :=
  if s.rtsIsset p rtsSending then s.isokendpt (s.proc p).pSendtoE
  else if s.rtsIsset p rtsReceiving && (s.proc p).pGetfromE != endptAny then
    s.isokendpt (s.proc p).pGetfromE
  else none

lemma State.Good.waitsFor_eq (hg : s.Good) : s.waitsFor = s.protocol.waits := by
  funext p
  unfold State.waitsFor
  cases hs : s.rtsIsset p rtsSending with
  | true =>
    obtain ⟨d, hd⟩ := (hg.sending_iff p).mp hs
    rw [if_pos rfl, (State.sendTo_eq_some.mp hd).2]
    simp [System.waits, hd]
  | false =>
    rw [if_neg (by decide), System.waits, State.sendTo_of_not hs]
    cases hr : s.rtsIsset p rtsReceiving with
    | false => simp [State.waitFor_of_not hr]
    | true =>
      rw [State.waitFor_eq_some.mpr ⟨hr, rfl⟩]
      by_cases hany : (s.proc p).pGetfromE = endptAny
      · simp [sourceOf, hany]
      · simp [sourceOf, hany]

structure NoDeadlock (s : State) : Prop where
  acyclic : Acyclic s.waitsFor
  ends : ∀ function cp srcDst, ∃ n, deadlock function cp srcDst s = .ok n
  /-- Every set of processes has a member that is not blocked on a member of the set. -/
  leaves : ∀ X : Slot → Prop, (∃ p, X p) → ∃ p, X p ∧ ∀ d, s.waitsFor p = some d → ¬ X d

lemma Safe.noDeadlock (hs : Safe s) : NoDeadlock s := by
  have hacyc : Acyclic s.waitsFor := hs.1.waitsFor_eq ▸ hs.2
  refine ⟨hacyc, fun function cp d => deadlock_ends hs.1 hs.2 d, ?_⟩
  rintro X ⟨p, hp⟩
  exact hacyc.exists_leaves X hp

lemma Boot.safe (h : Boot s) : Safe s := by
  refine ⟨h.good, fun p hp => ?_⟩
  obtain ⟨d, hd, _⟩ := Relation.TransGen.head'_iff.mp hp
  have hnone : s.protocol.waits p = none := by
    simp [System.waits, State.sendTo_of_not (h.idle p).1, State.waitFor_of_not (h.idle p).2]
  cases hnone.symm.trans hd

/-- In a run from boot in which nobody receives from itself, there is no cycle in any state, and no
further action of this kind makes the kernel run for ever. -/
theorem noDeadlock_of_run {n : Nat} (t : Trace step n) (hboot : Boot (t.state 0))
    (hself : ∀ k < n, ¬ SelfReceive (t.state k) (t.act k)) : ∀ k ≤ n, NoDeadlock (t.state k) ∧
      ∀ a, ¬ SelfReceive (t.state k) a → step (t.state k) a ≠ .error .hang := by
  intro k hk
  have hs : Safe (t.state k) := t.invariant_of Safe (fun s a => ¬ SelfReceive s a) hboot.safe hself
    (fun hs ha h => hs.step ha h) k hk
  exact ⟨hs.noDeadlock, fun a ha => step_noHang hs ha⟩

/-- In a run from boot in which nobody receives from itself, the check for deadlock ends and finds
those and only those cases in which the partner of the caller waits for it, directly or through
others, and is not ready for it. It counts the processes in the cycle. -/
theorem deadlock_exact {n k : Nat} {p d : Slot} (t : Trace step n) (hboot : Boot (t.state 0))
    (hself : ∀ j < n, ¬ SelfReceive (t.state j) (t.act j)) (hk : k ≤ n) (function : Nat) (hne : d ≠ p) :
    ∃ r, deadlock function p (some d) (t.state k) = .ok r ∧
      (r ≠ 0 ↔ Reaches (t.state k).waitsFor d p ∧ ¬ ((t.state k).waitsFor d = some p ∧
        exempt function (t.state k) d)) ∧
      (r ≠ 0 → follow (t.state k).waitsFor (r - 1) d = some p) := by
  obtain ⟨hg, hacyc⟩ : Safe (t.state k) := t.invariant_of Safe (fun s a => ¬ SelfReceive s a) hboot.safe hself
    (fun hs ha h => hs.step ha h) k hk
  obtain ⟨r, hr⟩ := @deadlock_ends _ function p hg hacyc (some d)
  rw [hg.waitsFor_eq]
  refine ⟨r, hr, ⟨fun hpos => ?_, ?_⟩, fun hpos => ?_⟩
  · obtain ⟨m, -, hfollow, hnot⟩ := deadlockLoop_pos hg hpos hr
    exact ⟨(transGen_of_follow hfollow).to_reflTransGen, fun hw => hnot ⟨rfl, hw⟩⟩
  · rintro ⟨hreach, hnot⟩ rfl
    rcases deadlockLoop_zero hg Nat.one_pos hne hr with hno | ⟨-, hw⟩
    · exact hno hreach
    · exact hnot hw
  · obtain ⟨m, rfl, hfollow, -⟩ := deadlockLoop_pos hg hpos hr
    rw [Nat.add_sub_cancel_left]
    exact hfollow

/-- In a run from boot, exits included, nobody stays blocked on a process that is gone. -/
theorem blocked_on_live {n k : Nat} {p : Slot} (t : Trace step n) (hboot : Boot (t.state 0)) (hk : k ≤ n)
    (hp : (t.state k).rtsIsset p rtsSending = true ∨
      (t.state k).rtsIsset p rtsReceiving = true ∧ ((t.state k).proc p).pGetfromE ≠ endptAny) :
    ∃ d, (t.state k).waitsFor p = some d ∧ (t.state k).Live d := by
  have hg := Trace.good t hboot k hk
  rw [hg.waitsFor_eq]
  cases hs : (t.state k).protocol.sendTo p with
  | some d => exact ⟨d, by rw [System.waits, hs], State.live_iff.mp (hg.inv.sender p d hs).2⟩
  | none =>
    obtain ⟨hr, hany⟩ := hp.resolve_left fun h => by simpa [hs] using (hg.sending_iff p).mp h
    obtain ⟨d, hd⟩ := hg.waiter p hr hany
    have hw : (t.state k).protocol.waitFor p = some (some d) :=
      State.waitFor_eq_some.mpr ⟨hr, by simp [sourceOf, hany, hd]⟩
    exact ⟨d, by simp [System.waits, hs, hw], State.live_iff.mp ((hg.inv.waiter p _ hw).2 d rfl)⟩

/-- VFS asks PM for something, and PM waits for a request. -/
def sendrecThenReceive : Trace step 2 :=
  Trace.run step bootKernel
    (fun k =>
      if k = 0 then .trap 5 3 0 pmProcNr 0 (kernelEnv Msg.zero)
      else .trap 4 2 0 endptAny 0 (kernelEnv Msg.zero))
    2 (by decide +kernel)

theorem noDeadlock_of_sendrecThenReceive : (sendrecThenReceive.state 1).waitsFor 5 = some 4 ∧
      ∀ k ≤ 2, NoDeadlock (sendrecThenReceive.state k) ∧ ∀ a, ¬ SelfReceive (sendrecThenReceive.state k) a →
        step (sendrecThenReceive.state k) a ≠ .error .hang := by
  refine ⟨by decide +kernel, noDeadlock_of_run sendrecThenReceive boot_bootKernel ?_⟩
  intro k hk
  have hcases : k = 0 ∨ k = 1 := by omega
  rcases hcases with rfl | rfl
  · exact fun h => absurd h.1 (by decide)
  · exact fun h => absurd h.2 (by decide +kernel)

/-- VFS waits for PM, so PM may not send to VFS. -/
theorem deadlock_exact_pair : deadlock kipcSend 4 (some 5) (sendrecThenReceive.state 1) = .ok 2 ∧
    Reaches (sendrecThenReceive.state 1).waitsFor 5 4 := by
  have hself : ∀ k < 2, ¬ SelfReceive (sendrecThenReceive.state k) (sendrecThenReceive.act k) := by
    intro k hk h
    obtain rfl | rfl : k = 0 ∨ k = 1 := by omega
    · exact absurd h.1 (by decide)
    · exact absurd h.2 (by decide +kernel)
  obtain ⟨r, hr, hiff, -⟩ := deadlock_exact sendrecThenReceive boot_bootKernel hself (k := 1)
    (by decide) kipcSend (show 5 ≠ 4 by decide)
  have htwo : deadlock kipcSend 4 (some 5) (sendrecThenReceive.state 1) = .ok 2 := by decide +kernel
  obtain rfl := Except.ok.inj (htwo.symm.trans hr)
  exact ⟨hr, (hiff.mp (by decide)).1⟩

/-- Every action in a run from boot is a sequence of steps of the rendezvous protocol, in which
nobody blocks or takes a message but the process that acts, and nobody leaves but the one that is
removed. -/
theorem run_refines_rendezvous {n k : Nat} (t : Trace step n) (hboot : Boot (t.state 0)) (hk : k < n) :
    Relation.ReflTransGen (System.Step (entryOf (t.state k) (t.act k)).toLabel) (t.state k).protocol
      (t.state (k + 1)).protocol := by
  have hg := Trace.good t hboot k hk.le
  exact (hg.updates (t.ok k hk)).protocol_induct hg .refl fun _ _ _ hsteps hstep => hsteps.tail hstep

theorem run_refines_rendezvous_sendrec : Relation.ReflTransGen
    (System.Step (entryOf bootKernel (.trap 5 3 0 pmProcNr 0 (kernelEnv Msg.zero))).toLabel)
    bootKernel.protocol (sendrecThenReceive.state 1).protocol :=
  run_refines_rendezvous (k := 0) sendrecThenReceive boot_bootKernel (by decide)

theorem blocked_on_live_vfs : ∃ d, (sendrecThenReceive.state 1).waitsFor 5 = some d ∧
    (sendrecThenReceive.state 1).Live d :=
  blocked_on_live sendrecThenReceive boot_bootKernel (by decide) (.inl (by decide +kernel))

/-- PM receives from itself and is blocked on itself; when VFS then sends to PM, the check for
deadlock follows that loop for ever. -/
theorem selfReceive_hangs : ∃ t : Trace step 1, Boot (t.state 0) ∧ (t.state 1).waitsFor 4 = some 4 ∧
      ¬ Acyclic (t.state 1).waitsFor ∧
      deadlock kipcSend 5 (some 4) (t.state 1) = .error .hang ∧
      step (t.state 1) (.trap 5 1 0 pmProcNr 0 (kernelEnv Msg.zero)) = .error .hang := by
  have hself : (Trace.after step bootKernel (fun _ => .trap 4 2 0 pmProcNr 0 (kernelEnv Msg.zero))
    1).waitsFor 4 =
      some 4 := by decide +kernel
  refine ⟨Trace.run step bootKernel (fun _ => .trap 4 2 0 pmProcNr 0 (kernelEnv Msg.zero)) 1
    (by decide +kernel), boot_bootKernel, hself, fun hacyc => hacyc 4 (.single hself), ?_, ?_⟩
  · decide +kernel
  · exact failure_eq_some.mp (by decide +kernel)

end Nucleos.Kernel
