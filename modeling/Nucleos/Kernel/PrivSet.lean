import Nucleos.Kernel.SendMask

/-!
# A new privilege structure

A request for a privilege structure that fails should leave no trace, and one that succeeds should
give a structure without the pending business of anybody else. Both hold just if the description
that the caller supplies is in bounds, and the caller has neither a table of asynchronous sends nor
an alarm: the slot is claimed before the description is checked, and the structure of the caller is
copied after `get_priv` has cleared the table. -/

namespace Nucleos.Kernel

open Run

namespace PrivState

structure Untouched (s s' : PrivState) : Prop where
  priv : s'.kernel.priv = s.kernel.priv
  rights : s'.rights = s.rights
  pointers : ∀ p, (s'.kernel.proc p).pPriv = (s.kernel.proc p).pPriv
  free : ∀ i, s'.kernel.freePriv i = s.kernel.freePriv i

structure Blank (now : BitVec 32) (s : PrivState) (rp : Slot) (i : PrivId) : Prop where
  owner : (s.kernel.proc rp).pPriv = some i
  notify : ∀ b, getSysBit (s.kernel.priv i).sNotifyPending b = false
  intr : (s.kernel.priv i).sIntPending = 0
  sig : (s.kernel.priv i).sSigPending = 0
  asyn : (s.kernel.priv i).sAsynsize = 0
  alarm : ¬ (s.rights i).sAlarmTimer.Pending now

/-- A failed request has no effect, and a structure that was given is blank. -/
structure Atomic (s : PrivState) (who : Slot) (m : PrivMsg) (r : Int) (s' : PrivState) : Prop where
  failed : r ≠ 0 → s.Untouched s'
  given : r = 0 → ∀ rp, s.privTarget who m.ctlEndpt = some rp → ∃ i, s'.Blank s.kernel.uptime rp i

structure Harmless (s : PrivState) (who rp : Slot) (a : Option PrivArg) (n : PrivId) : Prop where
  fits : ∀ x ∈ a, x.Fits
  asyn : ∀ j, s.Source who rp n j → ((s.kernel.claimPriv rp n).priv j).sAsynsize = 0
  alarm : ∀ j, s.Source who rp n j → ¬ (s.rights j).sAlarmTimer.Pending s.kernel.uptime

variable {s s' : PrivState} {who rp : Slot} {m : PrivMsg} {a : Option PrivArg} {n j : PrivId}
    {r : Int} {k : State}

lemma Installed.owner (h : s.Installed rp n j k) : (k.proc rp).pPriv = some n := by
  rw [h.proc, State.claimPriv, State.modPriv_proc, State.modProc_proc, if_pos rfl]

lemma Installed.blank_iff {targets : Targets} (h : s.Installed rp n j k)
    (hk : s'.kernel = k.fillTargets n targets)
    (halarm : (s'.rights n).sAlarmTimer = (s.rights j).sAlarmTimer) (now : BitVec 32) :
    (∃ i, s'.Blank now rp i) ↔ ((s.kernel.claimPriv rp n).priv j).sAsynsize = 0 ∧
      ¬ (s.rights j).sAlarmTimer.Pending now := by
  have hsame := State.fillTargets_same n targets k
  obtain ⟨mask, hpriv⟩ := hsame.priv n
  obtain ⟨flags, trap, hnew⟩ := h.new
  rw [hnew, ← hk] at hpriv
  have howner : (s'.kernel.proc rp).pPriv = some n := by
    rw [hk, hsame.proc]
    exact h.owner
  constructor
  · rintro ⟨i, hb⟩
    obtain rfl := Option.some.inj (howner.symm.trans hb.owner)
    have hasyn := hb.asyn
    rw [hpriv] at hasyn
    exact ⟨hasyn, halarm ▸ hb.alarm⟩
  · rintro ⟨hasyn, hidle⟩
    refine ⟨n, howner, fun b => ?_, ?_, ?_, ?_, halarm.symm ▸ hidle⟩
    · rw [hpriv]
      exact getSysBit_zero b
    · rw [hpriv]
    · rw [hpriv]
    · rw [hpriv]
      exact hasyn

lemma Installed.not_untouched (h : s.Installed rp n j k) (hfree : s.kernel.freePriv n = true)
    (hk : s'.kernel = k) :
    ¬ s.Untouched s' := by
  intro hu
  have hn := hu.free n
  rw [hk, h.claimed.used, hfree] at hn
  nomatch hn

end PrivState

/-- For every state and every request for a privilege structure: a failure has no effect and a
success gives a blank structure, just if the request claims no slot or what it copies and supplies
is harmless. -/
theorem setSys_atomic_iff {s s' : PrivState} {who : Slot} {m : PrivMsg}
    {arg : Option (Copied PrivArg)} {r : Int}
    (hm : m.ctlRequest = .setSys arg) (hok : s.doPrivctl who m = .ok (r, s')) :
    s.Atomic who m r s' ↔ ∀ rp a n, s.Claims who m rp a n → s.Harmless who rp a n := by
  rcases PrivState.doPrivctl_setSys hm hok with ⟨hr, rfl, hno⟩ | ⟨rp, a, n, hc, hinst⟩
  · refine ⟨fun _ rp a n hc => absurd hc (hno rp a n),
      fun _ => ⟨fun _ => ⟨rfl, rfl, fun _ => rfl, fun _ => rfl⟩, ?_⟩⟩
    exact fun h0 => absurd h0 hr
  have hfree := PrivState.findPriv_free hc.found
  obtain ⟨j, k, hsource, hk, halarm, ⟨hfit, hr, targets, heq⟩ | ⟨hfit, hr, heq, -⟩⟩ :=
    PrivState.installPriv_spec hinst
  · have hblank := hk.blank_iff heq halarm s.kernel.uptime
    constructor
    · intro hat rp' a' n' hc'
      obtain ⟨rfl, rfl, rfl⟩ := hc'.unique hc
      obtain ⟨hasyn, hidle⟩ := hblank.mp (hat.given hr rp' hc'.target)
      refine ⟨hfit, fun j' hj' => ?_, fun j' hj' => ?_⟩
      · obtain rfl := Option.some.inj (hj'.symm.trans hsource)
        exact hasyn
      · obtain rfl := Option.some.inj (hj'.symm.trans hsource)
        exact hidle
    · intro hharm
      obtain ⟨-, hasyn, hidle⟩ := hharm rp a n hc
      refine ⟨fun hne => absurd hr hne, fun _ rp' ht => ?_⟩
      obtain rfl := Option.some.inj (ht.symm.trans hc.target)
      exact hblank.mpr ⟨hasyn j hsource, hidle j hsource⟩
  · constructor
    · intro hat
      have hne : r ≠ 0 := by
        rw [hr]
        decide
      exact absurd (hat.failed hne) (hk.not_untouched hfree heq)
    · intro hharm
      exact absurd (hharm rp a n hc).fits hfit

/-! ## Two requests of the root system process -/

def fiveIrqs : PrivArg where
  sId := 4
  sFlags := sysProc ||| checkIrq
  sTrapMask := BitVec.allOnes 16
  sIpcTo _ := 0
  rights := { clearedRights with sNrIrq := 5 }

def claimFive (_ : Nat) : PrivEvent := .privctl 6 ⟨0, .setSys (some (.ok fiveIrqs))⟩

def claimedFive : Trace PrivState.step 1 :=
  Trace.run PrivState.step PrivState.bootPrivs claimFive 1 (by decide +kernel)

def alarmFirst : Nat → PrivEvent
  | 0 => .setalarm 6 100 false
  | _ => .privctl 6 ⟨0, .setSys none⟩

def alarmed : Trace PrivState.step 2 :=
  Trace.run PrivState.step PrivState.bootPrivs alarmFirst 2 (by decide +kernel)

/-- Structure 4 is claimed for the process manager, in slot 4, although its request fails; with the
alarm of the root system process set, the process manager gets an alarm. -/
theorem setSys_leaves_trace : (∃ tr : Trace PrivState.step 1, tr.state 0 = PrivState.bootPrivs ∧
      ((tr.state 0).doPrivctl 6 ⟨0, .setSys (some (.ok fiveIrqs))⟩).toOption.map Prod.fst = some (-einval) ∧
      (tr.state 0).step (.privctl 6 ⟨0, .setSys (some (.ok fiveIrqs))⟩) = .ok (tr.state 1) ∧
      (tr.state 0).kernel.freePriv 4 = true ∧ (tr.state 1).kernel.freePriv 4 = false ∧
      ((tr.state 0).kernel.proc 4).pPriv = none ∧ ((tr.state 1).kernel.proc 4).pPriv = some 4) ∧
    ∃ tr : Trace PrivState.step 2, tr.state 0 = PrivState.bootPrivs ∧ tr.act 0 = .setalarm 6 100 false ∧
      ((tr.state 1).doPrivctl 6 ⟨0, .setSys none⟩).toOption.map Prod.fst = some 0 ∧
      (tr.state 1).step (.privctl 6 ⟨0, .setSys none⟩) = .ok (tr.state 2) ∧
      ((tr.state 2).kernel.proc 4).pPriv = some 16 ∧
      ((tr.state 2).rights 16).sAlarmTimer.Pending (tr.state 2).kernel.uptime := by
  constructor
  · exact ⟨claimedFive, rfl, by decide +kernel, claimedFive.ok 0 (by decide), by decide +kernel,
      by decide +kernel,
      by decide +kernel, by decide +kernel⟩
  · exact ⟨alarmed, rfl, rfl, by decide +kernel, alarmed.ok 1 (by decide), by decide +kernel,
      by decide +kernel⟩

/-- Without an alarm the process manager gets a blank structure. -/
theorem setSys_atomic_boot :
    ∃ r s', PrivState.bootPrivs.doPrivctl 6 ⟨0, .setSys none⟩ = .ok (r, s') ∧
      PrivState.bootPrivs.Atomic 6 ⟨0, .setSys none⟩ r s' := by
  cases hok : PrivState.bootPrivs.doPrivctl 6 ⟨0, .setSys none⟩ with
  | error e =>
    have hsome : (PrivState.bootPrivs.doPrivctl 6 ⟨0, .setSys none⟩).isOk = true := by decide +kernel
    rw [hok] at hsome
    nomatch hsome
  | ok x =>
    refine ⟨x.1, x.2, rfl, (setSys_atomic_iff rfl hok).mpr fun rp a n hc => ?_⟩
    have hnone : a = none := Option.map_eq_none_iff.mp (PrivRequest.setSys.inj hc.request).symm
    subst hnone
    have hasyn : ∀ j, (PrivState.bootPrivs.kernel.priv j).sAsynsize = 0 := by decide +kernel
    have hidle : ∀ j, ¬ (PrivState.bootPrivs.rights j).sAlarmTimer.Pending
      PrivState.bootPrivs.kernel.uptime := by decide +kernel
    refine ⟨nofun, fun j _ => ?_, fun j _ => hidle j⟩
    by_cases hj : j = n
    · rw [hj, State.claimPriv, State.modPriv_priv, if_pos rfl]
    · rw [PrivState.claimPriv_others _ hj]
      exact hasyn j

end Nucleos.Kernel
