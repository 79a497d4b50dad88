import Mathlib

/-!
# Options in the headers of IP and TCP

Both parsers step over an option by the length byte that the peer put behind its type. The IP parser
accepts no length below 3. The TCP parser takes any length, so an option of length 0 is read again
and again. -/

namespace Nucleos.Inet

/-- A header, by the offset of its bytes. What lies behind it is whatever the packet holds there. -/
abbrev Bytes := Nat → UInt8

def einval : Int := 22

def tcpMinHdrSize : Nat := 20
def thDoMask : Nat := 0xf0
def tcpOptEol : Nat := 0
def tcpOptNop : Nat := 1
def tcpOptMss : Nat := 2

def ipMinHdrSize : Nat := 20
def ihIhlMask : Nat := 0xf
def ipOptEol : Nat := 0x00
def ipOptNop : Nat := 0x01
def ipOptRr : Nat := 0x07
def ipOptTs : Nat := 0x44
def ipOptSec : Nat := 0x82
def ipOptLsrr : Nat := 0x83
def ipOptSsrr : Nat := 0x89
def ipOptRtralt : Nat := 0x94

structure IpSeen where
  security : Bool := false
  loseSource : Bool := false
  strictSource : Bool := false
  recordRoute : Bool := false
  timestamp : Bool := false
deriving DecidableEq, Repr

inductive IpTurn where
  | stop (r : Int)
  | advance (n : Nat) (seen : IpSeen)
deriving DecidableEq, Repr

def once (present ok : Bool) (len : Nat) (seen : IpSeen) : IpTurn :=
  if present then .stop (-einval) else if ok then .advance len seen else .stop (-einval)

def ipOption (opt : Bytes) (i : Nat) (seen : IpSeen) : IpTurn :=
  let type := (opt i).toNat
  let len := (opt (i + 1)).toNat
  if type = ipOptEol then .stop 0
  else if type = ipOptNop then .advance 1 seen
  else if type = ipOptSec then once seen.security (len = 11) len { seen with security := true }
  else if type = ipOptLsrr then once seen.loseSource (3 ≤ len) len { seen with loseSource := true }
  else if type = ipOptSsrr then once seen.strictSource (3 ≤ len) len
    { seen with strictSource := true }
  else if type = ipOptRr then once seen.recordRoute (3 ≤ len) len { seen with recordRoute := true }
  else if type = ipOptTs then
    once seen.timestamp (len = 4 ∧
      (opt (i + 3)).toNat ∈ [0, 1, 3]) len { seen with timestamp := true }
  else if type = ipOptRtralt then once false (len = 4) len seen
  else .stop (-einval)

/-- The loop of `ip_chk_hdropt`; without a result while it has not ended. -/
def ipOptions (opt : Bytes) (optlen : Int) : Nat → Nat → IpSeen → Option Int
  | 0, _, _ => none
  | fuel + 1, i, seen =>
    if (i : Int) < optlen then
      match ipOption opt i seen with
      | .stop r => some r
      | .advance n seen => ipOptions opt optlen fuel (i + n) seen
    else if (i : Int) > optlen then some (-einval) else some 0

inductive Outcome where
  | returned (r : Int)
  | assertionFailed
deriving DecidableEq, Repr

def ipChkHdropt (opt : Bytes) (optlen : Int) (fuel : Nat) : Option Outcome :=
  if optlen % 4 = 0 then (ipOptions opt optlen fuel 0 {}).map .returned else some .assertionFailed

/-- The size of the option area that the first byte of an IP header gives. -/
def ipOptlen (versIhl : UInt8) : Int := ((versIhl.toNat &&& ihIhlMask) <<< 2 : Nat) - ipMinHdrSize

/-- The loop of `tcp_extract_tcpopt`, with the value found so far. -/
def tcpOptions (hdr : Bytes) (tcpHdrLen : Nat) : Nat → Nat → Nat → Option Nat
  | 0, _, _ => none
  | fuel + 1, i, mss =>
    if i < tcpHdrLen then
      let type := (hdr i).toNat
      let len := (hdr (i + 1)).toNat
      if type = tcpOptNop then tcpOptions hdr tcpHdrLen fuel (i + 1) mss
      else if type = tcpOptEol then some mss
      else if i + 2 > tcpHdrLen then some mss
      else if i + len > tcpHdrLen then some mss
      else tcpOptions hdr tcpHdrLen fuel (i + len)
        (if type = tcpOptMss ∧ len = 4 then ((hdr (i + 2)).toNat <<< 8) |||
          (hdr (i + 3)).toNat else mss)
    else some mss

/-- `th_data_off` is the byte at offset 12. -/
def tcpHdrLen (hdr : Bytes) : Nat := ((hdr 12).toNat &&& thDoMask) >>> 2

def tcpExtractTcpopt (hdr : Bytes) (fuel : Nat) : Option Nat :=
  if tcpHdrLen hdr = tcpMinHdrSize then some 0
  else tcpOptions hdr (tcpHdrLen hdr) fuel tcpMinHdrSize 0

/-! ## What the option area holds -/

/-- An option with a length field. -/
structure Opt where
  type : Nat
  len : Nat
  data : Nat → UInt8

def Opt.isMss (o : Opt) : Bool := o.type = tcpOptMss ∧ o.len = 4

def Opt.mss (o : Opt) : Nat := ((o.data 0).toNat <<< 8) ||| (o.data 1).toNat

/-- The options before the end of the list or the first malformed one. An option is malformed when
it has no length field, is cut off by the end of the header, or has a length below `least`. The
second component tells that the reading stopped at a length below `least`. Every option takes a
byte, so that `fuel` bytes are read in at most `fuel` turns. -/
def optionsFrom (least : Nat) (hdr : Bytes) (hdrLen : Nat) : Nat → Nat → List Opt × Bool
  | 0, _ => ([], false)
  | fuel + 1, i =>
    if hdrLen ≤ i ∨ (hdr i).toNat = tcpOptEol then ([], false)
    else if (hdr i).toNat = tcpOptNop then optionsFrom least hdr hdrLen fuel (i + 1)
    else if hdrLen < i + 2 ∨ hdrLen < i + (hdr (i + 1)).toNat then ([], false)
    else if (hdr (i + 1)).toNat < least then ([], true)
    else
      let rest := optionsFrom least hdr hdrLen fuel (i + (hdr (i + 1)).toNat)
      (⟨(hdr i).toNat, (hdr (i + 1)).toNat, fun k => hdr (i + 2 + k)⟩ :: rest.1, rest.2)

def lastMss (opts : List Opt) (mss : Nat) : Nat :=
  ((opts.filter Opt.isMss).getLast?.map Opt.mss).getD mss

/-- The options of a TCP header, a length below `least` being malformed. -/
def tcpOpts (least : Nat) (hdr : Bytes) : List Opt × Bool :=
  optionsFrom least hdr (tcpHdrLen hdr) (tcpHdrLen hdr) tcpMinHdrSize

section Tcp
variable {least : Nat} {hdr : Bytes} {hdrLen : Nat}

lemma lastMss_cons (o : Opt) (opts : List Opt) (mss : Nat) :
    lastMss (o :: opts) mss = lastMss opts (if o.isMss then o.mss else mss) := by
  unfold lastMss
  by_cases ho : o.isMss
  · rw [List.filter_cons_of_pos ho, if_pos ho, List.getLast?_cons]
    cases (opts.filter Opt.isMss).getLast? with
    | none => rfl
    | some o' => rfl
  · rw [List.filter_cons_of_neg ho, if_neg ho]

lemma optionsFrom_cases (least : Nat) (hdr : Bytes) (hdrLen fuel i : Nat) :
    ((hdrLen ≤ i ∨ (hdr i).toNat = tcpOptEol ∨ ((hdr i).toNat ≠ tcpOptNop ∧
        (hdrLen < i + 2 ∨ hdrLen < i + (hdr (i + 1)).toNat))) ∧
      optionsFrom least hdr hdrLen (fuel + 1) i = ([], false)) ∨
        (i < hdrLen ∧ (hdr i).toNat = tcpOptNop ∧
      optionsFrom least hdr hdrLen (fuel + 1) i = optionsFrom least hdr hdrLen fuel (i + 1)) ∨
    (i < hdrLen ∧ (hdr i).toNat ≠ tcpOptEol ∧ (hdr i).toNat ≠ tcpOptNop ∧ i + 2 ≤ hdrLen ∧
      i + (hdr (i + 1)).toNat ≤ hdrLen ∧ (hdr (i + 1)).toNat < least ∧
      optionsFrom least hdr hdrLen (fuel + 1) i = ([], true)) ∨
    (i < hdrLen ∧ (hdr i).toNat ≠ tcpOptEol ∧ (hdr i).toNat ≠ tcpOptNop ∧ i + 2 ≤ hdrLen ∧
      i + (hdr (i + 1)).toNat ≤ hdrLen ∧ least ≤ (hdr (i + 1)).toNat ∧
      optionsFrom least hdr hdrLen (fuel + 1) i =
        (⟨(hdr i).toNat, (hdr (i + 1)).toNat, fun k => hdr (i + 2 + k)⟩ ::
          (optionsFrom least hdr hdrLen fuel (i + (hdr (i + 1)).toNat)).1,
          (optionsFrom least hdr hdrLen fuel (i + (hdr (i + 1)).toNat)).2)) := by
  by_cases hend : hdrLen ≤ i ∨ (hdr i).toNat = tcpOptEol
  · exact .inl ⟨hend.imp_right .inl, by rw [optionsFrom, if_pos hend]⟩
  obtain ⟨hi, heol⟩ := not_or.mp hend
  by_cases hnop : (hdr i).toNat = tcpOptNop
  · exact .inr (.inl ⟨by omega, hnop, by rw [optionsFrom, if_neg hend, if_pos hnop]⟩)
  by_cases hcut : hdrLen < i + 2 ∨ hdrLen < i + (hdr (i + 1)).toNat
  · exact .inl ⟨.inr (.inr ⟨hnop, hcut⟩),
      by rw [optionsFrom, if_neg hend, if_neg hnop, if_pos hcut]⟩
  obtain ⟨hlen, hfit⟩ := not_or.mp hcut
  by_cases hshort : (hdr (i + 1)).toNat < least
  · refine .inr (.inr (.inl ⟨by omega, heol, hnop, by omega, by omega, hshort, ?_⟩))
    rw [optionsFrom, if_neg hend, if_neg hnop, if_neg hcut, if_pos hshort]
  · refine .inr (.inr (.inr ⟨by omega, heol, hnop, by omega, by omega, by omega, ?_⟩))
    rw [optionsFrom, if_neg hend, if_neg hnop, if_neg hcut, if_neg hshort]

lemma tcpOptions_stop {i : Nat} (fuel mss : Nat) (h : hdrLen ≤ i ∨ (hdr i).toNat = tcpOptEol ∨
    ((hdr i).toNat ≠ tcpOptNop ∧ (hdrLen < i + 2 ∨ hdrLen < i + (hdr (i + 1)).toNat))) :
    tcpOptions hdr hdrLen (fuel + 1) i mss = some mss := by
  rw [tcpOptions]
  rcases h with h | h | ⟨hnop, h⟩
  · rw [if_neg (by omega)]
  · have hnop : (hdr i).toNat ≠ tcpOptNop := by rw [h]; decide
    simp only [if_neg hnop, if_pos h, ite_self]
  simp only [if_neg hnop]
  split
  · split
    · rfl
    · split
      · rfl
      · rw [if_pos (by omega)]
  · rfl

lemma tcpOptions_nop {i : Nat} (fuel mss : Nat) (hi : i < hdrLen)
    (hnop : (hdr i).toNat = tcpOptNop) :
    tcpOptions hdr hdrLen (fuel + 1) i mss = tcpOptions hdr hdrLen fuel (i + 1) mss := by
  rw [tcpOptions, if_pos hi]
  simp only [if_pos hnop]

lemma tcpOptions_option {i : Nat} (fuel mss : Nat) (hi : i < hdrLen)
    (heol : (hdr i).toNat ≠ tcpOptEol)
    (hnop : (hdr i).toNat ≠ tcpOptNop) (hlen : i + 2 ≤ hdrLen)
    (hfit : i + (hdr (i + 1)).toNat ≤ hdrLen) :
    tcpOptions hdr hdrLen (fuel + 1) i mss = tcpOptions hdr hdrLen fuel (i + (hdr (i + 1)).toNat)
      (if Opt.isMss ⟨(hdr i).toNat, (hdr (i + 1)).toNat, fun k => hdr (i + 2 + k)⟩
        then Opt.mss ⟨(hdr i).toNat, (hdr (i + 1)).toNat, fun k => hdr (i + 2 + k)⟩ else mss) := by
  rw [tcpOptions, if_pos hi]
  simp only [if_neg hnop, if_neg heol, if_neg (Nat.not_lt.mpr hlen),
    if_neg (Nat.not_lt.mpr hfit), Opt.isMss,
    decide_eq_true_eq]
  rfl

lemma tcpOptions_returns {k : Nat} : ∀ {i : Nat} (mss : Nat), hdrLen ≤ i + k →
    (optionsFrom 1 hdr hdrLen k i).2 = false →
    tcpOptions hdr hdrLen (k + 1) i mss = some (lastMss (optionsFrom 1 hdr hdrLen k i).1 mss) := by
  induction k with
  | zero =>
    intro i mss hk _
    exact tcpOptions_stop 0 mss (.inl hk)
  | succ k ih =>
    intro i mss hk hshort
    rcases optionsFrom_cases 1 hdr hdrLen k i with ⟨hstop, heq⟩ | ⟨hi, hnop, heq⟩ |
      ⟨_, _, _, _, _, _, heq⟩ | ⟨hi, heol, hnop, hlen, hfit, hpos, heq⟩
    · rw [heq, tcpOptions_stop _ _ hstop]
      rfl
    · rw [heq] at hshort ⊢
      rw [tcpOptions_nop _ _ hi hnop]
      exact ih mss (by omega) hshort
    · rw [heq] at hshort
      nomatch hshort
    · rw [heq] at hshort ⊢
      rw [tcpOptions_option _ _ hi heol hnop hlen hfit, lastMss_cons]
      exact ih _ (by omega) hshort

lemma tcpOptions_only {fuel : Nat} :
    ∀ {k i mss v : Nat}, hdrLen ≤ i + k → tcpOptions hdr hdrLen fuel i mss = some v →
    (optionsFrom 1 hdr hdrLen k i).2 = false ∧
      v = lastMss (optionsFrom 1 hdr hdrLen k i).1 mss := by
  induction fuel with
  | zero => exact nofun
  | succ fuel ih =>
    intro k i mss v hk h
    cases k with
    | zero =>
      rw [Nat.add_zero] at hk
      rw [tcpOptions_stop _ _ (.inl hk)] at h
      exact ⟨rfl, (Option.some.inj h).symm⟩
    | succ k =>
      rcases optionsFrom_cases 1 hdr hdrLen k i with ⟨hstop, heq⟩ | ⟨hi, hnop, heq⟩ |
        ⟨hi, heol, hnop, hlen, hfit, hshort, heq⟩ | ⟨hi, heol, hnop, hlen, hfit, hpos, heq⟩
      · rw [tcpOptions_stop _ _ hstop] at h
        rw [heq]
        exact ⟨rfl, (Option.some.inj h).symm⟩
      · rw [tcpOptions_nop _ _ hi hnop] at h
        rw [heq]
        exact ih (by omega) h
      · -- the loop is back where it was
        have hzero : (hdr (i + 1)).toNat = 0 := by omega
        rw [tcpOptions_option _ _ hi heol hnop hlen hfit, hzero, Nat.add_zero] at h
        have hagain := ih (k := k + 1) hk h
        rw [heq] at hagain
        nomatch hagain.1
      · rw [tcpOptions_option _ _ hi heol hnop hlen hfit] at h
        rw [heq, lastMss_cons]
        exact ih (by omega) h

def TcpReturns (hdr : Bytes) (v : Nat) : Prop := ∃ fuel, tcpExtractTcpopt hdr fuel = some v

lemma tcpReturns_iff (hdr : Bytes) (v : Nat) :
    TcpReturns hdr v ↔ (tcpOpts 1 hdr).2 = false ∧ lastMss (tcpOpts 1 hdr).1 0 = v := by
  by_cases hmin : tcpHdrLen hdr = tcpMinHdrSize
  · have hnone : tcpOpts 1 hdr = ([], false) := by
      rw [tcpOpts, hmin]
      rfl
    rw [hnone]
    constructor
    · rintro ⟨fuel, h⟩
      rw [tcpExtractTcpopt, if_pos hmin] at h
      exact ⟨rfl, Option.some.inj h⟩
    · rintro ⟨-, rfl⟩
      exact ⟨0, by rw [tcpExtractTcpopt, if_pos hmin]; rfl⟩
  · constructor
    · rintro ⟨fuel, h⟩
      rw [tcpExtractTcpopt, if_neg hmin] at h
      obtain ⟨hshort, hv⟩ := tcpOptions_only (k := tcpHdrLen hdr) (by omega) h
      exact ⟨hshort, hv.symm⟩
    · rintro ⟨hshort, rfl⟩
      exact ⟨tcpHdrLen hdr + 1,
        by rw [tcpExtractTcpopt, if_neg hmin]; exact tcpOptions_returns 0 (by omega) hshort⟩

end Tcp

section Ip
variable {opt : Bytes} {optlen : Int}

lemma once_advance {present ok : Bool} {len n : Nat} {seen seen' : IpSeen}
    (h : once present ok len seen = .advance n seen') : ok = true ∧ n = len := by
  unfold once at h
  split at h
  · nomatch h
  split at h
  · next hok => exact ⟨hok, (IpTurn.advance.inj h).1.symm⟩
  · nomatch h

lemma ipOption_advance {i n : Nat} {seen seen' : IpSeen}
    (h : ipOption opt i seen = .advance n seen') : 0 < n := by
  unfold ipOption at h
  simp only at h
  split at h
  · nomatch h
  split at h
  · obtain ⟨rfl, -⟩ := IpTurn.advance.inj h
    exact Nat.one_pos
  iterate 6
    split at h
    · obtain ⟨hok, rfl⟩ := once_advance h
      have := of_decide_eq_true hok
      omega
  nomatch h

lemma ipOptions_returns {k : Nat} : ∀ {i : Nat} (seen : IpSeen), optlen ≤ i + k →
    ∃ r, ipOptions opt optlen (k + 1) i seen = some r := by
  induction k with
  | zero =>
    intro i seen hk
    rw [ipOptions, if_neg (by omega)]
    split
    · exact ⟨_, rfl⟩
    · exact ⟨_, rfl⟩
  | succ k ih =>
    intro i seen hk
    rw [ipOptions]
    split
    · cases hturn : ipOption opt i seen with
      | stop r => exact ⟨r, rfl⟩
      | advance n seen' =>
        have hpos := ipOption_advance hturn
        exact ih seen' (by push_cast at hk ⊢; omega)
    · split
      · exact ⟨_, rfl⟩
      · exact ⟨_, rfl⟩

def IpReturns (opt : Bytes) (optlen : Int) : Prop :=
  ∃ fuel r, ipChkHdropt opt optlen fuel = some (.returned r)

lemma ipReturns (opt : Bytes) (versIhl : UInt8) : IpReturns opt (ipOptlen versIhl) := by
  have hfour : ipOptlen versIhl % 4 = 0 := by
    rw [ipOptlen, Nat.shiftLeft_eq, ipMinHdrSize]
    push_cast
    omega
  have hfuel : ipOptlen versIhl ≤ (0 : Nat) + (ipOptlen versIhl).toNat := by omega
  obtain ⟨r, hr⟩ : ∃ r, ipOptions opt _ _ 0 {} = some r := ipOptions_returns {} hfuel
  exact ⟨_, r, by rw [ipChkHdropt, if_pos hfour, hr]; rfl⟩

end Ip

/-- The options that are read behind the first one of length 1. -/
def tcpBehind (hdr : Bytes) : List Opt := (tcpOpts 1 hdr).1.drop (tcpOpts 2 hdr).1.length

lemma optionsFrom_behind (hdr : Bytes) (hdrLen k i : Nat) : ∃ rest,
    (optionsFrom 1 hdr hdrLen k i).1 = (optionsFrom 2 hdr hdrLen k i).1 ++ rest ∧
      ((optionsFrom 2 hdr hdrLen k i).2 = false → (optionsFrom 1 hdr hdrLen k i).2 = false ∧
        rest = []) := by
  induction k generalizing i with
  | zero => exact ⟨[], rfl, fun _ => ⟨rfl, rfl⟩⟩
  | succ k ih =>
    simp only [optionsFrom]
    split_ifs with hend hnop hcut hone htwo htwo
    · exact ⟨[], rfl, fun _ => ⟨rfl, rfl⟩⟩
    · exact ih (i + 1)
    · exact ⟨[], rfl, fun _ => ⟨rfl, rfl⟩⟩
    · exact ⟨[], rfl, nofun⟩
    · omega
    · exact ⟨_, rfl, nofun⟩
    · obtain ⟨rest, heq, hfull⟩ := ih (i + (hdr (i + 1)).toNat)
      exact ⟨rest, by rw [heq, List.cons_append], hfull⟩

lemma tcpOpts_behind (hdr : Bytes) : (tcpOpts 1 hdr).1 = (tcpOpts 2 hdr).1 ++ tcpBehind hdr ∧
    ((tcpOpts 2 hdr).2 = false → (tcpOpts 1 hdr).2 = false ∧ tcpBehind hdr = []) := by
  obtain ⟨rest, heq, hfull⟩ := optionsFrom_behind hdr (tcpHdrLen hdr) (tcpHdrLen hdr) tcpMinHdrSize
  have hrest : tcpBehind hdr = rest := by
    rw [tcpBehind, tcpOpts, tcpOpts, heq, List.drop_left]
  rw [hrest]
  exact ⟨heq, hfull⟩

lemma lastMss_append (opts opts' : List Opt) (mss : Nat) :
    lastMss (opts ++ opts') mss = lastMss opts' (lastMss opts mss) := by
  induction opts generalizing mss with
  | nil => rfl
  | cons o opts ih => rw [List.cons_append, lastMss_cons, lastMss_cons, ih]

/-- Every option area of an IP header is read to its end. A TCP header yields the value of its last
MSS option exactly when the loop meets no option of length 0 and when no MSS option with another
value comes last behind an option of length 1, which is too short to hold its own length. Lengths of
at least 2 are enough. -/
theorem options_read_iff (opt : Bytes) (versIhl : UInt8) (hdr : Bytes) :
    (IpReturns opt (ipOptlen versIhl) ∧ TcpReturns hdr (lastMss (tcpOpts 2 hdr).1 0) ↔
      (tcpOpts 1 hdr).2 = false ∧
        ∀ o ∈ ((tcpBehind hdr).filter Opt.isMss).getLast?, o.mss = lastMss (tcpOpts 2 hdr).1 0) ∧
    ((tcpOpts 2 hdr).2 = false → (tcpOpts 1 hdr).2 = false ∧ tcpBehind hdr = []) := by
  obtain ⟨hall, hfull⟩ := tcpOpts_behind hdr
  refine ⟨?_, hfull⟩
  rw [tcpReturns_iff, hall, lastMss_append, and_iff_right (ipReturns opt versIhl)]
  refine and_congr_right fun _ => ?_
  rw [lastMss]
  cases ((tcpBehind hdr).filter Opt.isMss).getLast? with
  | none => exact iff_of_true rfl (by simp)
  | some o => simp

def withOptions (o₀ o₁ o₂ o₃ : UInt8) : Bytes
  | 12 => 0x60
  | 20 => o₀
  | 21 => o₁
  | 22 => o₂
  | 23 => o₃
  | _ => 0

/-- An MSS option with the usual value for Ethernet is read. -/
theorem options_read_ethernet : TcpReturns (withOptions 2 4 0x05 0xb4) 1460 ∧
    IpReturns (withOptions 0 0 0 0) (ipOptlen 0x46) := by
  have h := (options_read_iff (withOptions 0 0 0 0) 0x46 (withOptions 2 4 0x05 0xb4)).1.mpr
    (by decide)
  exact ⟨h.2, h.1⟩

/-- A timestamp option of length 0 is read for ever. -/
theorem zero_length_never_returns : ¬ ∃ v, TcpReturns (withOptions 8 0 0 0) v := by
  rintro ⟨v, h⟩
  exact absurd ((tcpReturns_iff _ v).mp h).1 (by decide)

end Nucleos.Inet
