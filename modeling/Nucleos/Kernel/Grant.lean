import Nucleos.Kernel.Boot

/-!
# Grants

`verify_grant` decides every copy between two processes. A process keeps a table of grants
in its own memory, so nothing can be assumed about what is in it. An indirect grant sends
the search to the table of another process; the search stops at the first grant that is
not indirect, and that one has to allow the access.
-/

namespace Nucleos.Kernel

open Run

def eloop : Int := 40

def cpfRead : BitVec 32 := 0x000001
def cpfUsed : BitVec 32 := 0x000100
def cpfDirect : BitVec 32 := 0x000200
def cpfIndirect : BitVec 32 := 0x000400
def cpfMagic : BitVec 32 := 0x000800
def cpfValid : BitVec 32 := 0x001000

def grantInvalid : Int := -1
def maxIndirectDepth : Nat := 5
def memTop : BitVec 32 := 0xFFFFFFFF
def sizeofGrant : Nat := 36

/-- `cp_grant_t`: the flags and the first four words of the union. -/
structure CpGrant where
  cpFlags : BitVec 32
  word0 : BitVec 32
  word1 : BitVec 32
  word2 : BitVec 32
  word3 : BitVec 32
  deriving DecidableEq

namespace CpGrant

def directWhoTo (g : CpGrant) : Int := g.word0.toInt
def directStart (g : CpGrant) : BitVec 32 := g.word1
def directLen (g : CpGrant) : BitVec 32 := g.word2
def indirectWhoTo (g : CpGrant) : Int := g.word0.toInt
def indirectWhoFrom (g : CpGrant) : Int := g.word1.toInt
def indirectGrant (g : CpGrant) : Int := g.word2.toInt
def magicWhoFrom (g : CpGrant) : Int := g.word0.toInt
def magicWhoTo (g : CpGrant) : Int := g.word1.toInt
def magicStart (g : CpGrant) : BitVec 32 := g.word2
def magicLen (g : CpGrant) : BitVec 32 := g.word3

end CpGrant

structure Grants where
  sGrantTable : PrivId → BitVec 32
  sGrantEntries : PrivId → Int
  dataCopy : Slot → BitVec 32 → Option CpGrant

variable (s : State) (gs : Grants)

/-- `HASGRANTTABLE`, with the privilege structure it has looked at. -/
def hasGrantTable (gr : Slot) : Option PrivId :=
  if s.rtsIsset gr rtsNoPriv then none
  else
    match (s.proc gr).pPriv with
    | none => none
    | some i => if gs.sGrantTable i = 0 then none else some i

def fetchGrant (granter grant : Int) : Except Int CpGrant :=
  match s.isokendpt granter with
  | none => .error (-einval)
  | some granterProc =>
    if grant ≤ grantInvalid then .error (-einval)
    else
      match hasGrantTable s gs granterProc with
      | none => .error (-eperm)
      | some i =>
        if gs.sGrantEntries i ≤ grant then .error (-eperm)
        else
          match gs.dataCopy granterProc (gs.sGrantTable i + BitVec.ofInt 32 (sizeofGrant * grant)) with
          | none => .error (-eperm)
          | some g =>
            if g.cpFlags &&& (cpfUsed ||| cpfValid) ≠ cpfUsed ||| cpfValid then .error (-eperm) else .ok g

/-- The loop of `verify_grant`. The first argument bounds the number of turns; the loop of the
source has no such bound, only the counter `depth`. -/
def verifyLoop : Nat → Nat → Int → Int → Int → Option (Except Int (Int × Int × CpGrant))
  | 0, _, _, _, _ => none
  | fuel + 1, depth, granter, grantee, grant =>
    match fetchGrant s gs granter grant with
    | .error r => some (.error r)
    | .ok g =>
      if g.cpFlags &&& cpfIndirect ≠ 0 then
        if depth = maxIndirectDepth then some (.error (-eloop))
        else if g.indirectWhoTo ≠ grantee ∧ grantee ≠ endptAny then some (.error (-eperm))
        else verifyLoop fuel (depth + 1) g.indirectWhoFrom granter g.indirectGrant
      else some (.ok (granter, grantee, g))

/-- What `verify_grant` does with the grant at the end of the chain: the address in the memory of
the process whose endpoint comes with it. -/
def checkGrant (granter grantee : Int) (g : CpGrant) (bytes access offsetIn : BitVec 32) :
    Except Int (BitVec 32 × Int) :=
  if g.cpFlags &&& access ≠ access then .error (-eperm)
  else if g.cpFlags &&& cpfDirect ≠ 0 then
    if memTop - g.directLen < g.directStart - 1 then .error (-eperm)
    else if g.directWhoTo ≠ grantee ∧ grantee ≠ endptAny then .error (-eperm)
    else if offsetIn + bytes < offsetIn ∨ offsetIn + bytes > g.directLen then .error (-eperm)
    else .ok (g.directStart + offsetIn, granter)
  else if g.cpFlags &&& cpfMagic ≠ 0 then
    if granter ≠ vfsProcNr then .error (-eperm)
    else if g.magicWhoTo ≠ grantee ∧ grantee ≠ endptAny then .error (-eperm)
    else if offsetIn + bytes < offsetIn ∨ offsetIn + bytes > g.magicLen then .error (-eperm)
    else .ok (g.magicStart + offsetIn, g.magicWhoFrom)
  else .error (-eperm)

def verifyGrant (fuel : Nat) (granter grantee grant : Int) (bytes access offsetIn : BitVec 32) :
    Option (Except Int (BitVec 32 × Int)) :=
  match verifyLoop s gs fuel 0 granter grantee grant with
  | none => none
  | some (.error r) => some (.error r)
  | some (.ok (granter, grantee, g)) => some (checkGrant granter grantee g bytes access offsetIn)

structure VirAddr where
  procNrE : Int
  segment : Int
  offset : BitVec 32
  deriving DecidableEq

/-- `safecopy` up to the copy itself: source and destination as `virtual_copy_vmcheck` gets them. -/
def safecopy (fuel : Nat) (granter grantee grantid srcSeg dstSeg : Int)
    (bytes gOffset addr access : BitVec 32) :
    Option (Except Int (VirAddr × VirAddr)) :=
  match s.isokendpt granter with
  | none => some (.error (-einval))
  | some granterP =>
    match hasGrantTable s gs granterP with
    | none => some (.error (-eperm))
    | some _ =>
      match verifyGrant s gs fuel granter grantee grantid bytes access gOffset with
      | none => none
      | some (.error r) => some (.error r)
      | some (.ok (vOffset, newGranter)) =>
        if access &&& cpfRead ≠ 0 then
          some (.ok (⟨newGranter, srcSeg, vOffset⟩, ⟨grantee, dstSeg, addr⟩))
        else some (.ok (⟨grantee, srcSeg, addr⟩, ⟨newGranter, dstSeg, vOffset⟩))

/-- A chain of `hops` indirect grants that starts with the request of `grantee` for a grant of
`granter` and ends at the grant `g`, of `last`, for `asks`. -/
inductive GrantChain : Nat → Int → Int → Int → Int → Int → CpGrant → Prop where
  | last {granter grantee grant : Int} {g : CpGrant} (hfetch : fetchGrant s gs granter grant = .ok g)
      (hkind : g.cpFlags &&& cpfIndirect = 0) : GrantChain 0 granter grantee grant granter grantee g
  | hop {hops : Nat} {granter grantee grant last asks : Int} {g g' : CpGrant}
      (hfetch : fetchGrant s gs granter grant = .ok g') (hkind : g'.cpFlags &&& cpfIndirect ≠ 0)
      (hwho : g'.indirectWhoTo = grantee ∨ grantee = endptAny)
      (hrest : GrantChain hops g'.indirectWhoFrom granter g'.indirectGrant last asks g) :
      GrantChain (hops + 1) granter grantee grant last asks g

variable {s gs}

namespace CpGrant

def whoTo (g : CpGrant) : Int := if g.cpFlags &&& cpfDirect ≠ 0 then g.directWhoTo else g.magicWhoTo
def start (g : CpGrant) : BitVec 32 := if g.cpFlags &&& cpfDirect ≠ 0 then g.directStart else g.magicStart
def len (g : CpGrant) : BitVec 32 := if g.cpFlags &&& cpfDirect ≠ 0 then g.directLen else g.magicLen

end CpGrant

/-- Every byte of the range from `addr` on lies in the granted range, and the range does not
wrap. -/
def InGrant (start len addr bytes : BitVec 32) : Prop :=
  ∀ k < bytes.toNat, addr.toNat + k < 2 ^ 32 ∧ start.toNat ≤ addr.toNat + k ∧
    addr.toNat + k < start.toNat + len.toNat

variable {fuel depth : Nat}

lemma verifyLoop_isSome (s : State) (gs : Grants) (hfuel : maxIndirectDepth < fuel + depth)
    (hdepth : depth ≤ maxIndirectDepth)
    (granter grantee grant : Int) : (verifyLoop s gs fuel depth granter grantee grant).isSome = true := by
  induction fuel generalizing depth granter grantee grant with
  | zero => omega
  | succ fuel ih =>
    rw [verifyLoop]
    split
    · rfl
    split
    · split
      · rfl
      · split
        · rfl
        · exact ih (by omega) (by omega) _ _ _
    · rfl

variable {granter grantee grant last asks : Int} {g : CpGrant}

lemma verifyLoop_chain
    (hdepth : depth ≤ maxIndirectDepth)
    (h : verifyLoop s gs fuel depth granter grantee grant = some (.ok (last, asks, g))) :
    ∃ hops, depth + hops ≤ maxIndirectDepth ∧ GrantChain s gs hops granter grantee grant last asks g := by
  induction fuel generalizing depth granter grantee grant with
  | zero => cases h
  | succ fuel ih =>
    rw [verifyLoop] at h
    split at h
    · cases h
    next g' hfetch =>
    split at h
    · next hkind =>
      split at h
      · cases h
      next hlt =>
      split at h
      · cases h
      next hwho =>
      obtain ⟨hops, hle, hrest⟩ := ih (by omega) h
      rw [not_and_or, not_not, not_not] at hwho
      exact ⟨hops + 1, by omega, .hop hfetch hkind hwho hrest⟩
    · next hkind =>
      cases h
      exact ⟨0, by omega, .last hfetch (not_not.mp hkind)⟩

lemma GrantChain.unique {hops hops' : Nat} {last' asks' : Int} {g' : CpGrant}
    (h : GrantChain s gs hops granter grantee grant last asks g)
    (h' : GrantChain s gs hops' granter grantee grant last' asks' g') :
    hops = hops' ∧ last = last' ∧ asks = asks' ∧ g = g' := by
  induction h generalizing hops' with
  | last hfetch hkind =>
    cases h' with
    | last hfetch' _ =>
      obtain rfl := Except.ok.inj (hfetch.symm.trans hfetch')
      exact ⟨rfl, rfl, rfl, rfl⟩
    | hop hfetch' hkind' _ _ =>
      obtain rfl := Except.ok.inj (hfetch.symm.trans hfetch')
      exact absurd hkind hkind'
  | hop hfetch hkind _ _ ih =>
    cases h' with
    | last hfetch' hkind' =>
      obtain rfl := Except.ok.inj (hfetch.symm.trans hfetch')
      exact absurd hkind' hkind
    | hop hfetch' _ _ hrest' =>
      obtain rfl := Except.ok.inj (hfetch.symm.trans hfetch')
      obtain ⟨hh, hl, ha, hg⟩ := ih hrest'
      exact ⟨by omega, hl, ha, hg⟩

variable {offsetIn bytes len : BitVec 32}

lemma offset_le (h : ¬ (offsetIn + bytes < offsetIn ∨ offsetIn + bytes > len)) :
    offsetIn.toNat + bytes.toNat ≤ len.toNat := by
  rw [not_or, BitVec.not_lt, gt_iff_lt, BitVec.not_lt] at h
  obtain ⟨hwrap, hlen⟩ := h
  have hsum := BitVec.toNat_add offsetIn bytes
  rw [BitVec.le_def] at hwrap hlen
  have h1 := offsetIn.isLt
  have h2 := bytes.isLt
  omega

/-- The check of a direct grant refuses ranges that wrap; it also refuses a range that starts at
zero. -/
theorem direct_le {start : BitVec 32} (h : ¬ memTop - len < start - 1) :
    start.toNat + len.toNat ≤ 2 ^ 32 := by
  rw [BitVec.not_lt, BitVec.le_def, BitVec.toNat_sub, BitVec.toNat_sub] at h
  have h1 := start.isLt
  have h2 := len.isLt
  have htop : memTop.toNat = 2 ^ 32 - 1 := by decide
  have hone : (1 : BitVec 32).toNat = 1 := by decide
  rw [htop, hone] at h
  omega

structure Checked (granter grantee : Int) (g : CpGrant) (bytes access offsetIn addr : BitVec 32) : Prop where
  kind : g.cpFlags &&& cpfDirect ≠ 0 ∨ g.cpFlags &&& cpfMagic ≠ 0 ∧ granter = vfsProcNr
  access : g.cpFlags &&& access = access
  who : g.whoTo = grantee ∨ grantee = endptAny
  addr : addr = g.start + offsetIn
  inside : offsetIn.toNat + bytes.toNat ≤ g.len.toNat
  direct : g.cpFlags &&& cpfDirect ≠ 0 → g.start.toNat + g.len.toNat ≤ 2 ^ 32

variable {e : Int} {access addr : BitVec 32}

lemma checkGrant_checked
    (h : checkGrant granter grantee g bytes access offsetIn = .ok (addr, e)) :
    Checked granter grantee g bytes access offsetIn addr := by
  unfold checkGrant at h
  split at h
  · cases h
  next haccess =>
  have hwho : ∀ {w : Int}, ¬ (w ≠ grantee ∧ grantee ≠ endptAny) → w = grantee ∨ grantee = endptAny := by
    intro w hw
    rwa [not_and_or, not_not, not_not] at hw
  split at h
  · next hdirect =>
    split at h
    · cases h
    next hlong =>
    split at h
    · cases h
    next hw =>
    split at h
    · cases h
    next hrange =>
    cases h
    refine ⟨Or.inl hdirect, not_not.mp haccess, ?_, ?_, ?_, fun _ => ?_⟩ <;>
      simp only [CpGrant.whoTo, CpGrant.start, CpGrant.len, if_pos hdirect]
    · exact hwho hw
    · exact offset_le hrange
    · exact direct_le hlong
  · next hdirect =>
    split at h
    · next hmagic =>
      split at h
      · cases h
      next hvfs =>
      split at h
      · cases h
      next hw =>
      split at h
      · cases h
      next hrange =>
      cases h
      refine ⟨Or.inr ⟨hmagic, not_not.mp hvfs⟩, not_not.mp haccess, ?_, ?_, ?_,
        fun hd => absurd hd hdirect⟩ <;>
        simp only [CpGrant.whoTo, CpGrant.start, CpGrant.len, if_neg hdirect]
      · exact hwho hw
      · exact offset_le hrange
    · cases h

/-- A range that fits into the grant when counted from its start lies in it exactly when it ends
below the top of memory. -/
theorem inGrant_iff (start : BitVec 32) (h : offsetIn.toNat + bytes.toNat ≤ len.toNat) :
    InGrant start len (start + offsetIn) bytes ↔
      bytes = 0 ∨ start.toNat + offsetIn.toNat + bytes.toNat ≤ 2 ^ 32 := by
  have hsum := BitVec.toNat_add start offsetIn
  have hstart := start.isLt
  have hoff := offsetIn.isLt
  constructor
  · intro hin
    by_cases hzero : bytes = 0
    · exact .inl hzero
    have hpos : 0 < bytes.toNat := by
      rw [Nat.pos_iff_ne_zero]
      exact fun h0 => hzero (BitVec.eq_of_toNat_eq h0)
    have hfirst := hin 0 hpos
    have hlast := hin (bytes.toNat - 1) (by omega)
    omega
  · rintro (rfl | hle) k hk
    · exact absurd hk (Nat.not_lt_zero k)
    · omega

lemma verifyGrant_checked
    (h : verifyGrant s gs fuel granter grantee grant bytes access offsetIn = some (.ok (addr, e))) :
    ∃ hops ≤ maxIndirectDepth, ∃ last asks g, GrantChain s gs hops granter grantee grant last asks g ∧
      Checked last asks g bytes access offsetIn addr := by
  unfold verifyGrant at h
  split at h
  · cases h
  · cases h
  rename_i last asks g hloop
  obtain ⟨hops, hle, hchain⟩ := verifyLoop_chain (Nat.zero_le _) hloop
  exact ⟨hops, by omega, last, asks, g, hchain, checkGrant_checked (Option.some.inj h)⟩

theorem verifyGrant_confined_iff (s : State) (gs : Grants) (granter grantee grant : Int)
    (bytes access offsetIn : BitVec 32) :
    (∀ fuel > maxIndirectDepth,
      (verifyGrant s gs fuel granter grantee grant bytes access offsetIn).isSome = true) ∧
    ∀ fuel addr e, verifyGrant s gs fuel granter grantee grant bytes access offsetIn = some (.ok (addr, e)) →
      ((∃ hops ≤ maxIndirectDepth, ∃ last asks g, GrantChain s gs hops granter grantee grant last asks g ∧
          (g.cpFlags &&& cpfDirect ≠ 0 ∨ g.cpFlags &&& cpfMagic ≠ 0) ∧ g.cpFlags &&& access = access ∧
          (g.whoTo = asks ∨ asks = endptAny) ∧ InGrant g.start g.len addr bytes) ↔
        ∀ hops last asks g, GrantChain s gs hops granter grantee grant last asks g →
          g.cpFlags &&& cpfDirect ≠ 0 ∨ bytes = 0 ∨
            g.start.toNat + offsetIn.toNat + bytes.toNat ≤ 2 ^ 32) := by
  refine ⟨fun fuel hfuel => ?_, fun fuel addr e h => ?_⟩
  · have hsome := verifyLoop_isSome s gs hfuel (Nat.zero_le _) granter grantee grant
    unfold verifyGrant
    split
    · rename_i hnone
      rw [hnone] at hsome
      cases hsome
    · rfl
    · rfl
  · obtain ⟨hops, hle, last, asks, g, hchain, hc⟩ := verifyGrant_checked h
    have hrange := inGrant_iff g.start hc.inside
    rw [← hc.addr] at hrange
    constructor
    · rintro ⟨_, _, _, _, g', hchain', _, _, _, hin⟩ hops'' last'' asks'' g'' hchain''
      obtain ⟨_, _, _, rfl⟩ := hchain.unique hchain'
      obtain ⟨_, _, _, rfl⟩ := hchain.unique hchain''
      exact .inr (hrange.mp hin)
    intro hall
    refine ⟨hops, hle, last, asks, g, hchain, hc.kind.imp_right And.left, hc.access, hc.who, hrange.mpr ?_⟩
    rcases hall hops last asks g hchain with hdirect | hfits
    · have hdir := hc.direct hdirect
      have hin := hc.inside
      exact .inr (by omega)
    · exact hfits

def oneGrant (g : CpGrant) : Grants where
  sGrantTable i := if i = 5 then 0x1000 else 0
  sGrantEntries _ := 1
  dataCopy p a := if p = 5 ∧ a = 0x1000 then some g else none

/-- A magic grant for reading the first eight bytes behind address 4096 of the memory of init. -/
def smallMagic : CpGrant := ⟨cpfUsed ||| cpfValid ||| cpfMagic ||| cpfRead, 11, 0, 0x1000, 8⟩

theorem verifyGrant_confined_of_smallMagic : ∃ hops ≤ maxIndirectDepth, ∃ last asks g,
      GrantChain bootKernel (oneGrant smallMagic) hops vfsProcNr pmProcNr 0 last asks g ∧
        (g.cpFlags &&& cpfDirect ≠ 0 ∨ g.cpFlags &&& cpfMagic ≠ 0) ∧ g.cpFlags &&& cpfRead = cpfRead ∧
        (g.whoTo = asks ∨ asks = endptAny) ∧ InGrant g.start g.len 0x1004 4 := by
  have hverify : verifyGrant bootKernel (oneGrant smallMagic) 6 vfsProcNr pmProcNr 0 4 cpfRead 4 =
      some (.ok (0x1004, 11)) := by decide +kernel
  have hlast : GrantChain bootKernel (oneGrant smallMagic) 0 vfsProcNr pmProcNr 0 vfsProcNr pmProcNr
    smallMagic :=
    .last (by decide +kernel) (by decide)
  refine ((verifyGrant_confined_iff bootKernel (oneGrant smallMagic) vfsProcNr pmProcNr 0 4 cpfRead
    4).2 6 0x1004 11
    hverify).mpr fun hops last asks g hchain => .inr (.inr ?_)
  obtain ⟨_, _, _, rfl⟩ := hlast.unique hchain
  decide

def wrappingMagic : CpGrant := ⟨cpfUsed ||| cpfValid ||| cpfMagic ||| cpfRead, 11, 0, 0xFFFFF000, 0x2000⟩

theorem verifyGrant_wraps : verifyGrant bootKernel (oneGrant wrappingMagic) 6 vfsProcNr pmProcNr 0
    0x2000 cpfRead 0 =
        some (.ok (0xFFFFF000, 11)) ∧
      ∀ hops last asks g, GrantChain bootKernel (oneGrant wrappingMagic) hops vfsProcNr pmProcNr 0
        last asks g →
        ¬ InGrant g.start g.len 0xFFFFF000 0x2000 := by
  refine ⟨by decide +kernel, fun hops last asks g hchain hin => ?_⟩
  have hlast : GrantChain bootKernel (oneGrant wrappingMagic) 0 vfsProcNr pmProcNr 0 vfsProcNr
    pmProcNr wrappingMagic :=
    .last (by decide +kernel) (by decide)
  obtain ⟨_, _, _, rfl⟩ := hlast.unique hchain
  exact absurd (hin 0x1FFF (by decide)).1 (by decide)

/-- The process whose memory the grant is for. -/
def CpGrant.owner (g : CpGrant) (granter : Int) : Int :=
  if g.cpFlags &&& cpfDirect ≠ 0 then granter else g.magicWhoFrom

lemma checkGrant_owner (h : checkGrant granter grantee g bytes access offsetIn = .ok (addr, e)) :
    e = g.owner granter := by
  unfold checkGrant at h
  unfold CpGrant.owner
  split_ifs at h ⊢ <;> cases h <;> rfl

/-- A copy that `safecopy` lets through has the caller's own buffer at one end. At the other is a
part of the grant at the end of a chain, which allows the access, in the memory of the process that
it is for. -/
theorem safecopy_granted {grantid srcSeg dstSeg : Int} {gOffset : BitVec 32} {src dst : VirAddr}
    (h : safecopy s gs fuel granter grantee grantid srcSeg dstSeg bytes gOffset addr access =
      some (.ok (src, dst))) :
    ∃ hops ≤ maxIndirectDepth, ∃ last asks g, GrantChain s gs hops granter grantee grantid last asks g ∧
      Checked last asks g bytes access gOffset (g.start + gOffset) ∧
      if access &&& cpfRead ≠ 0 then src = ⟨g.owner last, srcSeg, g.start + gOffset⟩ ∧
        dst = ⟨grantee, dstSeg, addr⟩
      else src = ⟨grantee, srcSeg, addr⟩ ∧ dst = ⟨g.owner last, dstSeg, g.start + gOffset⟩ := by
  unfold safecopy verifyGrant at h
  split at h
  · cases h
  split at h
  · cases h
  cases hloop : verifyLoop s gs fuel 0 granter grantee grantid with
  | none => simp [hloop] at h
  | some res =>
    obtain r | ⟨last, asks, g⟩ := res
    · simp [hloop] at h
    cases hcheck : checkGrant last asks g bytes access gOffset with
    | error r => simp [hloop, hcheck] at h
    | ok res =>
      obtain ⟨vOffset, newGranter⟩ := res
      obtain ⟨hops, hle, hchain⟩ := verifyLoop_chain (Nat.zero_le _) hloop
      have hc := checkGrant_checked hcheck
      obtain rfl := checkGrant_owner hcheck
      obtain rfl := hc.addr
      refine ⟨hops, by omega, last, asks, g, hchain, hc, ?_⟩
      simp only [hloop, hcheck] at h
      split_ifs at h ⊢ <;> cases h <;> exact ⟨rfl, rfl⟩

theorem safecopy_granted_magic : ∃ hops ≤ maxIndirectDepth, ∃ last asks g,
    GrantChain bootKernel (oneGrant smallMagic) hops vfsProcNr pmProcNr 0 last asks g ∧
      g.owner last = 11 := by
  have hcopy : safecopy bootKernel (oneGrant smallMagic) 6 vfsProcNr pmProcNr 0 0 0 4 4 0x2000 cpfRead =
      some (.ok (⟨11, 0, 0x1004⟩, ⟨pmProcNr, 0, 0x2000⟩)) := by decide +kernel
  obtain ⟨hops, hle, last, asks, g, hchain, -, hends⟩ := safecopy_granted hcopy
  exact ⟨hops, hle, last, asks, g, hchain, (congrArg VirAddr.procNrE hends.1).symm⟩

end Nucleos.Kernel
