import Nucleos.Vfs.Files

/-!
# The counts of filps and vnodes

What a handler has taken and not yet put anywhere is in hand. Each step of a handler moves
references between places and the hand, and a call that succeeds ends with nothing in hand.
-/

namespace Nucleos.Vfs

open Function Run RefCount

variable {s t u : Files} {who p q : Proc} {fd : Fd} {f g : FilpNr} {v vp : VnodeNr} {l : List VnodeNr}

def Files.filpCounts (s : Files) (f : FilpNr) : Nat := (s.filp f).filpCount
def Files.refCounts (s : Files) (v : VnodeNr) : Nat := (s.vnode v).vRefCount

def Files.fds (s : Files) (x : Proc × Fd) : Option FilpNr := (s.proc x.1).fpFilp x.2

/-- The places that refer to vnodes: directories of processes, filps, and mounted file systems with
their roots and mount points. -/
abbrev Place := (Proc × DirSlot) ⊕ FilpNr ⊕ (MntNr × Bool)

def Filp.target (x : Filp) : Option VnodeNr := if x.filpCount = 0 then none else x.filpVno

variable {x : Filp}

lemma Filp.target_pos (h : x.filpCount ≠ 0) : x.target = x.filpVno := if_neg h

lemma Filp.target_zero (h : x.filpCount = 0) : x.target = none := if_pos h

def Vmnt.target (x : Vmnt) (root : Bool) : Option VnodeNr :=
  if x.mDev = none then none else if root then x.mRootNode else x.mMountedOn

def Files.target (s : Files) : Place → Option VnodeNr
  | .inl (p, d) => (s.proc p).dir d
  | .inr (.inl f) => (s.filp f).target
  | .inr (.inr (m, root)) => (s.vmnt m).target root

section
variable (s : Files)

lemma target_dir (p : Proc) (d : DirSlot) : s.target (.inl (p, d)) = (s.proc p).dir d := rfl

lemma target_filp (f : FilpNr) : s.target (.inr (.inl f)) = (s.filp f).target := rfl

structure Counted (s : Files) (l : List VnodeNr) : Prop where
  filps : Exact s.filpCounts s.fds
  vnodes : Held s.refCounts s.target l
  gone : ∀ p, (s.proc p).live = false → (∀ fd, (s.proc p).fpFilp fd = none) ∧ ∀ d, (s.proc p).dir d = none

/-! ## What the updates do to places and counts -/

lemma setProc_at (p : Proc) (x : Fproc) (q : Proc) :
    (s.setProc p x).proc q = if q = p then x else s.proc q := by
  simp [Files.setProc, update_apply]

lemma setFilp_at (f : FilpNr) (x : Filp) (g : FilpNr) :
    (s.setFilp f x).filp g = if g = f then x else s.filp g := by
  simp [Files.setFilp, update_apply]

@[simp] lemma setFilp_proc (f : FilpNr) (x : Filp) : (s.setFilp f x).proc = s.proc := rfl
@[simp] lemma setVnode_proc (v : VnodeNr) (x : Vnode) : (s.setVnode v x).proc = s.proc := rfl
@[simp] lemma setVnode_filp (v : VnodeNr) (x : Vnode) : (s.setVnode v x).filp = s.filp := rfl
@[simp] lemma setFd_filp (p : Proc) (fd : Fd) (o : Option FilpNr) (b : Bool) :
    (s.setFd p fd o b).filp = s.filp := rfl

lemma setVnode_at (v : VnodeNr) (x : Vnode) (u : VnodeNr) :
    (s.setVnode v x).vnode u = if u = v then x else s.vnode u := by
  simp [Files.setVnode, update_apply]

@[simp] lemma fds_setFilp (f : FilpNr) (x : Filp) : (s.setFilp f x).fds = s.fds := rfl
@[simp] lemma filpCounts_setFd (p : Proc) (fd : Fd) (o : Option FilpNr) (b : Bool) :
    (s.setFd p fd o b).filpCounts = s.filpCounts := rfl
@[simp] lemma refCounts_setFilp (f : FilpNr) (x : Filp) : (s.setFilp f x).refCounts = s.refCounts := rfl
@[simp] lemma refCounts_setFd (p : Proc) (fd : Fd) (o : Option FilpNr) (b : Bool) :
    (s.setFd p fd o b).refCounts = s.refCounts := rfl

lemma refCounts_setVnode (v : VnodeNr) (x : Vnode) :
    (s.setVnode v x).refCounts = update s.refCounts v x.vRefCount := by
  funext u
  rw [Files.refCounts, setVnode_at, update_apply]
  split_ifs <;> rfl

lemma filpCounts_setFilp (f : FilpNr) (x : Filp) :
    (s.setFilp f x).filpCounts = update s.filpCounts f x.filpCount := by
  funext g
  rw [Files.filpCounts, setFilp_at, update_apply]
  split_ifs <;> rfl

lemma target_setFilp (f : FilpNr) (x : Filp) :
    (s.setFilp f x).target = update s.target (.inr (.inl f)) x.target := by
  funext a
  rcases a with ⟨p, d⟩ | g | ⟨m, root⟩
  · simp [Files.target, Files.setFilp]
  · by_cases hg : g = f <;> simp [Files.target, setFilp_at, hg]
  · simp [Files.target, Files.setFilp]

end

lemma target_setProc {x : Fproc} (hx : ∀ d, x.dir d = (s.proc p).dir d) :
    (s.setProc p x).target = s.target := by
  funext a
  rcases a with ⟨q, d⟩ | g | ⟨m, root⟩
  · by_cases hq : q = p
    · subst hq
      simp [Files.target, setProc_at, hx]
    · simp [Files.target, setProc_at, hq]
  · rfl
  · rfl

lemma dir_setDir (x : Fproc) (d : DirSlot) (v : Option VnodeNr) (d' : DirSlot) :
    (x.setDir d v).dir d' = if d' = d then v else x.dir d' := by
  cases d <;> cases d' <;> rfl

lemma target_setDir (s : Files) (p : Proc) (d : DirSlot) (v : Option VnodeNr) :
    (s.setProc p ((s.proc p).setDir d v)).target = update s.target (.inl (p, d)) v := by
  funext a
  rcases a with ⟨q, d'⟩ | g | ⟨m, root⟩
  · by_cases hq : q = p
    · subst hq
      by_cases hd : d' = d <;> simp [Files.target, setProc_at, dir_setDir, hd]
    · simp [Files.target, setProc_at, hq]
  · simp [Files.target, Files.setProc]
  · simp [Files.target, Files.setProc]

lemma fds_setFd (s : Files) (p : Proc) (fd : Fd) (o : Option FilpNr) (inuse : Bool) :
    (s.setFd p fd o inuse).fds = update s.fds (p, fd) o := by
  funext ⟨q, fd'⟩
  rw [Files.fds, Files.setFd, setProc_at]
  by_cases hq : q = p
  · subst hq
    by_cases hfd : fd' = fd
    · subst hfd
      simp
    · simp [hfd, Files.fds]
  · simp [hq, Files.fds]

lemma fds_setProc {x : Fproc} (hx : x.fpFilp = (s.proc p).fpFilp) : (s.setProc p x).fds = s.fds := by
  funext ⟨q, fd⟩
  rw [Files.fds, setProc_at]
  split_ifs with hq
  · rw [hx]
    simp only at hq
    rw [Files.fds, hq]
  · rfl

lemma target_setFd (s : Files) (p : Proc) (fd : Fd) (o : Option FilpNr) (inuse : Bool) :
    (s.setFd p fd o inuse).target = s.target :=
  target_setProc fun d => by cases d <;> rfl

/-! ## Vnodes -/

lemma Counted.setVnode {x : Vnode} (hs : Counted s l) (hx : x.vRefCount = (s.vnode v).vRefCount) :
    Counted (s.setVnode v x) l := by
  refine ⟨hs.filps, ?_, hs.gone⟩
  have hsame : (s.setVnode v x).refCounts = s.refCounts := by
    rw [refCounts_setVnode, hx]
    exact update_eq_self v s.refCounts
  show Held (s.setVnode v x).refCounts s.target l
  rw [hsame]
  exact hs.vnodes

lemma Counted.take {x : Vnode} (hs : Counted s l) (hx : x.vRefCount = (s.vnode v).vRefCount + 1) :
    Counted (s.setVnode v x) (v :: l) := by
  refine ⟨hs.filps, ?_, hs.gone⟩
  show Held (s.setVnode v x).refCounts s.target (v :: l)
  rw [refCounts_setVnode, hx]
  exact hs.vnodes.take v

lemma Counted.drop {x : Vnode} (hs : Counted s (v :: l))
    (hx : x.vRefCount = (s.vnode v).vRefCount - 1) : Counted (s.setVnode v x) l := by
  refine ⟨hs.filps, ?_, hs.gone⟩
  show Held (s.setVnode v x).refCounts s.target l
  rw [refCounts_setVnode, hx]
  exact hs.vnodes.drop

lemma Counted.dupVnode (hs : Counted s l) (v : VnodeNr) : Counted (dupVnode v s) (v :: l) := hs.take rfl

abbrev Keeps (l : List VnodeNr) : Except VfsPanic Files → Prop := Yields .badRefCount (Counted · l)

lemma putVnode_cases (v : VnodeNr) (s : Files) (hpos : 0 < (s.vnode v).vRefCount) :
    (∃ x : Vnode, x.vRefCount = (s.vnode v).vRefCount - 1 ∧ putVnode v s = .ok (s.setVnode v x)) ∨
      putVnode v s = .error .badFsCount := by
  simp only [putVnode]
  split
  · exact .inl ⟨_, rfl, rfl⟩
  rw [if_neg (Nat.pos_iff_ne_zero.mp hpos)]
  split
  · exact .inr rfl
  refine .inl ⟨{ s.vnode v with vMapped := false, vRefCount := 0, vFsCount := 0 }, ?_, rfl⟩
  simp only
  omega

lemma putVnode_bind {β : Type} {P : β → Prop} {k : Files → Except VfsPanic β}
    (hpos : 0 < (s.vnode v).vRefCount)
    (hk : ∀ x : Vnode, x.vRefCount = (s.vnode v).vRefCount - 1 → Yields .badRefCount P (k (s.setVnode v x))) :
    Yields .badRefCount P (putVnode v s >>= k) := by
  rcases putVnode_cases v s hpos with ⟨x, hx, heq⟩ | heq
  · rw [heq]
    exact hk x hx
  · rw [heq]
    exact yields_error (by decide)

lemma putVnode_keeps (hs : Counted s (v :: l)) : Keeps l (putVnode v s) := by
  rw [← bind_pure (putVnode v s)]
  exact putVnode_bind hs.vnodes.pos fun x hx => yields_ok (hs.drop hx)

lemma putVnode_frame {t : Files} (h : putVnode v s = .ok t) :
    t.proc = s.proc ∧ t.filp = s.filp ∧ t.vmnt = s.vmnt ∧
    ∀ u, u ≠ v → t.vnode u = s.vnode u := by
  simp only [putVnode] at h
  split_ifs at h
  all_goals
    cases h
    refine ⟨rfl, rfl, rfl, fun u hu => ?_⟩
    rw [setVnode_at, if_neg hu]

lemma getFreeVnode_free (h : s.getFreeVnode = some v) : (s.vnode v).vRefCount = 0 := by
  simpa using List.find?_some h

lemma exists_free (h : (s.vnode v).vRefCount = 0) : s.getFreeVnode ≠ none := by
  intro hnone
  have hall := List.find?_eq_none.mp hnone v (List.mem_finRange v)
  simp [h] at hall

def Room (s : Files) (v : VnodeNr) : Prop := (∃ u, (s.vnode u).vRefCount = 0) ∨ (s.vnode v).vRefCount = 1

variable {r : Int}

lemma advance_cases (ans : Except Int Node) (s : Files) : (∃ r, advance ans s = (.error r, s)) ∨
    ∃ v x, advance ans s = (.ok v, s.setVnode v x) ∧ x.vRefCount = (s.vnode v).vRefCount + 1 ∧
      ((∃ u, ((s.setVnode v x).vnode u).vRefCount = 0) ∨ ((s.setVnode v x).vnode v).vRefCount = 1 ∧
        (s.vnode v).vRefCount = 0) := by
  unfold advance
  split
  · exact .inl ⟨_, rfl⟩
  next new hnew =>
  have hfree := getFreeVnode_free hnew
  split
  · exact .inl ⟨_, rfl⟩
  split
  · next u hu =>
    refine .inr ⟨u, _, rfl, rfl, .inl ⟨new, ?_⟩⟩
    rw [setVnode_at, if_neg]
    · exact hfree
    rintro rfl
    have hfound := List.find?_some hu
    simp only [decide_eq_true_eq] at hfound
    omega
  · refine .inr ⟨new, _, rfl, by rw [hfree], .inr ⟨?_, hfree⟩⟩
    rw [setVnode_at, if_pos rfl]

/-! ## Opening -/

lemma getFd_free {start : Nat} (h : getFd who start s = .ok (fd, f)) :
    (s.proc who).fpFilp fd = none ∧ (s.filp f).filpCount = 0 ∧ (s.proc who).fpFilpInuse fd = false := by
  unfold getFd at h
  split at h
  · nomatch h
  rename_i fd' hfd
  split at h
  · nomatch h
  rename_i f' hf
  cases h
  have h1 := List.find?_some hfd
  have h2 := List.find?_some hf
  simp only [decide_eq_true_eq] at h1 h2
  exact ⟨h1.2.1, h2, h1.2.2⟩

structure Claimed (s : Files) (who : Proc) (fd : Fd) (f : FilpNr) (vp : VnodeNr) : Prop where
  counted : Counted s []
  live : (s.proc who).live = true
  fdIs : (s.proc who).fpFilp fd = some f
  count : (s.filp f).filpCount = 1
  vno : (s.filp f).filpVno = some vp

lemma Claimed.target (hs : Claimed s who fd f vp) : s.target (.inr (.inl f)) = some vp := by
  show (s.filp f).target = some vp
  rw [Filp.target_pos (by rw [hs.count]; exact Nat.one_ne_zero), hs.vno]

lemma Claimed.pos (hs : Claimed s who fd f vp) : 0 < (s.vnode vp).vRefCount :=
    hs.counted.vnodes.pos_of_target hs.target

lemma setFd_fpFilp (s : Files) (p : Proc) (fd : Fd) (o : Option FilpNr) (b : Bool) :
    ((s.setFd p fd o b).proc p).fpFilp fd = o := by
  simp [Files.setFd, setProc_at]

lemma gone_setFd (hs : Counted s l) (hlive : (s.proc who).live = true) (o : Option FilpNr) (b : Bool) :
    ∀ p, ((s.setFd who fd o b).proc p).live = false →
      (∀ fd', ((s.setFd who fd o b).proc p).fpFilp fd' = none) ∧
        ∀ d, ((s.setFd who fd o b).proc p).dir d = none := by
  intro q
  rw [Files.setFd, setProc_at]
  split_ifs with hq
  · intro hdead
    exact absurd (hlive.symm.trans hdead) (by decide)
  · exact hs.gone q

lemma Counted.claim (hs : Counted s (vp :: l)) (hlive : (s.proc who).live = true)
    (hfd : (s.proc who).fpFilp fd = none)
    (hf : (s.filp f).filpCount = 0) (rBit wBit : Bool) : Counted (claim who fd f vp rBit wBit s) l := by
  refine ⟨?_, ?_, gone_setFd hs hlive _ _⟩
  · show Exact ((s.setFd who fd (some f) true).setFilp f ⟨1, some vp, rBit, wBit⟩).filpCounts
      (s.setFd who fd (some f) true).fds
    rw [filpCounts_setFilp, fds_setFd]
    have hfill := hs.filps.fill (a := (who, fd)) hfd f
    rw [show s.filpCounts f + 1 = 1 from congrArg (· + 1) hf] at hfill
    exact hfill
  · show Held s.refCounts ((s.setFd who fd (some f) true).setFilp f ⟨1, some vp, rBit, wBit⟩).target l
    have hfree : s.target (.inr (.inl f)) = none := (target_filp s f).trans (Filp.target_zero hf)
    rw [target_setFilp, target_setFd, Filp.target_pos Nat.one_ne_zero]
    exact hs.vnodes.place hfree

variable {rBit : Bool}

lemma claim_claimed {wBit : Bool} (hs : Counted s [vp]) (hlive : (s.proc who).live = true)
    (hfd : (s.proc who).fpFilp fd = none)
    (hf : (s.filp f).filpCount = 0) : Claimed (claim who fd f vp rBit wBit s) who fd f vp := by
  refine ⟨hs.claim hlive hfd hf rBit wBit, ?_, ?_, ?_, ?_⟩
  · show ((s.setFd who fd (some f) true).proc who).live = true
    rw [Files.setFd, setProc_at, if_pos rfl]
    exact hlive
  · rw [claim, setFilp_proc, setFd_fpFilp]
  · simp only [claim, setFilp_at, if_true]
  · simp only [claim, setFilp_at, if_true]

lemma Counted.setProc {x : Fproc} (hs : Counted s l) (hlive : x.live = (s.proc p).live)
    (hfilp : x.fpFilp = (s.proc p).fpFilp)
    (hdir : ∀ d, x.dir d = (s.proc p).dir d) : Counted (s.setProc p x) l := by
  refine ⟨?_, ?_, fun q => ?_⟩
  · show RefCount.Exact s.filpCounts _
    rw [fds_setProc hfilp]
    exact hs.filps
  · show Held s.refCounts _ l
    rw [target_setProc hdir]
    exact hs.vnodes
  rw [setProc_at]
  split_ifs with hq
  · rw [hlive, hfilp]
    intro hdead
    exact ⟨(hs.gone p hdead).1, fun d => by rw [hdir]; exact (hs.gone p hdead).2 d⟩
  · exact hs.gone q

lemma findFilp_spec (h : findFilp vp rBit s = some f) :
    (s.filp f).filpCount ≠ 0 ∧ (s.filp f).filpVno = some vp := by
  have hf := List.find?_some h
  simp only [decide_eq_true_eq] at hf
  exact ⟨hf.1, hf.2.1⟩

lemma findFilp_ne (h : findFilp vp rBit (s.setCount f 0) = some g) : g ≠ f := by
  rintro rfl
  have hcount := (findFilp_spec h).1
  rw [Files.setCount, setFilp_at, if_pos rfl] at hcount
  exact hcount rfl

lemma setCount_restore (h : (s.filp f).filpCount = 1) : (s.setCount f 0).setCount f 1 = s := by
  rw [Files.setCount, Files.setCount, setFilp_at, if_pos rfl, Files.setFilp, Files.setFilp]
  simp only [update_idem]
  rw [show ({ s.filp f with filpCount := 1 } : Filp) = s.filp f by rw [← h], update_eq_self]

lemma shareFilp_keeps (hs : Claimed s who fd f vp) (rBit : Bool) :
    Yields .badRefCount (fun t => Counted t [] ∧
      0 < (t.vnode vp).vRefCount) (shareFilp who fd f vp rBit s) := by
  unfold shareFilp
  cases hfind : findFilp vp rBit (s.setCount f 0) with
  | none =>
    simp only [hfind, setCount_restore hs.count]
    exact yields_ok ⟨hs.counted, hs.pos⟩
  | some g =>
    simp only [hfind]
    obtain ⟨hg0, hgv⟩ := findFilp_spec hfind
    have hgf := findFilp_ne hfind
    rw [Files.setCount, setFilp_at, if_neg hgf] at hg0 hgv
    -- the own filp goes, with the vnode of it in hand, and the descriptor moves over
    have hgt : s.target (.inr (.inl g)) = some vp := by
      show (s.filp g).target = some vp
      rw [Filp.target_pos hg0, hgv]
    have hmoved : Counted (((s.setCount f 0).setFd who fd (some g)
      ((s.proc who).fpFilpInuse fd)).setCount g ((s.filp g).filpCount + 1)) [vp] := by
      refine ⟨?_, ?_, gone_setFd hs.counted hs.live _ _⟩
      · have hmove := (hs.counted.filps.clear (a := (who, fd)) hs.fdIs).fill (a := (who, fd))
          (update_self _ _ _) g
        rw [update_idem, update_of_ne hgf, show s.filpCounts f - 1 = 0
          from congrArg (· - 1) hs.count] at hmove
        simp only [Files.setCount, filpCounts_setFilp, filpCounts_setFd, fds_setFilp, fds_setFd]
        exact hmove
      have hlift := hs.counted.vnodes.lift hs.target
      have hne : (Sum.inr (Sum.inl g) : Place) ≠ .inr (.inl f) := fun h => hgf (Sum.inl.inj (Sum.inr.inj h))
      have hsame : update (update s.target (.inr (.inl f)) none) (.inr (.inl g)) (some vp) =
          update s.target (.inr (.inl f)) none := by
        rw [← hgt, ← update_of_ne hne none s.target, update_eq_self]
      have hvno : (((s.setFilp f { s.filp f with filpCount := 0 }).setFd who fd (some g)
        ((s.proc who).fpFilpInuse fd)).filp g).filpVno = some vp := by
        rw [setFd_filp, setFilp_at, if_neg hgf, hgv]
      simp only [Files.setCount, refCounts_setFilp, refCounts_setFd, target_setFilp, target_setFd]
      rw [Filp.target_zero rfl, Filp.target_pos (Nat.succ_ne_zero _), hvno, hsame]
      exact hlift
    have hput := putVnode_keeps hmoved
    have hsame : (s.filp g).filpCount = ((s.setCount f 0).filp g).filpCount := by
      rw [Files.setCount, setFilp_at, if_neg hgf]
    rw [hsame] at hmoved hput
    refine ⟨fun t ht => ⟨hput.ok t ht, ?_⟩, hput.avoids⟩
    refine (hput.ok t ht).vnodes.pos_of_target (a := .inr (.inl g)) ?_
    obtain ⟨_, hfilp, _, _⟩ := putVnode_frame ht
    show (t.filp g).target = some vp
    rw [hfilp, Files.setCount, setFilp_at, if_pos rfl, Filp.target_pos (Nat.succ_ne_zero _)]
    show ((s.setCount f 0).filp g).filpVno = some vp
    rw [Files.setCount, setFilp_at, if_neg hgf, hgv]

lemma Counted.retarget {l' : List VnodeNr} (hs : Counted s l) (hcount : x.filpCount = (s.filp f).filpCount)
    (hv : Held s.refCounts (update s.target (.inr (.inl f)) x.target) l') : Counted (s.setFilp f x) l' := by
  have hsame : (s.setFilp f x).filpCounts = s.filpCounts := by
    rw [filpCounts_setFilp, hcount]
    exact update_eq_self f s.filpCounts
  refine ⟨hsame ▸ hs.filps, ?_, hs.gone⟩
  rwa [refCounts_setFilp, target_setFilp]

section
variable (hs : Claimed s who fd f vp)
include hs

lemma cloneOpcl_keeps {n : Node} (hroom : Room s vp) : Keeps [] (cloneOpcl f n s) := by
  have hcount : (s.filp f).filpCount ≠ 0 := by
    rw [hs.count]
    exact Nat.one_ne_zero
  have htarget : ∀ o, Filp.target { s.filp f with filpVno := o } = o := fun _ => Filp.target_pos hcount
  unfold cloneOpcl
  rw [hs.vno]
  refine putVnode_bind hs.pos fun x hx => yields_ok ?_
  -- the vnode that was given up leaves room for one, if there was none before
  obtain ⟨new, hnew⟩ : ∃ new, (s.setVnode vp x).getFreeVnode = some new := by
    refine Option.ne_none_iff_exists'.mp ?_
    rcases hroom with ⟨u, hu⟩ | hone
    · refine exists_free (v := u) ?_
      rw [setVnode_at, if_neg]
      · exact hu
      rintro rfl
      have hpos := hs.pos
      omega
    · refine exists_free (v := vp) ?_
      rw [setVnode_at, if_pos rfl, hx, hone]
  have hfree := getFreeVnode_free hnew
  -- the filp gives its vnode up before it takes the new one
  have hout : Counted (s.setFilp f { s.filp f with filpVno := none }) [vp] := by
    refine hs.counted.retarget rfl ?_
    rw [htarget]
    exact hs.counted.vnodes.lift hs.target
  have htake := (hout.drop hx).take (x := ⟨n, ((s.setVnode vp x).vnode new).vMapped, 1, 1⟩)
    (congrArg (· + 1) hfree.symm)
  have hplace : Held _ _ [] := htake.vnodes.place (a := .inr (.inl f)) (by
    rw [target_filp]
    simp only [setVnode_filp, setFilp_at, if_true]
    exact htarget none)
  rw [← htarget (some new)] at hplace
  have hend := htake.retarget (f := f) (by simp only [setVnode_filp, setFilp_at, if_true]) hplace
  rw [hnew]
  simpa only [Option.getD_some, Files.setFilp, Files.setVnode, update_idem] using hend

lemma Claimed.setVnode {x : Vnode} (hx : x.vRefCount = (s.vnode v).vRefCount) :
    Claimed (s.setVnode v x) who fd f vp :=
  ⟨hs.counted.setVnode hx, hs.live, hs.fdIs, hs.count, hs.vno⟩

lemma Claimed.setBlocked (b : Option OpenWait) :
    Claimed (s.setProc who { s.proc who with blockedOn := b }) who fd f vp := by
  refine ⟨hs.counted.setProc rfl rfl fun d => by cases d <;> rfl, ?_, ?_, hs.count, hs.vno⟩
  · rw [setProc_at, if_pos rfl]
    exact hs.live
  · rw [setProc_at, if_pos rfl]
    exact hs.fdIs

/-- What the part of an open that depends on the file leaves. A FIFO whose vnode could not be mapped
may have been opened through the filp of others all the same. -/
structure OpenSpec (who : Proc) (fd : Fd) (f : FilpNr) (vp : VnodeNr) (x : Int × Files) : Prop where
  done : x.1 = 0 ∨ x.1 = suspended → Counted x.2 []
  failed : x.1 ≠ 0 → Claimed x.2 who fd f vp ∨ x.1 < 0 ∧ 0 < (x.2.vnode vp).vRefCount

lemma Claimed.spec (r : Int) : Yields VfsPanic.badRefCount (OpenSpec who fd f vp) (.ok (r, s)) :=
  yields_ok ⟨fun _ => hs.counted, fun _ => .inl hs⟩

lemma mapFifo_claimed (req : OpenReq) : Claimed (mapFifo vp req s).2 who fd f vp := by
  unfold mapFifo
  simp only
  split_ifs
  all_goals first
    | exact hs.setVnode rfl
    | exact hs

end

lemma mapFifo_le (vp : VnodeNr) (req : OpenReq) (s : Files) : (mapFifo vp req s).1 ≤ 0 := by
  unfold mapFifo
  simp only
  split_ifs <;> omega

lemma pipeOpen_cases (who : Proc) (fd : Fd) (vp : VnodeNr) (rBit wBit nonblock : Bool) (s : Files) :
    pipeOpen who fd vp rBit wBit nonblock s = (-enxio, s) ∨ pipeOpen who fd vp rBit wBit nonblock s = (0, s) ∨
      pipeOpen who fd vp rBit wBit nonblock s = (suspended,
        s.setProc who { s.proc who with blockedOn := some (.popen fd) }) := by
  unfold pipeOpen
  split
  · exact .inl rfl
  cases findFilp vp wBit s with
  | some g => exact .inr (.inl rfl)
  | none =>
    cases nonblock with
    | false => exact .inr (.inr rfl)
    | true =>
      cases wBit with
      | false => exact .inr (.inl rfl)
      | true => exact .inl rfl

lemma pipeOpen_claimed (hs : Claimed s who fd f vp) (rBit wBit nonblock : Bool) :
    Claimed (pipeOpen who fd vp rBit wBit nonblock s).2 who fd f vp := by
  rcases pipeOpen_cases who fd vp rBit wBit nonblock s with heq | heq | heq
  all_goals rw [heq]
  · exact hs
  · exact hs
  · exact hs.setBlocked _

lemma pipeOpen_le (who : Proc) (fd : Fd) (vp : VnodeNr) (rBit wBit nonblock : Bool) (s : Files) :
    (pipeOpen who fd vp rBit wBit nonblock s).1 ≤ 0 := by
  rcases pipeOpen_cases who fd vp rBit wBit nonblock s with heq | heq | heq
  all_goals
    simp only [heq]
    decide

/-- What `common_open` does with a FIFO before it looks for a filp to share. -/
def readyFifo (who : Proc) (fd : Fd) (vp : VnodeNr) (rBit wBit : Bool) (req : OpenReq) (s : Files) :
    Int × Files :=
  if (mapFifo vp req s).1 = 0 then pipeOpen who fd vp rBit wBit req.nonblock (mapFifo vp req s).2
    else mapFifo vp req s

lemma openFifo_eq (who : Proc) (fd : Fd) (f : FilpNr) (vp : VnodeNr) (rBit wBit : Bool)
    (req : OpenReq) (s : Files) :
    openFifo who fd f vp rBit wBit req s =
      if (readyFifo who fd vp rBit wBit req s).1 ≠ -enxio then do
        let t ← shareFilp who fd f vp rBit (readyFifo who fd vp rBit wBit req s).2
        .ok ((readyFifo who fd vp rBit wBit req s).1, t)
      else .ok (readyFifo who fd vp rBit wBit req s) := rfl

lemma readyFifo_claimed (hs : Claimed s who fd f vp) (rBit wBit : Bool) (req : OpenReq) :
    Claimed (readyFifo who fd vp rBit wBit req s).2 who fd f vp := by
  unfold readyFifo
  split_ifs
  · exact pipeOpen_claimed (mapFifo_claimed hs req) rBit wBit req.nonblock
  · exact mapFifo_claimed hs req

lemma readyFifo_le (who : Proc) (fd : Fd) (vp : VnodeNr) (rBit wBit : Bool) (req : OpenReq) (s : Files) :
    (readyFifo who fd vp rBit wBit req s).1 ≤ 0 := by
  unfold readyFifo
  split_ifs
  · exact pipeOpen_le who fd vp rBit wBit req.nonblock _
  · exact mapFifo_le vp req s

lemma openFifo_spec (hs : Claimed s who fd f vp) (rBit wBit : Bool) (req : OpenReq) :
    Yields .badRefCount (OpenSpec who fd f vp) (openFifo who fd f vp rBit wBit req s) := by
  have hready := readyFifo_claimed hs rBit wBit req
  have hle := readyFifo_le who fd vp rBit wBit req s
  rw [openFifo_eq]
  generalize readyFifo who fd vp rBit wBit req s = y at hready hle ⊢
  split
  · refine (shareFilp_keeps hready rBit).bind fun t _ ht => yields_ok ⟨fun _ => ht.1, fun hne =>
      .inr ⟨?_, ht.2⟩⟩
    exact lt_of_le_of_ne hle hne
  · exact hready.spec y.1

lemma openNode_spec (hs : Claimed s who fd f vp) (hroom : Room s vp) (rBit wBit : Bool) (req : OpenReq) :
    Yields .badRefCount (OpenSpec who fd f vp) (openNode who fd f vp rBit wBit req s) := by
  unfold openNode
  split
  · exact hs.spec _
  cases (s.vnode vp).node.fmode with
  | regular | directory | blockSpecial | symlink => exact hs.spec _
  | charSpecial =>
    cases req.dev with
    | done r => exact hs.spec r
    | suspend => exact (hs.setBlocked _).spec _
    | cloned n =>
      exact (cloneOpcl_keeps hs hroom).bind fun t _ ht => yields_ok ⟨fun _ => ht, fun h => absurd rfl h⟩
  | namedPipe => exact openFifo_spec hs rBit wBit req

def Ended (x : Int × Files) : Prop := 0 ≤ x.1 ∨ x.1 = suspended → Counted x.2 []

abbrev Ends : Except VfsPanic (Int × Files) → Prop := Yields .badRefCount Ended

lemma Counted.ends (hs : Counted s []) (r : Int) : Ends (.ok (r, s)) := yields_ok fun _ => hs

lemma Claimed.release (hs : Claimed s who fd f vp) :
    Counted ((s.setFd who fd none false).setCount f 0) [vp] := by
  refine ⟨?_, ?_, gone_setFd hs.counted hs.live _ _⟩
  · have hclear := hs.counted.filps.clear (a := (who, fd)) hs.fdIs
    rw [show s.filpCounts f - 1 = 0 from congrArg (· - 1) hs.count] at hclear
    simp only [Files.setCount, filpCounts_setFilp, filpCounts_setFd, fds_setFilp, fds_setFd]
    exact hclear
  · simp only [Files.setCount, refCounts_setFilp, refCounts_setFd, target_setFilp, target_setFd]
    rw [Filp.target_zero rfl]
    exact hs.counted.vnodes.lift hs.target

lemma Counted.setFilp_free (hs : Counted s l) (hf : (s.filp f).filpCount = 0) (hx : x.filpCount = 0) :
    Counted (s.setFilp f x) l := by
  refine ⟨?_, ?_, hs.gone⟩
  · show Exact (s.setFilp f x).filpCounts s.fds
    rw [filpCounts_setFilp, show x.filpCount = s.filpCounts f from hx.trans hf.symm, update_eq_self]
    exact hs.filps
  · have hnone : s.target (.inr (.inl f)) = none := (target_filp s f).trans (Filp.target_zero hf)
    rw [refCounts_setFilp, target_setFilp, Filp.target_zero hx, ← hnone, update_eq_self]
    exact hs.vnodes

lemma unclaim_keeps (hs : Claimed s who fd f vp) : Keeps [] (unclaim who fd f vp s) := by
  refine (putVnode_keeps hs.release).bind fun t ht hcounted => yields_ok ?_
  have hcount : (t.filp f).filpCount = 0 := by
    rw [(putVnode_frame ht).2.1, Files.setCount, setFilp_at, if_pos rfl]
  exact hcounted.setFilp_free hcount hcount

lemma unclaim_avoids (who : Proc) (fd : Fd) (f : FilpNr) (hpos : 0 < (s.vnode vp).vRefCount) :
    Avoids .badRefCount (unclaim who fd f vp s) := by
  refine Yields.avoids (P := fun _ => True) (putVnode_bind ?_ fun _ _ => yields_ok trivial)
  exact hpos

lemma openExisting_spec (hs : Claimed s who fd f vp) (hroom : Room s vp) (rBit wBit : Bool)
    (req : OpenReq) (exist : Bool) (r : Int) :
    Yields .badRefCount (OpenSpec who fd f vp) (openExisting who fd f vp rBit wBit req exist r s) := by
  cases exist with
  | true => exact openNode_spec hs hroom rBit wBit req
  | false => exact hs.spec r

lemma openVnode_ends (hs : Counted s [vp]) (hlive : (s.proc who).live = true)
    (hfd : (s.proc who).fpFilp fd = none)
    (hf : (s.filp f).filpCount = 0) (hroom : Room s vp) (rBit wBit : Bool) (req : OpenReq)
    (exist : Bool) (r : Int) :
    Ends (openVnode who fd f vp rBit wBit req exist r s) := by
  have hclaim : Claimed (claim who fd f vp rBit wBit s) who fd f vp := claim_claimed hs hlive hfd hf
  refine (openExisting_spec hclaim hroom rBit wBit req exist r).bind fun x _ hx => ?_
  split
  · next h0 =>
    exact yields_ok fun _ => hx.done (.inl h0)
  next h0 =>
  split
  · next hsus =>
    exact yields_ok fun _ => hx.done (.inr hsus)
  next hsus =>
  rcases hx.failed h0 with hclaimed | ⟨hneg, hpos⟩
  · exact (unclaim_keeps hclaimed).bind fun t _ ht => ht.ends x.1
  refine ⟨fun y hy => ?_, by simp [unclaim_avoids who fd f hpos]⟩
  obtain ⟨t, -, ht⟩ := bind_eq_ok.mp hy
  cases ht
  rintro (hle | heq)
  · exact absurd hle (not_le.mpr hneg)
  · exact absurd heq hsus

lemma Counted.swap {u : VnodeNr} (hs : Counted s (v :: u :: l)) : Counted s (u :: v :: l) := by
  refine ⟨hs.filps, fun i => ?_, hs.gone⟩
  rw [hs.vnodes i, (List.Perm.swap u v l).count_eq]

lemma Room.put {u : VnodeNr} (hroom : (∃ i, (s.vnode i).vRefCount = 0) ∨ (s.vnode v).vRefCount = 1 ∧ v ≠ u)
    (hpos : 0 < (s.vnode u).vRefCount) (h : putVnode u s = .ok t) : Room t v := by
  have hframe := (putVnode_frame h).2.2.2
  rcases hroom with ⟨i, hi⟩ | ⟨hone, hne⟩
  · refine .inl ⟨i, ?_⟩
    rw [hframe i]
    · exact hi
    · rintro rfl
      omega
  · refine .inr ?_
    rw [hframe v hne]
    exact hone

def NewSpec (s : Files) (x : (Option VnodeNr × Int) × Files) : Prop :=
  match x with
  | ((some vp, r), t) => (r = 0 ∨ r = -eexist) ∧ Counted t [vp] ∧ Room t vp ∧ t.proc = s.proc ∧
      t.filp = s.filp
  | ((none, _), t) => Counted t []

lemma lastDir_cases {dir : DirAnswer} {y : Except Int VnodeNr}
    (h : lastDir who dir s = .ok (y, t)) : (∃ r, y = .error r ∧ t = s) ∨
    ∃ dirp x, y = .ok dirp ∧ t = s.setVnode dirp x ∧ x.vRefCount = (s.vnode dirp).vRefCount + 1 := by
  unfold lastDir at h
  split at h
  · split at h
    · cases h
      exact .inr ⟨_, _, rfl, rfl, rfl⟩
    · nomatch h
  next ans =>
  rcases advance_cases ans s with ⟨r, hadv⟩ | ⟨v, x, hadv, hx, -⟩
  all_goals
    rw [hadv] at h
    cases h
  · exact .inl ⟨r, rfl, rfl⟩
  · exact .inr ⟨v, x, rfl, rfl, hx⟩

lemma lastDir_avoids (who : Proc) (dir : DirAnswer) (s : Files) :
    Avoids .badRefCount (lastDir who dir s) := by
  unfold lastDir
  cases dir with
  | here => cases (s.proc who).fpWd <;> simp
  | looked ans => exact avoids_ok

lemma putDir_spec {u : VnodeNr} (hr : r = 0 ∨ r = -eexist) (hs : Counted t [v, u])
    (hroom : (∃ i, (t.vnode i).vRefCount = 0) ∨ (t.vnode v).vRefCount = 1 ∧ v ≠ u)
    (hproc : t.proc = s.proc) (hfilp : t.filp = s.filp) :
    Yields .badRefCount (NewSpec s) (putVnode u t >>= fun t => .ok ((some v, r), t)) := by
  refine (putVnode_keeps hs.swap).bind fun t' hput ht' => yields_ok ?_
  have hframe := putVnode_frame hput
  exact ⟨hr, ht', Room.put hroom hs.swap.vnodes.pos hput, hframe.1.trans hproc, hframe.2.1.trans hfilp⟩

lemma putDir_none {u : VnodeNr} (hs : Counted t [u]) :
    Yields .badRefCount (NewSpec s) (putVnode u t >>= fun t => .ok ((none, r), t)) :=
  (putVnode_keeps hs).bind fun _ _ ht => yields_ok ht

lemma newIn_spec {dirp : VnodeNr} (hs : Counted t [dirp]) (hproc : t.proc = s.proc)
    (hfilp : t.filp = s.filp) (last made : Except Int Node) :
    Yields .badRefCount (NewSpec s) (newIn dirp last made t) := by
  have hdirp : 0 < (t.vnode dirp).vRefCount := hs.vnodes.pos
  unfold newIn
  rcases advance_cases last t with ⟨r, hadv⟩ | ⟨vp, x, hadv, hx, hroom⟩
  swap
  · rw [hadv]
    refine putDir_spec (.inr rfl) (hs.take hx) (hroom.imp_right fun ⟨hone, hzero⟩ => ⟨hone, ?_⟩) hproc hfilp
    rintro rfl
    omega
  simp only [hadv]
  split
  · split
    · next new n hnew =>
      have hfree := getFreeVnode_free hnew
      refine putDir_spec (.inl rfl) (hs.take (by rw [hfree])) (.inr ⟨?_, ?_⟩) hproc hfilp
      · rw [setVnode_at, if_pos rfl]
      · rintro rfl
        omega
    · exact putDir_none hs
    · exact putDir_none hs
  · exact putDir_none hs

lemma newNode_spec (hs : Counted s []) (who : Proc) (dir : DirAnswer) (last made : Except Int Node) :
    Yields .badRefCount (NewSpec s) (newNode who dir last made s) := by
  refine Yields.bind (P := fun x => lastDir who dir s = .ok x) ⟨fun x hx => hx,
    lastDir_avoids who dir s⟩ fun x _ hx => ?_
  obtain ⟨x, t⟩ := x
  rcases lastDir_cases hx with ⟨r, rfl, rfl⟩ | ⟨dirp, y, rfl, rfl, hy⟩
  · exact yields_ok hs
  · exact newIn_spec (hs.take hy) rfl rfl last made

lemma openNew_ends {x : (Option VnodeNr × Int) × Files} (hx : NewSpec s x) (hlive : (s.proc who).live = true)
    (hfd : (s.proc who).fpFilp fd = none) (hf : (s.filp f).filpCount = 0) (rBit wBit : Bool) (req : OpenReq) :
    Ends (openNew who fd f rBit wBit req x.1 x.2) := by
  obtain ⟨⟨o, r⟩, t⟩ := x
  unfold openNew
  split_ifs with hr
  · cases o with
    | none => exact yields_ok fun _ => hx
    | some vp => exact absurd hx.1 (not_or.mpr hr)
  cases o with
  | none => exact yields_error (by decide)
  | some vp =>
    obtain ⟨-, hcounted, hroom, hproc, hfilp⟩ := hx
    exact openVnode_ends hcounted (hproc ▸ hlive) (hproc ▸ hfd) (hfilp ▸ hf) hroom rBit wBit req _ r

lemma commonOpen_ends (hs : Counted s []) (hlive : (s.proc who).live = true) (req : OpenReq) :
    Ends (commonOpen who req s) := by
  unfold commonOpen
  split
  · exact hs.ends _
  split
  · exact hs.ends _
  next rBit wBit _ =>
  split
  · exact hs.ends _
  next fd f hget =>
  obtain ⟨hfd, hf, -⟩ := getFd_free hget
  split
  · exact (newNode_spec hs who req.dir req.last req.made).bind fun x _ hx =>
      openNew_ends hx hlive hfd hf rBit wBit req
  rcases advance_cases req.last s with ⟨r, hadv⟩ | ⟨vp, x, hadv, hx, hroom⟩
  all_goals simp only [hadv]
  · exact hs.ends r
  · exact openVnode_ends (hs.take hx) hlive hfd hf (hroom.imp_right fun h => h.1) rBit wBit req true 0

end Nucleos.Vfs
