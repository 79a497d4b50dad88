import Nucleos.Vfs.Mount

/-!
# What a failed call leaves behind

A call that fails should leave the descriptors of its caller and all counts as they were. The
handlers that do not manage are told apart by where they stand when they give up.
-/

namespace Nucleos.Vfs

open Function Run

variable {s t u : Files} {who p : Proc} {fd : Fd} {f g : FilpNr} {v vp : VnodeNr} {r : Int}
    {dir : DirAnswer} {x : Int × Files} {req : OpenReq} {rBit wBit : Bool} {s₀ : Files}

structure Unchanged (who : Proc) (s t : Files) : Prop where
  fpFilp : (t.proc who).fpFilp = (s.proc who).fpFilp
  fpFilpInuse : (t.proc who).fpFilpInuse = (s.proc who).fpFilpInuse
  filpCount : ∀ f, (t.filp f).filpCount = (s.filp f).filpCount
  vRefCount : ∀ v, (t.vnode v).vRefCount = (s.vnode v).vRefCount

/-! ## Vnodes in hand -/

structure Took (s t : Files) (v : VnodeNr) : Prop where
  proc : t.proc = s.proc
  filp : t.filp = s.filp
  refs : ∀ u, (t.vnode u).vRefCount = (s.vnode u).vRefCount + if u = v then 1 else 0

structure Settled (s t : Files) : Prop where
  proc : t.proc = s.proc
  filp : t.filp = s.filp
  refs : ∀ u, (t.vnode u).vRefCount = (s.vnode u).vRefCount

lemma Settled.refl (s : Files) : Settled s s := ⟨rfl, rfl, fun _ => rfl⟩

lemma Settled.trans (h : Settled s t) (h' : Settled t u) : Settled s u :=
  ⟨h'.proc.trans h.proc, h'.filp.trans h.filp, fun v => (h'.refs v).trans (h.refs v)⟩

lemma Settled.unchanged (h : Settled s t) (who : Proc) : Unchanged who s t :=
  ⟨by rw [h.proc], by rw [h.proc], fun f => by rw [h.filp], h.refs⟩

lemma Settled.took (h : Settled s t) (h' : Took t u v) : Took s u v :=
  ⟨h'.proc.trans h.proc, h'.filp.trans h.filp, fun i => by rw [h'.refs i, h.refs i]⟩

lemma putVnode_refs (h : putVnode v s = .ok t) (i : VnodeNr) :
    (t.vnode i).vRefCount + (if i = v then 1 else 0) = (s.vnode i).vRefCount := by
  simp only [putVnode] at h
  split_ifs at h with h1 h0 hfs
  all_goals
    cases h
    rw [setVnode_at]
    split_ifs with hi
    · subst hi
      simp only
      omega
    · rfl

lemma Took.put (h : Took s t v) (hput : putVnode v t = .ok u) : Settled s u := by
  obtain ⟨hproc, hfilp, -, -⟩ := putVnode_frame hput
  refine ⟨hproc.trans h.proc, hfilp.trans h.filp, fun i => ?_⟩
  have hi := putVnode_refs hput i
  rw [h.refs i] at hi
  omega

lemma Took.put_ok {α : Type} {a : α} {y : α × Files} (h : Took s t v)
    (hok : (putVnode v t >>= fun u => .ok (a, u)) = .ok y) :
    Settled s y.2 := by
  obtain ⟨u, hput, hy⟩ := bind_eq_ok.mp hok
  cases hy
  exact h.put hput

lemma took_setVnode {y : Vnode} (h : y.vRefCount = (s.vnode v).vRefCount + 1) :
    Took s (s.setVnode v y) v := by
  refine ⟨rfl, rfl, fun i => ?_⟩
  rw [setVnode_at]
  split_ifs with hi
  · rw [hi, h]
  · rfl

variable {n : Node} {b : Bool}

lemma fresh_took (h : (s.vnode v).vRefCount = 0) : Took s (s.setVnode v ⟨n, b, 1, 1⟩) v :=
    took_setVnode (by rw [h])

lemma advance_took (ans : Except Int Node) (s : Files) :
    (∃ r, advance ans s = (.error r, s)) ∨ ∃ v t, advance ans s = (.ok v, t) ∧ Took s t v := by
  rcases advance_cases ans s with hr | ⟨v, x, hadv, hx, -⟩
  · exact .inl hr
  · exact .inr ⟨v, _, hadv, took_setVnode hx⟩

lemma Took.putOther {d : VnodeNr} {w : Files} (h : Took s t d) (h' : Took t u v)
    (hput : putVnode d u = .ok w) : Took s w v := by
  obtain ⟨hproc, hfilp, -, -⟩ := putVnode_frame hput
  refine ⟨hproc.trans (h'.proc.trans h.proc), hfilp.trans (h'.filp.trans h.filp), fun i => ?_⟩
  have hi := putVnode_refs hput i
  rw [h'.refs i, h.refs i] at hi
  omega

def NewTook (s : Files) (x : (Option VnodeNr × Int) × Files) : Prop :=
  match x.1.1 with
  | some v => (x.1.2 = 0 ∨ x.1.2 = -eexist) ∧ Took s x.2 v
  | none => Settled s x.2

variable {last made : Except Int Node}

lemma newIn_took {dirp : VnodeNr} {x : (Option VnodeNr × Int) × Files} (hdir : Took s t dirp)
    (h : newIn dirp last made t = .ok x) : NewTook s x := by
  have hback : ∀ {r : Int}, (putVnode dirp t >>= fun u => .ok ((none, r), u)) = .ok x → NewTook s x := by
    intro r h
    obtain ⟨w, hput, h⟩ := bind_eq_ok.mp h
    cases h
    exact hdir.put hput
  unfold newIn at h
  rcases advance_took last t with ⟨r, hadv⟩ | ⟨vp, u, hadv, htook⟩
  swap
  · simp only [hadv] at h
    obtain ⟨w, hput, h⟩ := bind_eq_ok.mp h
    cases h
    exact ⟨.inr rfl, hdir.putOther htook hput⟩
  simp only [hadv] at h
  split at h
  · split at h
    · next new n hnew =>
      obtain ⟨w, hput, h⟩ := bind_eq_ok.mp h
      cases h
      exact ⟨.inl rfl, hdir.putOther (fresh_took (getFreeVnode_free hnew)) hput⟩
    · exact hback h
    · exact hback h
  · exact hback h

lemma newNode_took {x : (Option VnodeNr × Int) × Files}
    (h : newNode who dir last made s = .ok x) : NewTook s x := by
  obtain ⟨⟨y, t⟩, hdir, hin⟩ := bind_eq_ok.mp h
  rcases lastDir_cases hdir with ⟨r, rfl, rfl⟩ | ⟨dirp, z, rfl, rfl, hz⟩
  · cases hin
    exact Settled.refl _
  · exact newIn_took (took_setVnode hz) hin

/-! ## Open -/

def FifoShares (vp : VnodeNr) (rBit : Bool) (req : OpenReq) (s : Files) : Prop :=
  req.forbidden = 0 ∧ (s.vnode vp).node.fmode = .namedPipe ∧ (mapFifo vp req s).1 ≠ 0 ∧
    (mapFifo vp req s).1 ≠ -enxio ∧
    findFilp vp rBit s ≠ none

inductive OpenOutcome (who : Proc) (fd : Fd) (f : FilpNr) (shares : Prop) (c : Files) : Int × Files → Prop
  | done (t : Files) (hno : ¬ shares) : OpenOutcome who fd f shares c (0, t)
  | plain {r : Int} {t : Files} (hno : ¬ shares) (h : Settled c t) : OpenOutcome who fd f shares c (r, t)
  | popen {t : Files} (hno : ¬ shares) (hfd : (t.proc who).fpFilp fd ≠ none)
      (hb : (t.proc who).blockedOn = some (.popen fd)) :
      OpenOutcome who fd f shares c (suspended, t)
  | dopen (hno : ¬ shares) : OpenOutcome who fd f shares c (suspended,
      c.setProc who { c.proc who with blockedOn := some (.dopen fd) })
  | shared {r : Int} {t : Files} (hyes : shares) (hr : r ≠ 0) (hb : (t.proc who).blockedOn =
      (c.proc who).blockedOn)
      (hg : ∃ g, g ≠ f ∧ (t.filp g).filpCount = (c.filp g).filpCount + 1) : OpenOutcome who fd f
        shares c (r, t)

lemma mapFifo_fst (hv : t.vnode = s.vnode) : (mapFifo vp req t).1 = (mapFifo vp req s).1 := by
  unfold mapFifo
  simp only [Files.setVnode]
  split_ifs <;> simp_all

lemma findFilp_congr (h : t.filp = s.filp) : findFilp vp b t = findFilp vp b s := by
  unfold findFilp
  rw [h]

lemma findFilp_claim (hf : (s.filp f).filpCount = 0) (who : Proc) (fd : Fd) (vp : VnodeNr)
    (rBit wBit b : Bool) :
    findFilp vp b ((claim who fd f vp rBit wBit s).setCount f 0) = findFilp vp b s := by
  unfold findFilp
  congr 1
  funext g
  by_cases hg : g = f
  · simp [Files.setCount, setFilp_at, hg, hf]
  · simp [Files.setCount, claim, setFilp_at, hg]

lemma mapFifo_settled (vp : VnodeNr) (req : OpenReq) (s : Files) : Settled s (mapFifo vp req s).2 := by
  have hmark : Settled s (s.setVnode vp { s.vnode vp with vMapped := true }) := by
    refine ⟨rfl, rfl, fun i => ?_⟩
    rw [setVnode_at]
    split_ifs with hi
    · rw [hi]
    · rfl
  unfold mapFifo
  simp only
  split_ifs
  all_goals first
    | exact hmark
    | exact Settled.refl s

lemma shareFilp_cases (h : shareFilp who fd f vp rBit s = .ok t) (hf : (s.filp f).filpCount = 1) :
    (findFilp vp rBit (s.setCount f 0) = none ∧ t = s) ∨
      (findFilp vp rBit (s.setCount f 0) ≠ none ∧
        (∃ g, g ≠ f ∧ (t.filp g).filpCount = (s.filp g).filpCount + 1) ∧
        (t.proc who).fpFilp fd ≠ none ∧ (t.proc who).blockedOn = (s.proc who).blockedOn) := by
  unfold shareFilp at h
  simp only at h
  split at h
  · next g hfind =>
    obtain ⟨hproc, hfilp, -, -⟩ := putVnode_frame h
    have hgf := findFilp_ne hfind
    refine .inr ⟨by rw [hfind]; exact Option.some_ne_none g, ⟨g, hgf, ?_⟩, ?_, ?_⟩
    · rw [hfilp, Files.setCount, setFilp_at, if_pos rfl, Files.setCount, setFilp_at, if_neg hgf]
    · rw [hproc, Files.setCount, setFilp_proc, setFd_fpFilp]
      exact Option.some_ne_none g
    · rw [hproc, Files.setCount, setFilp_proc, Files.setFd, setProc_at, if_pos rfl]
      rfl
  · next hfind =>
    refine .inl ⟨hfind, ?_⟩
    cases h
    exact setCount_restore hf

lemma openFifo_outcome (hf : (s.filp f).filpCount = 0)
    (hforbidden : req.forbidden = 0) (hmode : (s.vnode vp).node.fmode = .namedPipe)
    (h : openFifo who fd f vp rBit wBit req (claim who fd f vp rBit wBit s) = .ok x) :
    OpenOutcome who fd f (FifoShares vp rBit req s) (claim who fd f vp rBit wBit s) x := by
  have hset := mapFifo_settled vp req (claim who fd f vp rBit wBit s)
  have hfst : (mapFifo vp req (claim who fd f vp rBit wBit s)).1 = (mapFifo vp req s).1 := mapFifo_fst rfl
  have hcount : ((claim who fd f vp rBit wBit s).filp f).filpCount = 1 := by
    rw [claim, setFilp_at, if_pos rfl]
  have hfd : ((claim who fd f vp rBit wBit s).proc who).fpFilp fd ≠ none := by
    rw [claim, setFilp_proc, setFd_fpFilp]
    exact Option.some_ne_none f
  have hfind := findFilp_claim hf who fd vp rBit wBit rBit
  rw [openFifo_eq] at h
  unfold readyFifo at h
  generalize claim who fd f vp rBit wBit s = c at hset hfst hcount hfd hfind h ⊢
  generalize mapFifo vp req c = m at hset hfst h
  have hcount' : (m.2.filp f).filpCount = 1 := by rw [hset.filp, hcount]
  have hfind' : findFilp vp rBit (m.2.setCount f 0) = findFilp vp rBit s := by
    rw [← hfind]
    exact findFilp_congr (by rw [Files.setCount, Files.setCount, Files.setFilp, Files.setFilp, hset.filp])
  by_cases h0 : m.1 = 0
  · have hno : ¬ FifoShares vp rBit req s := fun hshares => hshares.2.2.1 (hfst.symm.trans h0)
    simp only [if_pos h0] at h
    rcases pipeOpen_cases who fd vp rBit wBit req.nonblock m.2 with heq | heq | heq
    · simp only [heq] at h
      cases h
      exact .plain hno hset
    · simp only [heq] at h
      obtain ⟨t, -, h⟩ := bind_eq_ok.mp h
      cases h
      exact .done t hno
    simp only [heq] at h
    rw [if_pos (by decide)] at h
    obtain ⟨t, ht, h⟩ := bind_eq_ok.mp h
    cases h
    rcases shareFilp_cases ht hcount' with ⟨-, rfl⟩ | ⟨-, -, hshared, hblocked⟩
    · refine .popen hno ?_ ?_
      · rw [setProc_at, if_pos rfl, hset.proc]
        exact hfd
      · rw [setProc_at, if_pos rfl]
    · refine .popen hno hshared (hblocked.trans ?_)
      rw [setProc_at, if_pos rfl]
  · simp only [if_neg h0] at h
    by_cases hr : m.1 ≠ -enxio
    · rw [if_pos hr] at h
      obtain ⟨t, ht, h⟩ := bind_eq_ok.mp h
      cases h
      rcases shareFilp_cases ht hcount' with ⟨hnone, rfl⟩ | ⟨hsome, ⟨g, hg, hplus⟩, -, hblocked⟩
      · exact .plain (fun hshares => hshares.2.2.2.2 (hfind'.symm.trans hnone)) hset
      refine .shared ⟨hforbidden, hmode, hfst ▸ h0, hfst ▸ hr, hfind' ▸ hsome⟩ h0 ?_ ⟨g, hg, ?_⟩
      · rw [hblocked, hset.proc]
      · rw [hplus, hset.filp]
    · rw [if_neg hr] at h
      cases h
      exact .plain (fun hshares => hr (hfst ▸ hshares.2.2.2.1)) hset

lemma openNode_outcome (hf : (s.filp f).filpCount = 0)
    (h : openNode who fd f vp rBit wBit req (claim who fd f vp rBit wBit s) = .ok x) :
    OpenOutcome who fd f (FifoShares vp rBit req s) (claim who fd f vp rBit wBit s) x := by
  have hsame : ((claim who fd f vp rBit wBit s).vnode vp).node.fmode = (s.vnode vp).node.fmode := rfl
  unfold openNode at h
  by_cases hforbidden : req.forbidden ≠ 0
  · rw [if_pos hforbidden] at h
    cases h
    exact .plain (fun hshares => hforbidden hshares.1) (Settled.refl _)
  rw [if_neg hforbidden, hsame] at h
  have hplain : ∀ {r : Int}, (s.vnode vp).node.fmode ≠ .namedPipe →
      OpenOutcome who fd f (FifoShares vp rBit req s) (claim who fd f vp rBit wBit s)
        (r, claim who fd f vp rBit wBit s) :=
    fun hmode => .plain (fun hshares => hmode hshares.2.1) (Settled.refl _)
  cases hmode : (s.vnode vp).node.fmode with
  | regular | directory | blockSpecial | symlink =>
    simp only [hmode] at h
    exact Except.ok.inj h ▸ hplain (by simp [hmode])
  | charSpecial =>
    have hno : ¬ FifoShares vp rBit req s := fun hshares => by simp [hshares.2.1] at hmode
    simp only [hmode] at h
    split at h
    · exact Except.ok.inj h ▸ hplain (by simp [hmode])
    · exact Except.ok.inj h ▸ .dopen hno
    · obtain ⟨t, -, h⟩ := bind_eq_ok.mp h
      exact Except.ok.inj h ▸ .done t hno
  | namedPipe =>
    simp only [hmode] at h
    exact openFifo_outcome hf (not_not.mp hforbidden) hmode h

structure Claimable (s : Files) (who : Proc) (fd : Fd) (f : FilpNr) : Prop where
  fpFilp : (s.proc who).fpFilp fd = none
  fpFilpInuse : (s.proc who).fpFilpInuse fd = false
  filpCount : (s.filp f).filpCount = 0
  blockedOn : (s.proc who).blockedOn = none

section
variable (hin : Took s₀ s vp) (hc : Claimable s₀ who fd f)
include hin hc

lemma unclaim_unchanged
    (ht : Settled (claim who fd f vp rBit wBit s) t) (h : unclaim who fd f vp t = .ok u) :
    Unchanged who s₀ u := by
  obtain ⟨w, hput, h⟩ := bind_eq_ok.mp h
  cases h
  obtain ⟨hproc, hfilp, -, -⟩ := putVnode_frame hput
  have hrow : w.proc who = { s₀.proc who with
      fpFilp := update (update (s₀.proc who).fpFilp fd (some f)) fd none
      fpFilpInuse := update (update (s₀.proc who).fpFilpInuse fd true) fd false } := by
    rw [hproc, Files.setCount, setFilp_proc, Files.setFd, setProc_at, if_pos rfl, ht.proc, claim,
      setFilp_proc, Files.setFd, setProc_at,
      if_pos rfl, hin.proc]
  refine ⟨?_, ?_, fun g => ?_, fun i => ?_⟩
  · rw [setFilp_proc, hrow]
    simp only [update_idem]
    exact update_eq_self_iff.mpr hc.fpFilp.symm
  · rw [setFilp_proc, hrow]
    simp only [update_idem]
    exact update_eq_self_iff.mpr hc.fpFilpInuse.symm
  · rw [setFilp_at, hfilp, Files.setCount, setFilp_at, if_pos rfl]
    split_ifs with hg
    · rw [hg]
      exact hc.filpCount.symm
    · rw [setFilp_at, if_neg hg, setFd_filp, ht.filp, claim, setFilp_at, if_neg hg, setFd_filp, hin.filp]
  · have hi := putVnode_refs hput i
    have hclaim : (t.vnode i).vRefCount = (s.vnode i).vRefCount := ht.refs i
    have hsame : (((t.setFd who fd none false).setCount f 0).vnode i).vRefCount = (t.vnode i).vRefCount := rfl
    rw [hsame, hclaim, hin.refs i] at hi
    show (w.vnode i).vRefCount = _
    omega

inductive OpenEnd (who : Proc) (shares : Prop) (s : Files) : Int × Files → Prop
  | done {r : Int} {t : Files} (hr : 0 ≤ r) : OpenEnd who shares s (r, t)
  | clean {r : Int} {t : Files} (hno : ¬ shares) (h : Unchanged who s t) (hb : r = suspended →
      (t.proc who).blockedOn = none) :
      OpenEnd who shares s (r, t)
  | popen {t : Files} {fd : Fd} (hno : ¬ shares) (hb : (t.proc who).blockedOn = some (.popen fd))
      (hfd : (t.proc who).fpFilp ≠ (s.proc who).fpFilp) : OpenEnd who shares s (suspended, t)
  | dopen {t : Files} {fd : Fd} (hno : ¬ shares) (hb : (t.proc who).blockedOn = some (.dopen fd))
      (h : ∀ returned x, reviveDopen who fd returned t = .ok x → x.1 < 0 →
        Unchanged who s x.2) : OpenEnd who shares s (suspended, t)
  | waits {t : Files} (hb : (t.proc who).blockedOn = none) : OpenEnd who shares s (suspended, t)
  | shared {r : Int} {t : Files} (hyes : shares) (hr : r ≠ suspended) (hg : ∃ g,
      (t.filp g).filpCount ≠ (s.filp g).filpCount) :
      OpenEnd who shares s (r, t)

lemma claim_blockedOn : ((claim who fd f vp rBit wBit s).proc who).blockedOn = none := by
  rw [claim, setFilp_proc, Files.setFd, setProc_at, if_pos rfl, hin.proc]
  exact hc.blockedOn

lemma dopen_revived {returned : Int}
    (h : reviveDopen who fd returned ((claim who fd f vp rBit wBit s).setProc who
      { (claim who fd f vp rBit wBit s).proc who with blockedOn := some (.dopen fd) }) = .ok x)
        (hneg : x.1 < 0) : Unchanged who s₀ x.2 := by
  have hblocked : ((claim who fd f vp rBit wBit s).proc who).blockedOn = none := claim_blockedOn hin hc
  have hfd : ((claim who fd f vp rBit wBit s).proc who).fpFilp fd = some f := by
    rw [claim, setFilp_proc, setFd_fpFilp]
  have hcount : ((claim who fd f vp rBit wBit s).filp f).filpCount = 1 := by
    rw [claim, setFilp_at, if_pos rfl]
  have hvno : ((claim who fd f vp rBit wBit s).filp f).filpVno = some vp := by
    rw [claim, setFilp_at, if_pos rfl]
  have hundo : ∀ u, unclaim who fd f vp (claim who fd f vp rBit wBit s) = .ok u →
    Unchanged who s₀ u := fun u hu =>
    unclaim_unchanged hin hc (Settled.refl _) hu
  generalize claim who fd f vp rBit wBit s = c at h hblocked hfd hcount hvno hundo
  have hback : (c.setProc who { c.proc who with blockedOn := some (.dopen fd) }).setProc who
      { (c.setProc who { c.proc who with blockedOn := some (.dopen fd) }).proc who with
        blockedOn := none } = c := by
    rw [setProc_at, if_pos rfl, Files.setProc, Files.setProc]
    simp only [update_idem]
    rw [show ({ c.proc who with blockedOn := none } : Fproc) = c.proc who by rw [← hblocked], update_eq_self]
  unfold reviveDopen at h
  simp only [hback] at h
  split_ifs at h with hle
  · cases h
    exact absurd hneg (not_lt.mpr (Int.natCast_nonneg _))
  simp only [hfd, hcount, hvno] at h
  obtain ⟨u, hu, h⟩ := bind_eq_ok.mp h
  cases h
  exact hundo u hu

lemma openVnode_end {exist : Bool}
    (h : openVnode who fd f vp rBit wBit req exist r s = .ok x) :
    OpenEnd who (exist = true ∧ FifoShares vp rBit req s) s₀ x := by
  have hf : (s.filp f).filpCount = 0 := by rw [hin.filp, hc.filpCount]
  have hblocked : ((claim who fd f vp rBit wBit s).proc who).blockedOn = none := claim_blockedOn hin hc
  obtain ⟨y, hy, h⟩ := bind_eq_ok.mp h
  have hout : OpenOutcome who fd f (exist = true ∧
    FifoShares vp rBit req s) (claim who fd f vp rBit wBit s) y := by
    cases exist with
    | false =>
      cases hy
      exact .plain (by simp) (Settled.refl _)
    | true =>
      have hnode := openNode_outcome hf hy
      simpa only [true_and] using hnode
  cases hout with
  | done t hno =>
    cases h
    exact .done (Int.natCast_nonneg _)
  | plain hno hset =>
    rename_i r' t
    split at h
    · cases h
      exact .done (Int.natCast_nonneg _)
    split_ifs at h with hsus
    · cases h
      have hsus : r' = suspended := hsus
      rw [hsus]
      exact .waits (by rw [hset.proc, hblocked])
    · obtain ⟨u, hu, h⟩ := bind_eq_ok.mp h
      cases h
      exact .clean hno (unclaim_unchanged hin hc hset hu) fun heq => absurd heq hsus
  | popen hno hfd hb =>
    cases h
    refine .popen hno hb fun heq => hfd ?_
    rw [heq]
    exact hc.fpFilp
  | dopen hno =>
    cases h
    have hb : (((claim who fd f vp rBit wBit s).setProc who
        { (claim who fd f vp rBit wBit s).proc who with blockedOn := some (.dopen fd) }).proc
          who).blockedOn = some (.dopen fd) := by
      rw [setProc_at, if_pos rfl]
    exact .dopen hno hb fun returned x hx hneg => dopen_revived hin hc hx hneg
  | shared hyes hr hb hg =>
    rename_i r' t
    obtain ⟨g, hgf, hplus⟩ := hg
    have hclaimed : ((claim who fd f vp rBit wBit s).filp g).filpCount = (s₀.filp g).filpCount := by
      rw [claim, setFilp_at, if_neg hgf, setFd_filp, hin.filp]
    rw [if_neg hr] at h
    split_ifs at h with hsus
    · cases h
      have hsus : r' = suspended := hsus
      rw [hsus]
      exact .waits (hb.trans hblocked)
    obtain ⟨u, hu, h⟩ := bind_eq_ok.mp h
    cases h
    obtain ⟨w, hput, hu⟩ := bind_eq_ok.mp hu
    cases hu
    refine .shared hyes hsus ⟨g, ?_⟩
    rw [setFilp_at, if_neg hgf, (putVnode_frame hput).2.1, Files.setCount, setFilp_at, if_neg hgf,
      setFd_filp, hplus]
    omega

end

def OpenShares (who : Proc) (req : OpenReq) (s : Files) : Prop :=
  ∃ rBit wBit fd f vp t, ¬ req.name < 0 ∧ req.bits = some (rBit, wBit) ∧
    getFd who 0 s = .ok (fd, f) ∧ FifoShares vp rBit req t ∧
    (req.creat = false ∧ advance req.last s = (.ok vp, t) ∨
      req.creat = true ∧ req.excl = false ∧
        newNode who req.dir req.last req.made s = .ok ((some vp, -eexist), t))

lemma OpenEnd.congr {a b : Prop} (h : OpenEnd who a s x) (hab : a ↔ b) : OpenEnd who b s x :=
  (propext hab : a = b) ▸ h

lemma openShares_none (h : req.name < 0 ∨ req.bits = none ∨ ∃ r, getFd who 0 s = .error r) :
    ¬ OpenShares who req s := by
  rintro ⟨rBit, wBit, fd, f, vp, t, hname, hbits, hget, -⟩
  rcases h with h | h | ⟨r, h⟩
  · exact hname h
  · nomatch hbits.symm.trans h
  · nomatch hget.symm.trans h

lemma openNew_end {y : (Option VnodeNr × Int) × Files}
    (hc : Claimable s₀ who fd f) (hnew : newNode who req.dir req.last req.made s₀ = .ok y)
    (h : openNew who fd f rBit wBit req y.1 y.2 = .ok x) :
    OpenEnd who (∃ vp, y.1.1 = some vp ∧ y.1.2 = -eexist ∧ req.excl = false ∧
      FifoShares vp rBit req y.2) s₀ x := by
  have htook := newNode_took hnew
  obtain ⟨⟨o, r⟩, t⟩ := y
  unfold openNew at h
  cases o with
  | none =>
    split at h
    · cases h
      refine .clean (fun ⟨vp, hvp, _⟩ => nomatch hvp) (Settled.unchanged htook who) fun _ => ?_
      rw [Settled.proc htook]
      exact hc.blockedOn
    · nomatch h
  | some vp =>
    obtain ⟨hr, htook⟩ := htook
    rw [if_neg (not_and_or.mpr (hr.imp not_not.mpr not_not.mpr))] at h
    refine (openVnode_end htook hc h).congr ⟨fun ⟨hexist, hshares⟩ => ?_,
      fun ⟨vp', hvp, hr', hexcl, hshares⟩ => ?_⟩
    · simp only [decide_eq_true_eq] at hexist
      exact ⟨vp, rfl, hr.resolve_left hexist.1, hexist.2, hshares⟩
    cases hvp
    refine ⟨?_, hshares⟩
    have hr' : r = -eexist := hr'
    simp only [decide_eq_true_eq]
    exact ⟨by rw [hr']; decide, hexcl⟩

lemma commonOpen_end (hb : (s.proc who).blockedOn = none) (h : commonOpen who req s = .ok x) :
    OpenEnd who (OpenShares who req s) s x := by
  have hself := (Settled.refl s).unchanged who
  unfold commonOpen at h
  split at h
  · next hname =>
    cases h
    exact .clean (openShares_none (Or.inl hname)) hself fun _ => hb
  next hname =>
  split at h
  · next hbits =>
    cases h
    exact .clean (openShares_none (Or.inr (Or.inl hbits))) hself fun _ => hb
  next rBit wBit hbits =>
  split at h
  · next r hget =>
    cases h
    exact .clean (openShares_none (Or.inr (Or.inr ⟨r, hget⟩))) hself fun _ => hb
  next fd f hget =>
  obtain ⟨hfd, hf, hinuse⟩ := getFd_free hget
  have hc : Claimable s who fd f := ⟨hfd, hinuse, hf, hb⟩
  split at h
  · next hcreat =>
    obtain ⟨y, hnew, h⟩ := bind_eq_ok.mp h
    refine (openNew_end hc hnew h).congr ⟨fun ⟨vp, hy, hr, hexcl, hshares⟩ => ?_, fun hshares => ?_⟩
    · obtain ⟨⟨o, r⟩, t⟩ := y
      obtain rfl : o = some vp := hy
      obtain rfl : r = -eexist := hr
      exact ⟨rBit, wBit, fd, f, vp, t, hname, hbits, hget, hshares, Or.inr ⟨hcreat, hexcl, hnew⟩⟩
    obtain ⟨rBit', wBit', -, -, vp, t, -, hbits', -, hfifo, hway⟩ := hshares
    obtain ⟨rfl, rfl⟩ := Prod.mk.inj (Option.some.inj (hbits.symm.trans hbits'))
    rcases hway with ⟨hno, -⟩ | ⟨-, hexcl, hnew'⟩
    · exact absurd (hcreat.symm.trans hno) (by decide)
    · obtain rfl := Except.ok.inj (hnew.symm.trans hnew')
      exact ⟨vp, rfl, rfl, hexcl, hfifo⟩
  · next hcreat =>
    have hcreat : req.creat = false := Bool.eq_false_iff.mpr hcreat
    have hiff : ∀ {y t}, advance req.last s = (y, t) → (OpenShares who req s ↔ ∃ vp, y = .ok vp ∧
      FifoShares vp rBit req t) := by
      intro y t hadv
      constructor
      · rintro ⟨rBit', wBit', -, -, vp, t', -, hbits', -, hfifo, hway⟩
        obtain ⟨rfl, rfl⟩ := Prod.mk.inj (Option.some.inj (hbits.symm.trans hbits'))
        rcases hway with ⟨-, hadv'⟩ | ⟨hno, -⟩
        · obtain ⟨rfl, rfl⟩ := Prod.mk.inj (hadv.symm.trans hadv')
          exact ⟨vp, rfl, hfifo⟩
        · exact absurd (hno.symm.trans hcreat) (by decide)
      · rintro ⟨vp, rfl, hfifo⟩
        exact ⟨rBit, wBit, fd, f, vp, t, hname, hbits, hget, hfifo, Or.inl ⟨hcreat, hadv⟩⟩
    rcases advance_took req.last s with ⟨r, hadv⟩ | ⟨vp, t, hadv, htook⟩
    all_goals simp only [hadv] at h
    · cases h
      refine .clean (fun hshares => ?_) hself fun _ => hb
      obtain ⟨vp, hvp, -⟩ := (hiff hadv).mp hshares
      exact nomatch hvp
    · refine (openVnode_end htook hc h).congr ⟨fun hshares => (hiff hadv).mpr ⟨vp, rfl, hshares.2⟩,
        fun hshares => ?_⟩
      obtain ⟨vp', hvp, hfifo⟩ := (hiff hadv).mp hshares
      cases hvp
      exact ⟨rfl, hfifo⟩

/-! ## Pipe -/

def PipeMade (who : Proc) (newnode : Except Int Node) (s : Files) : Prop :=
  ∃ vp fd f fd' f' n, s.getFreeVnode = some vp ∧ getFd who 0 s = .ok (fd, f) ∧
    getFd who 0 (pipeEnd who fd f true s) = .ok (fd', f') ∧
    newnode = .ok n

lemma Alike.unchanged (h : Alike s t)
    (hinuse : (t.proc who).fpFilpInuse = (s.proc who).fpFilpInuse) : Unchanged who s t :=
  ⟨funext fun fd => congrFun h.fds (who, fd), hinuse, fun f => congrFun h.counts f,
    fun v => congrFun h.refs v⟩

lemma pipeEnd_inuse (s : Files) (reading : Bool) :
    ((pipeEnd who fd f reading s).proc who).fpFilpInuse = update (s.proc who).fpFilpInuse fd true := by
  rw [pipeEnd, setFilp_proc, Files.setFd, setProc_at, if_pos rfl]

lemma dropEnd_inuse (s : Files) :
    ((dropEnd who fd f s).proc who).fpFilpInuse = update (s.proc who).fpFilpInuse fd false := by
  rw [dropEnd, Files.setCount, setFilp_proc, Files.setFd, setProc_at, if_pos rfl]

lemma scallPipe_end {newnode : Except Int Node} {copied : Bool} (h : scallPipe who newnode copied s = .ok x) :
    (PipeMade who newnode s ∧ x.1 = (if copied then 0 else -efault) ∧ ¬ Unchanged who s x.2) ∨
      (¬ PipeMade who newnode s ∧ Unchanged who s x.2) := by
  have hself := (Settled.refl s).unchanged who
  unfold scallPipe at h
  split at h
  · next hfree =>
    cases h
    refine .inr ⟨?_, hself⟩
    rintro ⟨_, _, _, _, _, _, hvp, _⟩
    cases hfree.symm.trans hvp
  next vp hfree =>
  split at h
  · next r hget =>
    cases h
    refine .inr ⟨?_, hself⟩
    rintro ⟨_, _, _, _, _, _, _, hfd, _⟩
    cases hget.symm.trans hfd
  next fd f hget =>
  obtain ⟨hfd, hf, hinuse⟩ := getFd_free hget
  simp only at h
  split at h
  · next r hget' =>
    cases h
    refine .inr ⟨?_, (dropEnd_alike hfd hf true).unchanged ?_⟩
    · rintro ⟨_, _, _, _, _, _, _, hsame, hmade, _⟩
      obtain ⟨rfl, rfl⟩ := ok_pair_inj (hget.symm.trans hsame)
      cases hget'.symm.trans hmade
    · rw [dropEnd_inuse, pipeEnd_inuse, update_idem]
      exact update_eq_self_iff.mpr hinuse.symm
  next fd' f' hget' =>
  obtain ⟨hne, hne', hfd', hf'⟩ := getFd_pipeEnd hget'
  cases newnode with
  | error r =>
    cases h
    refine .inr ⟨?_, (dropEnds_alike hfd hf hfd' hf').unchanged ?_⟩
    · rintro ⟨_, _, _, _, _, _, _, _, _, hn⟩
      cases hn
    have hinuse' : (s.proc who).fpFilpInuse fd' = false := by
      have hset := (getFd_free hget').2.2
      rw [pipeEnd_inuse, update_of_ne hne] at hset
      exact hset
    rw [dropEnd_inuse, dropEnd_inuse, pipeEnd_inuse, pipeEnd_inuse]
    exact update_undo _ hinuse hinuse'
  | ok n =>
    cases h
    refine .inl ⟨⟨vp, fd, f, fd', f', n, hfree, hget, hget', rfl⟩, rfl, fun hsame => ?_⟩
    have hnone := (congrFun hsame.fpFilp fd).trans hfd
    have hsome : ((claim who fd' f' vp false true
      (claim who fd f vp true false (dupVnode vp (s.setVnode vp ⟨n, true, 1, 1⟩)))).proc
        who).fpFilp fd = some f := by
      show (claim who fd' f' vp false true (claim who fd f vp true false
        (dupVnode vp (s.setVnode vp ⟨n, true, 1, 1⟩)))).fds (who, fd) = some f
      rw [claim, fds_setFilp, fds_setFd, update_of_ne fun heq => hne (Prod.mk.inj heq).2.symm,
        claim, fds_setFilp, fds_setFd,
        update_self]
    cases hnone.symm.trans hsome

/-! ## Stat and mount -/

lemma Took.not_unchanged (h : Took s t v) (who : Proc) : ¬ Unchanged who s t := by
  intro hsame
  have hv := h.refs v
  rw [hsame.vRefCount v, if_pos rfl] at hv
  omega

def StatHeld (flag : PathFlag) (req : StatReq) (s : Files) : Prop :=
  ¬ req.name < 0 ∧ (∃ vp t, advance (req.ans flag) s = (.ok vp, t)) ∧ req.stat = 0 ∧ req.buffer = false

lemma statWith_end {flag : PathFlag} {req : StatReq} (h : statWith flag req s = .ok x) (who : Proc) :
    Unchanged who s x.2 ↔ ¬ StatHeld flag req s := by
  have hself := (Settled.refl s).unchanged who
  unfold statWith at h
  split at h
  · next hname =>
    cases h
    exact iff_of_true hself fun hheld => hheld.1 hname
  next hname =>
  rcases advance_took (req.ans flag) s with ⟨r, hadv⟩ | ⟨vp, t, hadv, htook⟩
  all_goals simp only [hadv] at h
  · cases h
    exact iff_of_true hself fun ⟨_, ⟨vp, u, hvp⟩, _⟩ => nomatch (Prod.mk.inj (hadv.symm.trans hvp)).1
  rcases ite_eq_iff.mp h with ⟨hc, h⟩ | ⟨hc, h⟩
  · cases h
    exact iff_of_false (htook.not_unchanged who) fun hno => hno ⟨hname, ⟨vp, t, hadv⟩, hc⟩
  · exact iff_of_true ((htook.put_ok h).unchanged who) fun hheld => hc hheld.2.2

lemma setVmnt_settled (s : Files) (m : MntNr) (x : Vmnt) : Settled s (s.setVmnt m x) :=
    ⟨rfl, rfl, fun _ => rfl⟩

lemma nameToDev_settled {req : MountReq} {x : Except Int Nat × Files}
    (h : nameToDev req s = .ok x) : Settled s x.2 := by
  unfold nameToDev at h
  rcases advance_took req.special s with ⟨r, hadv⟩ | ⟨vp, t, hadv, htook⟩
  all_goals simp only [hadv] at h
  · cases h
    exact Settled.refl _
  · exact htook.put_ok h

variable {m : MntNr}

lemma remount_settled {req : MountReq} (h : remount m req s = .ok x) (hneg : x.1 < 0) : Settled s x.2 := by
  unfold remount at h
  split at h
  · exact Except.ok.inj h ▸ Settled.refl s
  split at h
  · nomatch h
  split at h
  · exact Except.ok.inj h ▸ Settled.refl s
  rcases advance_took req.point s with ⟨r, hadv⟩ | ⟨vp, t, hadv, htook⟩
  all_goals simp only [hadv] at h
  · cases h
    exact Settled.refl _
  simp only [remountOn] at h
  split at h
  · exact htook.put_ok h
  split at h
  · exact htook.put_ok h
  split at h
  · nomatch h
  split at h
  · exact htook.put_ok h
  · cases h
    exact absurd hneg (lt_irrefl (0 : Int))

variable {o : Option VnodeNr} {dev : Nat}

lemma mountRoot_settled {root : VnodeNr}
    (hin : ∀ vp, o = some vp → Took s₀ s vp) (hroot : (s.vnode root).vRefCount = 0)
    (h : mountRoot m o root dev n s = .ok x)
    (hneg : x.1 < 0) : Settled s₀ x.2 := by
  have hfresh : Took s ((s.setVnode root ⟨n, (s.vnode root).vMapped, 1, 1⟩).setVmnt m
    { s.vmnt m with mDev := some dev }) root :=
    ⟨rfl, rfl, (fresh_took hroot).refs⟩
  unfold mountRoot at h
  cases o with
  | none =>
    obtain ⟨t, -, h⟩ := bind_eq_ok.mp h
    cases h
    exact absurd hneg (lt_irrefl (0 : Int))
  | some vp =>
    rcases ite_eq_iff.mp h with ⟨-, h⟩ | ⟨-, h⟩
    · obtain ⟨t, ht, h⟩ := bind_eq_ok.mp h
      obtain ⟨u, hu, h⟩ := bind_eq_ok.mp h
      cases h
      exact (((hin vp rfl).putOther hfresh ht).put hu).trans (setVmnt_settled u m _)
    · cases h
      exact absurd hneg (lt_irrefl (0 : Int))

def MountHeld (req : MountReq) (s : Files) : Prop :=
  req.superUser = true ∧ 0 < req.fsE ∧ req.loggedIn = true ∧ ¬ req.name1 < 0 ∧
    ∃ dev t, nameToDev req s = .ok (.ok dev, t) ∧ findMounted dev t = none ∧ ¬ req.name2 < 0 ∧
      ¬ (req.isroot = true ∧ req.allowNewroot = true) ∧
      ∃ vp u, advance req.point t = (.ok vp, u) ∧ req.mountpoint = 0 ∧
        (u.getFreeVnode = none ∨ req.driver = false)

lemma mountOn_end {req : MountReq} (hin : ∀ vp, o = some vp → Took s₀ s vp)
    (hnone : o = none → Settled s₀ s) (h : mountOn o dev req s = .ok x) (hneg : x.1 < 0) (who : Proc) :
    Unchanged who s₀ x.2 ↔ ¬ (o.isSome = true ∧ (s.getFreeVnode = none ∨ req.driver = false)) := by
  have hgiveUp : (s.getFreeVnode = none ∨ req.driver = false) →
      (Unchanged who s₀ s ↔ ¬ (o.isSome = true ∧ (s.getFreeVnode = none ∨ req.driver = false))) := by
    intro hc
    cases o with
    | none => exact iff_of_true ((hnone rfl).unchanged who) fun hand => (nomatch hand.1)
    | some vp => exact iff_of_false ((hin vp rfl).not_unchanged who) fun hno => hno ⟨rfl, hc⟩
  unfold mountOn at h
  split at h
  · next hfree =>
    cases h
    exact hgiveUp (.inl hfree)
  next root hfree =>
  split at h
  · next hdriver =>
    cases h
    exact hgiveUp (Or.inr hdriver)
  next hdriver =>
  have hheld : ¬ (o.isSome = true ∧ (s.getFreeVnode = none ∨ req.driver = false)) := by
    rintro ⟨-, hnone | hno⟩
    · nomatch hfree.symm.trans hnone
    · exact hdriver hno
  split at h
  · exact nomatch h
  refine iff_of_true (Settled.unchanged ?_ who) hheld
  split at h
  · cases o with
    | none =>
      cases h
      exact hnone rfl
    | some vp => exact (hin vp rfl).put_ok h
  · split at h
    · nomatch h
    · exact mountRoot_settled hin (getFreeVnode_free hfree) h hneg

lemma mountFs_end {req : MountReq} (h : mountFs req s = .ok x) (hneg : x.1 < 0)
    (hsus : x.1 ≠ suspended) (who : Proc) :
    Unchanged who s x.2 ↔ ¬ MountHeld req s := by
  have hself := (Settled.refl s).unchanged who
  unfold mountFs at h
  split at h
  · next hc =>
      exact Except.ok.inj h ▸ iff_of_true hself fun hheld =>
        absurd (hheld.1.symm.trans hc) (by decide)
  next hsuper =>
  split at h
  · next hc => exact Except.ok.inj h ▸ iff_of_true hself fun hheld => absurd hheld.2.1 (not_lt.mpr hc)
  next hfs =>
  split at h
  · next hc =>
      exact Except.ok.inj h ▸ iff_of_true hself fun hheld =>
        absurd (hheld.2.2.1.symm.trans hc) (by decide)
  next hlogged =>
  split at h
  · next hc => exact Except.ok.inj h ▸ iff_of_true hself fun hheld => hheld.2.2.2.1 hc
  next hname =>
  obtain ⟨⟨y, t⟩, hdev, h⟩ := bind_eq_ok.mp h
  have hset : Settled s t := nameToDev_settled hdev
  -- every way out but the last one is without the mount point in hand
  have hclean : Settled s x.2 → (∀ dev vp u, y = .ok dev → findMounted dev t = none → ¬ req.name2 < 0 →
      ¬ (req.isroot = true ∧ req.allowNewroot = true) → advance req.point t = (.ok vp, u) →
        req.mountpoint = 0 →
      (u.getFreeVnode = none ∨ req.driver = false) → False) → (Unchanged who s x.2 ↔ ¬ MountHeld req s) := by
    intro hx hno
    refine iff_of_true (hx.unchanged who) ?_
    rintro ⟨-, -, -, -, dev, t', hdev', hfound, hname2, hroot, vp, u, hadv, hpoint, hlast⟩
    obtain ⟨rfl, rfl⟩ := ok_pair_inj (hdev.symm.trans hdev')
    exact hno dev vp u rfl hfound hname2 hroot hadv hpoint hlast
  unfold mountDev at h
  cases y with
  | error r =>
    cases h
    exact hclean hset nofun
  | ok dev =>
    simp only at h
    split at h
    · next m hfound =>
      refine hclean (hset.trans (remount_settled h hneg)) fun dev' vp u hy hnone => ?_
      cases hy
      exact nomatch hfound.symm.trans hnone
    next hfound =>
    simp only [mountNew] at h
    split at h
    · next hc =>
      cases h
      exact hclean hset fun _ _ _ _ _ hno => absurd hc hno
    next hname2 =>
    split at h
    · next hroot =>
      have hend := mountOn_end (o := none) nofun (fun _ => hset) h hneg who
      refine iff_of_true (hend.mpr fun hand => (nomatch hand.1)) ?_
      rintro ⟨-, -, -, -, dev', t', -, -, -, hnot, -⟩
      exact hnot hroot
    · next hroot =>
      rcases advance_took req.point t with ⟨r, hadv⟩ | ⟨vp, u, hadv, htook⟩
      all_goals simp only [hadv] at h
      · cases h
        exact hclean hset fun _ _ _ _ _ _ _ hok => nomatch (Prod.mk.inj (hadv.symm.trans hok)).1
      · have htook := hset.took htook
        rcases ite_eq_iff.mp h with ⟨hc, h⟩ | ⟨hpoint, h⟩
        · exact hclean (htook.put_ok h) fun _ _ _ _ _ _ _ _ hno => absurd hno hc
        have hend := mountOn_end (o := some vp) (fun vp' hvp => Option.some.inj hvp ▸ htook) nofun h hneg who
        refine hend.trans (not_congr ⟨fun ⟨_, hlast⟩ => ?_, fun hheld => ⟨rfl, ?_⟩⟩)
        · exact ⟨Bool.of_not_eq_false hsuper, not_le.mp hfs, Bool.of_not_eq_false hlogged, hname,
            dev, t, hdev, hfound, hname2, hroot, vp, u, hadv, not_not.mp hpoint, hlast⟩
        obtain ⟨-, -, -, -, dev', t', hdev', -, -, -, vp', u', hadv', -, hlast⟩ := hheld
        obtain ⟨hdev, rfl⟩ := ok_pair_inj (hdev.symm.trans hdev')
        obtain ⟨-, rfl⟩ := Prod.mk.inj (hadv.symm.trans hadv')
        exact hlast

/-! ## Every call -/

def Interrupted (who : Proc) (req : OpenReq) (later : Later) (s : Files) : Prop :=
  later = .signal ∧ ∃ t fd, commonOpen who req s = .ok (suspended, t) ∧
    (t.proc who).blockedOn = some (.popen fd)

def Leaks (who : Proc) (s : Files) : FileCall → Prop
  | .openFile req later => Interrupted who req later s ∨ OpenShares who req s
  | .pipe newnode _ => PipeMade who newnode s
  | .stat req => StatHeld .noflags req s
  | .lstat req => StatHeld .retSymlink req s
  | .mount req => MountHeld req s

lemma openFile_end {later : Later} (hb : (s.proc who).blockedOn = none)
    (h : runCall who s (.openFile req later) = .ok x) (hneg : x.1 < 0) (hsus : x.1 ≠ suspended) :
    Unchanged who s x.2 ↔ ¬ Leaks who s (.openFile req later) := by
  obtain ⟨y, hopen, h⟩ := bind_eq_ok.mp h
  have hend := commonOpen_end hb hopen
  have hclean : ¬ OpenShares who req s → (∀ fd, (y.2.proc who).blockedOn ≠ some (.popen fd)) ∨
    later ≠ .signal ∨ y.1 ≠ suspended →
      ¬ Leaks who s (.openFile req later) := by
    rintro hno hquiet (⟨hsignal, t, fd, hs, hb⟩ | hshares)
    · obtain rfl := Except.ok.inj (hopen.symm.trans hs)
      rcases hquiet with hquiet | hquiet | hquiet
      · exact hquiet fd hb
      · exact hquiet hsignal
      · exact hquiet rfl
    · exact hno hshares
  by_cases hy : y.1 = suspended
  · rw [if_pos hy] at h
    -- a suspended call that is not finished is still suspended
    have hwait : finishOpen who later y ≠ .ok y := by
      intro heq
      obtain rfl := Except.ok.inj (heq.symm.trans h)
      exact hsus hy
    cases hend with
    | done hr => exact absurd hy (by rintro rfl; exact absurd hr (by decide))
    | clean hno hsame hb =>
      refine absurd ?_ hwait
      have hb := hb hy
      cases later <;> simp only [finishOpen, hb]
    | popen hno hb hfd =>
      cases later with
      | waits => exact absurd rfl hwait
      | reply returned =>
        refine absurd ?_ hwait
        simp only [finishOpen, hb]
      | signal =>
        simp only [finishOpen, hb] at h
        cases h
        refine iff_of_false (fun hsame => hfd ?_) fun hno => hno (.inl ⟨rfl, _, _, hopen, hb⟩)
        have hrow := hsame.fpFilp
        simp only [unpauseOpen, hb, setProc_at] at hrow
        exact hrow
    | dopen hno hb hrev =>
      cases later with
      | waits => exact absurd rfl hwait
      | signal =>
        refine absurd ?_ hwait
        simp only [finishOpen, hb]
      | reply returned =>
        simp only [finishOpen, hb] at h
        refine iff_of_true (hrev returned x h hneg) (hclean hno (.inl fun fd heq => ?_))
        nomatch hb.symm.trans heq
    | waits hb =>
      refine absurd ?_ hwait
      cases later <;> simp only [finishOpen, hb]
    | shared hyes hr hg => exact absurd hy hr
  · rw [if_neg hy] at h
    cases h
    cases hend with
    | done hr => exact absurd hneg (not_lt.mpr hr)
    | clean hno hsame hb => exact iff_of_true hsame (hclean hno (.inr (.inr hy)))
    | popen hno hb hfd | dopen hno hb hrev | waits hb => exact absurd rfl hy
    | shared hyes hr hg =>
      obtain ⟨g, hg⟩ := hg
      exact iff_of_false (fun hsame => hg (hsame.filpCount g)) fun hno => hno (.inr hyes)

lemma runCall_any (who : Proc) (s : Files) (call : FileCall) (k : Int × Files → Bool)
    (h : (runCall who s call).toOption.any k = true) :
    ∃ x, runCall who s call = .ok x ∧ k x = true := by
  cases hx : runCall who s call with
  | error e =>
    rw [hx] at h
    nomatch h
  | ok x =>
    rw [hx] at h
    exact ⟨x, rfl, h⟩

def loner : Proc := ⟨0, nrProcs_pos⟩

def lonerStat (buffer copied : Bool) : StatReq := ⟨0, fun _ => .ok ⟨1, 7, .regular⟩, 0, buffer, copied⟩

def driverless : MountReq where
  superUser := true
  fsE := 5
  loggedIn := true
  name1 := 0
  special := .ok ⟨1, 7, .blockSpecial⟩
  sdev := 3
  rootDev := none
  name2 := 0
  isroot := false
  allowNewroot := false
  point := .ok ⟨1, 8, .directory⟩
  mountpoint := 0
  driver := false
  label := true
  readsuper := .error (-einval)

lemma leaves_something {call : FileCall} {code : Int}
    (h : (runCall loner startFiles call).toOption.any (fun x => x.1 = code ∧
      (((x.2.proc loner).fpFilp ⟨0, by decide⟩).isSome ∨ (x.2.vnode ⟨0, by decide⟩).vRefCount = 1)) = true) :
    ∃ x, runCall loner startFiles call = .ok x ∧ x.1 = code ∧ ¬ Unchanged loner startFiles x.2 := by
  obtain ⟨x, hx, hk⟩ := runCall_any loner startFiles call _ h
  obtain ⟨hcode, hleft⟩ := of_decide_eq_true hk
  refine ⟨x, hx, hcode, fun hsame => ?_⟩
  rw [hsame.fpFilp, hsame.vRefCount] at hleft
  revert hleft
  decide

/-- The descriptors of a pipe cannot be copied to the caller, there is no place for the result of a
stat, a signal interrupts the open of a FIFO, a device to be mounted has no driver: each time
something is left that was not there before. -/
theorem failed_calls_leave_residue :
    (∃ x, runCall loner startFiles (.pipe (.ok ⟨2, 9, .namedPipe⟩) false) = .ok x ∧ x.1 = -efault ∧
      ¬ Unchanged loner startFiles x.2) ∧
    (∃ x, runCall loner startFiles (.stat (lonerStat false true)) = .ok x ∧ x.1 = -efault ∧
      ¬ Unchanged loner startFiles x.2) ∧
    (∃ x, runCall loner startFiles (.openFile { openFifoReq with nonblock := false } .signal) =
      .ok x ∧ x.1 = -eintr ∧
      ¬ Unchanged loner startFiles x.2) ∧
    ∃ x, runCall loner startFiles (.mount driverless) = .ok x ∧ x.1 = -einval ∧
      ¬ Unchanged loner startFiles x.2 := by
  exact ⟨leaves_something (by decide +kernel), leaves_something (by decide +kernel),
    leaves_something (by decide +kernel),
    leaves_something (by decide +kernel)⟩

/-- A call that fails leaves the tables as they were, but where a handler leaks. -/
theorem failed_call_residue {call : FileCall} {x : Int × Files} (hready : (s.proc who).ready)
    (h : runCall who s call = .ok x)
    (hneg : x.1 < 0) (hsus : x.1 ≠ suspended) : Unchanged who s x.2 ↔ ¬ Leaks who s call := by
  cases call with
  | openFile req later => exact openFile_end (Option.isNone_iff_eq_none.mp hready.2) h hneg hsus
  | pipe newnode copied =>
    rw [runCall] at h
    rcases scallPipe_end h with ⟨hmade, -, hne⟩ | ⟨hnot, hsame⟩
    · exact iff_of_false hne fun hno => hno hmade
    · exact iff_of_true hsame hnot
  | stat req =>
    rw [runCall] at h
    exact statWith_end h who
  | lstat req =>
    rw [runCall] at h
    exact statWith_end h who
  | mount req => exact mountFs_end h hneg hsus who

/-- A stat whose result cannot be copied gives its vnode back. -/
theorem failed_call_residue_copy :
    ∃ x, runCall loner startFiles (.stat (lonerStat true false)) = .ok x ∧ x.1 = -efault ∧
    Unchanged loner startFiles x.2 := by
  obtain ⟨x, hx, hk⟩ := runCall_any loner startFiles (.stat (lonerStat true false))
    (k := fun x => x.1 = -efault)
    (by decide +kernel)
  simp only [decide_eq_true_eq] at hk
  refine ⟨x, hx, hk, (failed_call_residue (by decide) hx ?_ ?_).mpr fun hheld => ?_⟩
  · rw [hk]
    decide
  · rw [hk]
    decide
  · nomatch hheld.2.2.2

end Nucleos.Vfs
