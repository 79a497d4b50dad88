import Nucleos.Vfs.FileCounts

/-!
# Counts along runs of calls

The calls beside open, and then any run of them. Where a handler gives a reference back before it
clears the place it came from, the proofs clear the place first: the two steps touch different
tables.
-/

namespace Nucleos.Vfs

open Function Run RefCount

variable {s t u : Files} {who p q : Proc} {fd : Fd} {f g : FilpNr} {v vp : VnodeNr}
    {l : List VnodeNr} {d : DirSlot} {parent child : Proc} {fd' : Fd} {f' : FilpNr}

structure Alike (s t : Files) : Prop where
  counts : t.filpCounts = s.filpCounts
  fds : t.fds = s.fds
  refs : t.refCounts = s.refCounts
  target : t.target = s.target
  live : ∀ p, (t.proc p).live = (s.proc p).live

lemma Counted.alike (hs : Counted s l) (h : Alike s t) : Counted t l := by
  refine ⟨?_, ?_, fun p hp => ?_⟩
  · rw [h.counts, h.fds]
    exact hs.filps
  · rw [h.refs, h.target]
    exact hs.vnodes
  obtain ⟨hnone, hdir⟩ := hs.gone p ((h.live p).symm.trans hp)
  refine ⟨fun fd => ?_, fun d => ?_⟩
  · exact (congrFun h.fds (p, fd)).trans (hnone fd)
  · exact (congrFun h.target (.inl (p, d))).trans (hdir d)

lemma Counted.live_of_fd (hs : Counted s l) (hfd : (s.proc p).fpFilp fd = some f) :
    (s.proc p).live = true := by
  cases hlive : (s.proc p).live with
  | true => rfl
  | false => nomatch hfd.symm.trans ((hs.gone p hlive).1 fd)

lemma Counted.live_of_dir (hs : Counted s l) (hdir : (s.proc p).dir d = some v) : (s.proc p).live = true := by
  cases hlive : (s.proc p).live with
  | true => rfl
  | false => nomatch hdir.symm.trans ((hs.gone p hlive).2 d)

/-! ## Descriptors -/

lemma Counted.filp_pos (hs : Counted s l) (hfd : (s.proc p).fpFilp fd = some f) : (s.filp f).filpCount ≠ 0 :=
  Nat.pos_iff_ne_zero.mp (hs.filps.pos_of_target (a := (p, fd)) hfd)

lemma target_setCount {n : Nat} (hf : (s.filp f).filpCount ≠ 0) (hn : n ≠ 0) :
    (s.setCount f n).target = s.target := by
  have hsame : ({ s.filp f with filpCount := n } : Filp).target = s.target (.inr (.inl f)) := by
    rw [Filp.target_pos hn, target_filp, Filp.target_pos hf]
  rw [Files.setCount, target_setFilp, hsame]
  exact update_eq_self _ s.target

lemma Counted.share (hs : Counted s l) (hlive : (s.proc who).live = true)
    (hfd : (s.proc who).fpFilp fd = none)
    (hf : (s.filp f).filpCount ≠ 0) (inuse : Bool) :
    Counted ((s.setFd who fd (some f) inuse).setCount f ((s.filp f).filpCount + 1)) l := by
  refine ⟨?_, ?_, gone_setFd hs hlive _ _⟩
  · have hfill := hs.filps.fill (a := (who, fd)) hfd f
    simp only [Files.setCount, filpCounts_setFilp, filpCounts_setFd, fds_setFilp, fds_setFd]
    exact hfill
  show Held s.refCounts _ l
  rw [target_setCount, target_setFd]
  · exact hs.vnodes
  · exact hf
  · exact Nat.succ_ne_zero _

lemma dupFd_ends (hs : Counted s []) (who : Proc) (fd : Fd) (start : Nat) (note : Bool) :
    Ends (.ok (dupFd who fd start note s)) := by
  unfold dupFd
  cases hfd : (s.proc who).fpFilp fd with
  | none => exact hs.ends _
  | some f =>
    cases hget : getFd who start s with
    | error r => exact hs.ends r
    | ok x =>
      obtain ⟨fd', g⟩ := x
      exact (hs.share (hs.live_of_fd hfd) (getFd_free hget).1 (hs.filp_pos hfd) _).ends _

lemma Counted.unshare (hs : Counted s []) (hfd : (s.proc who).fpFilp fd = some f)
    (hf : (s.filp f).filpCount - 1 ≠ 0) :
    Counted ((s.setCount f ((s.filp f).filpCount - 1)).setFd who fd none false) [] := by
  have hclear := hs.filps.clear (a := (who, fd)) hfd
  refine ⟨?_, ?_, gone_setFd hs (hs.live_of_fd hfd) _ _⟩
  · rw [filpCounts_setFd, fds_setFd, Files.setCount, filpCounts_setFilp]
    exact hclear
  · rw [refCounts_setFd, target_setFd, target_setCount (hs.filp_pos hfd) hf]
    exact hs.vnodes

lemma Counted.unshare_last (hs : Counted s []) (hfd : (s.proc who).fpFilp fd = some f)
    (hf : (s.filp f).filpCount - 1 = 0)
    (hvno : (s.filp f).filpVno = some vp) :
    Counted ((s.setCount f ((s.filp f).filpCount - 1)).setFd who fd none false) [vp] := by
  have hpos := hs.filp_pos hfd
  have hclaimed : Claimed s who fd f vp := ⟨hs, hs.live_of_fd hfd, hfd, by omega, hvno⟩
  rw [hf]
  exact hclaimed.release

lemma closeFile_counted (hs : Counted s []) (who : Proc) (fd : Fd) :
    Yields .badRefCount (fun x => Counted x.2 []) (closeFile who fd s) := by
  unfold closeFile
  cases hfd : (s.proc who).fpFilp fd with
  | none => exact yields_ok hs
  | some f =>
    have hcount : ((s.setCount f ((s.filp f).filpCount - 1)).filp f).filpCount =
      (s.filp f).filpCount - 1 := by
      rw [Files.setCount, setFilp_at, if_pos rfl]
    have hvno : ((s.setCount f ((s.filp f).filpCount - 1)).filp f).filpVno = (s.filp f).filpVno := by
      rw [Files.setCount, setFilp_at, if_pos rfl]
    simp only [closeFilpOf, hcount, hvno]
    split_ifs with hlast
    · cases hv : (s.filp f).filpVno with
      | none => exact yields_error (by decide)
      | some vp =>
        have hin := hs.unshare_last hfd hlast hv
        exact putVnode_bind (s := s.setCount f _) hin.vnodes.pos fun x hx => yields_ok (hin.drop hx)
    · exact yields_ok (hs.unshare hfd hlast)

lemma closeFilpOf_proc (h : closeFilpOf f s = .ok t) : t.proc = s.proc := by
  unfold closeFilpOf at h
  simp only at h
  split at h
  · split at h
    · nomatch h
    · exact (putVnode_frame h).1
  · exact Except.ok.inj h ▸ rfl

lemma closeFile_fds {x : Int × Files} (h : closeFile who fd s = .ok x) :
    (x.2.proc who).fpFilp fd = none ∧ ∀ fd', fd' ≠ fd →
      (x.2.proc who).fpFilp fd' = (s.proc who).fpFilp fd' := by
  unfold closeFile at h
  split at h
  · next hfd =>
    cases h
    exact ⟨hfd, fun _ _ => rfl⟩
  obtain ⟨t, ht, h⟩ := bind_eq_ok.mp h
  cases h
  refine ⟨setFd_fpFilp t who fd none false, fun fd' hne => ?_⟩
  rw [Files.setFd, setProc_at, if_pos rfl, closeFilpOf_proc ht]
  exact update_of_ne hne _ _

lemma dup2Fd_ends (hs : Counted s []) (who : Proc) (fd fd' : Fd) : Ends (dup2Fd who fd fd' s) := by
  unfold dup2Fd
  cases hfd : (s.proc who).fpFilp fd with
  | none => exact hs.ends _
  | some f =>
    simp only
    split
    · exact hs.ends _
    next hsame =>
    refine (closeFile_counted hs who fd').bind fun x hx hcounted => ?_
    obtain ⟨hfree, hother⟩ := closeFile_fds hx
    have hkept : (x.2.proc who).fpFilp fd = some f := (hother fd hsame).trans hfd
    exact (hcounted.share (hcounted.live_of_fd hkept) hfree (hcounted.filp_pos hkept) true).ends _

/-! ## Directories -/

variable (who) in
lemma Counted.setDir {o : Option VnodeNr} {l' : List VnodeNr} (hs : Counted s l)
    (hlive : (s.proc who).live = true)
    (hheld : Held s.refCounts (update s.target (.inl (who, d)) o) l') :
    Counted (s.setProc who ((s.proc who).setDir d o)) l' := by
  refine ⟨?_, ?_, fun q => ?_⟩
  · rw [fds_setProc (by cases d <;> rfl)]
    exact hs.filps
  · rw [target_setDir]
    exact hheld
  rw [setProc_at]
  split_ifs with hq
  · have hsame : ((s.proc who).setDir d o).live = true := by cases d <;> exact hlive
    exact fun hdead => absurd (hsame.symm.trans hdead) (by decide)
  · exact hs.gone q

lemma Counted.clearDir (hs : Counted s l) (hdir : (s.proc who).dir d = some v) :
    Counted (s.setProc who ((s.proc who).setDir d none)) (v :: l) :=
  hs.setDir who (hs.live_of_dir hdir) (hs.vnodes.lift ((target_dir s who d).trans hdir))

lemma putDir_keeps (hs : Counted s []) (who : Proc) (d : DirSlot) : Keeps [] (putDir who d s) := by
  unfold putDir
  cases hdir : (s.proc who).dir d with
  | none => exact yields_ok hs
  | some v =>
    have hin := hs.clearDir hdir
    exact putVnode_bind (s := s) hin.vnodes.pos fun x hx => yields_ok (hin.drop hx)

lemma setDir_setDir (x : Fproc) (d : DirSlot) (o o' : Option VnodeNr) :
    (x.setDir d o).setDir d o' = x.setDir d o' := by
  cases d <;> rfl

lemma changeInto_ends (hs : Counted s [vp]) (who : Proc) (d : DirSlot) (forbidden : Int) :
    Ends (changeInto who d vp forbidden s) := by
  unfold changeInto
  generalize (if (s.vnode vp).node.fmode ≠ .directory then -enotdir else forbidden) = r
  simp only
  split
  · exact (putVnode_keeps hs).bind fun t _ ht => ht.ends r
  cases hdir : (s.proc who).dir d with
  | none => exact yields_error (by decide)
  | some old =>
    have hin := hs.clearDir hdir
    refine putVnode_bind (s := s) hin.vnodes.pos fun x hx => yields_ok fun _ => ?_
    have hout := hin.drop hx
    have hend := hout.setDir who (d := d) (o := some vp)
      (by rw [setVnode_proc, setProc_at, if_pos rfl]; cases d <;> exact hs.live_of_dir hdir)
      (hout.vnodes.place (by rw [target_dir, setVnode_proc, setProc_at, if_pos rfl, dir_setDir, if_pos rfl]))
    rw [setVnode_proc, setProc_at, if_pos rfl, setDir_setDir] at hend
    simpa only [Files.setProc, Files.setVnode, update_idem] using hend

lemma change_ends (hs : Counted s []) (who : Proc) (d : DirSlot) (ans : Except Int Node) (forbidden : Int) :
    Ends (change who d ans forbidden s) := by
  unfold change
  rcases advance_cases ans s with ⟨r, hadv⟩ | ⟨vp, x, hadv, hx, -⟩
  all_goals rw [hadv]
  · exact hs.ends r
  · exact changeInto_ends (hs.take hx) who d forbidden

lemma doFchdir_ends (hs : Counted s []) (who : Proc) (fd : Fd) (forbidden : Int) :
    Ends (doFchdir who fd forbidden s) := by
  unfold doFchdir
  cases (s.proc who).fpFilp fd with
  | none => exact hs.ends _
  | some f =>
    cases hvno : (s.filp f).filpVno with
    | none =>
      simp only [hvno]
      exact yields_error (by decide)
    | some vp =>
      simp only [hvno]
      exact changeInto_ends (hs.dupVnode vp) who .wd forbidden

/-! ## Processes -/

def countedFds (s : Files) (child : Proc) (done : List Fd) (x : Proc × Fd) : Option FilpNr :=
  if x.1 = child ∧ x.2 ∉ done then none else s.fds x

lemma countedFds_snoc (s : Files) (child : Proc) (done : List Fd) (fd : Fd) :
    countedFds s child (done ++ [fd]) = update (countedFds s child done) (child, fd)
      ((s.proc child).fpFilp fd) := by
  funext ⟨q, fd'⟩
  by_cases hx : (q, fd') = (child, fd)
  · cases hx
    simp [countedFds, Files.fds]
  rw [update_of_ne hx]
  by_cases hq : q = child
  · have hne : fd' ≠ fd := fun heq => hx (by rw [hq, heq])
    simp [countedFds, hq, hne]
  · simp [countedFds, hq]

structure Forked (s : Files) (child : Proc) (done : List Fd) (t : Files) : Prop where
  proc : t.proc = s.proc
  vnode : t.vnode = s.vnode
  target : t.target = s.target
  counts : Exact t.filpCounts (countedFds s child done)

def countFd (child : Proc) (t : Files) (fd : Fd) : Files :=
  match (t.proc child).fpFilp fd with
  | some f => t.setCount f ((t.filp f).filpCount + 1)
  | none => t

lemma Forked.next {done : List Fd} (h : Forked s child done t) (hcopy : s.proc child = s.proc parent)
    (hne : parent ≠ child) (hfd : fd ∉ done) : Forked s child (done ++ [fd]) (countFd child t fd) := by
  have hempty : countedFds s child done (child, fd) = none := if_pos ⟨rfl, hfd⟩
  unfold countFd
  cases hf : (s.proc child).fpFilp fd with
  | none =>
    have hnone : (t.proc child).fpFilp fd = none := by rw [h.proc, hf]
    simp only [hnone]
    refine ⟨h.proc, h.vnode, h.target, ?_⟩
    rw [countedFds_snoc, hf, ← hempty, update_eq_self]
    exact h.counts
  | some f =>
    have hsome : (t.proc child).fpFilp fd = some f := by rw [h.proc, hf]
    -- the descriptor of the parent is counted already
    have hparent : countedFds s child done (parent, fd) = some f := by
      rw [countedFds, if_neg fun hand => hne hand.1, Files.fds, ← hcopy, hf]
    have hused : (t.filp f).filpCount ≠ 0 := Nat.pos_iff_ne_zero.mp (h.counts.pos_of_target hparent)
    simp only [hsome]
    refine ⟨h.proc, h.vnode, ?_, ?_⟩
    · rw [target_setCount hused (Nat.succ_ne_zero _)]
      exact h.target
    · rw [countedFds_snoc, hf, Files.setCount, filpCounts_setFilp]
      exact h.counts.fill hempty f

lemma Forked.foldl (hcopy : s.proc child = s.proc parent) (hne : parent ≠ child) (rest : List Fd) :
    ∀ (done : List Fd) {t : Files}, (done ++ rest).Nodup → Forked s child done t →
      Forked s child (done ++ rest) (rest.foldl (countFd child) t) := by
  induction rest with
  | nil =>
    intro done t _ h
    rw [List.append_nil]
    exact h
  | cons fd rest ih =>
    intro done t hnodup h
    have hfd : fd ∉ done := by
      intro hmem
      exact (List.nodup_append.mp hnodup).2.2 fd hmem fd (List.mem_cons_self ..) rfl
    have hsplit : done ++ fd :: rest = done ++ [fd] ++ rest := by rw [List.append_assoc]; rfl
    rw [hsplit] at hnodup ⊢
    exact ih (done ++ [fd]) hnodup (h.next hcopy hne hfd)

lemma Held.dupDir {T : Place → Option VnodeNr} {a : Place} {o : Option VnodeNr}
    (hs : Held s.refCounts T []) (ha : T a = none) :
    Held (dupDir o s).refCounts (update T a o) [] := by
  cases o with
  | none =>
    have hsame : update T a none = T := by
      rw [← ha, update_eq_self]
    rw [hsame]
    exact hs
  | some v =>
    rw [Vfs.dupDir, dupVnode, refCounts_setVnode]
    exact (hs.take v).place ha

lemma dupDir_frame (o : Option VnodeNr) (s : Files) :
    (dupDir o s).proc = s.proc ∧ (dupDir o s).filp = s.filp ∧ (dupDir o s).vmnt = s.vmnt := by
  cases o <;> exact ⟨rfl, rfl, rfl⟩

lemma target_eq (hproc : t.proc = s.proc) (hfilp : t.filp = s.filp) (hvmnt : t.vmnt = s.vmnt) :
    t.target = s.target := by
  funext a
  rcases a with ⟨q, d⟩ | g | ⟨m, root⟩
  · rw [target_dir, target_dir, hproc]
  · rw [target_filp, target_filp, hfilp]
  · simp only [Files.target, hvmnt]

lemma target_copy (s : Files) (child : Proc) (x : Fproc) :
    (s.setProc child x).target = update (update s.target (.inl (child, .rd)) x.fpRd)
      (.inl (child, .wd)) x.fpWd := by
  funext a
  rcases a with ⟨q, d⟩ | g | ⟨m, root⟩
  · by_cases hq : q = child
    · subst hq
      cases d <;> simp [Files.target, setProc_at, Fproc.dir]
    · simp [Files.target, setProc_at, hq]
  · simp [Files.target, Files.setProc]
  · simp [Files.target, Files.setProc]

lemma forked_begin (hs : Counted s []) (hdead : (s.proc child).live = false) :
    Forked (s.setProc child (s.proc parent)) child [] (s.setProc child (s.proc parent)) := by
  refine ⟨rfl, rfl, rfl, ?_⟩
  have hsame : countedFds (s.setProc child (s.proc parent)) child [] = s.fds := by
    funext ⟨q, fd⟩
    by_cases hq : q = child
    · subst hq
      rw [countedFds, if_pos ⟨rfl, List.not_mem_nil⟩]
      exact ((hs.gone q hdead).1 fd).symm
    · rw [countedFds, if_neg fun hand => hq hand.1, Files.fds, setProc_at, if_neg hq]
      rfl
  rw [hsame]
  exact hs.filps

lemma countedFds_all (s : Files) (child : Proc) : countedFds s child (List.finRange openMax) = s.fds := by
  funext x
  exact if_neg fun hand => hand.2 (List.mem_finRange x.2)

lemma forkFiles_keeps (hs : Counted s []) (parent child : Proc)
    (hlive : (s.proc parent).live = true) : Keeps [] (forkFiles parent child s) := by
  unfold forkFiles
  split
  · exact yields_error (by decide)
  next hdead =>
  have hdead : (s.proc child).live = false := Bool.eq_false_iff.mpr hdead
  have hne : parent ≠ child := by
    rintro rfl
    exact absurd (hlive.symm.trans hdead) (by decide)
  have hcopy : (s.setProc child (s.proc parent)).proc child = (s.setProc child (s.proc parent)).proc
    parent := by
    rw [setProc_at, setProc_at, if_pos rfl, if_neg hne]
  have hall := Forked.foldl hcopy hne (List.finRange openMax) [] (List.nodup_finRange openMax)
    (forked_begin hs hdead)
  rw [List.nil_append] at hall
  have hfold : (List.finRange openMax).foldl (countFd child) (s.setProc child (s.proc parent)) =
      (List.finRange openMax).foldl (fun t fd => match (t.proc child).fpFilp fd with
        | some f => t.setCount f ((t.filp f).filpCount + 1)
        | none => t) (s.setProc child (s.proc parent)) := rfl
  rw [hfold] at hall
  simp only
  generalize (List.finRange openMax).foldl _ (s.setProc child (s.proc parent)) = t at hall ⊢
  have hchild : t.proc child = s.proc parent := by rw [hall.proc, setProc_at, if_pos rfl]
  rw [hchild]
  obtain ⟨hproc₁, hfilp₁, hvmnt₁⟩ := dupDir_frame (s.proc parent).fpRd t
  obtain ⟨hproc₂, hfilp₂, hvmnt₂⟩ := dupDir_frame (s.proc parent).fpWd (dupDir (s.proc parent).fpRd t)
  have hproc := hproc₂.trans hproc₁
  have hfilp := hfilp₂.trans hfilp₁
  refine yields_ok ⟨?_, ?_, fun q => ?_⟩
  · have hcounts : (dupDir (s.proc parent).fpWd (dupDir (s.proc parent).fpRd t)).filpCounts =
      t.filpCounts := by
      funext f
      rw [Files.filpCounts, hfilp]
      rfl
    have hfds : (dupDir (s.proc parent).fpWd (dupDir (s.proc parent).fpRd t)).fds =
      (s.setProc child (s.proc parent)).fds := by
      funext x
      rw [Files.fds, hproc, hall.proc]
      rfl
    rw [hcounts, hfds, ← countedFds_all _ child]
    exact hall.counts
  · rw [target_eq hproc hfilp (hvmnt₂.trans hvmnt₁), hall.target, target_copy]
    have hrefs : t.refCounts = s.refCounts := by
      funext v
      rw [Files.refCounts, hall.vnode]
      rfl
    have hbegin : Held t.refCounts s.target [] := hrefs ▸ hs.vnodes
    have hrd : s.target (.inl (child, .rd)) = none :=
      (target_dir s child .rd).trans ((hs.gone child hdead).2 .rd)
    have hwd : s.target (.inl (child, .wd)) = none :=
      (target_dir s child .wd).trans ((hs.gone child hdead).2 .wd)
    refine Held.dupDir (Held.dupDir hbegin hrd) ?_
    rw [update_of_ne (by simp)]
    exact hwd
  · rw [hproc, hall.proc, setProc_at]
    split_ifs with hq
    · exact fun h => absurd (hlive.symm.trans h) (by decide)
    · exact hs.gone q

lemma putDir_frame (h : putDir who d s = .ok t) :
    (t.proc who).fpFilp = (s.proc who).fpFilp ∧ ∀ d', (t.proc who).dir d' = if d' = d then none
      else (s.proc who).dir d' := by
  unfold putDir at h
  split at h
  · obtain ⟨u, hu, h⟩ := bind_eq_ok.mp h
    cases h
    rw [setProc_at, if_pos rfl, (putVnode_frame hu).1]
    refine ⟨by cases d <;> rfl, fun d' => dir_setDir _ d none d'⟩
  next hdir =>
  cases h
  refine ⟨rfl, fun d' => ?_⟩
  split_ifs with hd
  · rw [hd, hdir]
  · rfl

lemma Counted.leave {x : Fproc} (hs : Counted s l) (hfd : ∀ fd, (s.proc who).fpFilp fd = none)
    (hdir : ∀ d, (s.proc who).dir d = none)
    (hx : x = { s.proc who with live := false }) : Counted (s.setProc who x) l := by
  have hdirs : ∀ d, x.dir d = (s.proc who).dir d := by
    intro d
    cases d <;> rw [hx] <;> rfl
  refine ⟨?_, ?_, fun q => ?_⟩
  · rw [fds_setProc (by rw [hx])]
    exact hs.filps
  · rw [target_setProc hdirs]
    exact hs.vnodes
  rw [setProc_at]
  split_ifs with hq
  · intro _
    refine ⟨fun fd => ?_, fun d => (hdirs d).trans (hdir d)⟩
    rw [hx]
    exact hfd fd
  · exact hs.gone q

lemma closeAll_yields (hs : Counted s []) (who : Proc) :
    Yields .badRefCount (fun t => Counted t [] ∧ ∀ fd, (t.proc who).fpFilp fd = none)
      ((List.finRange openMax).foldlM (fun s fd => (closeFile who fd s).map Prod.snd) s) := by
  have hround : ∀ (t : Files) (fd : Fd), Counted t [] →
    Keeps [] ((closeFile who fd t).map Prod.snd) := fun t fd ht =>
    (closeFile_counted ht who fd).bind fun x _ hx => yields_ok hx
  have hkeeps := yields_foldlM hround (List.finRange openMax) s hs
  refine ⟨fun t h => ⟨hkeeps.ok t h, fun fd => ?_⟩, hkeeps.avoids⟩
  refine foldlM_ok (P := fun done t => ∀ fd ∈ done, (t.proc who).fpFilp fd = none) ?_
    (fun fd h => absurd h List.not_mem_nil) h fd
    (List.mem_finRange fd)
  intro done fd rest a b _ hdone hb fd' hmem
  obtain ⟨x, hx, hb⟩ := bind_eq_ok.mp (show (closeFile who fd a >>= fun x => .ok x.2) = .ok b from hb)
  cases hb
  obtain ⟨hfree, hother⟩ := closeFile_fds hx
  by_cases hfd : fd' = fd
  · rw [hfd]
    exact hfree
  rw [hother fd' hfd]
  refine hdone fd' ?_
  rcases List.mem_append.mp hmem with hmem | hmem
  · exact hmem
  · exact absurd (List.mem_singleton.mp hmem) hfd

lemma exitFiles_keeps (hs : Counted s []) (who : Proc) : Keeps [] (exitFiles who s) := by
  have hbegin : Counted (s.setProc who { s.proc who with blockedOn := none }) [] :=
    hs.setProc rfl rfl fun d => by cases d <;> rfl
  refine (closeAll_yields hbegin who).bind fun t _ ht => ?_
  refine (putDir_keeps ht.1 who .rd).bind fun t₁ h₁ ht₁ => ?_
  refine (putDir_keeps ht₁ who .wd).bind fun t₂ h₂ ht₂ => yields_ok ?_
  obtain ⟨hfd₁, hdir₁⟩ := putDir_frame h₁
  obtain ⟨hfd₂, hdir₂⟩ := putDir_frame h₂
  refine ht₂.leave (fun fd => ?_) (fun d => ?_) rfl
  · rw [hfd₂, hfd₁]
    exact ht.2 fd
  rw [hdir₂ d]
  cases d with
  | rd => exact hdir₁ .rd
  | wd => rfl

/-! ## Pipes and replies -/

lemma live_setFd (s : Files) (fd : Fd) (o : Option FilpNr) (b : Bool) (q : Proc) :
    ((s.setFd p fd o b).proc q).live = (s.proc q).live := by
  rw [Files.setFd, setProc_at]
  split_ifs with hq
  · rw [hq]
  · rfl

lemma update_undo {α β : Type} [DecidableEq α] (F : α → β) {a b : α} {x y z : β} (ha : F a = z)
    (hb : F b = z) :
    update (update (update (update F a x) b y) a z) b z = F := by
  funext c
  by_cases hcb : c = b
  · rw [hcb, update_self, hb]
  rw [update_of_ne hcb]
  by_cases hca : c = a
  · rw [hca, update_self, ha]
  · rw [update_of_ne hca, update_of_ne hcb, update_of_ne hca]

lemma pipeEnd_fds (s : Files) (reading : Bool) :
    (pipeEnd who fd f reading s).fds = update s.fds (who, fd) (some f) := by
  rw [pipeEnd, fds_setFilp, fds_setFd]

lemma pipeEnd_counts (s : Files) (reading : Bool) :
    (pipeEnd who fd f reading s).filpCounts = update s.filpCounts f 1 := by
  rw [pipeEnd, filpCounts_setFilp, filpCounts_setFd]

lemma pipeEnd_target (s : Files) (reading : Bool) :
    (pipeEnd who fd f reading s).target = update s.target (.inr (.inl f)) (s.filp f).filpVno := by
  rw [pipeEnd, target_setFilp, target_setFd, Filp.target_pos Nat.one_ne_zero]

lemma dropEnd_fds (s : Files) : (dropEnd who fd f s).fds = update s.fds (who, fd) none := by
  rw [dropEnd, Files.setCount, fds_setFilp, fds_setFd]

lemma dropEnd_counts (s : Files) : (dropEnd who fd f s).filpCounts = update s.filpCounts f 0 := by
  rw [dropEnd, Files.setCount, filpCounts_setFilp, filpCounts_setFd]

lemma dropEnd_target (s : Files) : (dropEnd who fd f s).target = update s.target (.inr (.inl f)) none := by
  rw [dropEnd, Files.setCount, target_setFilp, target_setFd, Filp.target_zero rfl]

lemma dropEnd_alike (hfd : (s.proc who).fpFilp fd = none) (hf : (s.filp f).filpCount = 0) (reading : Bool) :
    Alike s (dropEnd who fd f (pipeEnd who fd f reading s)) := by
  refine ⟨?_, ?_, rfl, ?_, fun p => (live_setFd _ _ _ _ p).trans (live_setFd s _ _ _ p)⟩
  · rw [dropEnd_counts, pipeEnd_counts, update_idem]
    exact update_eq_self_iff.mpr hf.symm
  · rw [dropEnd_fds, pipeEnd_fds, update_idem]
    exact update_eq_self_iff.mpr hfd.symm
  · rw [dropEnd_target, pipeEnd_target, update_idem]
    exact update_eq_self_iff.mpr ((target_filp s f).trans (Filp.target_zero hf)).symm

lemma dropEnds_alike (hfd : (s.proc who).fpFilp fd = none) (hf : (s.filp f).filpCount = 0)
    (hfd' : (s.proc who).fpFilp fd' = none) (hf' : (s.filp f').filpCount = 0) :
    Alike s (dropEnd who fd' f' (dropEnd who fd f (pipeEnd who fd' f' false (pipeEnd who fd f true s)))) := by
  have hnone : ∀ g, (s.filp g).filpCount = 0 → s.target (.inr (.inl g)) = none := fun g hg =>
    (target_filp s g).trans (Filp.target_zero hg)
  refine ⟨?_, ?_, rfl, ?_, fun p => ?_⟩
  · rw [dropEnd_counts, dropEnd_counts, pipeEnd_counts, pipeEnd_counts]
    exact update_undo s.filpCounts hf hf'
  · rw [dropEnd_fds, dropEnd_fds, pipeEnd_fds, pipeEnd_fds]
    exact update_undo s.fds hfd hfd'
  · rw [dropEnd_target, dropEnd_target, pipeEnd_target, pipeEnd_target]
    exact update_undo s.target (hnone f hf) (hnone f' hf')
  · exact (live_setFd _ _ _ _ p).trans
      ((live_setFd _ _ _ _ p).trans ((live_setFd _ _ _ _ p).trans (live_setFd s _ _ _ p)))

lemma getFd_pipeEnd (h : getFd who 0 (pipeEnd who fd f true s) = .ok (fd', f')) :
    fd' ≠ fd ∧ f' ≠ f ∧ (s.proc who).fpFilp fd' = none ∧ (s.filp f').filpCount = 0 := by
  obtain ⟨hfd, hf, -⟩ := getFd_free h
  rw [show ((pipeEnd who fd f true s).proc who).fpFilp fd' = (pipeEnd who fd f true s).fds
    (who, fd') from rfl, pipeEnd_fds] at hfd
  rw [show ((pipeEnd who fd f true s).filp f').filpCount = (pipeEnd who fd f true s).filpCounts f'
    from rfl, pipeEnd_counts] at hf
  have hne : fd' ≠ fd := by
    rintro rfl
    rw [update_self] at hfd
    nomatch hfd
  have hne' : f' ≠ f := by
    rintro rfl
    rw [update_self] at hf
    nomatch hf
  rw [update_of_ne fun heq => hne (Prod.mk.inj heq).2] at hfd
  rw [update_of_ne hne'] at hf
  exact ⟨hne, hne', hfd, hf⟩

lemma pipe_made {n : Node} (hne' : f' ≠ f) :
    (dupVnode vp (((pipeEnd who fd' f' false (pipeEnd who fd f true s)).setVnode vp
      ⟨n, true, 1, 1⟩).setVno f vp)).setVno f' vp =
      claim who fd' f' vp false true
        (claim who fd f vp true false (dupVnode vp (s.setVnode vp ⟨n, true, 1, 1⟩))) := by
  refine (Files.mk.injEq ..).mpr ⟨rfl, funext fun g => ?_, rfl, rfl⟩
  simp only [claim, dupVnode, Files.setVno, pipeEnd, Files.setFilp, Files.setVnode, Files.setFd,
    Files.setProc, update_apply]
  by_cases hg' : g = f'
  · simp [hg', hne']
  by_cases hg : g = f
  · simp [hg, Ne.symm hne']
  · simp [hg, hg']

lemma scallPipe_ends (hs : Counted s []) (hlive : (s.proc who).live = true)
    (newnode : Except Int Node) (copied : Bool) :
    Ends (scallPipe who newnode copied s) := by
  unfold scallPipe
  cases hfree : s.getFreeVnode with
  | none => exact hs.ends _
  | some vp =>
    cases hget : getFd who 0 s with
    | error r => exact hs.ends r
    | ok x =>
      obtain ⟨fd, f⟩ := x
      obtain ⟨hfd, hf, -⟩ := getFd_free hget
      simp only
      cases hget' : getFd who 0 (pipeEnd who fd f true s) with
      | error r => exact (hs.alike (dropEnd_alike hfd hf true)).ends r
      | ok x =>
        obtain ⟨fd', f'⟩ := x
        obtain ⟨hne, hne', hfd', hf'⟩ := getFd_pipeEnd hget'
        cases newnode with
        | error r => exact (hs.alike (dropEnds_alike hfd hf hfd' hf')).ends r
        | ok n =>
          simp only [pipe_made hne']
          have hvp := getFreeVnode_free hfree
          have hone : Counted (s.setVnode vp ⟨n, true, 1, 1⟩) [vp] := hs.take (congrArg (· + 1) hvp.symm)
          have hread := (hone.dupVnode vp).claim hlive hfd hf true false
          refine (hread.claim ?_ ?_ ?_ false true).ends _
          · exact (live_setFd _ fd (some f) true who).trans hlive
          · show (claim who fd f vp true false (dupVnode vp (s.setVnode vp ⟨n, true, 1, 1⟩))).fds
              (who, fd') = none
            rw [claim, fds_setFilp, fds_setFd, update_of_ne fun heq => hne (Prod.mk.inj heq).2]
            exact hfd'
          · rw [claim, setFilp_at, if_neg hne']
            exact hf'

lemma reviveDopen_ends (hs : Counted s []) (who : Proc) (fd : Fd) (returned : Int) :
    Ends (reviveDopen who fd returned s) := by
  have hbegin : Counted (s.setProc who { s.proc who with blockedOn := none }) [] :=
    hs.setProc rfl rfl fun d => by cases d <;> rfl
  unfold reviveDopen
  simp only
  generalize s.setProc who { s.proc who with blockedOn := none } = s at hbegin ⊢
  split
  · exact hbegin.ends _
  cases hfd : (s.proc who).fpFilp fd with
  | none => exact yields_error (by decide)
  | some f =>
    simp only
    split
    · exact yields_error (by decide)
    next hcount =>
    cases hvno : (s.filp f).filpVno with
    | none => exact yields_error (by decide)
    | some vp =>
      have hclaimed : Claimed s who fd f vp := ⟨hbegin, hbegin.live_of_fd hfd, hfd, not_not.mp hcount, hvno⟩
      exact (unclaim_keeps hclaimed).bind fun t _ ht => ht.ends returned

/-! ## Runs -/

lemma succeeded_keeps {x : Except VfsPanic (Int × Files)} (hx : Ends x) :
    Yields (.panic .badRefCount) (Counted · []) (succeeded x) := by
  cases hxe : x with
  | error e =>
    refine yields_error fun he => hx.avoids ?_
    rw [hxe, VfsStop.panic.inj he]
  | ok y =>
    obtain ⟨r, t⟩ := y
    unfold succeeded
    simp only
    split
    · exact yields_error (by simp)
    next hr =>
    refine yields_ok (hx.ok (r, t) hxe ?_)
    by_cases hsus : r = suspended
    · exact .inr hsus
    · exact .inl (not_lt.mp fun hneg => hr ⟨hneg, hsus⟩)

lemma Keeps.succeeded {x : Except VfsPanic Files} (hx : Keeps [] x) :
    Yields (.panic .badRefCount) (Counted · []) (succeeded (x.map fun t => (0, t))) :=
  succeeded_keeps (hx.bind fun _ _ ht => ht.ends 0)

lemma step_keeps (hs : Counted s []) (a : FileAct) :
    Yields (.panic .badRefCount) (Counted · []) (s.step a) := by
  cases a with
  | openFile p req => exact .guard (fun hp => succeeded_keeps (commonOpen_ends hs hp.1 req)) hs
  | pipe p newnode copied => exact .guard (fun hp =>
      succeeded_keeps (scallPipe_ends hs hp.1 newnode copied)) hs
  | dup p fd start note => exact .guard (fun hp => succeeded_keeps (dupFd_ends hs p fd start note)) hs
  | dup2 p fd fd' => exact .guard (fun hp => succeeded_keeps (dup2Fd_ends hs p fd fd')) hs
  | close p fd =>
    have hclose := closeFile_counted hs p fd
    exact .guard (fun _ => succeeded_keeps ⟨fun x hx _ => hclose.ok x hx, hclose.avoids⟩) hs
  | change p d ans forbidden => exact .guard (fun hp => succeeded_keeps (change_ends hs p d ans forbidden)) hs
  | fchdir p fd forbidden => exact .guard (fun hp => succeeded_keeps (doFchdir_ends hs p fd forbidden)) hs
  | fork parent child => exact .guard (fun hp => Keeps.succeeded (forkFiles_keeps hs parent child hp.1)) hs
  | exit p => exact .guard (fun hp => Keeps.succeeded (exitFiles_keeps hs p)) hs
  | wake p =>
    simp only [Files.step]
    split
    · exact yields_ok (hs.setProc rfl rfl fun d => by cases d <;> rfl)
    · exact yields_ok hs
  | device p returned =>
    simp only [Files.step]
    split
    · exact succeeded_keeps (reviveDopen_ends hs p _ returned)
    · exact yields_ok hs

def Files.vRefCheck (s : Files) (v : VnodeNr) : Nat :=
  (Finset.univ.filter fun p => (s.proc p).live = true ∧ (s.proc p).fpRd = some v).card +
  (Finset.univ.filter fun p => (s.proc p).live = true ∧ (s.proc p).fpWd = some v).card +
  (Finset.univ.filter fun f => (s.filp f).filpCount ≠ 0 ∧ (s.filp f).filpVno = some v).card +
  (Finset.univ.filter fun m => (s.vmnt m).mDev ≠ none ∧ (s.vmnt m).mRootNode = some v).card +
  (Finset.univ.filter fun m => (s.vmnt m).mDev ≠ none ∧ (s.vmnt m).mMountedOn = some v).card

def Files.filpCheck (s : Files) (f : FilpNr) : Nat :=
  (Finset.univ.filter fun x : Proc × Fd => (s.proc x.1).live = true ∧ (s.proc x.1).fpFilp x.2 = some f).card

lemma Counted.filpCheck (hs : Counted s []) (f : FilpNr) : (s.filp f).filpCount = s.filpCheck f := by
  have heq := hs.filps f
  rw [List.count_nil, Nat.add_zero] at heq
  refine heq.trans (congrArg Finset.card (Finset.filter_congr fun x _ => ?_))
  exact ⟨fun h => ⟨hs.live_of_fd h, h⟩, fun h => h.2⟩

lemma filp_target_iff (x : Filp) (v : VnodeNr) :
    x.target = some v ↔ x.filpCount ≠ 0 ∧ x.filpVno = some v := by
  unfold Filp.target
  split_ifs with h <;> simp [h]

lemma vmnt_target_iff (x : Vmnt) (root : Bool) (v : VnodeNr) :
    x.target root = some v ↔ x.mDev ≠ none ∧ (if root then x.mRootNode else x.mMountedOn) = some v := by
  unfold Vmnt.target
  split_ifs with h <;> simp [h]

lemma sum_dirSlot (g : DirSlot → Nat) : ∑ d, g d = g .rd + g .wd := by
  show ∑ d ∈ ({.rd, .wd} : Finset DirSlot), g d = _
  exact Finset.sum_pair (by decide)

lemma Counted.vRefCheck (hs : Counted s []) (v : VnodeNr) : (s.vnode v).vRefCount = s.vRefCheck v := by
  have heq := hs.vnodes v
  rw [List.count_nil, Nat.add_zero] at heq
  refine heq.trans ?_
  have hrd : (Finset.univ.filter fun p => (s.proc p).live = true ∧ (s.proc p).fpRd = some v).card =
      (Finset.univ.filter fun p => (s.proc p).fpRd = some v).card :=
    congrArg Finset.card (Finset.filter_congr fun p _ => and_iff_right_of_imp fun h =>
      hs.live_of_dir (d := .rd) h)
  have hwd : (Finset.univ.filter fun p => (s.proc p).live = true ∧ (s.proc p).fpWd = some v).card =
      (Finset.univ.filter fun p => (s.proc p).fpWd = some v).card :=
    congrArg Finset.card (Finset.filter_congr fun p _ => and_iff_right_of_imp fun h =>
      hs.live_of_dir (d := .wd) h)
  rw [refs, Finset.card_filter, Fintype.sum_sum_type, Fintype.sum_sum_type, Fintype.sum_prod_type,
    Fintype.sum_prod_type, Files.vRefCheck,
    hrd, hwd]
  simp only [sum_dirSlot, Fintype.sum_bool, Finset.sum_add_distrib, Files.target, filp_target_iff,
    vmnt_target_iff, Finset.card_filter,
    Fproc.dir, if_true, Bool.false_eq_true, if_false, Nat.add_assoc]
  rfl

/-- In every run of successful calls the counts are those of the references, and no call after it
finds a vnode to put that is not counted. -/
theorem counts_exact {n : Nat} (tr : Trace Files.step n) (h0 : Counted (tr.state 0) []) :
    ∀ i ≤ n, (∀ f, ((tr.state i).filp f).filpCount = (tr.state i).filpCheck f) ∧
      (∀ v, ((tr.state i).vnode v).vRefCount = (tr.state i).vRefCheck v) ∧
      ∀ a, (tr.state i).step a ≠ .error (.panic .badRefCount) := by
  have hinv := tr.invariant (Counted · []) h0 fun hs h => (step_keeps hs _).ok _ h
  intro i hi
  exact ⟨(hinv i hi).filpCheck, (hinv i hi).vRefCheck, fun a => (step_keeps (hinv i hi) a).avoids⟩

def startFiles : Files where
  proc p := ⟨p.val = 0, fun _ => none, fun _ => false, none, none, none⟩
  filp _ := ⟨0, none, false, false⟩
  vnode _ := ⟨⟨0, 0, .regular⟩, false, 0, 0⟩
  vmnt _ := ⟨none, none, none⟩

lemma startFiles_counted : Counted startFiles [] := by
  refine ⟨exact_of_none (fun _ => rfl) fun _ => rfl, exact_of_none (fun _ => rfl) fun a => ?_,
    fun p _ => ⟨fun _ => rfl, fun d => ?_⟩⟩
  · rcases a with ⟨p, d⟩ | f | ⟨m, root⟩
    · cases d <;> rfl
    · exact Filp.target_zero rfl
    · rfl
  · cases d <;> rfl

def openFifoReq : OpenReq where
  name := 0
  bits := some (true, false)
  creat := false
  excl := false
  nonblock := true
  dir := .here
  last := .ok ⟨1, 7, .namedPipe⟩
  made := .error (-enoent)
  forbidden := 0
  regular := 0
  dev := .done 0
  block := 0
  map := 0
  trunc := 0

def fifoActs : Nat → FileAct
  | 0 => .openFile ⟨0, by decide⟩ openFifoReq
  | 1 => .fork ⟨0, by decide⟩ ⟨1, by decide⟩
  | 2 => .openFile ⟨1, by decide⟩ openFifoReq
  | 3 => .pipe ⟨1, by decide⟩ (.ok ⟨2, 9, .namedPipe⟩) true
  | 4 => .close ⟨0, by decide⟩ ⟨0, by decide⟩
  | _ => .exit ⟨1, by decide⟩

def fifoRun : Trace Files.step 6 := Trace.run Files.step startFiles fifoActs 6 (by decide +kernel)

/-- The second open of the FIFO shares the filp that the fork has shared already. -/
theorem counts_exact_fifo : ((fifoRun.state 3).filp ⟨0, by decide⟩).filpCount = 3 ∧
    ∀ i ≤ 6, (∀ f, ((fifoRun.state i).filp f).filpCount = (fifoRun.state i).filpCheck f) ∧
      (∀ v, ((fifoRun.state i).vnode v).vRefCount = (fifoRun.state i).vRefCheck v) ∧
      ∀ a, (fifoRun.state i).step a ≠ .error (.panic .badRefCount) :=
  ⟨by decide +kernel, counts_exact fifoRun startFiles_counted⟩

end Nucleos.Vfs
