import Nucleos.Vfs.FileRun
import Nucleos.Vfs.Path

/-!
# Filps of a driver that was restarted

When a driver comes up again, the filps on its devices are opened once more if they were opened with
`O_REOPEN`, and invalidated otherwise: the descriptors lose their filp but stay noted as in use, so
that their owners hear of it. -/

namespace Nucleos.Vfs

open Function

/-- `get_filp2`, with `err_code` for a filp that is not there. -/
def getFilp2 (who : Proc) (fd : Fd) (s : Files) : Except Int FilpNr :=
  match (s.proc who).fpFilp fd with
  | some f => .ok f
  | none => .error (if (s.proc who).fpFilpInuse fd then -eio else -ebadf)

def Files.closeFd (s : Files) (who : Proc) (fd : Fd) : Except VfsPanic (Int × Files) :=
  match getFilp2 who fd s with
  | .error r => .ok (r, s)
  | .ok _ => closeFile who fd s

def Fproc.invalidate (f : FilpNr) (x : Fproc) : Fproc :=
  if x.live then { x with fpFilp := fun fd => if x.fpFilp fd = some f then none else x.fpFilp fd }
    else x

def invalidate (f : FilpNr) (s : Files) :
    Files := { s with proc := fun p => (s.proc p).invalidate f }.setCount f 0

/-- What `restart_reopen` reads of a filp besides its vnode: `FS_NEEDS_REOPEN` for a device of the
driver, `O_REOPEN` and the answer of `dev_reopen`. -/
structure Restart where
  needsReopen : FilpNr → Bool
  oReopen : FilpNr → Bool
  devReopen : FilpNr → Int

def Restart.picks (d : Restart) (f : FilpNr) (s : Files) : Bool :=
  0 < (s.filp f).filpCount && d.needsReopen f &&
    ((s.filp f).filpVno.any fun vp => (s.vnode vp).node.fmode = .charSpecial)

-- A device that is opened once more ends the loop: the answer to it starts the loop again.
def reopenFilps (d : Restart) : List FilpNr → Files → Files
  | [], s => s
  | f :: fs, s =>
    if d.picks f s then
      if d.oReopen f ∧ d.devReopen f = 0 then s else reopenFilps d fs (invalidate f s)
    else reopenFilps d fs s

def restartReopen (d : Restart) (s : Files) : Files := reopenFilps d (List.finRange nrFilps) s

structure Invalidated (s t : Files) : Prop where
  vnode : t.vnode = s.vnode
  inuse : ∀ p, (t.proc p).live = (s.proc p).live ∧ (t.proc p).fpFilpInuse = (s.proc p).fpFilpInuse
  fd : ∀ p i, (t.proc p).fpFilp i = none ∨ (t.proc p).fpFilp i = (s.proc p).fpFilp i
  filp : ∀ f, (t.filp f).filpCount = (s.filp f).filpCount ∨ (t.filp f).filpCount = 0 ∧
    ∀ p i, (s.proc p).live = true → (s.proc p).fpFilp i = some f → (t.proc p).fpFilp i = none

variable {s t u : Files}

lemma Invalidated.trans (h : Invalidated s t) (h' : Invalidated t u) : Invalidated s u where
  vnode := h'.vnode.trans h.vnode
  inuse p := ⟨(h'.inuse p).1.trans (h.inuse p).1, (h'.inuse p).2.trans (h.inuse p).2⟩
  fd p i := (h'.fd p i).elim .inl fun he => he ▸ h.fd p i
  filp f := by
    have hnone : ∀ p i, (t.proc p).fpFilp i = none → (u.proc p).fpFilp i = none := by
      intro p i hp
      exact (h'.fd p i).elim id fun he => he.trans hp
    rcases h.filp f with hf | ⟨hzero, hf⟩
    · rcases h'.filp f with hf' | ⟨hzero, hf'⟩
      · exact .inl (hf'.trans hf)
      · refine .inr ⟨hzero, fun p i hlive hp => ?_⟩
        rcases h.fd p i with hi | hi
        · exact hnone p i hi
        · exact hf' p i ((h.inuse p).1.trans hlive) (hi.trans hp)
    · exact .inr ⟨(h'.filp f).elim (·.trans hzero) And.left, fun p i hlive hp =>
        hnone p i (hf p i hlive hp)⟩

instance : NeZero openMax := ⟨by decide⟩
instance : NeZero nrFilps := ⟨by decide⟩
instance : NeZero nrVnodes := ⟨by decide⟩

end Nucleos.Vfs
