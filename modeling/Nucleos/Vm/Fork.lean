import Nucleos.Vm.AddressSpace

/-!
# A fork that runs out of memory

`do_fork` makes the slot of the child a copy of the parent's before it asks for any memory, and
on failure it returns without taking that back. `map_copy_region` frees what it has copied so far
with `map_free`, which gives up references that were never counted.
-/

namespace Nucleos.Vm

open IntrusiveList Run

variable {s t u : State} {p : ProcId} {ok : Bool} {parent child : ProcId} {msgaddr : BitVec 32}

structure Undone (parent child : ProcId) (s t : State) : Prop where
  block : ∀ b, t.heap.block b = s.heap.block b
  physr : ∀ x < s.heap.nextPhys, t.heap.physr x = s.heap.physr x
  region : ∀ r < s.heap.nextRegion, t.heap.region r = s.heap.region r
  list : (t.proc parent).vmRegions = (s.proc parent).vmRegions
  pte : (t.proc parent).vmPt.pte = (s.proc parent).vmPt.pte
  kept : ∀ v e, (s.proc parent).vmPt.pte v = some e → s.free e.frame = false → t.free e.frame = false
  slot : (t.proc child).inuse = false

/-- The parent may fork, and the page table and the regions of the child cannot be set up without
an allocation being refused. -/
structure ForkRefused (parent child : ProcId) (s : State) : Prop where
  inuse : (s.proc parent).inuse = true
  slot : child < nrProcs
  dma : (s.proc parent).hasDma = false
  haspt : (s.proc parent).haspt = true
  refused : ¬ ∃ ok u, forkMemory parent child (forkSlot parent child s) = .ok (ok, u) ∧ u.denied = s.denied

lemma Beside.inuse (h : Beside p s t) (q : ProcId) : (t.proc q).inuse = (s.proc q).inuse := by
  rw [h.proc q]

lemma ptNew_inuse (h : ptNew p s = (ok, t)) (q : ProcId) : (t.proc q).inuse = (s.proc q).inuse := by
  unfold ptNew at h
  simp only at h
  split at h
  · cases h
    exact s.modProc_keep VmProc.inuse rfl q
  split at h
  · next s₁ hslab =>
    cases h
    exact ((slaballoc_false hslab).1.frame.steady.beside p).inuse q
  · next s₁ hslab =>
    cases h
    exact (s₁.modProc_keep VmProc.inuse rfl q).trans (((slaballoc_true hslab).frame.steady.beside p).inuse q)

lemma forkMemory_inuse (h : forkMemory parent child s = .ok (ok, t)) (q : ProcId) :
    (t.proc q).inuse = (s.proc q).inuse := by
  unfold forkMemory at h
  split at h
  · next s₁ hnew =>
    have hinuse := ptNew_inuse hnew q
    cases h
    exact hinuse
  next s₁ hnew =>
  have hinuse := ptNew_inuse hnew q
  obtain ⟨s₂, hcopy, hframe⟩ := mapProcCopy_copied h
  have hbeside := (copyRegions_beside hcopy).trans (hframe.steady.beside child)
  exact (hbeside.inuse q).trans ((s₁.modProc_keep VmProc.inuse rfl q).trans hinuse)

lemma forkSlot_inuse (s : State) (parent child : ProcId) :
    ((forkSlot parent child s).proc child).inuse = (s.proc parent).inuse := by
  simp [forkSlot, State.modProc]

/-- Where a fork of a process with a page table reports `-ENOMEM` from. -/
theorem doFork_enomem (hpt : (s.proc parent).haspt = true)
    (h : doFork parent child msgaddr s = .ok (-enomem, t)) :
    forkMemory parent child (forkSlot parent child s) = .ok (false, t) := by
  unfold doFork at h
  rcases ite_eq_iff.mp h with ⟨_, h⟩ | ⟨_, h⟩
  · exact absurd (ok_pair_inj h).1 (by decide)
  rcases ite_eq_iff.mp h with ⟨_, h⟩ | ⟨_, h⟩
  · exact absurd (ok_pair_inj h).1 (by decide)
  rcases ite_eq_iff.mp h with ⟨_, h⟩ | ⟨_, h⟩
  · exact absurd (ok_pair_inj h).1 (by decide)
  rw [if_pos hpt] at h
  obtain ⟨⟨ok, s₁⟩, hmem, h⟩ := bind_eq_ok.mp h
  cases ok with
  | false =>
    cases h
    exact hmem
  | true =>
    obtain ⟨s₂, -, h⟩ := bind_eq_ok.mp h
    exact absurd (ok_pair_inj h).1 (by decide)

/-- A fork that is refused memory leaves things as they were exactly when it is not refused any:
the slot of the child stays in use whichever allocation it is. -/
theorem failed_fork_undone_iff (s : State) (parent child : ProcId) (msgaddr : BitVec 32) :
    (ForkRefused parent child s → ∃ t, doFork parent child msgaddr s = .ok (-enomem, t) ∧
      Undone parent child s t) ↔
      ¬ ForkRefused parent child s := by
  refine ⟨fun hundone hrefused => ?_, fun hnot hrefused => absurd hrefused hnot⟩
  obtain ⟨t, hfork, ht⟩ := hundone hrefused
  have hinuse := forkMemory_inuse (doFork_enomem hrefused.haspt hfork) child
  rw [forkSlot_inuse, hrefused.inuse, ht.slot] at hinuse
  nomatch hinuse

def Request.answer (s : State) (q : Request) : Option Int :=
  match q.exec s with
  | .ok (res, _) => some res
  | .error _ => none

def Request.after (s : State) (q : Request) : State :=
  match q.exec s with
  | .ok (_, t) => t
  | .error _ => s

lemma Request.exec_after {q : Request} {res : Int} (h : q.answer s = some res) :
    q.exec s = .ok (res, q.after s) := by
  unfold Request.answer at h
  unfold Request.after
  cases hexec : q.exec s with
  | error e =>
    rw [hexec] at h
    nomatch h
  | ok x =>
    rw [hexec] at h
    obtain ⟨res', t⟩ := x
    cases h
    rfl

/-- Memory lasts for two pages of process 0 and half of a copy of them. -/
def tightVm : State :=
  { bootVm with luck := [some 0, some 0, some 0, some 0, some 16, some 0, some 0, some 0, some 17,
    some 0, some 0, some 0, none] }

def twoPages : State :=
  (Op.mapPf 0 0 0x1000).after ((Op.mapPf 0 0 0).after
    ((Op.mapPageRegion 0 0x1000 0 0x2000 mapNone (vrAnon ||| vrWritable) false).after tightVm))

/-- A fork that cannot copy the second page frees the first, which the parent still maps and may
write. -/
theorem failed_fork_frees_page :
    ForkRefused 0 1 twoPages ∧ ∃ t, doFork 0 1 0x1000 twoPages = .ok (-enomem, t) ∧ ¬ Undone 0 1 twoPages t ∧
      (t.proc 0).vmPt.pte 1 = some ⟨16, true⟩ ∧ twoPages.free 16 = false ∧ t.free 16 = true ∧
      (twoPages.heap.block 0).refcount = 1 ∧ (t.heap.block 0).refcount = 0 ∧ (t.proc 1).inuse = true := by
  have hfork : doFork 0 1 0x1000 twoPages = .ok (-enomem, (Request.fork 0 1 0x1000).after twoPages) :=
    Request.exec_after (q := .fork 0 1 0x1000) (by decide +kernel)
  have hcount : (((Request.fork 0 1 0x1000).after twoPages).heap.block 0).refcount = 0 := by decide +kernel
  have hmem := doFork_enomem (by decide +kernel) hfork
  refine ⟨⟨by decide +kernel, by decide, by decide +kernel, by decide +kernel, ?_⟩, _, hfork,
    fun hundone => ?_, by decide +kernel,
    by decide +kernel, by decide +kernel, by decide +kernel, hcount, by decide +kernel⟩
  · rintro ⟨ok, u, hu, hdenied⟩
    obtain ⟨-, rfl⟩ := ok_pair_inj (hmem.symm.trans hu)
    exact absurd hdenied (by decide +kernel)
  · rw [hundone.block 0] at hcount
    exact absurd hcount (by decide +kernel)

end Nucleos.Vm
