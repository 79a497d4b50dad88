import Nucleos.Vfs.Pipe

/-!
# Writes that are split

A write that is larger than the pipe leaves the number of bytes written so far with the process
while it hangs. A later read or write takes it for a sign of confusion when it is not zero. It is
cleared when the write comes to its end, and only then: not when the write fails after some bytes
and not when a signal breaks it off.
-/

namespace Nucleos.Vfs

open Function Run

variable {s t u : PipeState} {who p q : Proc} {rw : RwFlag} {fd : Fd} {f : FilpId}
    {buf reqSize got : Nat} {c : Copy} {x y : PipeProc}

structure PipeProc.Clear (x : PipeProc) : Prop where
  hangs : x.live = true → x.fpCumIoPartial ≠ 0 → ∃ w, x.blocked = some w ∧ w.rw = .writing
  more : ∀ w, x.blocked = some w → x.live = true ∧ 0 < w.fpNbytes

structure PipeProc.Alike (x y : PipeProc) : Prop where
  live : y.live = x.live
  partly : y.fpCumIoPartial = x.fpCumIoPartial
  blocked : y.blocked.map PipeWait.still = x.blocked.map PipeWait.still

lemma PipeProc.Alike.refl (x : PipeProc) : x.Alike x := ⟨rfl, rfl, rfl⟩

lemma PipeProc.Alike.trans {z : PipeProc} (h : x.Alike y) (h' : y.Alike z) : x.Alike z :=
  ⟨h'.live.trans h.live, h'.partly.trans h.partly, h'.blocked.trans h.blocked⟩

lemma PipeProc.Alike.wait (h : x.Alike y) {w : PipeWait} (hw : x.blocked = some w) :
    ∃ w', y.blocked = some w' ∧ w'.rw = w.rw ∧ w'.fpNbytes = w.fpNbytes := by
  have hb := h.blocked
  rw [hw] at hb
  cases hy : y.blocked with
  | none =>
    rw [hy] at hb
    nomatch hb
  | some w' =>
    rw [hy] at hb
    have hstill : w'.still = w.still := Option.some.inj hb
    exact ⟨w', rfl, (congrArg PipeWait.rw hstill :), (congrArg PipeWait.fpNbytes hstill :)⟩

lemma PipeProc.Alike.symm (h : x.Alike y) : y.Alike x :=
  ⟨h.live.symm, h.partly.symm, h.blocked.symm⟩

lemma PipeProc.Clear.alike (hx : x.Clear) (h : x.Alike y) : y.Clear := by
  constructor
  · intro hlive hpart
    rw [h.live] at hlive
    rw [h.partly] at hpart
    obtain ⟨w, hw, hrw⟩ := hx.hangs hlive hpart
    obtain ⟨w', hw', hrw', _⟩ := h.wait hw
    exact ⟨w', hw', hrw'.trans hrw⟩
  · intro w hw
    obtain ⟨w', hw', _, hn⟩ := h.symm.wait hw
    rw [← hn, h.live]
    exact hx.more w' hw'

lemma PipeProc.clear_of_zero (h0 : x.fpCumIoPartial = 0) (hnone : x.blocked = none) : x.Clear where
  hangs := fun _ hpart => absurd h0 hpart
  more := fun w hw => by
    rw [hnone] at hw
    nomatch hw

lemma Released.alike (h : Released s t) (q : Proc) : (s.proc q).Alike (t.proc q) := by
  obtain ⟨b, hb, hstill⟩ := h.proc q
  rw [hb]
  exact ⟨rfl, rfl, hstill⟩

lemma transfer_proc (who : Proc) (fd : Fd) (buf : Nat) (c : Copy)
    (hallow : Allowed (s.pipe f.1) rw reqSize got) :
    ((transfer who rw fd f buf reqSize got c s).1 < 0 ∧
      (transfer who rw fd f buf reqSize got c s).1 ≠ suspended ∧
        (transfer who rw fd f buf reqSize got c s).2.proc = s.proc) ∨
      (∃ n w, rw = .writing ∧ w.rw = .writing ∧ 0 < w.fpNbytes ∧
        (transfer who rw fd f buf reqSize got c s).2.proc =
        update s.proc who { s.proc who with fpCumIoPartial := n, blocked := some w }) ∨
      (transfer who rw fd f buf reqSize got c s).2.proc =
        update s.proc who { s.proc who with fpCumIoPartial := 0 } := by
  rcases hrep : fsReadwrite rw c buf ((s.pipe f.1).position rw)
    (if rw = .reading ∧ (s.pipe f.1).vSize < (s.pipe f.1).position rw + got
      then (s.pipe f.1).vSize - (s.pipe f.1).position rw else got)
    (s.pipe f.1).node with ⟨rep, node⟩
  have hres := fsReadwrite_res rw c buf ((s.pipe f.1).position rw)
    (if rw = .reading ∧ (s.pipe f.1).vSize < (s.pipe f.1).position rw + got
      then (s.pipe f.1).vSize - (s.pipe f.1).position rw else got)
    (s.pipe f.1).node
  simp only [transfer, hrep] at hres ⊢
  split
  · split_ifs with hpart
    · -- a read is allowed all that it asks for
      cases rw with
      | reading => exact absurd hallow.1 (by omega)
      | writing =>
        have hn : rep.nbytes = got := by
          rcases hres with rfl | ⟨hneg, _⟩
          · simp
          · omega
        refine .inr (.inl ⟨(s.proc who).fpCumIoPartial + rep.nbytes,
          ⟨fd, .writing, buf + rep.nbytes, reqSize - rep.nbytes, false⟩,
          rfl, rfl, ?_, ?_⟩)
        · rw [hn]
          exact Nat.sub_pos_of_lt hpart.1
        · simp [pipeSuspend, PipeState.setPartial, PipeState.setProc]
    · exact .inr (.inr rfl)
  · next h0 =>
    rcases hres with rfl | ⟨hneg, hne⟩
    · exact absurd rfl h0
    · exact .inl ⟨hneg, hne, rfl⟩

def ClearBut (who : Proc) (s : PipeState) : Prop := ∀ p, p ≠ who → (s.proc p).Clear

lemma ClearBut.update (hs : ClearBut who s) (hx : x.Clear) (h : t.proc = update s.proc who x) :
    ∀ p, (t.proc p).Clear := by
  intro p
  rw [h, update_apply]
  split_ifs with hp
  · exact hx
  · exact hs p hp

lemma ClearBut.alike (hs : ClearBut who s) (h : ∀ q, q ≠ who → (s.proc q).Alike (t.proc q)) :
    ClearBut who t :=
  fun q hq => (hs q hq).alike (h q hq)

lemma rwPipe_clear {x : Int × PipeState} (hs : ClearBut who s) (hreq : 0 < reqSize)
    (hlive : (s.proc who).live = true)
    (hblocked : (s.proc who).blocked = none)
    (hcond : (s.proc who).fpCumIoPartial ≠ 0 → rw = .writing ∧ (0 ≤ x.1 ∨ x.1 = suspended))
    (h : rwPipe who rw fd f buf reqSize c s = .ok x) : ∀ p, (x.2.proc p).Clear := by
  obtain ⟨t, ht, hcases⟩ := rwPipe_cases hreq h
  have ht' : ClearBut who t := hs.alike fun q _ => ht.alike q
  have hwho := (ht.alike who).symm
  have hnone : (t.proc who).blocked = none := by
    have hb := (ht.alike who).blocked
    rw [hblocked] at hb
    exact Option.map_eq_none_iff.mp hb
  -- a process that was refused anything had written nothing
  have hzero : x.1 < 0 → x.1 ≠ suspended → (t.proc who).fpCumIoPartial = 0 := by
    intro hneg hne
    rw [← hwho.partly]
    by_contra hpart
    obtain ⟨_, hpos | heq⟩ := hcond hpart
    · omega
    · exact hne heq
  rw [← (ht.alike who).live] at hlive
  have hall : (t.proc who).Clear → ∀ p, (t.proc p).Clear := by
    intro hw p
    by_cases hp : p = who
    · exact hp ▸ hw
    · exact ht' p hp
  rcases hcases with ⟨hle, hne, hwr, heq⟩ | heq | ⟨got, hgot, hallow, heq⟩
  · rw [heq]
    refine hall (PipeProc.clear_of_zero ?_ hnone)
    by_contra hpart
    have hw := (hcond (by rwa [hwho.partly])).1
    exact hpart (hzero (hwr hw) hne)
  · rw [heq]
    refine ht'.update ⟨fun _ hpart => ⟨_, rfl, ?_⟩, fun w hw => ?_⟩ rfl
    · exact (hcond (by rwa [hwho.partly])).1
    · cases hw
      exact ⟨hlive, hreq⟩
  · have hallow' : Allowed (t.pipe f.1) rw reqSize got := by rwa [ht.pipe]
    rcases transfer_proc who fd buf c hallow' with
      ⟨hneg, hne, hproc⟩ | ⟨n, w, _, hrw, hpos, hproc⟩ | hproc
    · rw [← heq] at hneg hne hproc
      rw [hproc]
      exact hall (PipeProc.clear_of_zero (hzero hneg hne) hnone)
    · rw [← heq] at hproc
      refine ht'.update ⟨fun _ _ => ⟨w, rfl, hrw⟩, fun w' hw' => ?_⟩ hproc
      cases hw'
      exact ⟨hlive, hpos⟩
    · rw [← heq] at hproc
      refine ht'.update ?_ hproc
      exact PipeProc.clear_of_zero rfl hnone

/-! ## The other calls -/

lemma share_alike (s : PipeState) (who : Proc) (fd : Fd) (f : FilpId) (q : Proc) :
    (s.proc q).Alike ((s.share who fd f).proc q) := by
  rw [PipeState.share, setProc_proc]
  split_ifs with hq
  · subst hq
    exact ⟨rfl, rfl, rfl⟩
  · exact .refl _

lemma closePipe_alike (h : closePipe who fd s = .ok t) (q : Proc) :
    (s.proc q).Alike (t.proc q) := by
  unfold closePipe at h
  split at h
  · exact Except.ok.inj h ▸ .refl _
  obtain ⟨u, hu, h⟩ := bind_eq_ok.mp h
  obtain ⟨v, hv, hu⟩ := bind_eq_ok.mp hu
  cases hu
  cases h
  refine ((release_released hv).alike q).trans ?_
  rw [setProc_proc]
  split
  · next hq =>
    rw [hq]
    exact ⟨rfl, rfl, rfl⟩
  · exact .refl _

lemma unpause_proc (who : Proc) (s : PipeState) :
    (unpause who s).proc = update s.proc who { s.proc who with blocked := none } := by
  unfold unpause
  split
  · rename_i hb
    have hsame : { s.proc who with blocked := none } = s.proc who := by rw [← hb]
    rw [hsame, update_eq_self]
  · rfl

lemma foldl_share_alike (g : Fd → Option FilpId) (child : Proc) (l : List Fd) (s : PipeState)
    (q : Proc) :
    (s.proc q).Alike ((l.foldl (fun t fd => match g fd with
      | some f => t.share child fd f
      | none => t) s).proc q) := by
  induction l generalizing s with
  | nil => exact .refl _
  | cons fd l ih =>
    rw [List.foldl_cons]
    cases hg : g fd with
    | none => exact ih s
    | some f => exact (share_alike s child fd f q).trans (ih _)

lemma freeProc_clear (hs : ∀ p, (s.proc p).Clear) (h : freeProc who s = .ok t) :
    ∀ p, (t.proc p).Clear := by
  obtain ⟨u, hu, h⟩ := bind_eq_ok.mp h
  cases h
  have halike : ∀ q, ((unpause who s).proc q).Alike (u.proc q) :=
    foldlM_ok (P := fun _ v => ∀ q, ((unpause who s).proc q).Alike (v.proc q))
      (fun _ _ _ _ _ _ hv hstep q => (hv q).trans (closePipe_alike hstep q)) (fun q => .refl _) hu
  have hnone : (u.proc who).blocked = none := by
    have hb := (halike who).blocked
    rw [unpause_proc, update_self] at hb
    exact Option.map_eq_none_iff.mp hb
  have hbut : ClearBut who u := by
    intro q hq
    refine PipeProc.Clear.alike ?_ (halike q)
    rw [unpause_proc, update_of_ne hq]
    exact hs q
  refine hbut.update ⟨fun hlive => absurd hlive Bool.false_ne_true, fun w hw => ?_⟩ rfl
  rw [hnone] at hw
  nomatch hw

lemma pmFork_clear {parent child : Proc} (hs : ∀ p, (s.proc p).Clear)
    (h : pmFork parent child s = .ok t) :
    ∀ p, (t.proc p).Clear := by
  unfold pmFork at h
  split at h
  · nomatch h
  cases h
  intro q
  refine PipeProc.Clear.alike ?_ (foldl_share_alike _ child _ _ q)
  rw [setProc_proc]
  split_ifs with hq
  · exact (hs parent).alike ⟨rfl, rfl, rfl⟩
  · exact hs q

/-- A write goes on: there is a reader, and the copy of all of it, or of a part if it is larger than
the pipe, succeeds, or it may wait for room. -/
def Pipe.GoesOn (p : Pipe) (nonblock : Bool) (bytes : Nat) (c : Copy) : Prop :=
  (p.filp .reading).filpCount ≠ 0 ∧ p.vPipeWrPos + bytes < 2 ^ 31 ∧
    if p.vPipeWrPos + bytes ≤ pipeBuf ∨ pipeBuf < bytes ∧ p.vPipeWrPos < pipeBuf then c.ok = true
      else nonblock = false

lemma Pipe.GoesOn.check {p : Pipe} {nonblock : Bool} (h : p.GoesOn nonblock reqSize c) :
    (pipeCheck p .writing nonblock reqSize p.vPipeWrPos).1 = suspended ∨
      ∃ got : Nat, (pipeCheck p .writing nonblock reqSize p.vPipeWrPos).1 = got ∧
        p.vPipeWrPos + got ≤ pipeBuf ∧ c.ok = true := by
  obtain ⟨hreader, hnear, hroom⟩ := h
  simp only [pipeCheck, if_neg hreader, pipeBuf_lt_iff hnear]
  split_ifs at hroom ⊢ <;> simp_all <;> omega

lemma rwPipe_goesOn {x : Int × PipeState}
    (hgo : (s.pipe f.1).GoesOn ((s.pipe f.1).filp f.2).nonblock reqSize c)
    (h : rwPipe who .writing fd f buf reqSize c s = .ok x) : 0 ≤ x.1 ∨ x.1 = suspended := by
  obtain ⟨t, ht, h⟩ := bind_eq_ok.mp h
  have hpipe := (releaseAny_released ht).pipe
  have hpos : (s.pipe f.1).position .writing = (s.pipe f.1).vPipeWrPos := rfl
  rw [hpos] at h
  rcases hgo.check with hsusp | ⟨got, hgot, hfit, hok⟩
  · rw [hsusp, if_pos (by decide)] at h
    cases h
    exact .inr rfl
  rw [hgot, Int.toNat_natCast] at h
  by_cases hnone : (got : Int) ≤ 0
  · rw [if_pos hnone] at h
    cases h
    exact .inl (Int.natCast_nonneg got)
  rw [if_neg hnone] at h
  cases h
  have hrep : ((fsReadwrite .writing c buf (s.pipe f.1).vPipeWrPos got (s.pipe f.1).node).1).res =
    0 := by
    unfold fsReadwrite
    rw [if_neg (fun hlt => ?_), if_pos ⟨hok, hfit⟩]
    simp [pipeBuf] at hfit hlt
    omega
  simp only [transfer, hpipe, Pipe.position, hrep, reduceCtorEq, false_and, if_false, if_true]
  split_ifs
  · exact .inr rfl
  · exact .inl (Int.natCast_nonneg _)

/-- No process that has written part of its bytes is interrupted, and its write goes on when it is
resumed. -/
def Unbroken (s : PipeState) : PipeAct → Prop
  | .unpause p => (s.proc p).fpCumIoPartial = 0
  | .resume p c => (s.proc p).fpCumIoPartial ≠ 0 → ∀ w, (s.proc p).blocked = some w →
      w.revived = true →
      ∀ f, (s.proc p).fpFilp w.fd = some f →
        (s.pipe f.1).GoesOn ((s.pipe f.1).filp f.2).nonblock w.fpNbytes c
  | _ => True

lemma release_avoids (vp : PipeId) (call : RwFlag) (l : List Proc) (count : Int) (s : PipeState) :
    Avoids .cumIoPartial (release vp call l count s) := by
  induction l generalizing count s with
  | nil => exact avoids_ok
  | cons q rest ih => simp [release, ih]

lemma rwPipe_avoids : Avoids .cumIoPartial (rwPipe who rw fd f buf reqSize c s) := by
  unfold rwPipe releaseAny
  simp only [avoids_bind, avoids_ite, avoids_ok, implies_true, and_true]
  split <;> simp [release_avoids]

lemma closePipe_avoids : Avoids .cumIoPartial (closePipe who fd s) := by
  unfold closePipe
  split <;> simp [closeFilp, release_avoids]

lemma PipeProc.Clear.zero (hx : x.Clear) (hlive : x.live = true) (hnone : x.blocked = none) :
    x.fpCumIoPartial = 0 := by
  by_contra hpart
  obtain ⟨w, hw, _⟩ := hx.hangs hlive hpart
  rw [hnone] at hw
  nomatch hw

lemma readWrite_keeps {nbytes : BitVec 32} (hs : ∀ p, (s.proc p).Clear)
    (hlive : (s.proc who).live = true)
    (hblocked : (s.proc who).blocked = none) :
    Yields .cumIoPartial (fun x => ∀ p, (x.2.proc p).Clear)
      (readWrite who rw fd buf nbytes c s) := by
  unfold readWrite
  split
  · exact yields_ok hs
  split
  · exact yields_ok hs
  split
  · exact yields_ok hs
  split
  · exact yields_ok hs
  next hne =>
  split
  · next hpart => exact absurd ((hs who).zero hlive hblocked) hpart
  next hpart =>
  refine ⟨fun x h => rwPipe_clear (fun q hq => ?_) ?_ ?_ ?_ (fun hpart' => ?_) h, rwPipe_avoids⟩
  · simp only [setProc_proc, if_neg hq]
    exact hs q
  · refine Nat.pos_of_ne_zero fun h0 => hne (BitVec.eq_of_toNat_eq ?_)
    simpa using h0
  · simpa only [setProc_proc, if_pos] using hlive
  · simpa only [setProc_proc, if_pos] using hblocked
  · simp only [setProc_proc, if_pos] at hpart'
    exact absurd hpart' hpart

lemma resume_keeps (hs : ∀ p, (s.proc p).Clear) :
    Yields .cumIoPartial (fun x => Unbroken s (.resume who c) →
      ∀ p, (x.2.proc p).Clear) (resume who c s) := by
  unfold resume
  split
  · rename_i w hw
    split
    · rename_i f hrev hf
      obtain ⟨hlive, hpos⟩ := (hs who).more w hw
      refine ⟨fun x h hcond => rwPipe_clear (fun q hq => ?_) hpos ?_ ?_ (fun hpart => ?_) h,
        rwPipe_avoids⟩
      · rw [setProc_proc, if_neg hq]
        exact hs q
      · rw [setProc_proc, if_pos rfl]
        exact hlive
      · rw [setProc_proc, if_pos rfl]
      rw [setProc_proc, if_pos rfl] at hpart
      obtain ⟨w', hw', hrw⟩ := (hs who).hangs hlive hpart
      rw [hw] at hw'
      cases hw'
      rw [hrw] at h
      refine ⟨hrw, rwPipe_goesOn ?_ h⟩
      exact hcond hpart w hw hrev f hf
    · exact yields_ok fun _ => hs
  · exact yields_ok fun _ => hs

/-- `read_write` panics for a process only that has bytes counted while it does not hang. -/
theorem PipeState.step_clear (hs : ∀ p, (s.proc p).Clear) (a : PipeAct) :
    Yields .cumIoPartial (fun t => Unbroken s a → ∀ p, (t.proc p).Clear) (s.step a) := by
  have hself : ∀ a', Unbroken s a' → ∀ p, (s.proc p).Clear := fun _ _ => hs
  cases a with
  | pipe p fd fd' =>
    refine .guard (fun _ => yields_ok fun _ q => ?_) (hself _)
    exact (hs q).alike ((share_alike s p fd (s.pipes, .reading) q).trans
      (share_alike _ p fd' (s.pipes, .writing) q))
  | rw p rw fd buf nbytes c =>
    refine .guard (fun ⟨hlive, hnone⟩ => ?_) (hself _)
    exact (readWrite_keeps hs hlive (Option.isNone_iff_eq_none.mp hnone)).bind fun _ _ hx =>
      yields_ok fun _ => hx
  | resume p c => exact (resume_keeps hs).bind fun _ _ hclear => yields_ok hclear
  | unpause p =>
    refine yields_ok fun ha => ClearBut.update (fun q _ => hs q) ?_ (unpause_proc p s)
    exact PipeProc.clear_of_zero ha rfl
  | close p fd =>
    exact .guard (fun _ => ⟨fun t h _ q => (hs q).alike (closePipe_alike h q),
      closePipe_avoids⟩) (hself _)
  | dup p fd fd' =>
    simp only [PipeState.step]
    split
    · exact .guard (fun _ => yields_ok fun _ q => (hs q).alike (share_alike s p fd' _ q)) (hself _)
    · exact yields_ok (hself _)
  | setfl p fd nonblock =>
    simp only [PipeState.step]
    split
    · exact .guard (fun _ => yields_ok (hself _)) (hself _)
    · exact yields_ok (hself _)
  | fork parent child =>
    exact .guard (fun _ => ⟨fun t h _ => pmFork_clear hs h, by simp [pmFork]⟩) (hself _)
  | exit p =>
    refine .guard (fun _ => ⟨fun t h _ => freeProc_clear hs h, ?_⟩) (hself _)
    exact avoids_bind.mpr ⟨avoids_foldlM (fun _ _ => closePipe_avoids) _ _, fun _ _ => avoids_ok⟩

/-- As long as no split write is interrupted or fails, no process is ever found with bytes counted
while it does not hang. -/
theorem partial_count_clear {n : Nat} (tr : Trace PipeState.step n) (live : Proc → Bool)
    (hinit : tr.state 0 = pipeBoot live)
    (hunbroken : ∀ i < n, Unbroken (tr.state i) (tr.act i)) :
    ∀ i ≤ n, (∀ a, (tr.state i).step a ≠ .error .cumIoPartial) ∧
      ∀ p, ((tr.state i).proc p).live = true → ((tr.state i).proc p).blocked = none →
        ((tr.state i).proc p).fpCumIoPartial = 0 := by
  have hinv := tr.invariant_of (fun s => ∀ p, (s.proc p).Clear) Unbroken
    (by rw [hinit]; exact fun p => PipeProc.clear_of_zero rfl rfl) hunbroken
    fun hs ha h => (PipeState.step_clear hs _).ok _ h ha
  intro i hi
  exact ⟨fun a => (PipeState.step_clear (hinv i hi) a).avoids, fun p hlive hnone =>
    (hinv i hi p).zero hlive hnone⟩

def proc0 : Proc := ⟨0, nrProcs_pos⟩
def fd0 : Fd := ⟨0, openMax_pos⟩
def fd1 : Fd := ⟨1, one_lt_openMax⟩

/-- A process makes a pipe, writes one byte more than fits, and reads after it was interrupted. -/
def brokenWrite : Nat → PipeAct
  | 0 => .pipe proc0 fd0 fd1
  | 1 => .rw proc0 .writing fd1 0 7169 ⟨fun _ => 0, true⟩
  | 2 => .unpause proc0
  | _ => .rw proc0 .reading fd0 0 1 ⟨fun _ => 0, true⟩

theorem partial_count_clear_split :
    ∃ tr : Trace PipeState.step 2, tr.state 0 = pipeBoot (fun _ => true) ∧
      (∀ i < 2, Unbroken (tr.state i) (tr.act i)) ∧
      ((tr.state 2).proc proc0).fpCumIoPartial = 7168 ∧
        ∀ a, (tr.state 2).step a ≠ .error .cumIoPartial := by
  let tr := Trace.run PipeState.step (pipeBoot fun _ => true) brokenWrite 2 (by decide +kernel)
  have hunbroken : ∀ i < 2, Unbroken (tr.state i) (tr.act i) := by
    intro i hi
    interval_cases i <;> exact trivial
  exact ⟨tr, rfl, hunbroken, by decide +kernel,
    (partial_count_clear tr _ rfl hunbroken 2 (by decide)).1⟩

/-- An interrupted write leaves its count behind, and the next read or write brings VFS down. -/
theorem interrupted_write_panics :
    ∃ tr : Trace PipeState.step 3, tr.state 0 = pipeBoot (fun _ => true) ∧
      ((tr.state 3).proc proc0).blocked.isNone ∧
      ((tr.state 3).proc proc0).fpCumIoPartial = 7168 ∧
        failure ((tr.state 3).step (brokenWrite 3)) = some .cumIoPartial := by
  let tr := Trace.run PipeState.step (pipeBoot fun _ => true) brokenWrite 3 (by decide +kernel)
  exact ⟨tr, rfl, by decide +kernel, by decide +kernel, by decide +kernel⟩

end Nucleos.Vfs
