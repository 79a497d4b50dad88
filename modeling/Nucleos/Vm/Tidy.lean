import Nucleos.Vm.Work

/-!
# The invariant of all processes

The regions that count are those in the lists of the processes. Every operation that works on
one region, removes one or adds one keeps the invariant; copying all regions of a process is
treated apart.
-/

namespace Nucleos.Vm

open IntrusiveList Sharing Run Relation

variable {s t u : State} {K : RegionId → Prop} {p : ProcId} {r : RegionId} {b : Nat} {A : Prop}
    {ok : Bool} {l : List RegionId} {prev : Option RegionId} {length : BitVec 32}

def State.Held (s : State) (r : RegionId) : Prop := ∃ p, r ∈ (s.proc p).vmRegions

structure State.Tidy (s : State) : Prop where
  sound : s.heap.Sound s.Held
  parent : ∀ p, ∀ r ∈ (s.proc p).vmRegions, (s.heap.region r).parent = p
  nodup : ∀ p, (s.proc p).vmRegions.Nodup

lemma Frame.vmRegions (h : Frame s t) (p : ProcId) : (t.proc p).vmRegions = (s.proc p).vmRegions := by
  rw [h.proc p]

lemma Frame.held (h : Frame s t) : t.Held = s.Held := by
  funext r
  exact propext (exists_congr fun p => by rw [h.vmRegions p])

lemma Frame.parent (h : Frame s t) (r : RegionId) : (t.heap.region r).parent = (s.heap.region r).parent := by
  rw [h.region r]

lemma State.Tidy.site (hs : s.Tidy) (hr : r ∈ (s.proc p).vmRegions) : Site s.Held p r s :=
  ⟨hs.sound, ⟨p, hr⟩, hs.parent p r hr⟩

lemma State.Tidy.frame (hs : s.Tidy) (hframe : Frame s t) (hsound : t.heap.Sound s.Held) : t.Tidy where
  sound := by
    rw [hframe.held]
    exact hsound
  parent p r hr := by
    rw [hframe.vmRegions] at hr
    rw [hframe.parent]
    exact hs.parent p r hr
  nodup p := by
    rw [hframe.vmRegions]
    exact hs.nodup p

lemma State.Tidy.updates (hs : s.Tidy) (hr : r ∈ (s.proc p).vmRegions) (h : Updates r b A s t) : t.Tidy :=
  hs.frame h.frame (h.sound ⟨p, hr⟩ hs.sound)

lemma State.Tidy.aside (hs : s.Tidy) (h : Aside s t) : t.Tidy :=
  hs.frame h.frame (by rw [h.heap]; exact hs.sound)

/-! ## A region goes -/

def State.unlink (s : State) (p : ProcId) (r : RegionId) : State :=
  s.modProc p fun x => { x with vmRegions := x.vmRegions.erase r }

lemma unlink_vmRegions (s : State) (p : ProcId) (r : RegionId) (q : ProcId) :
    ((s.unlink p r).proc q).vmRegions = if q = p then (s.proc q).vmRegions.erase r
      else (s.proc q).vmRegions := by
  rw [State.unlink, State.modProc_proc]
  split <;> rfl

lemma State.Tidy.held_unlink (hs : s.Tidy) (hr : r ∈ (s.proc p).vmRegions) (q : RegionId) :
    (s.unlink p r).Held q ↔ s.Held q ∧ q ≠ r := by
  constructor
  · rintro ⟨p', hq⟩
    rw [unlink_vmRegions] at hq
    split_ifs at hq with hp
    · subst hp
      obtain ⟨hne, hq⟩ := (hs.nodup p').mem_erase_iff.mp hq
      exact ⟨⟨p', hq⟩, hne⟩
    · refine ⟨⟨p', hq⟩, ?_⟩
      rintro rfl
      exact hp ((hs.parent p' q hq).symm.trans (hs.parent p q hr))
  · rintro ⟨⟨p', hq⟩, hne⟩
    refine ⟨p', ?_⟩
    rw [unlink_vmRegions]
    split_ifs
    · exact (List.mem_erase_of_ne hne).mpr hq
    · exact hq

lemma State.Tidy.gone (hs : s.Tidy) (hr : r ∈ (s.proc p).vmRegions) (hframe : Frame (s.unlink p r) t)
    (hsound : t.heap.Sound s.Held) (hempty : (t.heap.region r).phys = []) : t.Tidy where
  sound := by
    have hheld : t.Held = fun q => s.Held q ∧ q ≠ r := by
      rw [hframe.held]
      funext q
      exact propext (hs.held_unlink hr q)
    rw [hheld]
    exact hsound.drop hempty
  parent q r' hr' := by
    rw [hframe.vmRegions, unlink_vmRegions] at hr'
    rw [hframe.parent]
    split_ifs at hr'
    · exact hs.parent q r' (List.mem_of_mem_erase hr')
    · exact hs.parent q r' hr'
  nodup q := by
    rw [hframe.vmRegions, unlink_vmRegions]
    split_ifs
    · exact (hs.nodup q).erase r
    · exact hs.nodup q

/-- A round of `freeRegions`: a region is freed, and then it leaves the list of its process. -/
structure Freed (p : ProcId) (r : RegionId) (s t : State) : Prop where
  tidy : s.Tidy
  mem : r ∈ (s.proc p).vmRegions
  updates : Updates r (s.heap.region r).length.toNat False s t
  empty : (t.heap.region r).phys = []

lemma Freed.tidy_unlink (h : Freed p r s t) : (t.unlink p r).Tidy := by
  have hframe := h.updates.frame
  refine h.tidy.gone h.mem ⟨hframe.region, fun q => ?_,
    hframe.next⟩ (h.updates.site (h.tidy.site h.mem)).sound h.empty
  by_cases hq : q = p
  · subst hq
    simp only [State.modProc, State.unlink, Function.update_self]
    rw [hframe.proc q]
  · simpa [State.modProc, State.unlink, hq] using hframe.proc q

lemma Freed.held_unlink (h : Freed p r s t) (q : RegionId) : (t.unlink p r).Held q ↔ s.Held q ∧ q ≠ r := by
  have hframe := h.updates.frame
  rw [(h.tidy.updates h.mem h.updates).held_unlink (by rw [hframe.vmRegions]; exact h.mem), hframe.held]

lemma freeRegions_rule {P : State → Prop}
    (hround : ∀ {s t r}, Freed p r s t → P s → P (t.unlink p r)) (hs : s.Tidy) (hP : P s)
    (hregions : (s.proc p).vmRegions = l) (h : freeRegions p l s = .ok t) :
    P t ∧ t.Tidy ∧ (t.proc p).vmRegions = [] := by
  induction l generalizing s with
  | nil =>
    cases h
    exact ⟨hP, hs, hregions⟩
  | cons r rest ih =>
    rw [freeRegions] at h
    obtain ⟨⟨ok, s₁⟩, hfree, h⟩ := bind_eq_ok.mp h
    have hr : r ∈ (s.proc p).vmRegions := hregions ▸ List.mem_cons_self
    obtain ⟨hup, -, hempty⟩ := mapFree_updates (hs.site hr) hfree
    have hfreed : Freed p r s s₁ := ⟨hs, hr, hup, hempty⟩
    have herase : (s₁.proc p).vmRegions.erase r = rest := by
      rw [hup.frame.vmRegions, hregions, List.erase_cons_head]
    have hunlink : (s₁.modProc p fun x => { x with vmRegions := rest }) = s₁.unlink p r := by
      rw [State.unlink, State.modProc, State.modProc, herase]
    simp only [hunlink] at h
    refine ih hfreed.tidy_unlink (hround hfreed hP) ?_ h
    rw [unlink_vmRegions, if_pos rfl, herase]

lemma freeRegions_tidy (hs : s.Tidy) (hregions : (s.proc p).vmRegions = l)
    (h : freeRegions p l s = .ok t) : t.Tidy ∧ (t.proc p).vmRegions = [] :=
  (freeRegions_rule (P := fun _ => True) (fun _ _ => trivial) hs trivial hregions h).2

/-! ## A region loses its front -/

/-- The whole region goes, or its blocks up to `len` go and it begins behind them. -/
inductive FrontGone (p : ProcId) (r : RegionId) (len : BitVec 32) (s : State) : State → Prop where
  | all {t : State} (hup : Updates r len.toNat False (s.unlink p r) t)
      (hempty : (t.heap.region r).phys = []) : FrontGone p r len s t
  | front {t : State} (hup : Updates r len.toNat (s.heap.CutsShared r len) s t)
      (habove : t.denied = s.denied ∨ ¬ s.heap.CutsShared r len → ∀ x ∈ (t.heap.region r).phys,
        len.toNat ≤ t.heap.start x) :
      FrontGone p r len s (t.modHeap fun h => h.shrink r len)

lemma State.Tidy.site_unlink (hs : s.Tidy) (hr : r ∈ (s.proc p).vmRegions) : Site s.Held p r (s.unlink p r) :=
  ⟨hs.sound, ⟨p, hr⟩, hs.parent p r hr⟩

variable {len : BitVec 32}

lemma unmapFront_gone (hs : s.Tidy) (hr : r ∈ (s.proc p).vmRegions) (hdvd : 4096 ∣ len.toNat)
    (h : unmapFront p r len s = .ok t) : FrontGone p r len s t := by
  unfold unmapFront at h
  split at h
  · next hlen =>
    obtain ⟨⟨ok, s₁⟩, hfree, h⟩ := bind_eq_ok.mp h
    cases h
    obtain ⟨hup, -, hempty⟩ := mapFree_updates (hs.site_unlink hr) hfree
    exact .all (hlen ▸ hup) hempty
  · obtain ⟨⟨ok, s₁⟩, hsub, h⟩ := bind_eq_ok.mp h
    cases h
    obtain ⟨hup, habove, hfail⟩ := subfreeFrom_updates (hs.site hr) hdvd id rfl hsub
    refine .front hup fun hgranted => habove (eq_true_of_ne_false fun hf => ?_)
    obtain ⟨hcuts, hden⟩ := hfail hf
    exact hgranted.elim (Nat.ne_of_gt hden) (absurd hcuts)

lemma unmapFront_tidy (hs : s.Tidy) (hr : r ∈ (s.proc p).vmRegions) (hle : len ≤ (s.heap.region r).length)
    (hdvd : 4096 ∣ len.toNat) (h : unmapFront p r len s = .ok t)
    (hden : t.denied = s.denied ∨ ¬ s.heap.CutsShared r len) :
    t.Tidy := by
  cases unmapFront_gone hs hr hdvd h with
  | all hup hempty => exact hs.gone hr hup.frame (hup.site (hs.site_unlink hr)).sound hempty
  | @front s₁ hup habove =>
    have htidy := hs.updates hr hup
    have hr₁ : r ∈ (s₁.proc p).vmRegions := by
      rw [hup.frame.vmRegions]
      exact hr
    have hshrink := htidy.sound.shrink ⟨p, hr₁⟩ (habove hden)
      (by rw [hup.length]; exact BitVec.le_def.mp hle) hdvd
    refine ⟨hshrink, fun q r' hr' => ?_, htidy.nodup⟩
    have hsh := shrink_shrunk len (htidy.sound.tree r ⟨p, hr₁⟩).nodup
    have hparent : ((s₁.modHeap fun h => h.shrink r len).heap.region r').parent =
      (s₁.heap.region r').parent := by
      refine (congrArg VirRegion.parent (hsh.region r')).trans ?_
      split_ifs <;> rfl
    rw [hparent]
    exact htidy.parent q r' hr'

/-! ## A region comes -/

lemma insertAfter_perm {q : RegionId} (hq : q ∈ l) : (insertAfter r q l).Perm (r :: l) := by
  induction l with
  | nil => nomatch hq
  | cons x l ih =>
    rw [insertAfter]
    split_ifs with hx
    · exact List.Perm.swap r x l
    · have hq' : q ∈ l := (List.mem_cons.mp hq).resolve_left fun heq => hx heq.symm
      exact ((ih hq').cons x).trans (List.Perm.swap r x l)

lemma linkRegion_perm (hprev : ∀ q ∈ prev, q ∈ l) : (linkRegion r prev l).Perm (r :: l) := by
  cases prev with
  | none => exact List.Perm.refl _
  | some q => exact insertAfter_perm (hprev q rfl)

variable {h : Heap} {minv maxv v : BitVec 32}

lemma findBehind_split (hfind : findBehind h minv maxv length l = some (v, prev)) :
    ∃ l₁ q l₂, l = l₁ ++ q :: l₂ ∧ prev = some q ∧
      freevrange minv maxv length ((h.region q).vaddr + (h.region q).length) (h.rangeLimit l₂) = some v := by
  induction l with
  | nil => nomatch hfind
  | cons x l ih =>
    rw [findBehind] at hfind
    split at hfind
    · next startv hfree =>
      cases hfind
      exact ⟨[], x, l, rfl, rfl, hfree⟩
    · next hfree =>
      obtain ⟨l₁, q, l₂, rfl, hprev, hfree⟩ := ih hfind
      exact ⟨x :: l₁, q, l₂, rfl, hprev, hfree⟩

lemma regionFindSlot_mem (hfind : regionFindSlot h l minv maxv length = some (v, prev)) :
    ∀ q ∈ prev, q ∈ l := by
  unfold regionFindSlot at hfind
  simp only at hfind
  rcases ite_eq_iff.mp hfind with ⟨_, hfind⟩ | ⟨_, hfind⟩
  · nomatch hfind
  split at hfind
  · cases hfind
    exact nofun
  · obtain ⟨l₁, q, l₂, rfl, rfl, -⟩ := findBehind_split hfind
    simp

def State.link (s : State) (p : ProcId) (r : RegionId) (prev : Option RegionId) : State :=
  s.modProc p fun x => { x with vmRegions := linkRegion r prev x.vmRegions }

lemma link_vmRegions (s : State) (p : ProcId) (r : RegionId) (prev : Option RegionId) (q : ProcId) :
    ((s.link p r prev).proc q).vmRegions = if q = p then linkRegion r prev (s.proc q).vmRegions
      else (s.proc q).vmRegions := by
  rw [State.link, State.modProc_proc]
  split <;> rfl

def Adds (p : ProcId) (r : RegionId) (s t : State) : Prop :=
  ∀ q, (t.proc q).vmRegions.Perm (if q = p then r :: (s.proc q).vmRegions else (s.proc q).vmRegions)

lemma Adds.mem (h : Adds p r s t) (q : ProcId) (r' : RegionId) :
    r' ∈ (t.proc q).vmRegions ↔ (q = p ∧ r' = r) ∨ r' ∈ (s.proc q).vmRegions := by
  rw [(h q).mem_iff]
  split_ifs with hq
  · rw [List.mem_cons]
    exact or_congr_left ⟨fun h => ⟨hq, h⟩, fun h => h.2⟩
  · exact ⟨.inr, fun h => h.resolve_left fun h => hq h.1⟩

lemma Adds.held (h : Adds p r s t) : t.Held = fun q => q = r ∨ s.Held q := by
  funext r'
  apply propext
  constructor
  · rintro ⟨q, hq⟩
    exact ((h.mem q r').mp hq).imp And.right fun hr => ⟨q, hr⟩
  rintro (rfl | ⟨q, hr⟩)
  · exact ⟨p, (h.mem p r').mpr (.inl ⟨rfl, rfl⟩)⟩
  · exact ⟨q, (h.mem q r').mpr (.inr hr)⟩

lemma State.Tidy.adds (hs : s.Tidy) (h : Adds p s.heap.nextRegion s t)
    (hold : ∀ r', s.Held r' → (t.heap.region r').parent = (s.heap.region r').parent)
    (hsound : t.heap.Sound fun q => q = s.heap.nextRegion ∨ s.Held q)
    (hparent : (t.heap.region s.heap.nextRegion).parent = p) :
    t.Tidy := by
  refine ⟨?_, fun q r' hr' => ?_, fun q => ?_⟩
  · rw [h.held]
    exact hsound
  · rcases (h.mem q r').mp hr' with ⟨rfl, rfl⟩ | hr
    · exact hparent
    · exact (hold r' ⟨q, hr⟩).trans (hs.parent q r' hr)
  rw [(h q).nodup_iff]
  split_ifs
  · exact List.nodup_cons.mpr ⟨fun hin => Nat.lt_irrefl _ (hs.sound.tree _ ⟨q, hin⟩).lt, hs.nodup q⟩
  · exact hs.nodup q

lemma adds_link (hlist : ∀ q, (u.proc q).vmRegions = (s.proc q).vmRegions)
    (hprev : ∀ q ∈ prev, q ∈ (s.proc p).vmRegions) :
    Adds p r s (u.link p r prev) := by
  intro q
  rw [link_vmRegions, hlist]
  split_ifs with hq
  · subst hq
    exact linkRegion_perm hprev
  · exact .refl _

/-! ## Building a region -/

variable {n pde : Nat}

lemma ptAlloc_of_dir (h : ∀ i < n, (s.proc p).vmPt.dir (pde + i) = true) : ptAlloc p n pde s = (true, s) := by
  induction n generalizing pde with
  | zero => rfl
  | succ n ih =>
    have hfirst : (s.proc p).vmPt.dir pde = true := h 0 (Nat.zero_lt_succ n)
    rw [ptAlloc, if_pos hfirst]
    refine ih fun i hi => ?_
    have hnext := h (i + 1) (Nat.succ_lt_succ hi)
    rw [Nat.add_assoc, Nat.add_comm 1 i]
    exact hnext

lemma ptAlloc_dir (h : ptAlloc p n pde s = (true, t)) : ∀ i < n, (t.proc p).vmPt.dir (pde + i) = true := by
  induction n generalizing s pde with
  | zero => exact fun i hi => absurd hi (Nat.not_lt_zero i)
  | succ n ih =>
    have hcons : ∀ {u : State}, ptAlloc p n (pde + 1) u = (true, t) → (u.proc p).vmPt.dir pde = true →
        ∀ i < n + 1, (t.proc p).vmPt.dir (pde + i) = true := by
      intro u hu hdir i hi
      cases i with
      | zero => exact (ptAlloc_aside hu).1.dir p pde hdir
      | succ i =>
        have hi' := ih hu i (Nat.lt_of_succ_lt_succ hi)
        rw [Nat.add_assoc, Nat.add_comm 1 i] at hi'
        exact hi'
    rw [ptAlloc] at h
    split_ifs at h with hdir
    · exact hcons h hdir
    split at h
    · cases h
    next s₁ hs =>
    refine hcons h ?_
    simp [State.modProc]

variable {v : BitVec 32} {pages : Nat} {entry : Nat → Option Pte}

lemma ptWritemap_of_dir
    (h : ∀ i < pdeOf (pageAt v pages) + 1 - pdeOf v, (s.proc p).vmPt.dir (pdeOf v + i) = true) :
    (ptWritemap p v pages entry s).1 = true := by
  unfold ptWritemap
  rw [ptAlloc_of_dir h]

lemma ptWritemap_dir (h : ptWritemap p v pages entry s = (true, t)) :
    ∀ i < pdeOf (pageAt v pages) + 1 - pdeOf v, (t.proc p).vmPt.dir (pdeOf v + i) = true := by
  unfold ptWritemap at h
  split at h
  · nomatch h
  next s₁ ha =>
  cases h
  intro i hi
  simpa [State.modProc] using ptAlloc_dir ha i hi

lemma mapPhWritept_again {offset what : BitVec 32} {new : PhysId}
    (h : mapNewPhysblock p r offset length what s = (some new, t)) : (mapPhWritept p r new t).1 = true := by
  obtain ⟨_, s₃, s₄, mem, -, -, rfl, h₄, rfl⟩ := mapNewPhysblock_inv h
  have hdir := ptWritemap_dir h₄
  obtain ⟨-, ha⟩ | ⟨hf, -⟩ := mapPhWritept_aside h₄
  · have hheap : s₄.heap = s₃.heap.newBlock r offset length mem := ha.heap
    have hvaddr : ((s₄.heap.insertPhys r s₃.heap.nextPhys).region r).vaddr =
        ((s₃.heap.newBlock r offset length mem).region r).vaddr := by
      rw [hheap]
      simp [Heap.insertPhys, Heap.modRegion]
    refine ptWritemap_of_dir fun i hi => ?_
    simp only [State.modHeap, hvaddr] at hi ⊢
    rw [hheap] at hi ⊢
    exact hdir i hi
  · cases hf

lemma mapWhat_spec {what : BitVec 32} (h : mapWhat p r length what s = (ok, t)) : (ok = false ∧ Aside s t) ∨
      (ok = true ∧ ((what = mapNone ∧ t = s) ∨
        (what ≠ mapNone ∧ Aside ((s.addBlock p r 0 length what).mapPtes p r s.heap.nextPhys) t))) := by
  unfold mapWhat at h
  split_ifs at h with hw
  · cases hnew : mapNewPhysblock p r 0 length what s with
    | mk new s₁ =>
      rw [hnew] at h
      cases new with
      | none =>
        cases h
        exact .inl ⟨rfl, (mapNewPhysblock_none hnew).1⟩
      | some new =>
        have hagain := mapPhWritept_again hnew
        obtain ⟨rfl, ⟨_, ha⟩ | ⟨hn, -⟩⟩ := mapNewPhysblock_some hnew
        · obtain ⟨rfl, ha'⟩ | ⟨rfl, -⟩ := mapPhWritept_aside h
          · exact .inr ⟨rfl, .inr ⟨hw, (ha.mapPtes _ _ _).trans ha'⟩⟩
          · simp only at h
            rw [h] at hagain
            nomatch hagain
        · exact absurd hn hw
  · cases h
    exact .inr ⟨rfl, .inl ⟨not_not.mp hw, rfl⟩⟩

lemma mapHandleMemory_empty {write : Bool} (hs : Site K p r s) (hempty : (s.heap.region r).phys = [])
    (hlength : (s.heap.region r).length = length) (hpos : 0 < length.toNat)
    (h : mapHandleMemory p r 0 length write s = .ok (ok, t)) :
    (ok = false ∧ Aside s t) ∨ (ok = true ∧ Updates r b True s t) := by
  have hgap : s.heap.Gap r 0 length [] [] := by
    refine ⟨hempty, nofun, nofun, hpos, ?_, ?_, ?_⟩
    · simp [hlength]
    · simp
    · rw [← hlength]
      exact hs.tree.dvd
  have hlt : (0 : BitVec 32) < length := by
    rw [BitVec.lt_def]
    simpa using hpos
  have hadd : (0 : BitVec 32) + length = length := by simp
  have hsub : length - (0 : BitVec 32) = length := by simp
  unfold mapHandleMemory at h
  simp only [hempty, Heap.fromLessEqual, List.head?_nil, freeRangeHere, Heap.rangeStart,
    Heap.rangeEnd, passFirst,
    handleBlocks, hadd, hsub, if_pos hlt] at h
  rcases hnew : mapNewPhysblock p r 0 length mapNone s with ⟨new, s₁⟩
  rw [hnew] at h
  cases new with
  | none =>
    cases h
    exact .inl ⟨rfl, (mapNewPhysblock_none hnew).1⟩
  | some new =>
    cases h
    exact .inr ⟨rfl, (mapNewPhysblock_updates hs.parent hs.tree trivial hgap hnew).1⟩

section Page
variable {minv maxv length what : BitVec 32} {flags : BitVec 16} {prealloc : Bool} {startv : BitVec 32}

/-- The state with a new region that is in no list, and with the block it was asked to show. -/
def State.pageRegion (s : State) (p : ProcId) (startv length what : BitVec 32) (flags : BitVec 16) : State :=
  let s₁ := s.modHeap fun h => h.newRegion ⟨startv, length, [], flags, vrtNone, p⟩
  if what = mapNone then s₁ else s₁.addBlock p s.heap.nextRegion 0 length what

lemma newRegion_new (h : Heap) (x : VirRegion) :
    (h.newRegion x).region h.nextRegion = { x with phys := [] } := by
  simp [Heap.newRegion]

lemma newRegion_of_ne (h : Heap) (x : VirRegion) (hr : r ≠ h.nextRegion) :
    (h.newRegion x).region r = h.region r := by
  simp [Heap.newRegion, hr]

def State.Building (s : State) (r : RegionId) : Prop := r = s.heap.nextRegion ∨ s.Held r

lemma State.Tidy.site_newRegion (hs : s.Tidy) (p : ProcId) (startv : BitVec 32) (flags : BitVec 16)
    (hdvd : 4096 ∣ length.toNat) :
    Site s.Building p s.heap.nextRegion (s.modHeap fun h =>
      h.newRegion ⟨startv, length, [], flags, vrtNone, p⟩) :=
  ⟨hs.sound.newRegion hdvd, .inl rfl, congrArg VirRegion.parent (newRegion_new _ _)⟩

lemma gap_newRegion (h : Heap) (p : ProcId) (startv : BitVec 32) (flags : BitVec 16)
    (hpos : 0 < length.toNat) (hdvd : 4096 ∣ length.toNat) :
    (h.newRegion ⟨startv, length, [], flags, vrtNone, p⟩).Gap h.nextRegion 0 length [] [] := by
  have hnew := newRegion_new h ⟨startv, length, [], flags, vrtNone, p⟩
  refine ⟨congrArg VirRegion.phys hnew, nofun, nofun, hpos, ?_, ?_, hdvd⟩
  · rw [hnew]
    simp
  · simp

lemma State.Tidy.new_pageRegion (hs : s.Tidy) (p : ProcId) (startv what : BitVec 32)
    (flags : BitVec 16) (hpos : 0 < length.toNat) (hdvd : 4096 ∣ length.toNat) :
    (s.pageRegion p startv length what flags).heap.region s.heap.nextRegion =
      ⟨startv, length, if what = mapNone then [] else [s.heap.nextPhys], flags, vrtNone, p⟩ := by
  have hnew := newRegion_new s.heap ⟨startv, length, [], flags, vrtNone, p⟩
  unfold State.pageRegion
  simp only
  split_ifs
  · exact hnew
  refine ((hs.site_newRegion p startv flags hdvd).tree.region_newBlock what
    (gap_newRegion s.heap p startv flags hpos hdvd) s.heap.nextRegion).trans ?_
  rw [if_pos rfl]
  exact congrArg (fun x : VirRegion => { x with phys := [s.heap.nextPhys] }) hnew

lemma State.Tidy.site_pageRegion (hs : s.Tidy) (p : ProcId) (startv what : BitVec 32)
    (flags : BitVec 16) (hpos : 0 < length.toNat) (hdvd : 4096 ∣ length.toNat) :
    Site s.Building p s.heap.nextRegion (s.pageRegion p startv length what flags) := by
  refine ⟨?_, .inl rfl, congrArg VirRegion.parent (hs.new_pageRegion p startv what flags hpos hdvd)⟩
  have hsite := hs.site_newRegion p startv flags hdvd
  unfold State.pageRegion
  simp only
  split_ifs
  · exact hsite.sound
  · exact hsite.sound.newBlock what hsite.mem (gap_newRegion s.heap p startv flags hpos hdvd)

variable {res : Option RegionId}

lemma mapPageRegion_cases (h : mapPageRegion p minv maxv length what flags prealloc s = .ok (res, t)) :
    (res = none ∧ Aside s t) ∨ ∃ startv prev s₃ got u,
      regionFindSlot s.heap (s.proc p).vmRegions minv maxv length = some (startv, prev) ∧
      Aside (s.modHeap fun h => h.newRegion ⟨startv, length, [], flags, vrtNone, p⟩) s₃ ∧
      mapWhat p s.heap.nextRegion length what s₃ = (got, u) ∧ ((got = false ∧ res = none ∧ t = u) ∨
        (got = true ∧
        ∃ ok v, preallocate p s.heap.nextRegion length flags prealloc u = .ok (ok, v) ∧
          ((ok = false ∧ res = none ∧ t = v) ∨ (ok = true ∧ res = some s.heap.nextRegion ∧
            t = v.link p s.heap.nextRegion prev)))) := by
  unfold mapPageRegion at h
  split at h
  · cases h
    exact .inl ⟨rfl, Aside.refl s⟩
  next startv prev hslot =>
  rcases slabs_cases h with ⟨u, ha, -, h⟩ | ⟨s₂, ha, h⟩
  · cases h
    exact .inl ⟨rfl, ha⟩
  simp only [ha.heap] at h
  split at h
  · next u hwhat =>
    cases h
    exact .inr ⟨startv, prev, _, _, _, hslot, ha.modHeap _, hwhat, .inl ⟨rfl, rfl, rfl⟩⟩
  next u hwhat =>
  obtain ⟨⟨ok, v⟩, hpre, h⟩ := bind_eq_ok.mp h
  refine .inr ⟨startv, prev, _, _, _, hslot, ha.modHeap _, hwhat, .inr ⟨rfl, ok, v, hpre, ?_⟩⟩
  cases ok with
  | false =>
    cases h
    exact .inl ⟨rfl, rfl, rfl⟩
  | true =>
    cases h
    exact .inr ⟨rfl, rfl, rfl⟩

/-- `map_page_region` finds no room, is refused an allocation, or builds the region and links it. -/
theorem mapPageRegion_spec (hs : s.Tidy) (hpos : 0 < length.toNat) (hdvd : 4096 ∣ length.toNat)
    (hwhat : what ≠ mapNone → prealloc = false)
    (h : mapPageRegion p minv maxv length what flags prealloc s = .ok (res, t)) :
    (res = none ∧ (Aside s t ∨ ∃ x, Aside (s.modHeap fun h => h.newRegion x) t)) ∨
      ∃ startv prev u, regionFindSlot s.heap (s.proc p).vmRegions minv maxv length = some (startv, prev) ∧
        res = some s.heap.nextRegion ∧
          Updates s.heap.nextRegion 0 True (s.pageRegion p startv length what flags) u ∧
        t = u.link p s.heap.nextRegion prev := by
  rcases mapPageRegion_cases h with ⟨rfl, ha⟩ | ⟨startv, prev, s₃, got, s₄, hslot, hnew, h₃, h⟩
  · exact .inl ⟨rfl, .inl ha⟩
  have hsite := hs.site_newRegion p startv flags hdvd
  have hregion : s₃.heap.region s.heap.nextRegion = ⟨startv, length, [], flags, vrtNone, p⟩ := by
    rw [hnew.heap]
    exact newRegion_new _ _
  rcases mapWhat_spec h₃ with ⟨rfl, ha⟩ | ⟨rfl, hshown⟩
  · rcases h with ⟨-, rfl, rfl⟩ | ⟨hf, -⟩
    · exact .inl ⟨rfl, .inr ⟨_, hnew.trans ha⟩⟩
    · nomatch hf
  rcases h with ⟨hf, -⟩ | ⟨-, ok, s₅, hpre, h⟩
  · nomatch hf
  -- a region that shows given memory is not preallocated
  have hbuilt : (ok = false ∧ ∃ x, Aside (s.modHeap fun h => h.newRegion x) s₅) ∨
      (ok = true ∧ Updates s.heap.nextRegion 0 True (s.pageRegion p startv length what flags) s₅) := by
    unfold preallocate at hpre
    rcases hshown with ⟨hw, rfl⟩ | ⟨hw, ha⟩
    · have hsame : s.pageRegion p startv length what flags =
          s.modHeap fun h => h.newRegion ⟨startv, length, [], flags, vrtNone, p⟩ := by
        unfold State.pageRegion
        simp only [if_pos hw]
      rw [hsame]
      split at hpre
      · have hsite₃ : Site s.Building p s.heap.nextRegion s₄ := (hnew.updates (b := 0) (A := True)).site hsite
        have hemp := mapHandleMemory_empty (b := 0) hsite₃ (by rw [hregion]) (by rw [hregion]) hpos hpre
        rcases hemp with ⟨rfl, ha⟩ | ⟨rfl, hup⟩
        · exact .inl ⟨rfl, _, hnew.trans ha⟩
        · exact .inr ⟨rfl, hnew.updates.trans hup⟩
      · cases hpre
        exact .inr ⟨rfl, hnew.updates⟩
    · rw [hwhat hw, if_neg fun hc => (nomatch hc.2)] at hpre
      cases hpre
      refine .inr ⟨rfl, ?_⟩
      have hshow : Aside ((s.pageRegion p startv length what flags).mapPtes p s.heap.nextRegion
        s.heap.nextPhys) s₄ := by
        unfold State.pageRegion
        simp only [if_neg hw]
        rw [hnew.heap] at ha
        exact ((hnew.addBlock p s.heap.nextRegion 0 length what).mapPtes _ _ _).trans ha
      have hregion := hs.new_pageRegion p startv what flags hpos hdvd
      have hmap : Update s.heap.nextRegion 0 True (s.pageRegion p startv length what flags) _ :=
        .map s.heap.nextPhys (by rw [hregion, if_neg hw]; exact List.mem_cons_self)
      rw [hregion] at hmap
      exact .tail (.single hmap) (.aside hshow)
  rcases h with ⟨rfl, rfl, rfl⟩ | ⟨rfl, rfl, rfl⟩ <;> rcases hbuilt with ⟨hok, x, ha⟩ | ⟨hok, hup⟩
  · exact .inl ⟨rfl, .inr ⟨x, ha⟩⟩
  · nomatch hok
  · nomatch hok
  · exact .inr ⟨startv, prev, s₅, hslot, rfl, hup, rfl⟩

lemma pageRegion_region (s : State) (p : ProcId) (startv length what : BitVec 32) (flags : BitVec 16)
    (hr : r ≠ s.heap.nextRegion) :
    (s.pageRegion p startv length what flags).heap.region r = s.heap.region r := by
  have hold : ∀ x, (s.heap.newRegion x).region r = s.heap.region r := fun x => newRegion_of_ne s.heap x hr
  unfold State.pageRegion
  simp only
  split_ifs
  · exact hold _
  · simp [State.addBlock, State.modHeap, State.mapPtes, State.setPtes, State.modProc,
      Heap.insertPhys, Heap.modRegion,
      Heap.newBlock, hr, hold]

lemma pageRegion_proc (s : State) (p : ProcId) (startv length what : BitVec 32) (flags : BitVec 16)
    (q : ProcId) :
    (s.pageRegion p startv length what flags).proc q =
      { s.proc q with vmPt := ((s.pageRegion p startv length what flags).proc q).vmPt } := by
  unfold State.pageRegion
  simp only
  split_ifs
  · rfl
  · exact (mapPtes_frame _ _ _ _).proc q

section Linked
variable {startv : BitVec 32} {prev : Option RegionId}
  (hup : Updates s.heap.nextRegion 0 True (s.pageRegion p startv length what flags) u)
include hup

lemma vmRegions_paged (q : ProcId) : (u.proc q).vmRegions = (s.proc q).vmRegions := by
  rw [hup.frame.vmRegions, pageRegion_proc]

lemma held_linked (hslot : regionFindSlot s.heap (s.proc p).vmRegions minv maxv length =
    some (startv, prev)) :
    (u.link p s.heap.nextRegion prev).Held = s.Building :=
  (adds_link (vmRegions_paged hup) (regionFindSlot_mem hslot)).held

end Linked

lemma State.Tidy.newRegion_region (hs : s.Tidy) (x : VirRegion) (hr : s.Held r) :
    (s.heap.newRegion x).region r = s.heap.region r :=
  newRegion_of_ne s.heap x (Nat.ne_of_lt (hs.sound.tree r hr).lt)

lemma State.Tidy.allocRegion (hs : s.Tidy) (x : VirRegion) : (s.modHeap fun h => h.newRegion x).Tidy := by
  refine ⟨hs.sound.allocRegion x, fun q r hr => ?_, hs.nodup⟩
  exact (congrArg VirRegion.parent (hs.newRegion_region x ⟨q, hr⟩)).trans (hs.parent q r hr)

lemma mapPageRegion_tidy (hs : s.Tidy) (hpos : 0 < length.toNat) (hdvd : 4096 ∣ length.toNat)
    (hwhat : what ≠ mapNone → prealloc = false)
    (h : mapPageRegion p minv maxv length what flags prealloc s = .ok (res, t)) :
    t.Tidy := by
  rcases mapPageRegion_spec hs hpos hdvd hwhat h
    with ⟨-, ha | ⟨x, ha⟩⟩ | ⟨startv, prev, u, hslot, -, hup, rfl⟩
  · exact hs.aside ha
  · exact (hs.allocRegion x).aside ha
  have hsite := hup.site (hs.site_pageRegion p startv what flags hpos hdvd)
  refine hs.adds (adds_link (vmRegions_paged hup) (regionFindSlot_mem hslot)) (fun r' hr' => ?_)
    hsite.sound hsite.parent
  have hne := Nat.ne_of_lt (hs.sound.tree r' hr').lt
  exact (hup.frame.parent r').trans (congrArg VirRegion.parent (pageRegion_region s p startv length
    what flags hne))

end Page

end Nucleos.Vm
