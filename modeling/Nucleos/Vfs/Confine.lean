import Nucleos.Vfs.Path

/-!
# What a process with another root can reach

A process that was given a directory as its root stays below it exactly when `..` stops there in
every request that reaches the root. `lookup` compares the device of the root with that of the
working directory even where the path starts at the root, and a file system that is asked to go on
from a mount point takes the first component it uses for `..`.
-/

namespace Nucleos.Vfs

open Run

namespace Hierarchy

variable {h : Hierarchy} {rd wd d n m : Inode} {s : List Char} {dev root : Nat} {f : MountedFs}

/-! ## The tree -/

variable {check : Bool} {dir t : Inode}

lemma mem_of_findVmnt (hf : h.findVmnt dev = some f) : f ∈ h.vmnt ∧ f.dev = dev :=
  ⟨List.mem_of_find?_eq_some hf, by simpa using List.find?_some hf⟩

lemma mem_of_mountOn (hf : h.mountOn n = some f) : f ∈ h.vmnt ∧ f.mountedOn = some n :=
  ⟨List.mem_of_find?_eq_some hf, by simpa using List.find?_some hf⟩

lemma findVmnt_of_mem (hf : f ∈ h.vmnt) : h.findVmnt f.dev = some f := by
  cases hfind : h.findVmnt f.dev with
  | none => exact absurd (List.find?_eq_none.mp hfind f hf) (by simp)
  | some g =>
    obtain ⟨hg, hdev⟩ := mem_of_findVmnt hfind
    rw [h.vmnt_once hg hf hdev]

lemma mountOn_of_mem (hf : f ∈ h.vmnt) (hn : f.mountedOn = some n) : h.mountOn n = some f := by
  cases hfind : h.mountOn n with
  | none => exact absurd (List.find?_eq_none.mp hfind f hf) (by simpa using hn)
  | some g =>
    obtain ⟨hg, hon⟩ := mem_of_mountOn hfind
    rw [h.mount_once hg hf hon hn]

lemma mem_of_mountedOn (hm : h.mountedOn dev = some m) :
    ∃ f ∈ h.vmnt, f.dev = dev ∧ f.mountedOn = some m := by
  obtain ⟨f, hf, hon⟩ := Option.bind_eq_some_iff.mp hm
  exact ⟨f, (mem_of_findVmnt hf).1, (mem_of_findVmnt hf).2, hon⟩

lemma mountedOn_of_mem (hf : f ∈ h.vmnt) (hm : f.mountedOn = some m) : h.mountedOn f.dev = some m :=
  Option.bind_eq_some_iff.mpr ⟨f, findVmnt_of_mem hf, hm⟩

lemma mountpoint_of_mountedOn (hm : h.mountedOn dev = some m) : h.mountpoint m = true := by
  obtain ⟨f, hf, -, hon⟩ := mem_of_mountedOn hm
  exact Option.isSome_iff_exists.mpr ⟨f, mountOn_of_mem hf hon⟩

lemma child_mountedOn (hm : h.mountedOn dev = some m) : h.Child m (Inode.root dev) := by
  obtain ⟨f, hf, rfl, hon⟩ := mem_of_mountedOn hm
  exact .inr ⟨f, hf, hon, rfl⟩

lemma Child.depth_lt (hc : h.Child d n) : h.depth d < h.depth n := by
  rcases hc with ⟨s, hs⟩ | ⟨f, hf, hon, rfl⟩
  · exact h.entry_depth hs
  · exact h.mount_depth hf hon

lemma Under.depth_le (hu : h.Under d n) : h.depth d ≤ h.depth n := by
  induction hu with
  | refl => exact Nat.le_refl _
  | tail _ hc ih => exact ih.trans (Child.depth_lt hc).le

lemma Child.mountedOn_eq (hc : h.Child d n) (hn : n.num = rootInode) : h.mountedOn n.dev = some d := by
  rcases hc with ⟨s, hs⟩ | ⟨f, hf, hon, rfl⟩
  · exact absurd hn (h.entry_num hs)
  · exact mountedOn_of_mem hf hon

lemma Child.dotdot_eq (hc : h.Child d n) (hn : n.num ≠ rootInode) (hdir : h.isDir n = true) :
    h.dotdot n = d := by
  rcases hc with ⟨s, hs⟩ | ⟨f, -, -, rfl⟩
  · exact h.entry_dotdot hs hdir
  · exact absurd rfl hn

lemma Under.mountedOn (hu : h.Under rd n) (hne : n ≠ rd) (hn : n.num = rootInode)
    (hm : h.mountedOn n.dev = some m) :
    h.Under rd m := by
  rcases Relation.ReflTransGen.cases_tail hu with rfl | ⟨d, hd, hc⟩
  · exact absurd rfl hne
  · obtain rfl := Option.some.inj ((Child.mountedOn_eq hc hn).symm.trans hm)
    exact hd

lemma Under.dotdot (hu : h.Under rd n) (hne : n ≠ rd) (hdir : h.isDir n = true) :
    h.Under rd (h.dotdot n) := by
  by_cases hn : n.num = rootInode
  · rw [Inode.eq_root hn, h.dotdot_root, ← Inode.eq_root hn]
    exact hu
  rcases Relation.ReflTransGen.cases_tail hu with rfl | ⟨d, hd, hc⟩
  · exact absurd rfl hne
  · rw [Child.dotdot_eq hc hn hdir]
    exact hd

lemma mountedOn_of_not_root (hr : h.isRoot dev = false) : ∃ m, h.mountedOn dev = some m := by
  obtain ⟨f, hf, rfl, hsome⟩ := h.above hr
  obtain ⟨m, hm⟩ := Option.isSome_iff_exists.mp hsome
  exact ⟨m, mountedOn_of_mem hf hm⟩

/-! ## Staying below the root -/

/-- The roots over which the file system of a root at the top is mounted, one over the other. -/
inductive Roof (h : Hierarchy) (rd : Inode) : Inode → Prop where
  | base {m : Inode} : rd.num = rootInode → h.mountedOn rd.dev = some m → h.Top m → Roof h rd m
  | up {n m : Inode} : Roof h rd n → h.mountedOn n.dev = some m → h.Top m → Roof h rd m

lemma Top.num (ht : h.Top n) : n.num = rootInode := by
  cases ht with
  | root hn _ => exact hn
  | mount hn _ _ => exact hn

lemma Roof.top {n : Inode} (hr : Roof h rd n) : h.Top n := by
  cases hr with
  | base _ _ ht => exact ht
  | up _ _ ht => exact ht

lemma Roof.mountedOn {n : Inode} (hr : Roof h rd n) : ∃ dev, h.mountedOn dev = some n := by
  cases hr with
  | base _ hm _ | up _ hm _ => exact ⟨_, hm⟩

lemma Roof.isDir {n : Inode} (hr : Roof h rd n) : h.isDir n = true := by
  obtain ⟨dev, hm⟩ := hr.mountedOn
  obtain ⟨f, hf, -, hon⟩ := mem_of_mountedOn hm
  exact (h.mount_dir hf hon).1

def Inside (h : Hierarchy) (rd n : Inode) : Prop := h.Under rd n ∨ Roof h rd n

lemma Inside.enter (hi : h.Inside rd n) (hf : h.mountOn n = some f) : h.Inside rd (Inode.root f.dev) := by
  obtain ⟨hmem, hon⟩ := mem_of_mountOn hf
  rcases hi with hu | hr
  · exact .inl (hu.tail (.inr ⟨f, hmem, hon, rfl⟩))
  -- What is mounted on a root of the roof is the next one below it.
  have honly : ∀ {k : Inode}, k.num = rootInode → h.mountedOn k.dev = some n → Inode.root f.dev = k := by
    intro k hk hm
    obtain ⟨g, hg, hdev, hgon⟩ := mem_of_mountedOn hm
    rw [h.mount_once hmem hg hon hgon, hdev]
    exact (Inode.eq_root hk).symm
  cases hr with
  | base hrd hm _ => exact .inl (honly hrd hm ▸ Relation.ReflTransGen.refl)
  | @up k _ hk hm _ => exact .inr (honly (Top.num hk.top) hm ▸ hk)

lemma Inside.leave (hi : h.Inside rd n) (hn : n.num = rootInode) (hr : h.isRoot n.dev = false)
    (hm : h.mountedOn n.dev = some m) (htop : n = rd → h.Top rd) : h.Inside rd m := by
  have hup : h.Top n → h.Top m := by
    intro ht
    cases ht with
    | root _ hroot => exact absurd hroot (by simp [hr])
    | mount _ hm' ht => exact Option.some.inj (hm'.symm.trans hm) ▸ ht
  rcases hi with hu | hroof
  · by_cases hne : n = rd
    · subst hne
      exact .inr (.base hn hm (hup (htop rfl)))
    · exact .inl (Under.mountedOn hu hne hn hm)
  · exact .inr (.up hroof hm (hup hroof.top))

lemma Inside.dotdot (hi : h.Inside rd n) (hdir : h.isDir n = true) (hrd : n = rd → rd.num = rootInode) :
    h.Inside rd (h.dotdot n) := by
  have hroot : n.num = rootInode → h.dotdot n = n := by
    intro hn
    rw [Inode.eq_root hn]
    exact h.dotdot_root n.dev
  rcases hi with hu | hroof
  · by_cases hne : n = rd
    · rw [hroot (by rw [hne]; exact hrd hne)]
      exact .inl hu
    · exact .inl (Under.dotdot hu hne hdir)
  · rw [hroot (Top.num hroof.top)]
    exact .inr hroof

lemma Inside.under_of_not_mountpoint (hi : h.Inside rd n) (hn : h.mountpoint n = false) : h.Under rd n := by
  rcases hi with hu | hroof
  · exact hu
  · obtain ⟨dev, hm⟩ := hroof.mountedOn
    exact absurd (mountpoint_of_mountedOn hm) (by simp [hn])

lemma Inside.under_of_link {text : List Char} (hi : h.Inside rd n) (hl : h.link n = some text) :
    h.Under rd n := by
  rcases hi with hu | hroof
  · exact hu
  · exact absurd (h.link_dir hroof.isDir) (by simp [hl])

/-- `..` does not lead out of the root of the process in a request to the file system of `dir`. -/
structure Stops (h : Hierarchy) (rd dir : Inode) (root : Nat) : Prop where
  stops : h.Top rd ∨ (dir.dev = rd.dev → root = rd.num)
  still : dir = rd → h.nlinks rd ≠ 0 → h.mountpoint rd = true → rd.num = rootInode

def Kept (h : Hierarchy) (rd dir : Inode) : Answer → Prop
  | .found n => h.Under rd n
  | .cross (.enterMount n) _ _ => h.Inside rd n
  | .cross .leaveMount _ _ => ∀ m, h.mountedOn dir.dev = some m → h.Inside rd m
  | .cross .symlink _ _ => True

variable {forbidden : Inode → Bool} {retSymlink : Bool} {fuel : Nat} {path : List Char}

lemma searchDir_dir (hn : h.searchDir forbidden d s check = .ok n) : h.isDir d = true := by
  unfold Volumes.searchDir at hn
  rcases ite_eq_iff.mp hn with ⟨-, hn⟩ | ⟨hdir, -⟩
  · nomatch hn
  · simpa using hdir

lemma searchDir_cases (hn : h.searchDir forbidden d s check = .ok n) :
    n = d ∨ (s = dot2 ∧ n = h.dotdot d) ∨ (s ≠ dot2 ∧ h.entry d s = some n) := by
  unfold Volumes.searchDir at hn
  split at hn
  · nomatch hn
  split at hn
  · nomatch hn
  split at hn
  · exact .inl (Except.ok.inj hn).symm
  split_ifs at hn with hs
  · exact .inr (.inl ⟨hs, (Except.ok.inj hn).symm⟩)
  split at hn
  · next k hentry =>
    cases hn
    exact .inr (.inr ⟨hs, hentry⟩)
  · nomatch hn

lemma searchDir_dev (hn : h.searchDir forbidden d s check = .ok n) : n.dev = d.dev := by
  rcases searchDir_cases hn with rfl | ⟨-, rfl⟩ | ⟨-, hs⟩
  · rfl
  · exact h.dotdot_dev d
  · exact h.entry_dev hs

/-- A component leads to a node inside, if `..` is not taken at the root of the process and nothing
is mounted on a directory in which a name is looked up. -/
theorem Inside.search (hi : h.Inside rd d) (hup : s = dot2 → d = rd → rd.num = rootInode)
    (hdown : s ≠ dot2 → h.mountpoint d = false) (hn : h.searchDir forbidden d s check = .ok n) :
    h.Inside rd n := by
  rcases searchDir_cases hn with rfl | ⟨hs, rfl⟩ | ⟨hs, hentry⟩
  · exact hi
  · exact hi.dotdot (searchDir_dir hn) (hup hs)
  · exact .inl ((hi.under_of_not_mountpoint (hdown hs)).tail (.inl ⟨s, hentry⟩))

lemma parseLoop_kept {rip : Inode} {leaving : Bool} {symlinks : Nat} {ans : Answer}
    (hstop : h.Top rd ∨ (dir.dev = rd.dev → root = rd.num)) (hi : h.Inside rd rip) (hdev : rip.dev = dir.dev)
    (hleave : leaving = true → rip = rd → rd.num = rootInode)
    (hok : h.parseLoop forbidden root retSymlink fuel rip leaving symlinks path = .ok ans) :
    h.Kept rd dir ans := by
  induction fuel generalizing rip leaving symlinks path with
  | zero => nomatch hok
  | succ fuel ih =>
    rw [Volumes.parseLoop] at hok
    split at hok
    · split at hok
      · cases hok
        exact hi
      · next hm =>
        cases hok
        exact hi.under_of_not_mountpoint (by simpa using hm)
    -- At the root of the process `..` is ignored, unless the root is at the top.
    have hrd : rip = rd → rip.num ≠ root → h.Top rd := by
      intro heq hne
      rcases hstop with ht | hroot
      · exact ht
      · exact absurd ((hroot (by rw [← hdev, heq])).trans (by rw [heq])).symm hne
    rcases ite_eq_iff.mp hok with ⟨-, hok⟩ | ⟨-, hok⟩
    · exact nomatch hok
    split at hok
    · exact ih hi hdev hleave hok
    next hroot =>
    rcases ite_eq_iff.mp hok with ⟨⟨hcomp, hnum, hr⟩, hok⟩ | ⟨-, hok⟩
    · cases hok
      intro m hm
      exact hi.leave hnum hr (hdev ▸ hm) fun heq => hrd heq fun hne => hroot ⟨hcomp, hne⟩
    split at hok
    · cases hok
      exact hi
    next hmount =>
    split at hok
    · nomatch hok
    next n hsearch =>
    have hin : h.Inside rd n := by
      refine hi.search (fun hs heq => ?_) (fun hs => ?_) hsearch
      · cases leaving with
        | true => exact hleave rfl heq
        | false => exact Top.num (hrd heq fun hne => hroot ⟨hs, hne⟩)
      · cases leaving with
        | true => exact absurd rfl hs
        | false => simpa using hmount
    split at hok
    · exact ih hin ((searchDir_dev hsearch).trans hdev) (by nofun) hok
    next text hlink =>
    split at hok
    · cases hok
      exact hin.under_of_link hlink
    split at hok
    · nomatch hok
    split at hok
    · nomatch hok
    split at hok
    · cases hok
      trivial
    · exact ih hi hdev (by nofun) hok

lemma fsLookup_kept {ans : Answer} (hs : h.Stops rd dir root) (hi : h.Inside rd dir)
    (hok : h.fsLookup forbidden dir root retSymlink path = .ok ans) : h.Kept rd dir ans := by
  unfold Volumes.fsLookup Volumes.parsePath at hok
  split at hok
  · nomatch hok
  split at hok
  · nomatch hok
  · next hlinks =>
      exact parseLoop_kept hs.stops hi rfl (fun hm heq =>
        hs.still heq (heq ▸ hlinks) (heq ▸ hm)) hok

lemma crossTo_inside {next : Inode} {why : Crossing} {symlinks : Nat}
    (hk : h.Kept rd dir (.cross why path symlinks))
    (hok : h.crossTo rd dir path why = .ok next) : h.Inside rd next := by
  cases why with
  | symlink =>
    cases hok
    exact .inl Relation.ReflTransGen.refl
  | enterMount n =>
    rw [Volumes.crossTo] at hok
    split at hok
    · next f hf =>
      cases hok
      exact Inside.enter hk hf
    · nomatch hok
  | leaveMount =>
    rw [Volumes.crossTo] at hok
    split at hok
    · nomatch hok
    next f hf =>
    split at hok
    · nomatch hok
    split at hok
    · next m hon =>
      obtain rfl := Except.ok.inj hok
      exact hk m (Option.bind_eq_some_iff.mpr ⟨f, hf, hon⟩)
    · nomatch hok

/-- The root may be asked for without being left, or it was removed and cannot be asked for. -/
def Still (h : Hierarchy) (rd : Inode) : Prop := h.nlinks rd ≠ 0 → h.mountpoint rd = true → rd.num = rootInode

lemma lookupLoop_under {symloop : Nat} (hstill : h.Still rd) (hi : h.Inside rd dir) (hs : h.Stops rd dir root)
    (hok : h.lookupLoop forbidden rd retSymlink fuel dir root symloop path = .ok n) : h.Under rd n := by
  induction fuel generalizing dir root symloop path with
  | zero => nomatch hok
  | succ fuel ih =>
    rw [Volumes.lookupLoop] at hok
    split at hok
    · nomatch hok
    · next k hans =>
      cases hok
      exact fsLookup_kept hs hi hans
    next why rest symlinks hans =>
    split at hok
    · nomatch hok
    split at hok
    · nomatch hok
    next next hnext =>
    refine ih (crossTo_inside (fsLookup_kept hs hi hans) hnext) ⟨.inr fun hdev => ?_, fun _ => hstill⟩ hok
    exact if_pos hdev

/-- The directories for which `lookup` confines a process: the root was removed, or is at the top,
or is on the device of the working directory and not a mount point below the root of its file
system. -/
def Confining (h : Hierarchy) (rd wd : Inode) : Prop :=
  h.nlinks rd = 0 ∨ h.Top rd ∨ wd.dev = rd.dev ∧ (h.mountpoint rd = true → rd.num = rootInode)

lemma lookupLoop_removed {symloop : Nat} (hd : h.nlinks dir = 0) :
    h.lookupLoop forbidden rd retSymlink fuel dir root symloop path ≠ .ok n := by
  cases fuel with
  | zero => exact nofun
  | succ fuel =>
    rw [Volumes.lookupLoop, Volumes.fsLookup, Volumes.parsePath, if_pos hd]
    by_cases hlen : pathMax + 1 < path.length + 1
    · rw [if_pos hlen]
      exact nofun
    · rw [if_neg hlen]
      exact nofun

lemma lookup_under {start : Inode} (hc : h.Confining rd wd) (hwd : h.Under rd wd)
    (hstart : start = rd ∨ start = wd)
    (hok : h.lookup forbidden rd wd retSymlink fuel start path = .ok n) : h.Under rd n := by
  unfold Volumes.lookup at hok
  split at hok
  · nomatch hok
  have hin : h.Inside rd start := by
    rcases hstart with rfl | rfl
    · exact .inl Relation.ReflTransGen.refl
    · exact .inl hwd
  have hroot : wd.dev = rd.dev → Volumes.rootIno rd wd = rd.num := fun hdev => if_pos hdev
  rcases hc with hlinks | htop | ⟨hdev, hmount⟩
  · have hstill : h.Still rd := fun hne => absurd hlinks hne
    rcases hstart with rfl | rfl
    · exact absurd hok (lookupLoop_removed hlinks)
    · exact lookupLoop_under hstill hin ⟨.inr hroot, fun _ => hstill⟩ hok
  · exact lookupLoop_under (fun _ _ => Top.num htop) hin ⟨.inl htop, fun _ _ _ => Top.num htop⟩ hok
  · exact lookupLoop_under (fun _ => hmount) hin ⟨.inr fun _ => hroot hdev, fun _ _ => hmount⟩ hok

lemma startNode_cases (rd wd : Inode) (path : List Char) :
    Volumes.startNode rd wd path = rd ∨ Volumes.startNode rd wd path = wd := ite_eq_or_eq _ _ _

lemma lastDir_under {name : List Char} (hc : h.Confining rd wd) (hwd : h.Under rd wd)
    (hok : h.lastDir forbidden rd wd fuel path = .ok (n, name)) : h.Under rd n := by
  unfold Volumes.lastDir at hok
  split at hok
  · nomatch hok
  rcases ite_eq_iff.mp hok with ⟨-, hok⟩ | ⟨-, hok⟩
  · cases hok
    rcases startNode_cases rd wd path with hs | hs
    · rw [hs]
      exact Relation.ReflTransGen.refl
    · rw [hs]
      exact hwd
  · split at hok
    · nomatch hok
    · next k hlook =>
      cases hok
      exact lookup_under hc hwd (startNode_cases rd wd path) hlook

/-! ## The ways out -/

def allowed : Inode → Bool := fun _ => false

def Escapes (h : Hierarchy) (rd t dir : Inode) (root : Nat) (path : List Char) : Prop :=
  ∃ fuel n, h.lookupLoop allowed rd false fuel dir root 0 path = .ok n ∧ ¬ h.Under t n

def endAt (h : Hierarchy) (n : Inode) : Answer :=
  if h.mountpoint n then .cross (.enterMount n) [] 0 else .found n

lemma parseLoop_nil {leaving : Bool} :
    h.parseLoop allowed root false (fuel + 1) n leaving 0 [] = .ok (h.endAt n) := by
  rw [Volumes.parseLoop, if_pos rfl, endAt]
  split <;> rfl

lemma Under.root_of_num (ht : t.num ≠ rootInode) (hf : h.mountOn n = some f)
    (hu : h.Under t (Inode.root f.dev)) :
    h.Under t n := by
  obtain ⟨hmem, hon⟩ := mem_of_mountOn hf
  have hne : Inode.root f.dev ≠ t := fun heq => ht (heq ▸ rfl)
  exact Under.mountedOn hu hne rfl (mountedOn_of_mem hmem hon)

lemma lookupLoop_enter (hans : h.fsLookup allowed d root false path = .ok (.cross (.enterMount n) s 0))
    (hf : h.mountOn n = some f) : h.lookupLoop allowed rd false (fuel + 1) d root 0 path =
      h.lookupLoop allowed rd false fuel (Inode.root f.dev) (Volumes.rootIno rd (Inode.root f.dev)) 0 s := by
  rw [Volumes.lookupLoop, hans]
  simp only [Volumes.crossTo, hf]
  rfl

lemma escapes_of_endAt (ht : t.num ≠ rootInode)
    (hans : h.fsLookup allowed d root false path = .ok (h.endAt n))
    (hout : ¬ h.Under t n) : h.Escapes rd t d root path := by
  obtain ⟨k, hk⟩ : ∃ k, (h.vmnt.map fun f => h.depth (Inode.root f.dev)).sum ≤ h.depth n + k :=
    ⟨_, Nat.le_add_left _ _⟩
  induction k generalizing d n root path with
  | zero =>
    refine ⟨1, n, ?_, hout⟩
    have hm : h.mountpoint n = false := by
      by_contra hm
      obtain ⟨f, hf⟩ := Option.isSome_iff_exists.mp (Bool.of_not_eq_false hm)
      obtain ⟨hmem, hon⟩ := mem_of_mountOn hf
      have hle := List.single_le_sum (fun _ _ => Nat.zero_le _) _
        (List.mem_map_of_mem (f := fun f => h.depth (Inode.root f.dev)) hmem)
      have hlt := h.mount_depth hmem hon
      omega
    rw [endAt, hm] at hans
    rw [Volumes.lookupLoop, hans]
    rfl
  | succ k ih =>
    cases hf : h.mountOn n with
    | none =>
      refine ⟨1, n, ?_, hout⟩
      rw [endAt, Volumes.mountpoint, hf] at hans
      rw [Volumes.lookupLoop, hans]
      rfl
    | some f =>
      obtain ⟨hmem, hon⟩ := mem_of_mountOn hf
      have hlt := h.mount_depth hmem hon
      rw [endAt, Volumes.mountpoint, hf] at hans
      have hnext : h.fsLookup allowed (Inode.root f.dev) (Volumes.rootIno rd (Inode.root f.dev)) false [] =
          .ok (h.endAt (Inode.root f.dev)) := by
        rw [Volumes.fsLookup, if_neg (by decide), Volumes.parsePath, if_neg (h.vmnt_root hmem)]
        exact parseLoop_nil
      obtain ⟨fuel, x, hx, hxout⟩ := ih hnext (fun hu => hout (Under.root_of_num ht hf hu)) (by omega)
      exact ⟨fuel + 1, x, (lookupLoop_enter hans hf).trans hx, hxout⟩

structure GoesUp (h : Hierarchy) (n : Inode) (root : Nat) (path : List Char) : Prop where
  nonempty : path ≠ []
  short : ¬ pathMax + 1 < path.length + 1
  rest : (getName (path.dropWhile (· = '/'))).2 = []
  up : (getName (path.dropWhile (· = '/'))).1 = dot2 ∧ n.num ≠ root ∨
    (getName (path.dropWhile (· = '/'))).1 ≠ dot2 ∧ h.mountpoint n = true

lemma fsLookup_up (hdir : h.isDir n = true) (hlinks : h.nlinks n ≠ 0) (hnum : n.num ≠ rootInode)
    (hp : h.GoesUp n root path) :
    h.fsLookup allowed n root false path = .ok (h.endAt (h.dotdot n)) := by
  have hfuel : Volumes.parseFuel = Volumes.parseFuel - 2 + 1 + 1 := rfl
  rw [Volumes.fsLookup, if_neg hp.short, Volumes.parsePath, if_neg hlinks, hfuel, Volumes.parseLoop,
    if_neg hp.nonempty]
  simp only [hp.rest]
  rw [if_neg (by simp [allowed])]
  have hsearch : h.searchDir allowed n (if h.mountpoint n then dot2
    else (getName (path.dropWhile (· = '/'))).1)
      (!h.mountpoint n) = .ok (h.dotdot n) := by
    have hcomp : (if h.mountpoint n then dot2 else (getName (path.dropWhile (· = '/'))).1) = dot2 := by
      rcases hp.up with ⟨hc, -⟩ | ⟨-, hm⟩
      · rw [hc, ite_self]
      · rw [hm, if_pos rfl]
    rw [hcomp, Volumes.searchDir, if_neg (by simp [hdir]), if_neg (by simp [allowed]),
      if_neg (by decide), if_pos rfl]
  rw [if_neg ?_, if_neg (fun hc => hnum hc.2.1), if_neg (by simp), hsearch]
  · simp only [h.link_dir (h.dotdot_dir hdir)]
    exact parseLoop_nil
  rintro ⟨hc, hroot⟩
  rcases hp.up with ⟨-, hne⟩ | ⟨hne, -⟩
  · exact hne hroot
  · exact hne hc

lemma escapes_up (ht : t.num ≠ rootInode) (hdir : h.isDir t = true) (hlinks : h.nlinks t ≠ 0)
    (hp : h.GoesUp t root path) : h.Escapes rd t t root path := by
  refine escapes_of_endAt ht (fsLookup_up hdir hlinks ht hp) fun hu => ?_
  exact absurd (Under.depth_le hu) (Nat.not_le.mpr (h.dotdot_depth hdir ht))

lemma lookupLoop_leave (hlinks : h.nlinks n ≠ 0) (hnum : n.num = rootInode) (hr : h.isRoot n.dev = false)
    (hroot : n.num ≠ root) (hm : h.mountedOn n.dev = some m)
    (hshort : ¬ pathMax + 1 < path.length + 1) (hne : path ≠ [])
    (hpath : path.dropWhile (· = '/') = dot2) :
    h.lookupLoop allowed rd false (fuel + 1) n root 0 path = h.lookupLoop allowed rd false fuel m
      (Volumes.rootIno rd m) 0 dot2 := by
  have hans : h.fsLookup allowed n root false path = .ok (.cross .leaveMount dot2 0) := by
    have hfuel : Volumes.parseFuel = Volumes.parseFuel - 1 + 1 := rfl
    rw [Volumes.fsLookup, if_neg hshort, Volumes.parsePath, if_neg hlinks, hfuel,
      Volumes.parseLoop, if_neg hne]
    simp only [hpath]
    rw [if_neg (by simp [allowed]), if_neg (fun hc => hroot hc.2), if_pos ⟨by decide, hnum, hr⟩]
  obtain ⟨f, hf, hon⟩ := Option.bind_eq_some_iff.mp hm
  rw [Volumes.lookupLoop, hans]
  simp only [Volumes.crossTo, hf, hon]
  rfl

lemma goesUp_dot2 (hroot : n.num ≠ root) : h.GoesUp n root dot2 :=
  ⟨by decide, by decide, by decide, .inl ⟨by decide, hroot⟩⟩

/-- At the root of a file system that is not at the top, `..` leads where it leads from the mount
point. -/
theorem escapes_leave (hlinks : h.nlinks n ≠ 0) (htop : ¬ h.Top n) (hnum : n.num = rootInode)
    (hroot : n.num ≠ root)
    (hshort : ¬ pathMax + 1 < path.length + 1) (hne : path ≠ []) (hpath : path.dropWhile (· = '/') = dot2)
    (hclimb : ∀ m, h.isDir m = true → h.nlinks m ≠ 0 → ¬ h.Top m → h.depth m < h.depth n →
      h.Escapes rd m m (Volumes.rootIno rd m) dot2) : h.Escapes rd n n root path := by
  have hr : h.isRoot n.dev = false := by
    by_contra hr
    exact htop (.root hnum (Bool.of_not_eq_false hr))
  obtain ⟨m, hm⟩ := mountedOn_of_not_root hr
  obtain ⟨f, hf, -, hon⟩ := mem_of_mountedOn hm
  obtain ⟨hmdir, hmlinks⟩ := h.mount_dir hf hon
  have hchild : h.Child m n := by
    rw [Inode.eq_root hnum]
    exact child_mountedOn hm
  obtain ⟨fuel, x, hx, hout⟩ :=
    hclimb m hmdir hmlinks (fun ht => htop (.mount hnum hm ht)) (Child.depth_lt hchild)
  refine ⟨fuel + 1, x, ?_, fun hu => hout (.head hchild hu)⟩
  rw [lookupLoop_leave hlinks hnum hr hroot hm hshort hne hpath]
  exact hx

lemma escapes_climb (hdir : h.isDir n = true) (hlinks : h.nlinks n ≠ 0) (htop : ¬ h.Top n)
    (hlt : h.depth n < h.depth (Inode.root rd.dev)) : h.Escapes rd n n (Volumes.rootIno rd n) dot2 := by
  induction hk : h.depth n using Nat.strong_induction_on generalizing n with
  | _ k ih =>
    have hdev : n.dev ≠ rd.dev := fun heq => absurd (h.root_depth hdir) (by rw [heq]; omega)
    have hroot : n.num ≠ Volumes.rootIno rd n := by
      rw [Volumes.rootIno, if_neg hdev]
      exact n.pos.ne'
    by_cases hnum : n.num = rootInode
    · apply escapes_leave hlinks htop hnum hroot (by decide) (by decide) (by decide)
      intro m hmdir hmlinks hmtop hless
      exact ih _ (hk ▸ hless) hmdir hmlinks hmtop (hless.trans hlt) rfl
    · exact escapes_up hnum hdir hlinks (goesUp_dot2 hroot)

lemma escapes_of_not_confining (hdir : h.isDir rd = true) (hc : ¬ h.Confining rd wd) :
    ∃ path, path.head? = some '/' ∧ h.Escapes rd rd rd (Volumes.rootIno rd wd) path := by
  obtain ⟨hlinks, hc⟩ := not_or.mp hc
  obtain ⟨htop, hc⟩ := not_or.mp hc
  by_cases hdev : wd.dev = rd.dev
  · -- A name looked up in the covered root is taken for `..`.
    obtain ⟨hm, hnum⟩ : h.mountpoint rd = true ∧ rd.num ≠ rootInode := by
      by_contra hno
      exact hc ⟨hdev, fun hm => by_contra fun hnum => hno ⟨hm, hnum⟩⟩
    exact ⟨['/', 'x'], rfl, escapes_up hnum hdir hlinks ⟨by decide, by decide, by decide,
      .inr ⟨by decide, hm⟩⟩⟩
  · have hroot : rd.num ≠ Volumes.rootIno rd wd := by
      rw [Volumes.rootIno, if_neg hdev]
      exact rd.pos.ne'
    refine ⟨['/', '.', '.'], rfl, ?_⟩
    by_cases hnum : rd.num = rootInode
    · apply escapes_leave hlinks htop hnum hroot (by decide) (by decide) (by decide)
      intro m hmdir hmlinks hmtop hless
      exact escapes_climb hmdir hmlinks hmtop (Inode.eq_root hnum ▸ hless)
    · exact escapes_up hnum hdir hlinks ⟨by decide, by decide, by decide, .inl ⟨by decide, hroot⟩⟩

end Hierarchy

/-- A process whose working directory is in the subtree of its root stays there, whatever the path
and its permissions, exactly when the root and the working directory are confining. -/
theorem lookup_confined_iff (h : Hierarchy) (rd wd : Inode) (hdir : h.isDir rd = true) (hwd : h.Under rd wd) :
    (∀ forbidden retSymlink fuel path n,
      (h.eatPath forbidden rd wd retSymlink fuel path = .ok n → h.Under rd n) ∧
      ∀ name, h.lastDir forbidden rd wd fuel path = .ok (n, name) → h.Under rd n) ↔ h.Confining rd wd := by
  constructor
  · intro hall
    by_contra hc
    obtain ⟨path, hhead, fuel, n, hok, hout⟩ := Hierarchy.escapes_of_not_confining hdir hc
    refine hout ((hall Hierarchy.allowed false fuel path n).1 ?_)
    have hne : path ≠ [] := by
      rintro rfl
      nomatch hhead
    rw [Volumes.eatPath, Volumes.lookup, if_neg hne, Volumes.startNode, if_pos hhead]
    exact hok
  · intro hc forbidden retSymlink fuel path n
    refine ⟨fun hok => ?_, fun name hok => Hierarchy.lastDir_under hc hwd hok⟩
    exact Hierarchy.lookup_under hc hwd (Hierarchy.startNode_cases rd wd path) hok

/-! ## A jail with a mounted file system -/

def jail : Inode := ⟨1, 2, by decide⟩
def jailMnt : Inode := ⟨1, 3, by decide⟩

def jailName : List Char := ['j']
def mntName : List Char := ['m']

def jailVolumes : Volumes where
  isDir n := n = Inode.root 1 ∨ n = jail ∨ n = jailMnt ∨ n = Inode.root 2
  link _ := none
  nlinks _ := 2
  entry d s :=
    if d = Inode.root 1 ∧ s = jailName then some jail else if d = jail ∧
      s = mntName then some jailMnt else none
  dotdot n := if n = jail then Inode.root 1 else if n = jailMnt then jail else n
  isRoot dev := dev ≠ 2
  vmnt := [⟨1, none⟩, ⟨2, some jailMnt⟩]

lemma jail_entry {d n : Inode} {s : List Char} (hs : jailVolumes.entry d s = some n) :
    (d = Inode.root 1 ∧ n = jail) ∨ (d = jail ∧ n = jailMnt) := by
  rcases ite_eq_iff.mp hs with ⟨⟨hd, -⟩, hs⟩ | ⟨-, hs⟩
  · exact .inl ⟨hd, (Option.some.inj hs).symm⟩
  rcases ite_eq_iff.mp hs with ⟨⟨hd, -⟩, hs⟩ | ⟨-, hs⟩
  · exact .inr ⟨hd, (Option.some.inj hs).symm⟩
  · nomatch hs

lemma jail_isDir {n : Inode} (hn : jailVolumes.isDir n = true) :
    n = Inode.root 1 ∨ n = jail ∨ n = jailMnt ∨ n = Inode.root 2 := by
  simpa [jailVolumes] using hn

lemma jail_vmnt {f : MountedFs} (hf : f ∈ jailVolumes.vmnt) : f = ⟨1, none⟩ ∨ f = ⟨2, some jailMnt⟩ := by
  simpa [jailVolumes] using hf

def jailDepth (n : Inode) : Nat :=
  if n = Inode.root 1 then 0 else if n = jail then 1 else if n = jailMnt then 2 else 3

def jailHierarchy : Hierarchy where
  toVolumes := jailVolumes
  depth := jailDepth
  entry_dev := by
    intro d s n hs
    rcases jail_entry hs with ⟨rfl, rfl⟩ | ⟨rfl, rfl⟩ <;> rfl
  entry_num := by
    intro d s n hs
    rcases jail_entry hs with ⟨rfl, rfl⟩ | ⟨rfl, rfl⟩ <;> decide
  entry_depth := by
    intro d s n hs
    rcases jail_entry hs with ⟨rfl, rfl⟩ | ⟨rfl, rfl⟩ <;> decide
  entry_dotdot := by
    intro d s n hs _
    rcases jail_entry hs with ⟨rfl, rfl⟩ | ⟨rfl, rfl⟩ <;> decide
  dotdot_dev := by
    intro n
    simp only [jailVolumes]
    split_ifs with h1 h2
    · rw [h1]; rfl
    · rw [h2]; rfl
    · rfl
  dotdot_root := by
    intro dev
    have hne : ∀ k : Inode, k.num ≠ rootInode → Inode.root dev ≠ k := fun k hk heq => hk (heq ▸ rfl)
    simp only [jailVolumes]
    rw [if_neg (hne jail (by decide)), if_neg (hne jailMnt (by decide))]
  dotdot_dir := by
    intro n hn
    rcases jail_isDir hn with rfl | rfl | rfl | rfl <;> decide
  dotdot_depth := by
    intro n hn
    rcases jail_isDir hn with rfl | rfl | rfl | rfl <;> decide
  root_depth := by
    intro n hn
    rcases jail_isDir hn with rfl | rfl | rfl | rfl <;> decide
  link_dir := fun _ => rfl
  vmnt_once := by
    intro f g hf hg
    rcases jail_vmnt hf with rfl | rfl <;> rcases jail_vmnt hg with rfl | rfl <;> decide
  vmnt_root := fun _ => Nat.succ_ne_zero 1
  mount_once := by
    intro f g n hf hg hfn hgn
    rcases jail_vmnt hf with rfl | rfl <;> rcases jail_vmnt hg with rfl | rfl <;> simp_all
  mount_dir := by
    intro f n hf hn
    rcases jail_vmnt hf with rfl | rfl
    · nomatch hn
    · cases hn
      decide
  mount_depth := by
    intro f n hf hn
    rcases jail_vmnt hf with rfl | rfl
    · nomatch hn
    · cases hn
      decide
  above := by
    intro dev hdev
    obtain rfl : dev = 2 := by simpa [jailVolumes] using hdev
    exact ⟨⟨2, some jailMnt⟩, by decide, rfl, rfl⟩

lemma jail_under_jailMnt : jailHierarchy.Under jail jailMnt :=
  .single (.inl ⟨mntName, by decide⟩)

lemma jail_under_mounted : jailHierarchy.Under jail (Inode.root 2) :=
  jail_under_jailMnt.tail (.inr ⟨⟨2, some jailMnt⟩, by decide, rfl, rfl⟩)

/-- With the root at `/j` and the working directory on the device mounted below it, `/..` is the
root of the whole tree. -/
theorem lookup_leaves_jail : jailHierarchy.isDir jail = true ∧ jailHierarchy.Under jail (Inode.root 2) ∧
    jailHierarchy.eatPath (fun _ => false) jail (Inode.root 2) false 1 ['/', '.', '.'] = .ok (Inode.root 1) ∧
    ¬ jailHierarchy.Under jail (Inode.root 1) := by
  refine ⟨by decide, jail_under_mounted, by decide +kernel, fun hu => ?_⟩
  exact absurd (Hierarchy.Under.depth_le hu) (by decide)

/-- With the working directory on the device of the root, `/..` stays at `/j`. -/
theorem lookup_confined_jail :
    jailHierarchy.eatPath (fun _ => false) jail jailMnt false 9 ['/', '.', '.'] = .ok jail ∧
      jailHierarchy.Under jail jail := by
  have hc : jailHierarchy.Confining jail jailMnt := .inr (.inr ⟨rfl, fun hm => absurd hm (by decide)⟩)
  have hpath : jailHierarchy.eatPath (fun _ => false) jail jailMnt false 9 ['/', '.', '.'] =
    .ok jail := by decide +kernel
  exact ⟨hpath, ((lookup_confined_iff jailHierarchy jail jailMnt (by decide) jail_under_jailMnt).mpr
    hc _ false 9 _ _).1 hpath⟩

end Nucleos.Vfs
