import Nucleos.Vfs.Files

/-!
# Path lookup over mounted file systems

VFS sends a path to the file system of the directory it starts in. The file system follows the
path as far as it can and answers with a node, or with the point at which the path enters a file
system mounted below, leaves to the one above, or starts again at the root because of a symbolic
link. VFS then goes on there with what is left of the path. With each request goes the number of
the inode at which `..` must stay, zero when the root of the process is on another device.
-/

namespace Nucleos.Vfs

open Run

def rootInode : Nat := 1
def minixfsNameMax : Nat := 60
def pathMax : Nat := 255
def symloopMax : Nat := 16

def eio : Int := 5
def eacces : Int := 13
def enametoolong : Int := 36
def eloop : Int := 40
def e2big : Int := 7

def dot1 : List Char := ['.']
def dot2 : List Char := ['.', '.']

/-- An inode of the file system on a device. Number zero stands for no inode. -/
structure Inode where
  dev : Nat
  num : Nat
  pos : 0 < num
deriving DecidableEq

def Inode.root (dev : Nat) : Inode := ⟨dev, rootInode, by decide⟩

lemma Inode.eq_root {n : Inode} (h : n.num = rootInode) : n = Inode.root n.dev := by
  obtain ⟨dev, num, pos⟩ := n
  cases h
  rfl

/-- An entry of the table of mounted file systems that is in use. -/
structure MountedFs where
  dev : Nat
  mountedOn : Option Inode
deriving DecidableEq

/-- The directories and links of all file systems, and where the file systems are mounted. -/
structure Volumes where
  isDir : Inode → Bool
  link : Inode → Option (List Char)
  nlinks : Inode → Nat
  entry : Inode → List Char → Option Inode
  dotdot : Inode → Inode
  isRoot : Nat → Bool
  vmnt : List MountedFs

inductive LookupStop where
  | errno (e : Int)
  | panic
  | unfinished
deriving DecidableEq, Repr

/-- Why a file system hands a path back. -/
inductive Crossing where
  | enterMount (n : Inode)
  | leaveMount
  | symlink

inductive Answer where
  | found (n : Inode)
  | cross (why : Crossing) (rest : List Char) (symlinks : Nat)

def getName (path : List Char) : List Char × List Char :=
  let cp := path.dropWhile (· = '/')
  let name := cp.takeWhile (· ≠ '/')
  (if name = [] then dot1 else name.take minixfsNameMax, cp.dropWhile (· ≠ '/'))

def ltraverse (text suffix : List Char) : Except LookupStop (List Char) :=
  if text = [] then .error (.errno (-eio))
  else if pathMax + 1 < suffix.length + text.length + 1 then .error (.errno (-enametoolong))
  else .ok (text ++ suffix)

namespace Volumes

variable (v : Volumes)

def findVmnt (dev : Nat) : Option MountedFs := v.vmnt.find? fun m => m.dev = dev

def mountOn (n : Inode) : Option MountedFs := v.vmnt.find? fun m => m.mountedOn = some n

def mountpoint (n : Inode) : Bool := (v.mountOn n).isSome

def mountedOn (dev : Nat) : Option Inode := (v.findVmnt dev).bind (·.mountedOn)

section FileSystem

-- What the caller may not search.
variable (forbidden : Inode → Bool)

def searchDir (dir : Inode) (name : List Char) (check : Bool) : Except LookupStop Inode :=
  if v.isDir dir = false then .error (.errno (-enotdir))
  else if check && forbidden dir then .error (.errno (-eacces))
  else if name = dot1 then .ok dir
  else if name = dot2 then .ok (v.dotdot dir)
  else
    match v.entry dir name with
    | some n => .ok n
    | none => .error (.errno (-enoent))

def parseLoop (root : Nat) (retSymlink : Bool) :
    Nat → Inode → Bool → Nat → List Char → Except LookupStop Answer
  | 0, _, _, _, _ => .error .unfinished
  | fuel + 1, rip, leaving, symlinks, path =>
    if path = [] then
      if v.mountpoint rip then .ok (.cross (.enterMount rip) [] symlinks) else .ok (.found rip)
    else
      let cp := path.dropWhile (· = '/')
      let component := (getName cp).1
      let next := (getName cp).2
      if component = dot2 ∧ forbidden rip then .error (.errno (-eacces))
      else if component = dot2 ∧ rip.num = root then parseLoop root retSymlink fuel rip leaving symlinks next
      else if component = dot2 ∧ rip.num = rootInode ∧ v.isRoot rip.dev = false then
        .ok (.cross .leaveMount cp symlinks)
      else if leaving = false ∧ v.mountpoint rip then .ok (.cross (.enterMount rip) cp symlinks)
      else
        -- Coming from a mounted file system, the component is taken for `..` whatever it is.
        match v.searchDir forbidden rip (if leaving then dot2 else component) (!leaving) with
        | .error e => .error e
        | .ok n =>
          match v.link n with
          | none => parseLoop root retSymlink fuel n false symlinks next
          | some text =>
            if next = [] ∧ retSymlink then .ok (.found n)
            else if symloopMax < symlinks + 1 then .error (.errno (-eloop))
            else
              match ltraverse text next with
              | .error e => .error e
              | .ok path =>
                if path.head? = some '/' then .ok (.cross .symlink path (symlinks + 1))
                else parseLoop root retSymlink fuel rip false (symlinks + 1) path

/-- Enough for a path of full length after each of the links that may be followed. -/
def parseFuel : Nat := (symloopMax + 1) * (pathMax + 2)

def parsePath (dir : Inode) (root : Nat) (retSymlink : Bool) (path : List Char) : Except LookupStop Answer :=
  if v.nlinks dir = 0 then .error (.errno (-enoent))
  else v.parseLoop forbidden root retSymlink parseFuel dir (v.mountpoint dir) 0 path

def fsLookup (dir : Inode) (root : Nat) (retSymlink : Bool) (path : List Char) : Except LookupStop Answer :=
  if pathMax + 1 < path.length + 1 then .error (.errno (-e2big))
    else v.parsePath forbidden dir root retSymlink path

def rootIno (rd dir : Inode) : Nat := if dir.dev = rd.dev then rd.num else 0

def crossTo (rd dir : Inode) (rest : List Char) : Crossing → Except LookupStop Inode
  | .symlink => .ok rd
  | .enterMount n =>
    match v.mountOn n with
    | some m => .ok (Inode.root m.dev)
    | none => .error .panic
  | .leaveMount =>
    match v.findVmnt dir.dev with
    | none => .error .panic
    | some m =>
      if rest.take 2 ≠ dot2 then .error (.errno (-enoent))
      else
        match m.mountedOn with
        | some n => .ok n
        | none => .error .panic

def lookupLoop (rd : Inode) (retSymlink : Bool) :
    Nat → Inode → Nat → Nat → List Char → Except LookupStop Inode
  | 0, _, _, _, _ => .error .unfinished
  | fuel + 1, dir, root, symloop, path =>
    match v.fsLookup forbidden dir root retSymlink path with
    | .error e => .error e
    | .ok (.found n) => .ok n
    | .ok (.cross why rest symlinks) =>
      if symloopMax < symloop + symlinks then .error (.errno (-eloop))
      else
        match v.crossTo rd dir rest why with
        | .error e => .error e
        | .ok dir => lookupLoop rd retSymlink fuel dir (rootIno rd dir) (symloop + symlinks) rest

def lookup (rd wd : Inode) (retSymlink : Bool) (fuel : Nat) (start : Inode) (path : List Char) :
    Except LookupStop Inode :=
  if path = [] then .error (.errno (-enoent))
  else v.lookupLoop forbidden rd retSymlink fuel start (rootIno rd wd) 0 path

def startNode (rd wd : Inode) (path : List Char) : Inode := if path.head? = some '/' then rd else wd

def eatPath (rd wd : Inode) (retSymlink : Bool) (fuel : Nat) (path : List Char) : Except LookupStop Inode :=
  v.lookup forbidden rd wd retSymlink fuel (startNode rd wd path) path

def dropSlashes (path : List Char) : List Char :=
  match path.reverse.dropWhile (· = '/') with
  | [] => path.take 1
  | c :: cs => (c :: cs).reverse

/-- `last_dir`: the directory of the last component of a path, and that component. -/
def lastDir (rd wd : Inode) (fuel : Nat) (path : List Char) : Except LookupStop (Inode × List Char) :=
  if path = [] then .error (.errno (-enoent))
  else
    let whole := dropSlashes path
    let upTo := (whole.reverse.dropWhile (· ≠ '/')).reverse
    let name := (whole.reverse.takeWhile (· ≠ '/')).reverse
    if upTo = [] then .ok (startNode rd wd path, whole)
    else
      match v.lookup forbidden rd wd false fuel (startNode rd wd path) (dropSlashes upTo) with
      | .error e => .error e
      | .ok n => .ok (n, if name = [] then dot1 else name)

end FileSystem

/-! ## The tree of directories -/

/-- A directory holds a node, by name or because it is the root of what is mounted there. -/
def Child (d n : Inode) : Prop :=
  (∃ s, v.entry d s = some n) ∨ ∃ m ∈ v.vmnt, m.mountedOn = some d ∧ n = Inode.root m.dev

/-- A node lies in the subtree of a directory, across mount points. -/
def Under (d n : Inode) : Prop := Relation.ReflTransGen v.Child d n

/-- The root of the whole tree, or of a file system mounted over such a root. -/
inductive Top : Inode → Prop where
  | root {n : Inode} : n.num = rootInode → v.isRoot n.dev = true → Top n
  | mount {n m : Inode} : n.num = rootInode → v.mountedOn n.dev = some m → Top m → Top n

end Volumes

/-- File systems that are trees and are mounted as a tree. -/
structure Hierarchy extends Volumes where
  depth : Inode → Nat
  entry_dev : ∀ {d s n}, entry d s = some n → n.dev = d.dev
  entry_num : ∀ {d s n}, entry d s = some n → n.num ≠ rootInode
  entry_depth : ∀ {d s n}, entry d s = some n → depth d < depth n
  entry_dotdot : ∀ {d s n}, entry d s = some n → isDir n = true → dotdot n = d
  dotdot_dev : ∀ n, (dotdot n).dev = n.dev
  dotdot_root : ∀ dev, dotdot (Inode.root dev) = Inode.root dev
  dotdot_dir : ∀ {n}, isDir n = true → isDir (dotdot n) = true
  dotdot_depth : ∀ {n}, isDir n = true → n.num ≠ rootInode → depth (dotdot n) < depth n
  root_depth : ∀ {n}, isDir n = true → depth (Inode.root n.dev) ≤ depth n
  link_dir : ∀ {n}, isDir n = true → link n = none
  vmnt_once : ∀ {m m'}, m ∈ vmnt → m' ∈ vmnt → m.dev = m'.dev → m = m'
  vmnt_root : ∀ {m}, m ∈ vmnt → nlinks (Inode.root m.dev) ≠ 0
  mount_once : ∀ {m m' n}, m ∈ vmnt → m' ∈ vmnt → m.mountedOn = some n → m'.mountedOn = some n → m = m'
  mount_dir : ∀ {m n}, m ∈ vmnt → m.mountedOn = some n → isDir n = true ∧ nlinks n ≠ 0
  mount_depth : ∀ {m n}, m ∈ vmnt → m.mountedOn = some n → depth n < depth (Inode.root m.dev)
  above : ∀ {dev}, isRoot dev = false → ∃ m ∈ vmnt, m.dev = dev ∧ m.mountedOn.isSome

end Nucleos.Vfs
