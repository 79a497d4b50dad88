import Nucleos.Minixfs.Cache

/-!
# The buffer cache as a map from blocks to contents

The users of the cache see one map from devices and block numbers to contents, which they read by
getting blocks and write by changing the buffers they got. The cache keeps its buffers on the right
chains and shows that map, as long as its users overwrite a buffer they got without reading the
block, give back only what they got, and throw away no dirty block of a device. -/

namespace Nucleos.Minixfs

open Function IntrusiveList Run

namespace Cache
variable {N : Nat} {D : Type}

/-! ## The list of free buffers -/

structure Idle (lru : DoubleList (Fin N)) (count : Fin N → BitVec 8) (inUse : Int) : Prop where
  list : ∃ l, lru.Holds l ∧ ∀ bp, bp ∈ l ↔ count bp = 0
  counted : inUse = (Finset.univ.filter fun bp => count bp ≠ 0).card

section Idle
variable {lru : DoubleList (Fin N)} {count : Fin N → BitVec 8} {inUse : Int} {bp : Fin N} {n : BitVec 8}

lemma used_update_of_ne (hn : n ≠ 0) : (Finset.univ.filter fun a => update count bp n a ≠ 0) =
    insert bp (Finset.univ.filter fun a => count a ≠ 0) := by
  ext a
  by_cases ha : a = bp
  · simp only [ha, Finset.mem_filter_univ, update_self, Finset.mem_insert_self, hn, ne_eq, not_false_eq_true]
  · simp [ha]

lemma used_update_zero : (Finset.univ.filter fun a => update count bp 0 a ≠ 0) =
    (Finset.univ.filter fun a => count a ≠ 0).erase bp := by
  ext a
  by_cases ha : a = bp
  · simp [ha]
  · simp [ha]

lemma Idle.take (h : Idle lru count inUse) (hbp : count bp = 0) (hn : n ≠ 0) :
    Idle (lru.remove bp) (update count bp n) (inUse + 1) := by
  obtain ⟨l, hl, hmem⟩ := h.list
  obtain ⟨l₁, l₂, rfl⟩ := List.append_of_mem ((hmem bp).mpr hbp)
  refine ⟨⟨l₁ ++ l₂, hl.remove, fun a => ?_⟩, ?_⟩
  · have hnot : bp ∉ l₁ ++ l₂ := (List.nodup_cons.mp (List.nodup_middle.mp hl.nodup)).1
    by_cases ha : a = bp
    · simp only [ha, update_self, hn, hnot]
    · rw [update_of_ne ha, ← hmem a]
      simp [ha]
  · rw [used_update_of_ne hn, Finset.card_insert_of_notMem (by simp [hbp]), h.counted]
    push_cast
    rfl

lemma Idle.recount (h : Idle lru count inUse) (hbp : count bp ≠ 0) (hn : n ≠ 0) :
    Idle lru (update count bp n) inUse := by
  obtain ⟨l, hl, hmem⟩ := h.list
  refine ⟨⟨l, hl, fun a => ?_⟩, ?_⟩
  · by_cases ha : a = bp
    · simp only [ha, update_self, hn, hmem, hbp]
    · rw [update_of_ne ha, hmem a]
  · rw [used_update_of_ne hn, Finset.insert_eq_of_mem ((Finset.mem_filter_univ bp).mpr hbp), h.counted]

lemma Idle.release (h : Idle lru count inUse) (hbp : count bp ≠ 0) (atFront : Prop) [Decidable atFront] :
    Idle (if atFront then lru.pushFront bp else lru.pushRear bp) (update count bp 0) (inUse - 1) := by
  obtain ⟨l, hl, hmem⟩ := h.list
  have hnot : bp ∉ l := fun hm => hbp ((hmem bp).mp hm)
  have hfree : ∀ a, a = bp ∨ a ∈ l ↔ update count bp 0 a = 0 := by
    intro a
    by_cases ha : a = bp
    · simp [ha]
    · simp [ha, hmem a]
  refine ⟨?_, ?_⟩
  · split
    · exact ⟨bp :: l, hl.pushFront hnot, fun a => List.mem_cons.trans (hfree a)⟩
    · exact ⟨l ++ [bp], hl.pushRear hnot, fun a => by rw [← hfree a]; simp [or_comm]⟩
  have hin : bp ∈ Finset.univ.filter fun a => count a ≠ 0 := (Finset.mem_filter_univ bp).mpr hbp
  have hpos := Finset.card_pos.mpr ⟨bp, hin⟩
  rw [used_update_zero, Finset.card_erase_of_mem hin, h.counted]
  omega

end Idle

/-! ## The shape of the cache and what it shows -/

def Single (dev blocknr : Fin N → Nat) : Prop :=
  ∀ {p q}, dev p ≠ noDev → dev q = dev p → blocknr q = blocknr p → q = p

lemma Single.rename {dev blocknr : Fin N → Nat} {v b : Nat} (h : Single dev blocknr)
    (hnew : v ≠ noDev → ∀ p, dev p = v → blocknr p ≠ b) (bp : Fin N) :
    Single (update dev bp v) (update blocknr bp b) := by
  intro p q hp hq hb
  simp only [update_apply] at hp hq hb
  split_ifs at hp hq hb with hpb hqb hqb
  · rw [hpb, hqb]
  · exact absurd hb (hnew hp q hq)
  · exact absurd hb.symm (hnew (hq ▸ hp) p hq.symm)
  · exact h hp hq hb

lemma Single.redevice {dev blocknr : Fin N → Nat} {v : Nat} {bp : Fin N} (h : Single dev blocknr)
    (hnew : v ≠ noDev → ∀ p, dev p = v → blocknr p ≠ blocknr bp) : Single (update dev bp v) blocknr := by
  intro p q hp hq hb
  exact h.rename hnew bp hp hq (by rwa [update_eq_self])

section Formed
variable [NeZero N]

structure Formed (c : Cache N D) : Prop where
  idle : Idle c.lru c.count c.bufsInUse
  hash : c.hash.Buckets (fun bp => bufhash (c.blocknr bp)) (fun _ => True)
  single : Single c.dev c.blocknr

end Formed

/-- The cache shows this map. A fresh buffer was got without its contents and is not yet written. -/
structure Shows (c : Cache N D) (map : Nat → Nat → D) (fresh : Fin N → Bool) : Prop where
  held : ∀ {bp}, fresh bp = true → c.count bp ≠ 0 ∧ c.dev bp ≠ noDev
  cached : ∀ {bp}, c.dev bp ≠ noDev → fresh bp = false → c.data bp = map (c.dev bp) (c.blocknr bp)
  stored : ∀ {dev block}, dev ≠ noDev →
    (∀ bp, c.dev bp = dev → c.blocknr bp = block → c.dirt bp = false ∧ fresh bp = false) →
      c.disk dev block = map dev block

section Shows
variable {c : Cache N D} {map : Nat → Nat → D} {fresh : Fin N → Bool} {bp : Fin N} {dev : Nat}

lemma Shows.writeOut (h : c.Shows map fresh) (hdev : c.dev bp = dev) :
    (c.writeOut dev bp).Shows map fresh := by
  refine ⟨h.held, h.cached, fun {v b} hv hclean => ?_⟩
  by_cases hname : v = dev ∧ b = c.blocknr bp
  · obtain ⟨rfl, rfl⟩ := hname
    have hfresh := (hclean bp hdev rfl).2
    have hdata : c.data bp = map (c.dev bp) (c.blocknr bp) := h.cached (by rw [hdev]; exact hv) hfresh
    rw [hdev] at hdata
    simp only [Cache.writeOut, setDisk, and_self, if_true]
    exact hdata
  · simp only [Cache.writeOut, setDisk, if_neg hname]
    refine h.stored hv fun q hq hb => ?_
    have hne : q ≠ bp := by
      rintro rfl
      exact hname ⟨hq.symm.trans hdev, hb.symm⟩
    have hold := hclean q hq hb
    simp only [Cache.writeOut, setDisk, update_of_ne hne] at hold
    exact hold

lemma Shows.writeOuts {q : List (Fin N)} (h : c.Shows map fresh) (hq : ∀ bp ∈ q, c.dev bp = dev) :
    (q.foldl (fun c bp => c.writeOut dev bp) c).Shows map fresh := by
  induction q generalizing c with
  | nil => exact h
  | cons bp q ih =>
    exact ih (h.writeOut (hq bp (.head _))) fun a ha => hq a (.tail bp ha)

lemma Shows.flushall (h : c.Shows map fresh) (dev : Nat) : (c.flushall dev).Shows map fresh := by
  rw [flushall_eq_foldl]
  refine h.writeOuts fun bp hbp => ?_
  exact (mem_dirtyOf.mp ((shellSort_perm c _).mem_iff.mp hbp)).2

end Shows

def Serves [NeZero N] (c : Cache N D) (map : Nat → Nat → D) (fresh : Fin N → Bool) : Prop :=
  c.Formed ∧ c.Shows map fresh

/-! ## The operations -/

section Operations
variable [NeZero N] {c c' : Cache N D} {map : Nat → Nat → D} {fresh : Fin N → Bool} {bp : Fin N}
    {dev block : Nat} {mode : OnlySearch}
  {alloc : Bool}

variable {q : List (Fin N)}

lemma writeIf_good {P : Prop} [Decidable P] (hf : c.Formed) (hs : c.Shows map fresh)
    (hdev : P → c.dev bp ≠ noDev) :
    (if P then c.rwBlock .writing bp else c).Serves map fresh := by
  split
  · next hP =>
    rw [rwBlock_writing (hdev hP)]
    exact ⟨⟨hf.idle, hf.hash, hf.single⟩, hs.writeOut rfl⟩
  · exact ⟨hf, hs⟩

lemma putBlock_good (hf : c.Formed) (hs : c.Shows map fresh) (hheld : c.count bp ≠ 0)
    (hfresh : fresh bp = false)
    (blockType : BitVec 32) : (c.putBlock bp blockType).Serves map fresh := by
  have hcount : ∀ {n a}, fresh a = true → update c.count bp n a ≠ 0 ∧ c.dev a ≠ noDev := by
    intro n a ha
    have hne : a ≠ bp := by
      rintro rfl
      exact Bool.false_ne_true (hfresh.symm.trans ha)
    rw [update_of_ne hne]
    exact hs.held ha
  unfold putBlock
  simp only [update_self]
  split
  · next hlast =>
    exact ⟨⟨hf.idle.recount hheld hlast, hf.hash, hf.single⟩, ⟨hcount, hs.cached, hs.stored⟩⟩
  next hlast =>
  rw [not_not.mp hlast]
  generalize hlru : (if c.dev bp = devRam ∨ blockType &&& oneShot ≠ 0 then c.lru.pushFront bp
    else c.lru.pushRear bp) = lru
  have hidle : Idle lru (update c.count bp 0) (c.bufsInUse - 1) := hlru ▸ hf.idle.release hheld _
  have hshows : ({ c with count := update c.count bp 0, bufsInUse := c.bufsInUse - 1, lru } : Cache
    N D).Shows map fresh :=
    ⟨hcount, hs.cached, hs.stored⟩
  exact writeIf_good ⟨hidle, hf.hash, hf.single⟩ hshows fun himmed => himmed.2.2

lemma search_cases (hf : c.Formed) (dev block : Nat) :
    (c.search dev block = .ok none ∧ (dev ≠ noDev → ∀ p, c.dev p = dev → c.blocknr p ≠ block)) ∨
      ∃ bp, c.search dev block = .ok (some bp) ∧ c.dev bp = dev ∧ c.blocknr bp = block ∧ dev ≠ noDev := by
  unfold search
  split
  · next hdev =>
    exact .inl ⟨rfl, fun h => absurd hdev h⟩
  next hdev =>
  obtain ⟨e, he⟩ := hf.hash.walk_ends (fun bp => c.blocknr bp = block ∧
    c.dev bp = dev) (bufhash block) (n := c.chainFuel)
    (by rw [Fintype.card_fin]; exact Nat.lt_succ_self N)
  simp only [he]
  rcases hf.hash.walk he with ⟨hnone, hall⟩ | ⟨a, hread, hstop, -, -⟩
  · refine .inl ⟨by rw [hnone], fun _ p hp hb => ?_⟩
    have hpassed := hall p trivial (congrArg bufhash hb)
    rw [decide_eq_false_iff_not] at hpassed
    exact hpassed ⟨hb, hp⟩
  · rw [decide_eq_true_iff] at hstop
    exact .inr ⟨a, by rw [hread], hstop.2, hstop.1, hdev⟩

lemma takeOldest_cases (hf : c.Formed) (alloc : Bool) :
    (c.takeOldest alloc = .error .allInUse) ∨ (c.takeOldest alloc = .error .noBuffer) ∨
      ∃ bp bytes, c.takeOldest alloc = .ok (bp, { c with bytes }) ∧ c.count bp = 0 := by
  obtain ⟨l, hl, hmem⟩ := hf.idle.list
  unfold takeOldest
  cases hfront : c.lru.fwd.head () with
  | none => exact .inl rfl
  | some bp =>
    right
    have hbp : c.count bp = 0 := by
      rw [← hmem bp]
      rw [hl.front] at hfront
      exact List.mem_of_mem_head? hfront
    simp only
    split
    · exact .inr ⟨bp, c.bytes, rfl, hbp⟩
    split
    · exact .inr ⟨bp, _, rfl, hbp⟩
    have hlen : l.length < c.chainFuel := by
      have hcard := hl.nodup.length_le_card
      rw [Fintype.card_fin] at hcard
      exact Nat.lt_succ_of_le hcard
    obtain ⟨e, he⟩ := c.lru.fwd.walk_ends c.bytes (c := .head ()) hl.fwd hlen
    obtain ⟨l₁, l₂, rfl, rfl, -, -⟩ := c.lru.fwd.walk_split c.bytes (c := .head ()) hl.fwd he
    have hrest := c.lru.fwd.read_lastCell (c := .head ()) hl.fwd
    simp only [he]
    cases l₂ with
    | nil =>
      simp only [hrest.eq_none, true_or]
    | cons a l₂ =>
      simp only [hrest.eq_some]
      exact .inr ⟨a, c.bytes, rfl, (hmem a).mp (List.mem_append_right l₁ (.head _))⟩

lemma unhash_eq (hhash : c.hash.Buckets (fun bp => bufhash (c.blocknr bp)) (fun _ => True)) (bp : Fin N) :
    ∃ u, c.unhash bp = .ok u ∧ (∃ hash, u = { c with hash }) ∧
      u.hash.Buckets (fun bp => bufhash (c.blocknr bp)) (fun a => True ∧ a ≠ bp) := by
  unfold unhash
  obtain ⟨e, he⟩ := hhash.walk_ends (fun a => a = bp) (bufhash (c.blocknr bp)) (n := c.chainFuel)
    (by rw [Fintype.card_fin]; exact Nat.lt_succ_self N)
  have hread : c.hash.read e = some bp := by
    rcases hhash.walk he with ⟨-, hall⟩ | ⟨a, hread, hstop, -, -⟩
    · exact absurd rfl (decide_eq_false_iff_not.mp (hall bp trivial rfl))
    · rw [hread, decide_eq_true_iff.mp hstop]
  cases hhead : c.hash.head (bufhash (c.blocknr bp)) with
  | none => exact absurd hhead (hhash.nonempty (x := bp) trivial)
  | some a =>
    simp only [he, hread, Option.isSome_some, if_true]
    exact ⟨_, rfl, ⟨_, rfl⟩, hhash.unlink he hread⟩

structure Evicted (c : Cache N D) (bp : Fin N) (c' : Cache N D) : Prop where
  kept : ∃ hash disk dirt, c' = { c.rmLru bp with hash, disk, dirt }
  hash : c'.hash.Buckets (fun bp => bufhash (c.blocknr bp)) (fun a => True ∧ a ≠ bp)
  clean : c.dev bp ≠ noDev → c'.dirt bp = false

lemma evict_spec (hf : c.Formed) (bp : Fin N) : ∃ c', c.evict bp = .ok c' ∧ Evicted c bp c' ∧
    ∀ {map fresh}, c.Shows map fresh → c'.Shows map fresh := by
  obtain ⟨u, hun, ⟨hash, hu⟩, hbuckets⟩ := unhash_eq (c := c.rmLru bp) hf.hash bp
  have hkept : ∀ {map fresh}, c.Shows map fresh → u.Shows map fresh := by
    intro map fresh hs
    rw [hu]
    exact ⟨hs.held, hs.cached, hs.stored⟩
  have hdev : u.dev = c.dev := by rw [hu]; rfl
  unfold evict
  simp only [hun, bind, Except.bind, pure, Except.pure]
  split
  · obtain ⟨disk, dirt, heq, hclean⟩ := flushall_eq (u.dev bp) u
    refine ⟨_, rfl, ⟨⟨hash, disk, dirt, by rw [heq, hu]⟩, ?_, ?_⟩, fun hs => (hkept hs).flushall _⟩
    · rw [heq]
      exact hbuckets
    intro _
    rw [heq]
    exact hclean bp rfl
  · next hdirty =>
    refine ⟨_, rfl, ⟨⟨hash, c.disk, c.dirt, hu⟩, hbuckets, ?_⟩, hkept⟩
    intro hnamed
    by_contra hnot
    rw [hdev] at hdirty
    exact hdirty ⟨hnamed, Bool.not_eq_false _ ▸ hnot⟩

lemma succ_ne_zero_of_ne {n : BitVec 8} (h : n ≠ 255) : n + 1 ≠ 0 := by
  intro hz
  exact h (by rw [← BitVec.add_sub_cancel n 1, hz]; rfl)

variable (mode alloc) in
lemma getBlock_hit (hf : c.Formed) (hs : c.Shows map fresh)
    (hsearch : c.search dev block = .ok (some bp)) (hn : c.count bp ≠ 255) :
    ∃ c', c.getBlock dev block mode alloc = .ok (bp, c') ∧ c'.Formed ∧ c'.Shows map fresh ∧
      c'.dev = c.dev ∧ c'.blocknr = c.blocknr ∧ c'.data = c.data := by
  have hnz := succ_ne_zero_of_ne hn
  have hheld : ∀ {a}, fresh a = true → update c.count bp (c.count bp + 1) a ≠ 0 ∧ c.dev a ≠ noDev := by
    intro a ha
    refine ⟨?_, (hs.held ha).2⟩
    rw [update_apply]
    split
    · exact hnz
    · exact (hs.held ha).1
  unfold getBlock
  simp only [hsearch, bind, Except.bind, pure, Except.pure]
  split_ifs with hfree
  · exact ⟨_, rfl, ⟨hf.idle.take hfree hnz, hf.hash, hf.single⟩, ⟨hheld, hs.cached, hs.stored⟩, rfl, rfl, rfl⟩
  · exact ⟨_, rfl, ⟨hf.idle.recount hfree hnz, hf.hash, hf.single⟩, ⟨hheld, hs.cached, hs.stored⟩,
      rfl, rfl, rfl⟩

omit [NeZero N] in
lemma Shows.renamed {u : Cache N D} {fresh' : Fin N → Bool} (dev' block : Nat) (hs : c.Shows map fresh)
    (hclean : c.dev bp ≠ noDev → c.dirt bp = false ∧ fresh bp = false)
    (hdev : u.dev = update c.dev bp dev') (hblock : u.blocknr = update c.blocknr bp block)
    (hdisk : u.disk = c.disk)
    (hothers : ∀ a, a ≠ bp → u.data a = c.data a ∧ u.dirt a = c.dirt a ∧ u.count a = c.count a ∧
      fresh' a = fresh a)
    (hheld : fresh' bp = true → u.count bp ≠ 0 ∧ dev' ≠ noDev)
    (hdata : dev' ≠ noDev → fresh' bp = false → u.data bp = map dev' block) : u.Shows map fresh' := by
  refine ⟨fun {a} ha => ?_, fun {a} ha hfresh => ?_, fun {v b} hv hall => ?_⟩
  · by_cases hab : a = bp
    · subst hab
      rw [hdev, update_self]
      exact hheld ha
    · obtain ⟨-, -, hcount, hfr⟩ := hothers a hab
      rw [hdev, update_of_ne hab, hcount]
      exact hs.held (hfr ▸ ha)
  · by_cases hab : a = bp
    · subst hab
      rw [hdev, update_self] at ha ⊢
      rw [hblock, update_self]
      exact hdata ha hfresh
    · obtain ⟨hdat, -, -, hfr⟩ := hothers a hab
      rw [hdev, update_of_ne hab] at ha ⊢
      rw [hblock, update_of_ne hab, hdat]
      exact hs.cached ha (hfr ▸ hfresh)
  · rw [hdisk]
    refine hs.stored hv fun a ha hb => ?_
    by_cases hab : a = bp
    · subst hab
      exact hclean (ha ▸ hv)
    obtain ⟨-, hdirt, -, hfr⟩ := hothers a hab
    have hnew := hall a (by rw [hdev, update_of_ne hab]; exact ha)
      (by rw [hblock, update_of_ne hab]; exact hb)
    rwa [hdirt, hfr] at hnew

lemma assign_formed (hf : c.Formed) (hev : Evicted c bp c') (hfree : c.count bp = 0)
    (hnew : dev ≠ noDev → ∀ p, c.dev p = dev → c.blocknr p ≠ block) : (c'.assign dev block bp).Formed := by
  have hhash := hev.hash.push (x := bp) (fun h => h.2 rfl) (bufhash block)
  have hone : c.count bp + 1 ≠ 0 := by rw [hfree]; decide
  obtain ⟨hash, disk, dirt, rfl⟩ := hev.kept
  refine ⟨hf.idle.take hfree hone, fun i => ?_, Single.rename hf.single hnew bp⟩
  obtain ⟨l, hl, hmem⟩ := hhash i
  refine ⟨l, hl, fun a => (hmem a).trans ?_⟩
  by_cases hab : a = bp
  · simp [assign, hab]
  · simp [assign, hab, rmLru]

omit [NeZero N] in
lemma rwBlock_reading_eq (c : Cache N D) (bp : Fin N) :
    ∃ data dirt, c.rwBlock .reading bp = { c with data, dirt } := by
  by_cases hdev : c.dev bp ≠ noDev
  · exact ⟨_, _, by simp only [rwBlock, if_pos hdev]; rfl⟩
  · exact ⟨_, _, by simp only [rwBlock, if_neg hdev]; rfl⟩

lemma fetch_formed (hf : c.Formed) : (c.fetch dev mode bp).Formed := by
  unfold fetch
  split
  · exact hf
  cases mode with
  | noRead => exact hf
  | normal =>
    obtain ⟨data, dirt, heq⟩ := rwBlock_reading_eq c bp
    simp only [heq]
    exact ⟨hf.idle, hf.hash, hf.single⟩
  | prefetch =>
    exact ⟨hf.idle, hf.hash, Single.redevice hf.single fun h => absurd rfl h⟩

def freshAfter (dev : Nat) (mode : OnlySearch) (bp : Fin N) (fresh : Fin N → Bool) : Fin N → Bool :=
  if dev ≠ noDev ∧ mode = .noRead then update fresh bp true else fresh

lemma fetch_shows (hs : c.Shows map fresh) (hfresh : fresh bp = false)
    (hclean : c.dev bp ≠ noDev → c.dirt bp = false)
    (hfree : c.count bp = 0) (hdisk : dev ≠ noDev → c.disk dev block = map dev block) :
    ((c.assign dev block bp).fetch dev mode bp).Shows map (freshAfter dev mode bp fresh) := by
  have hclean' : c.dev bp ≠ noDev → c.dirt bp = false ∧ fresh bp = false := fun h => ⟨hclean h, hfresh⟩
  have hothers : ∀ a, a ≠ bp → c.data a = c.data a ∧ c.dirt a = c.dirt a ∧
      update c.count bp (c.count bp + 1) a = c.count a ∧ fresh a = fresh a :=
    fun a ha => ⟨rfl, rfl, update_of_ne ha _ _, rfl⟩
  unfold fetch freshAfter
  split
  · next hdev =>
    rw [if_neg (fun h => h.1 hdev)]
    exact hs.renamed _ _ hclean' rfl rfl rfl hothers (fun h =>
      absurd (h.symm.trans hfresh) (by decide)) (fun h => absurd hdev h)
  next hdev =>
  cases mode with
  | prefetch =>
    rw [if_neg (fun h => nomatch h.2)]
    refine hs.renamed noDev block hclean' (update_idem _ _ _) rfl rfl hothers
      (fun h => absurd (h.symm.trans hfresh) (by decide)) (fun h => absurd rfl h)
  | noRead =>
    rw [if_pos ⟨hdev, rfl⟩]
    refine hs.renamed dev block hclean' rfl rfl rfl ?_ ?_ ?_
    · intro a ha
      exact ⟨rfl, rfl, update_of_ne ha _ _, update_of_ne ha _ _⟩
    · intro _
      simp only [assign, update_self, hfree]
      exact ⟨by decide, hdev⟩
    · intro _ h
      rw [update_self] at h
      cases h
  | normal =>
    rw [if_neg (fun h => nomatch h.2)]
    have hnamed : (c.assign dev block bp).dev bp ≠ noDev := by
      simp only [assign, update_self]
      exact hdev
    simp only [rwBlock, if_pos hnamed]
    refine hs.renamed dev block hclean' rfl rfl rfl ?_ ?_ ?_
    · intro a ha
      exact ⟨update_of_ne ha _ _, update_of_ne ha _ _, update_of_ne ha _ _, rfl⟩
    · exact fun h => absurd (h.symm.trans hfresh) (by decide)
    intro _ _
    simp only [assign, update_self]
    exact hdisk hdev

variable (mode alloc) in
lemma getBlock_miss (hf : c.Formed) (hs : c.Shows map fresh) (hsearch : c.search dev block = .ok none)
    (hnew : dev ≠ noDev → ∀ p, c.dev p = dev → c.blocknr p ≠ block) :
    c.getBlock dev block mode alloc = .error .allInUse ∨ c.getBlock dev block mode alloc = .error .noBuffer ∨
      ∃ bp c', c.getBlock dev block mode alloc = .ok (bp, c') ∧ c'.Formed ∧
        c'.Shows map (freshAfter dev mode bp fresh) ∧
        fresh bp = false ∧ (mode = .normal → c'.dev bp = dev ∧ c'.blocknr bp = block) := by
  unfold getBlock
  simp only [hsearch, bind, Except.bind, pure, Except.pure]
  rcases takeOldest_cases hf alloc with htake | htake | ⟨bp, bytes, htake, hfree⟩
  · simp only [htake]
    exact .inl trivial
  · simp only [htake]
    exact .inr (.inl trivial)
  simp only [htake]
  right; right
  have hfu : ({ c with bytes } : Cache N D).Formed := ⟨hf.idle, hf.hash, hf.single⟩
  have hsu : ({ c with bytes } : Cache N D).Shows map fresh := ⟨hs.held, hs.cached, hs.stored⟩
  obtain ⟨c', hevict, hev, hkeep⟩ := evict_spec hfu bp
  simp only [hevict]
  have hfresh : fresh bp = false := by
    by_contra h
    exact (hs.held (Bool.not_eq_false _ ▸ h)).1 hfree
  refine ⟨bp, _, rfl, fetch_formed (assign_formed hfu hev hfree hnew), ?_, hfresh, ?_⟩
  · have hclean := hev.clean
    have hshows := hkeep hsu
    obtain ⟨hash, disk, dirt, hc'⟩ := hev.kept
    have hdev : c'.dev = c.dev := by rw [hc']; rfl
    have hblock : c'.blocknr = c.blocknr := by rw [hc']; rfl
    refine fetch_shows hshows hfresh (by rw [hdev]; exact hclean) (by rw [hc']; exact hfree) fun hd => ?_
    refine hshows.stored hd fun p hp hb => absurd ?_ (hnew hd p (hdev ▸ hp))
    exact hblock ▸ hb
  · rintro rfl
    unfold fetch
    split
    · next hd => simp [assign, hd]
    obtain ⟨data, dirt, heq⟩ := rwBlock_reading_eq (c'.assign dev block bp) bp
    simp only [heq]
    simp [assign]

def store (dev block : Nat) (d : D) (map : Nat → Nat → D) : Nat → Nat → D :=
  fun v b => if v = dev ∧ b = block then d else map v b

lemma store_self (dev block : Nat) (d : D) (map : Nat → Nat → D) : store dev block d map dev block = d :=
  if_pos ⟨rfl, rfl⟩

lemma store_of_ne {v b : Nat} (d : D) (map : Nat → Nat → D) (h : ¬ (v = dev ∧ b = block)) :
    store dev block d map v b = map v b :=
  if_neg h

lemma modify_good (hf : c.Formed) (hs : c.Shows map fresh) (bp : Fin N) (d : D) : (c.modify bp d).Formed ∧
    (c.modify bp d).Shows (store (c.dev bp) (c.blocknr bp) d map) (update fresh bp false) := by
  refine ⟨⟨hf.idle, hf.hash, hf.single⟩, ⟨fun {a} ha => ?_, fun {a} ha hfresh => ?_, fun {v b} hv hall => ?_⟩⟩
  · have hab : a ≠ bp := by
      rintro rfl
      rw [update_self] at ha
      cases ha
    rw [update_of_ne hab] at ha
    exact hs.held ha
  · by_cases hab : a = bp
    · subst hab
      simp only [modify, update_self, store_self]
    have hname : ¬ (c.dev a = c.dev bp ∧ c.blocknr a = c.blocknr bp) :=
      fun h => hab (hf.single (h.1 ▸ ha) h.1 h.2)
    rw [update_of_ne hab] at hfresh
    simp only [modify, update_of_ne hab, store_of_ne d map hname]
    exact hs.cached ha hfresh
  · have hname : ¬ (v = c.dev bp ∧ b = c.blocknr bp) := by
      rintro ⟨rfl, rfl⟩
      have hdirt := (hall bp rfl rfl).1
      simp only [modify, update_self] at hdirt
      cases hdirt
    rw [store_of_ne d map hname]
    refine hs.stored hv fun a ha hb => ?_
    have hab : a ≠ bp := by
      rintro rfl
      exact hname ⟨ha.symm, hb.symm⟩
    have hold := hall a ha hb
    simp only [modify, update_of_ne hab] at hold
    exact hold

lemma invalidate_good (hf : c.Formed) (hs : c.Shows map fresh) {device : Nat}
    (hclean : device ≠ noDev → ∀ bp, c.dev bp = device → c.dirt bp = false ∧ fresh bp = false) :
    (c.invalidate device).Serves map fresh := by
  have hkept : ∀ {a}, (c.invalidate device).dev a ≠ noDev → (c.invalidate device).dev a = c.dev a ∧
    c.dev a ≠ device := by
    intro a ha
    simp only [invalidate] at ha ⊢
    split at ha
    · exact absurd rfl ha
    · next h => exact ⟨if_neg h, h⟩
  have hother : ∀ {a}, c.dev a ≠ device → (c.invalidate device).dev a = c.dev a := fun h => if_neg h
  refine ⟨⟨hf.idle, hf.hash, fun {p q} hp hq hb => ?_⟩, ⟨fun {a} ha => ?_, fun {a} ha hfresh => ?_,
    fun {v b} hv hall => ?_⟩⟩
  · have hpk := hkept hp
    have hqk := hkept (hq ▸ hp)
    rw [hpk.1] at hp hq
    rw [hqk.1] at hq
    exact hf.single hp hq hb
  · have hold := hs.held ha
    have hne : c.dev a ≠ device := by
      intro hd
      have hfresh := (hclean (hd ▸ hold.2) a hd).2
      rw [hfresh] at ha
      cases ha
    exact ⟨hold.1, by rw [hother hne]; exact hold.2⟩
  · have hk := hkept ha
    rw [hk.1] at ha ⊢
    exact hs.cached ha hfresh
  · refine hs.stored hv fun a ha hb => ?_
    by_cases hd : c.dev a = device
    · exact hclean (hd ▸ ha ▸ hv) a hd
    · exact hall a ((hother hd).trans ha) hb

/-! ## Reading ahead -/

structure Waiting (c : Cache N D) (q : List (Fin N)) : Prop where
  nodup : q.Nodup
  held : ∀ bp ∈ q, c.count bp ≠ 0
  unnamed : ∀ bp ∈ q, c.dev bp = noDev

def Absent (c : Cache N D) (dev : Nat) (q : List (Fin N)) : Prop :=
  ∀ bp ∈ q, ∀ p, c.dev p = dev → c.blocknr p ≠ c.blocknr bp

omit [NeZero N] in
lemma putBlock_frame (c : Cache N D) (bp : Fin N) (blockType : BitVec 32) :
    (c.putBlock bp blockType).dev = c.dev ∧ (c.putBlock bp blockType).blocknr = c.blocknr ∧
      ∀ a, a ≠ bp → (c.putBlock bp blockType).count a = c.count a := by
  have hwrite : ∀ u : Cache N D, (u.rwBlock .writing bp).dev = u.dev ∧
    (u.rwBlock .writing bp).blocknr = u.blocknr ∧
      (u.rwBlock .writing bp).count = u.count := by
    intro u
    unfold rwBlock
    split
    · exact ⟨rfl, rfl, rfl⟩
    · exact ⟨rfl, rfl, rfl⟩
  unfold putBlock
  simp only
  split
  · exact ⟨rfl, rfl, fun a ha => update_of_ne ha _ _⟩
  split
  · obtain ⟨hdev, hblock, hcount⟩ := hwrite _
    exact ⟨hdev, hblock, fun a ha => (congrFun hcount a).trans (update_of_ne ha _ _)⟩
  · exact ⟨rfl, rfl, fun a ha => update_of_ne ha _ _⟩

omit [NeZero N] in
lemma Waiting.tail (h : c.Waiting (bp :: q)) (hdev : ∀ a, a ≠ bp → c'.dev a = c.dev a)
    (hcount : ∀ a, a ≠ bp → c'.count a = c.count a) : c'.Waiting q := by
  obtain ⟨hnot, hnodup⟩ := List.nodup_cons.mp h.nodup
  refine ⟨hnodup, fun a ha => ?_, fun a ha => ?_⟩
  · rw [hcount a (ne_of_mem_of_not_mem ha hnot)]
    exact h.held a (.tail bp ha)
  · rw [hdev a (ne_of_mem_of_not_mem ha hnot)]
    exact h.unnamed a (.tail bp ha)

omit [NeZero N] in
lemma Shows.not_fresh (hs : c.Shows map fresh) (hun : c.dev bp = noDev) : fresh bp = false := by
  by_contra h
  exact (hs.held (Bool.not_eq_false _ ▸ h)).2 hun

lemma puts_good (hf : c.Formed) (hs : c.Shows map fresh) (hq : c.Waiting q) :
    (q.foldl (fun c bp => c.putBlock bp partialDataBlock) c).Serves map fresh := by
  induction q generalizing c with
  | nil => exact ⟨hf, hs⟩
  | cons bp q ih =>
    have hfresh := hs.not_fresh (hq.unnamed bp (.head _))
    obtain ⟨hf', hs'⟩ := putBlock_good hf hs (hq.held bp (.head _)) hfresh partialDataBlock
    obtain ⟨hdev, -, hcount⟩ := putBlock_frame c bp partialDataBlock
    exact ih hf' hs' (hq.tail (fun a _ => congrFun hdev a) hcount)

def validate (dev : Nat) (bp : Fin N) (c : Cache N D) : Cache N D :=
  { c with data := update c.data bp (c.disk dev (c.blocknr bp)), dev := update c.dev bp dev }

lemma validate_good (hdev : dev ≠ noDev) (hf : c.Formed) (hs : c.Shows map fresh) (hun : c.dev bp = noDev)
    (habsent : ∀ p, c.dev p = dev → c.blocknr p ≠ c.blocknr bp) :
    (c.validate dev bp).Serves map fresh := by
  have hfresh := hs.not_fresh hun
  refine ⟨⟨hf.idle, hf.hash, Single.redevice hf.single fun _ => habsent⟩, ?_⟩
  refine hs.renamed dev (c.blocknr bp) (fun h => absurd hun h) rfl (update_eq_self bp _).symm rfl ?_ ?_ ?_
  · intro a ha
    exact ⟨update_of_ne ha _ _, rfl, rfl, rfl⟩
  · exact fun h => absurd (h.symm.trans hfresh) (by decide)
  intro _ _
  simp only [validate, update_self]
  exact hs.stored hdev fun p hp hb => absurd hb (habsent p hp)

omit [NeZero N] in
lemma Consecutive.le {blocknr : Fin N → Nat} (h : Consecutive blocknr block q) :
    ∀ a ∈ q, block ≤ blocknr a := by
  induction q generalizing block with
  | nil => exact fun a ha => absurd ha List.not_mem_nil
  | cons bp q ih => exact List.forall_mem_cons.mpr ⟨h.1.ge, fun a ha =>
      (Nat.le_succ block).trans (ih h.2 a ha)⟩

section
variable (hdev : dev ≠ noDev) (hf : c.Formed) (hs : c.Shows map fresh)
include hdev hf hs

lemma gather_good {now rest : List (Fin N)}
    (hwait : c.Waiting (now ++ rest)) (habsent : c.Absent dev now) (hnow : Consecutive c.blocknr block now) :
    (c.gather dev block now).Serves map fresh ∧ (c.gather dev block now).Waiting rest := by
  induction now generalizing c block with
  | nil => exact ⟨⟨hf, hs⟩, hwait⟩
  | cons bp now ih =>
    obtain ⟨rfl, hnow⟩ := hnow
    have hun := hwait.unnamed bp (.head _)
    obtain ⟨hfv, hsv⟩ := validate_good hdev hf hs hun (habsent bp (.head _))
    obtain ⟨hfp, hsp⟩ := putBlock_good hfv hsv (hwait.held bp (.head _)) (hs.not_fresh hun) partialDataBlock
    obtain ⟨hpdev, hpblock, hpcount⟩ := putBlock_frame (c.validate dev bp) bp partialDataBlock
    have hother : ∀ a, a ≠ bp → ((c.validate dev bp).putBlock bp partialDataBlock).dev a = c.dev a := by
      intro a ha
      rw [hpdev]
      exact update_of_ne ha _ _
    have hblock : ((c.validate dev bp).putBlock bp partialDataBlock).blocknr = c.blocknr := hpblock
    refine ih (c := (c.validate dev bp).putBlock bp partialDataBlock) hfp hsp
      (hwait.tail hother hpcount) ?_ (hblock.symm ▸ hnow)
    intro a ha p hp
    rw [hblock]
    by_cases hpb : p = bp
    · -- The blocks of the rest of the batch come after this one.
      have hle := hnow.le a ha
      rw [hpb]
      omega
    · exact habsent a (.tail bp ha) p (hother p hpb ▸ hp)

lemma readQueue_good
    (hwait : c.Waiting q) (habsent : c.Absent dev q) : (c.readQueue dev q).Serves map fresh := by
  cases q with
  | nil => exact ⟨hf, hs⟩
  | cons bp q =>
    have hcons := batch_consecutive c.blocknr nrIoreqs (c.blocknr bp) (bp :: q)
    have hsplit := batch_append_drop c.blocknr nrIoreqs (c.blocknr bp) (bp :: q)
    unfold readQueue
    simp only
    generalize batch c.blocknr nrIoreqs (c.blocknr bp) (bp :: q) = now at hcons hsplit ⊢
    rw [← hsplit] at hwait habsent
    obtain ⟨⟨hfg, hsg⟩, hwg⟩ :=
      gather_good hdev hf hs hwait (fun a ha => habsent a (List.mem_append_left _ ha)) hcons
    exact puts_good hfg hsg hwg

lemma rwScattered_reading_good
    (hwait : c.Waiting q) (habsent : c.Absent dev q) :
    (c.rwScattered dev q .reading).Serves map fresh := by
  have hperm := shellSort_perm c q
  refine readQueue_good hdev hf hs ⟨hperm.nodup_iff.mpr hwait.nodup, fun a ha => ?_, fun a ha =>
    ?_⟩ fun a ha => ?_
  · exact hwait.held a (hperm.mem_iff.mp ha)
  · exact hwait.unnamed a (hperm.mem_iff.mp ha)
  · exact habsent a (hperm.mem_iff.mp ha)

end

lemma flushall_good (hf : c.Formed) (hs : c.Shows map fresh) (dev : Nat) :
    (c.flushall dev).Serves map fresh := by
  refine ⟨?_, hs.flushall dev⟩
  obtain ⟨disk, dirt, heq, -⟩ := flushall_eq dev c
  rw [heq]
  exact ⟨hf.idle, hf.hash, hf.single⟩

end Operations

end Cache

end Nucleos.Minixfs
