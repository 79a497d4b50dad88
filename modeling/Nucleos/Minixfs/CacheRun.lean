import Nucleos.Minixfs.CacheShape

/-!
# Runs of the buffer cache

The operations of the cache are taken together with the map its users see: a change of a buffer
writes the block that the buffer names. A run of proper operations never breaks a chain, and what a
block is got with is what was written to it last. -/

namespace Nucleos.Minixfs

open IntrusiveList Run

namespace Cache
variable {N : Nat} [NeZero N] {D : Type}

structure View (N : Nat) (D : Type) where
  cache : Cache N D
  map : Nat → Nat → D
  fresh : Fin N → Bool

inductive Op (N : Nat) (D : Type) where
  | get (dev block : Nat) (mode : OnlySearch) (alloc : Bool)
  | put (bp : Fin N) (blockType : BitVec 32)
  | modify (bp : Fin N) (d : D)
  | flushall (dev : Nat)
  | readAhead (dev : Nat) (q : List (Fin N))
  | invalidate (device : Nat)

namespace View

def start (data : Fin N → D) (disk : Nat → Nat → D) : View N D := ⟨bufPool data disk, disk, fun _ => false⟩

/-- The buffers that are fresh once a block was got: a block found in the cache is as it was. -/
def freshGot (v : View N D) (dev block : Nat) (mode : OnlySearch) (bp : Fin N) : Fin N → Bool :=
  match v.cache.search dev block with
  | .ok none => freshAfter dev mode bp v.fresh
  | _ => v.fresh

def step (v : View N D) : Op N D → Except CacheStop (View N D)
  | .get dev block mode alloc => do
    let (bp, cache) ← v.cache.getBlock dev block mode alloc
    return { v with cache, fresh := v.freshGot dev block mode bp }
  | .put bp blockType => .ok { v with cache := v.cache.putBlock bp blockType }
  | .modify bp d => .ok
    { cache := v.cache.modify bp d
      map := store (v.cache.dev bp) (v.cache.blocknr bp) d v.map
      fresh := Function.update v.fresh bp false }
  | .flushall dev => .ok { v with cache := v.cache.flushall dev }
  | .readAhead dev q => .ok { v with cache := v.cache.rwScattered dev q .reading }
  | .invalidate device => .ok { v with cache := v.cache.invalidate device }

def Proper (v : View N D) : Op N D → Prop
  | .get dev block mode _ => ∀ bp, dev ≠ noDev → v.cache.dev bp = dev → v.cache.blocknr bp = block →
    v.cache.count bp ≠ 255 ∧ (mode = .normal → v.fresh bp = false)
  | .put bp _ => v.cache.count bp ≠ 0 ∧ v.fresh bp = false
  | .modify _ _ => True
  | .flushall _ => True
  | .readAhead dev q => dev ≠ noDev ∧ v.cache.Waiting q ∧ v.cache.Absent dev q
  | .invalidate device => device ≠ noDev → ∀ bp, v.cache.dev bp = device → v.cache.dirt bp = false ∧
      v.fresh bp = false

structure Good (v : View N D) : Prop where
  formed : v.cache.Formed
  shows : v.cache.Shows v.map v.fresh

variable {v v' : View N D} {op : Op N D}

lemma getBlock_spec (h : v.Good) {dev block : Nat} {mode : OnlySearch} {alloc : Bool}
    (hp : v.Proper (.get dev block mode alloc)) :
    v.cache.getBlock dev block mode alloc = .error .allInUse ∨
      v.cache.getBlock dev block mode alloc = .error .noBuffer ∨
      ∃ bp c', v.cache.getBlock dev block mode alloc = .ok (bp, c') ∧
        c'.Formed ∧ c'.Shows v.map (v.freshGot dev block mode bp) ∧
        (mode = .normal → dev ≠ noDev → c'.dev bp = dev ∧ c'.blocknr bp = block ∧
          c'.data bp = v.map dev block) := by
  rcases search_cases h.formed dev block with ⟨hsearch, hnew⟩ | ⟨bp, hsearch, hdev, hblock, hd⟩
  · rcases getBlock_miss mode alloc h.formed h.shows hsearch hnew with
      hstop | hstop | ⟨bp, c', hget, hf, hs, hnot, hname⟩
    · exact .inl hstop
    · exact .inr (.inl hstop)
    have hfresh : v.freshGot dev block mode bp = freshAfter dev mode bp v.fresh := by
      simp only [freshGot, hsearch]
    refine .inr (.inr ⟨bp, c', hget, hf, hfresh ▸ hs, fun hmode hd => ?_⟩)
    obtain ⟨hdev, hblock⟩ := hname hmode
    have hread : freshAfter dev mode bp v.fresh bp = false := by
      rw [freshAfter, if_neg (fun h => absurd (hmode.symm.trans h.2) (by decide))]
      exact hnot
    have hdata := hs.cached (hdev ▸ hd) hread
    rw [hdev, hblock] at hdata
    exact ⟨hdev, hblock, hdata⟩
  · obtain ⟨hcount, hnot⟩ := hp bp hd hdev hblock
    obtain ⟨c', hget, hf, hs, hdev', hblock', hdata'⟩ :=
      getBlock_hit mode alloc h.formed h.shows hsearch hcount
    have hfresh : v.freshGot dev block mode bp = v.fresh := by
      simp only [freshGot, hsearch]
    refine .inr (.inr ⟨bp, c', hget, hf, hfresh ▸ hs, fun hmode hd => ?_⟩)
    have hdata := h.shows.cached (hdev ▸ hd) (hnot hmode)
    rw [hdev, hblock] at hdata
    exact ⟨by rw [hdev', hdev], by rw [hblock', hblock], by rw [hdata', hdata]⟩

lemma step_good (h : v.Good) (hp : v.Proper op) (hstep : v.step op = .ok v') : v'.Good := by
  cases op with
  | get dev block mode alloc =>
    simp only [step] at hstep
    rcases getBlock_spec h hp with hget | hget | ⟨bp, c', hget, hf, hs, -⟩
    · nomatch hget ▸ hstep
    · nomatch hget ▸ hstep
    rw [hget] at hstep
    cases hstep
    exact ⟨hf, hs⟩
  | put bp blockType =>
    cases hstep
    obtain ⟨hf, hs⟩ := putBlock_good h.formed h.shows hp.1 hp.2 blockType
    exact ⟨hf, hs⟩
  | modify bp d =>
    cases hstep
    obtain ⟨hf, hs⟩ := modify_good h.formed h.shows bp d
    exact ⟨hf, hs⟩
  | flushall dev =>
    cases hstep
    obtain ⟨hf, hs⟩ := flushall_good h.formed h.shows dev
    exact ⟨hf, hs⟩
  | readAhead dev q =>
    cases hstep
    obtain ⟨hdev, hwait, habsent⟩ := hp
    obtain ⟨hf, hs⟩ := rwScattered_reading_good hdev h.formed h.shows hwait habsent
    exact ⟨hf, hs⟩
  | invalidate device =>
    cases hstep
    obtain ⟨hf, hs⟩ := invalidate_good h.formed h.shows hp
    exact ⟨hf, hs⟩

lemma step_error (h : v.Good) (hp : v.Proper op) {e : CacheStop} (hstep : v.step op = .error e) :
    e = .allInUse ∨ e = .noBuffer := by
  cases op with
  | get dev block mode alloc =>
    simp only [step] at hstep
    rcases getBlock_spec h hp with hget | hget | ⟨bp, c', hget, -⟩
    · rw [hget] at hstep
      exact .inl (Except.error.inj hstep).symm
    · rw [hget] at hstep
      exact .inr (Except.error.inj hstep).symm
    · rw [hget] at hstep
      nomatch hstep
  | put | modify | flushall | readAhead | invalidate => nomatch hstep

/-! ## The pool at the start -/

omit [NeZero N] in
lemma links_up (next : Fin N → Option (Fin N))
    (hnext : ∀ bp, next bp = if h : bp.val + 1 < N then some ⟨bp.val + 1, h⟩ else none) (m k : Nat)
    (hk : k + m = N) :
    Links next (if h : k < N then some ⟨k, h⟩ else none) ((List.finRange N).drop k) := by
  induction m generalizing k with
  | zero =>
    rw [dif_neg (by omega), List.drop_eq_nil_of_le (by rw [List.length_finRange]; omega)]
    exact .nil
  | succ m ih =>
    have hlt : k < N := by omega
    rw [dif_pos hlt, List.drop_eq_getElem_cons (by rw [List.length_finRange]; exact hlt),
      List.getElem_finRange]
    refine .cons ?_
    rw [hnext]
    exact ih (k + 1) (by omega)

omit [NeZero N] in
lemma prev_lt (bp : Fin N) : bp.val - 1 < N := by omega

omit [NeZero N] in
lemma links_down (prev : Fin N → Option (Fin N))
    (hprev : ∀ bp, prev bp = if 0 < bp.val then some ⟨bp.val - 1, prev_lt bp⟩ else none) (k : Nat)
    (hk : k ≤ N) :
    Links prev (if h : 0 < k then some ⟨k - 1, by omega⟩ else none) ((List.finRange N).take k).reverse := by
  induction k with
  | zero => exact .nil
  | succ k ih =>
    rw [dif_pos (Nat.succ_pos k),
      List.take_succ_eq_append_getElem (by rw [List.length_finRange]; exact hk),
      List.reverse_append,
      List.getElem_finRange]
    refine .cons ?_
    rw [hprev]
    exact ih (by omega)

lemma start_good (data : Fin N → D) (disk : Nat → Nat → D) : (start data disk).Good := by
  have hpos : 0 < N := Nat.pos_of_ne_zero (NeZero.ne N)
  have hup := links_up (bufPool data disk).lru.fwd.next (fun _ => rfl) N 0 (Nat.zero_add N)
  have hdown := links_down (bufPool data disk).lru.bwd.next (fun _ => rfl) N (le_refl N)
  rw [dif_pos hpos, List.drop_zero] at hup
  rw [dif_pos hpos, List.take_of_length_le (by rw [List.length_finRange])] at hdown
  refine ⟨⟨⟨⟨List.finRange N, ⟨hup, hdown⟩, fun bp => ?_⟩, ?_⟩, fun i => ?_, fun hp => absurd rfl hp⟩,
    ⟨nofun, fun h => absurd rfl h, fun _ _ => rfl⟩⟩
  · exact iff_of_true (List.mem_finRange bp) rfl
  · simp [start, bufPool]
  by_cases hi : i = 0
  · subst hi
    refine ⟨List.finRange N, hup, fun bp => iff_of_true (List.mem_finRange bp) ⟨trivial, rfl⟩⟩
  refine ⟨[], ?_, fun bp => iff_of_false List.not_mem_nil fun h => hi h.2.symm⟩
  have hnone : (start data disk).cache.hash.head i = none := if_neg hi
  rw [hnone]
  exact .nil

/-- In a run of proper operations the chains stay whole, a block is got with what was written to it
last, and nothing but a panic for want of buffers keeps an operation from returning. -/
theorem cache_shows_map {n : Nat} (data : Fin N → D) (disk : Nat → Nat → D)
    (tr : Trace (step (N := N) (D := D)) n)
    (h0 : tr.state 0 = start data disk) (hproper : ∀ i < n, (tr.state i).Proper (tr.act i)) :
    (∀ i ≤ n, (tr.state i).cache.Formed) ∧
    (∀ i < n, ∀ dev block alloc, dev ≠ noDev → tr.act i = .get dev block .normal alloc →
      ∃ bp, (tr.state i).cache.getBlock dev block .normal alloc = .ok (bp, (tr.state (i + 1)).cache) ∧
        (tr.state (i + 1)).cache.dev bp = dev ∧ (tr.state (i + 1)).cache.blocknr bp = block ∧
        (tr.state (i + 1)).cache.data bp = (tr.state i).map dev block) ∧
    ∀ i ≤ n, ∀ op e, (tr.state i).Proper op → (tr.state i).step op = .error e → e = .allInUse ∨
      e = .noBuffer := by
  have hgood : ∀ i ≤ n, (tr.state i).Good :=
    tr.invariant_of Good Proper (h0 ▸ start_good data disk) hproper fun h hp hs => step_good h hp hs
  refine ⟨fun i hi => (hgood i hi).formed, fun i hi dev block alloc hdev hact => ?_,
    fun i hi op e hp he => step_error (hgood i hi) hp he⟩
  have hp := hproper i hi
  have hok := tr.ok i hi
  rw [hact] at hp hok
  simp only [step] at hok
  rcases getBlock_spec (hgood i (Nat.le_of_lt hi)) hp with hget | hget | ⟨bp, c', hget, -, -, hname⟩
  · nomatch hget ▸ hok
  · nomatch hget ▸ hok
  rw [hget] at hok
  rw [← Except.ok.inj hok]
  exact ⟨bp, hget, hname rfl hdev⟩

instance : NeZero nrBufs := ⟨by decide⟩

/-- In a run of proper operations, `flushall` leaves on the disk what was written last to every
block of the device, but for one whose buffer was got without its contents and not written since. -/
theorem flushed_to_disk {n k dev block : Nat} (data : Fin N → D) (disk : Nat → Nat → D)
    (tr : Trace (step (N := N) (D := D)) n)
    (h0 : tr.state 0 = start data disk) (hproper : ∀ i < n, (tr.state i).Proper (tr.act i)) (hk : k < n)
    (hact : tr.act k = .flushall dev) (hdev : dev ≠ noDev)
    (hfresh : ∀ bp, (tr.state k).cache.dev bp = dev → (tr.state k).cache.blocknr bp = block →
      (tr.state k).fresh bp = false) :
    (tr.state (k + 1)).cache.disk dev block = (tr.state k).map dev block := by
  have hgood : (tr.state (k + 1)).Good := tr.invariant_of Good Proper (h0 ▸ start_good data disk) hproper
    (fun h hp hs => step_good h hp hs) (k + 1) hk
  have hok := tr.ok k hk
  rw [hact] at hok
  rw [← Except.ok.inj hok] at hgood ⊢
  obtain ⟨disk', dirt, heq, hclean⟩ := flushall_eq dev (tr.state k).cache
  refine hgood.shows.stored hdev fun bp hd hb => ?_
  rw [heq] at hd hb ⊢
  exact ⟨hclean bp hd, hfresh bp hd hb⟩

/-- Every block of every disk holds 7, and the memory for the buffers 0. -/
def sevens : View nrBufs Nat := start (fun _ => 0) (fun _ _ => 7)

/-- A block is read, changed, given back, written out, thrown away and read again. -/
def rereadActs : Nat → Op nrBufs Nat
  | 0 => .get 3 5 .normal true
  | 1 => .modify 0 9
  | 2 => .put 0 0
  | 3 => .flushall 3
  | 4 => .invalidate 3
  | _ => .get 3 5 .normal true

theorem cache_shows_map_reread :
    ∃ tr : Trace (step (N := nrBufs) (D := Nat)) 6, tr.state 0 = sevens ∧ tr.act = rereadActs ∧
    ∃ bp, (tr.state 5).cache.getBlock 3 5 .normal true = .ok (bp, (tr.state 6).cache) ∧
      (tr.state 6).cache.data bp = 9 := by
  let tr := Trace.run step sevens rereadActs 6 (by decide +kernel)
  have hmap : (tr.state 5).map 3 5 = 9 := by decide +kernel
  have hproper : ∀ i < 6, (tr.state i).Proper (tr.act i) := by
    intro i hi
    match i, hi with
    | 0, _ => exact nofun
    | 1, _ => exact trivial
    | 2, _ => exact ⟨by decide +kernel, by decide +kernel⟩
    | 3, _ => exact trivial
    | 4, _ =>
      have hclean : ∀ bp, (tr.state 4).cache.dev bp = 3 → (tr.state 4).cache.dirt bp = false ∧
        (tr.state 4).fresh bp = false := by
        decide +kernel
      exact fun _ => hclean
    | 5, _ =>
      have hnone : ∀ bp, (tr.state 5).cache.dev bp ≠ 3 := by decide +kernel
      exact fun bp _ hdev => absurd hdev (hnone bp)
  have h0 : tr.state 0 = sevens := rfl
  have hlast : tr.act 5 = .get 3 5 .normal true := rfl
  refine ⟨tr, h0, rfl, ?_⟩
  clear_value tr
  obtain ⟨bp, hget, -, -, hdata⟩ :=
    (cache_shows_map _ _ tr h0 hproper).2.1 5 (by decide) 3 5 true (by decide) hlast
  exact ⟨bp, hget, hdata.trans hmap⟩

theorem flushed_to_disk_reread : ∃ tr : Trace (step (N := nrBufs) (D := Nat)) 4, tr.act = rereadActs ∧
    (tr.state 4).cache.disk 3 5 = 9 := by
  let tr := Trace.run step sevens rereadActs 4 (by decide +kernel)
  have hmap : (tr.state 3).map 3 5 = 9 := by decide +kernel
  have hfresh : ∀ bp, (tr.state 3).fresh bp = false := by decide +kernel
  have hproper : ∀ i < 4, (tr.state i).Proper (tr.act i) := by
    intro i hi
    obtain rfl | rfl | rfl | rfl : i = 0 ∨ i = 1 ∨ i = 2 ∨ i = 3 := by omega
    · have hnone : ∀ bp, (tr.state 0).cache.dev bp ≠ 3 := by decide +kernel
      exact fun bp _ hdev => absurd hdev (hnone bp)
    · exact trivial
    · exact ⟨by decide +kernel, by decide +kernel⟩
    · exact trivial
  have h0 : tr.state 0 = sevens := rfl
  have hflush : tr.act 3 = .flushall 3 := rfl
  refine ⟨tr, rfl, ?_⟩
  clear_value tr
  exact (flushed_to_disk _ _ tr h0 hproper (by decide) hflush (by decide) fun bp _ _ => hfresh bp).trans hmap

def lossActs : Nat → Op nrBufs Nat
  | 0 => .get 3 5 .normal true
  | 1 => .modify 0 9
  | 2 => .put 0 0
  | 3 => .invalidate 3
  | _ => .get 3 5 .normal true

/-- A dirty block that is thrown away comes back with its old contents. -/
theorem invalidate_loses_write :
    ∃ tr : Trace (step (N := nrBufs) (D := Nat)) 5, tr.state 0 = sevens ∧ tr.act = lossActs ∧
    ∃ bp, (tr.state 4).cache.getBlock 3 5 .normal true = .ok (bp, (tr.state 5).cache) ∧
      (tr.state 4).map 3 5 = 9 ∧ (tr.state 5).cache.data bp = 7 := by
  let tr := Trace.run step sevens lossActs 5 (by decide +kernel)
  obtain ⟨⟨bp, c⟩, hget, hnext⟩ := bind_eq_ok.mp (tr.ok 4 (by decide))
  have hcache : c = (tr.state 5).cache := congrArg cache (Except.ok.inj hnext)
  have hdata : (((tr.state 4).cache.getBlock 3 5 .normal true).toOption.map fun r => r.2.data r.1) =
    some 7 := by decide +kernel
  rw [hget] at hdata
  exact ⟨tr, rfl, rfl, bp, hcache ▸ hget, by decide +kernel, hcache ▸ Option.some.inj hdata⟩

end View

end Cache

end Nucleos.Minixfs
