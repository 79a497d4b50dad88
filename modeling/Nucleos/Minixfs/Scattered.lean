import Nucleos.Minixfs.CacheShape

/-!
# Transfers that break off

The driver may give up anywhere in a run of blocks. A write then goes on behind the last buffer that
has been transferred, as long as there is one; a read does not. -/

namespace Nucleos.Minixfs.Cache

open Function

variable {N : Nat} {D : Type} {c : Cache N D} {bp : Fin N} {q l r : List (Fin N)} {dev block : Nat}

/-- What the driver says, and how many buffers it has transferred. -/
structure Answer where
  result : Int
  done : Nat

/-- A first buffer that could not be transferred is given up if the driver reports an error. -/
def giveUp (result : Int) (bp : Fin N) (c : Cache N D) : Cache N D :=
  if result ≠ 0 then { c with dev := update c.dev bp noDev } else c

/-- The buffers transferred, with their places on the device, and the cache, if the loop ends within
the fuel; `i` counts the requests. -/
def transferLoop (blockSize dev : Nat) (flag : RwFlag) (driver : Nat → Answer) :
    Nat → Nat → List (Fin N) → Cache N D → Option (List (Fin N × Nat) × Cache N D)
  | _, _, [], c => some ([], c)
  | 0, _, _ :: _, _ => none
  | n + 1, i, bp :: q, c =>
    let done := (batch c.blocknr nrIoreqs (c.blocknr bp) (bp :: q)).take (driver i).done
    let places := done.zipIdx.map fun x => (x.1, c.blocknr bp * blockSize + x.2 * blockSize)
    let rest := (bp :: q).drop done.length
    match flag with
    | .reading =>
      let c := if done = [] then c.giveUp (driver i).result bp else c.gather dev (c.blocknr bp) done
      some (places, rest.foldl (fun c bp => c.putBlock bp partialDataBlock) c)
    | .writing =>
      if done = [] then some ([], c.giveUp (driver i).result bp)
      else (transferLoop blockSize dev flag driver n (i + 1) rest
        (c.scatter dev (c.blocknr bp) done)).map fun x => (places ++ x.1, x.2)

def rwScatteredWith (blockSize dev : Nat) (flag : RwFlag) (driver : Nat → Answer)
    (bufq : List (Fin N)) (c : Cache N D) :
    Option (List (Fin N × Nat) × Cache N D) :=
  transferLoop blockSize dev flag driver bufq.length 0 (c.shellSort bufq) c

/-! ## The sort -/

def Sorted (c : Cache N D) (q : List (Fin N)) : Prop :=
  q.Pairwise fun a b => c.blocknr a ≤ c.blocknr b

lemma above_middle {a x : Fin N} :
    c.above (l ++ a :: x :: r) l.length (l.length + 1) = true ↔ c.blocknr x < c.blocknr a := by
  simp [above]

lemma sorted_snoc {x : Fin N} (hl : c.Sorted l) (hx : ∀ a ∈ l, c.blocknr a ≤ c.blocknr x) :
    c.Sorted (l ++ [x]) :=
  List.pairwise_append.mpr ⟨hl, List.pairwise_singleton _ _, fun a ha _ hb =>
    List.mem_singleton.mp hb ▸ hx a ha⟩

lemma siftDown_sorted {x : Fin N} {n : Nat} (hl : c.Sorted l) (hne : l ≠ []) (hn : l.length ≤ n) :
    ∃ m, c.siftDown 1 n (l.length - 1) (l ++ x :: r) = m ++ r ∧ c.Sorted m ∧ m.Perm (x :: l) := by
  induction l using List.reverseRecOn generalizing n r with
  | nil => exact absurd rfl hne
  | append_singleton l a ih =>
    obtain ⟨hl, -, hle⟩ := List.pairwise_append.mp hl
    have hle : ∀ b ∈ l, c.blocknr b ≤ c.blocknr a :=
      fun b hb => hle b hb a (List.mem_singleton_self a)
    obtain ⟨n, rfl⟩ : ∃ k, n = k + 1 := ⟨n - 1, by simp at hn; omega⟩
    rw [List.length_append, List.length_singleton, Nat.add_sub_cancel, List.append_assoc,
      List.singleton_append, siftDown]
    by_cases hlt : c.blocknr x < c.blocknr a
    · have hswap : swapAt (l ++ a :: x :: r) l.length (l.length + 1) = l ++ x :: a :: r := by
        simp [swapAt]
      rw [if_pos (above_middle.mpr hlt), hswap]
      have hsort : ∀ {m : List (Fin N)}, c.Sorted m → m.Perm (x :: l) → c.Sorted (m ++ [a]) := by
        intro m hm hp
        refine sorted_snoc hm fun b hb => ?_
        rcases List.mem_cons.mp (hp.mem_iff.mp hb) with rfl | hb
        · exact hlt.le
        · exact hle b hb
      rcases List.eq_nil_or_concat l with rfl | ⟨l', b, rfl⟩
      · exact ⟨[x] ++ [a], rfl, hsort (List.pairwise_singleton _ _) (.refl _), .refl _⟩
      rw [if_pos (by simp)]
      obtain ⟨m, heq, hm, hp⟩ := @ih (a :: r) n hl (by simp) (by simp at hn ⊢; omega)
      exact ⟨m ++ [a], by rw [heq, List.append_assoc, List.singleton_append], hsort hm hp,
        hp.append_right [a]⟩
    · rw [if_neg (mt above_middle.mp hlt)]
      have hx : ∀ b ∈ l ++ [a], c.blocknr b ≤ c.blocknr x := by
        intro b hb
        rcases List.mem_append.mp hb with hb | hb
        · exact (hle b hb).trans (not_lt.mp hlt)
        · exact List.mem_singleton.mp hb ▸ not_lt.mp hlt
      exact ⟨l ++ [a] ++ [x], by simp, sorted_snoc (sorted_snoc hl hle) hx,
        List.perm_append_singleton x _⟩

lemma sortPass_sorted (c : Cache N D) (q : List (Fin N)) : c.Sorted (c.sortPass 1 q) := by
  have hpass : ∀ r l : List (Fin N), c.Sorted l → l ≠ [] →
      c.Sorted ((List.range' l.length r.length).foldl (fun q j => c.siftDown 1 (j + 1) (j - 1) q)
        (l ++ r)) := by
    intro r
    induction r with
    | nil => intro l hl _; simpa using hl
    | cons x r ih =>
      intro l hl hne
      obtain ⟨m, heq, hm, hp⟩ := @siftDown_sorted _ _ c l r x (l.length + 1) hl hne (Nat.le_succ _)
      have hlen : m.length = l.length + 1 := hp.length_eq
      rw [List.length_cons, List.range'_succ, List.foldl_cons, heq, ← hlen]
      exact ih m hm (List.ne_nil_of_length_eq_add_one hlen)
  unfold sortPass
  cases q with
  | nil => exact List.Pairwise.nil
  | cons x q =>
    rw [List.range_eq_range', List.length_cons, List.range'_succ]
    exact hpass q [x] (List.pairwise_singleton _ _) (List.cons_ne_nil _ _)

inductive Gap : Nat → Prop
  | one : Gap 1
  | next {g : Nat} (h : Gap g) : Gap (3 * g + 1)

lemma firstGap_gap (size n : Nat) {g : Nat} (hg : Gap g) :
    ∃ g', Gap g' ∧ firstGap size (n + 1) g = 3 * g' + 1 := by
  induction n generalizing g with
  | zero =>
    refine ⟨g, hg, ?_⟩
    unfold firstGap
    split <;> rfl
  | succ n ih =>
    rw [firstGap]
    split
    · exact ih hg.next
    · exact ⟨g, hg, rfl⟩

lemma sortPasses_sorted {g n : Nat} (hg : Gap g) (hn : g < n) (q : List (Fin N)) :
    c.Sorted (c.sortPasses n (3 * g + 1) q) := by
  induction hg generalizing n q with
  | one =>
    obtain ⟨n, rfl⟩ := Nat.exists_eq_add_of_lt hn
    have hlast : ∀ n q, c.sortPasses n 1 q = q := by
      intro n q
      cases n <;> rfl
    rw [sortPasses, if_neg (by decide), hlast]
    exact sortPass_sorted c q
  | @next g hg ih =>
    obtain ⟨n, rfl⟩ := Nat.exists_eq_add_of_lt hn
    have hdiv : (3 * (3 * g + 1) + 1) / 3 = 3 * g + 1 := by omega
    rw [sortPasses, if_neg (by omega), hdiv]
    exact ih (by omega) _

lemma shellSort_sorted (c : Cache N D) (q : List (Fin N)) : c.Sorted (c.shellSort q) := by
  obtain ⟨g, hg, heq⟩ := firstGap_gap q.length q.length Gap.one
  unfold shellSort
  rw [heq]
  exact sortPasses_sorted hg (by omega) q

/-! ## The transfers -/

lemma batch_take (blocknr : Fin N → Nat) (n m block : Nat) (q : List (Fin N)) :
    (batch blocknr n block q).take m = batch blocknr (min m n) block q := by
  induction q generalizing n m block with
  | nil => cases n <;> cases m <;> simp [batch]
  | cons bp q ih =>
    cases n with
    | zero => simp [batch]
    | succ n =>
      cases m with
      | zero => simp [batch]
      | succ m =>
        rw [batch, Nat.succ_min_succ, batch]
        split
        · rfl
        · rw [List.take_succ_cons, ih]

lemma Consecutive.places {blocknr : Fin N → Nat} {b i : Nat} (h : Consecutive blocknr (b + i) q)
    (size : Nat) :
    (q.zipIdx i).map (fun x => (x.1, b * size + x.2 * size)) = q.map fun a =>
      (a, blocknr a * size) := by
  induction q generalizing i with
  | nil => rfl
  | cons a q ih =>
    rw [List.zipIdx_cons, List.map_cons, List.map_cons, @ih (i + 1) h.2, h.1, Nat.add_mul]

lemma putBlock_lists (c : Cache N D) (bp : Fin N) :
    ∃ lru count n, c.putBlock bp partialDataBlock = { c with lru, count, bufsInUse := n } := by
  have hbit : partialDataBlock &&& writeImmed = 0 := by decide
  unfold putBlock
  simp only [hbit, ne_eq, not_true_eq_false, false_and, if_false]
  split <;> exact ⟨_, _, _, rfl⟩

/-- The buffers have been transferred, each from or to its own block, and no others. -/
def Transferred (dev : Nat) (flag : RwFlag) (done : List (Fin N)) (c c' : Cache N D) : Prop :=
  match flag with
  | .reading => ∃ lru count n dev', c' = { c with
      lru, count, bufsInUse := n, dev := dev', data :=
        fun b => if b ∈ done then c.disk dev (c.blocknr b) else c.data b }
  | .writing => (∃ dev', c' = { done.foldl (fun c b => c.writeOut dev b) c with dev := dev' }) ∧
      ∀ b, c'.dirt b = if b ∈ done then false else c.dirt b

lemma gather_transferred (h : Consecutive c.blocknr block q) :
    Transferred dev .reading q c (c.gather dev block q) := by
  induction q generalizing c block with
  | nil => exact ⟨_, _, _, _, rfl⟩
  | cons bp q ih =>
    obtain ⟨rfl, hq⟩ := h
    obtain ⟨lru, count, n, hput⟩ := (c.validate dev bp).putBlock_lists bp
    obtain ⟨lru', count', n', dev', heq⟩ :=
      @ih ((c.validate dev bp).putBlock bp partialDataBlock) (c.blocknr bp + 1)
      (by rw [hput]; exact hq)
    refine ⟨lru', count', n', dev', heq.trans ?_⟩
    have hdata : (fun b => if b ∈ q then c.disk dev (c.blocknr b) else (c.validate dev bp).data b) =
        fun b => if b ∈ bp :: q then c.disk dev (c.blocknr b) else c.data b := by
      funext b
      by_cases hb : b = bp <;> simp [hb, validate]
    rw [hput, ← hdata]
    rfl

lemma Transferred.puts {done : List (Fin N)} {c' : Cache N D}
    (h : Transferred dev .reading done c c') (rest : List (Fin N)) :
    Transferred dev .reading done c (rest.foldl (fun c bp =>
      c.putBlock bp partialDataBlock) c') := by
  induction rest generalizing c' with
  | nil => exact h
  | cons bp rest ih =>
    obtain ⟨lru, count, n, hput⟩ := c'.putBlock_lists bp
    obtain ⟨_, _, _, dev', rfl⟩ := h
    exact ih ⟨lru, count, n, dev', hput⟩

lemma writeOuts_transferred (dev : Nat) (q : List (Fin N)) (c : Cache N D) (dev' : Fin N → Nat) :
    Transferred dev .writing q c { q.foldl (fun c b => c.writeOut dev b) c with dev := dev' } := by
  obtain ⟨disk, heq⟩ := writeOuts_eq dev q c
  exact ⟨⟨dev', rfl⟩, fun b => by rw [heq]⟩

lemma giveUp_transferred (flag : RwFlag) (result : Int) :
    Transferred dev flag [] c (c.giveUp result bp) := by
  unfold giveUp
  cases flag with
  | reading => split <;> exact ⟨_, _, _, _, rfl⟩
  | writing => split <;> exact writeOuts_transferred dev [] c _

lemma transferred_nil (flag : RwFlag) : Transferred dev flag [] c c := by
  cases flag with
  | reading => exact ⟨_, _, _, _, rfl⟩
  | writing => exact ⟨⟨_, rfl⟩, fun _ => rfl⟩

/-- How many buffers at the front of the queue the driver reports complete. A request is for blocks
that follow each other, and is made for what is left after the one before, if that was a write and
completed something. -/
def reported (blocknr : Fin N → Nat) (flag : RwFlag) (driver : Nat → Answer) :
    Nat → Nat → List (Fin N) → Nat
  | 0, _, _ | _, _, [] => 0
  | n + 1, i, bp :: q =>
    let k := min (driver i).done (batch blocknr nrIoreqs (blocknr bp) (bp :: q)).length
    if flag = .reading ∨ k = 0 then k
      else k + reported blocknr flag driver n (i + 1) ((bp :: q).drop k)

lemma transferLoop_spec {blockSize n i : Nat} {flag : RwFlag} {driver : Nat → Answer}
    (hn : q.length ≤ n) :
    ∃ c', transferLoop blockSize dev flag driver n i q c =
        some ((q.take (reported c.blocknr flag driver n i q)).map fun b =>
          (b, c.blocknr b * blockSize), c') ∧
      Transferred dev flag (q.take (reported c.blocknr flag driver n i q)) c c' := by
  induction n generalizing q c i with
  | zero =>
    obtain rfl := List.length_eq_zero_iff.mp (Nat.le_zero.mp hn)
    exact ⟨c, rfl, transferred_nil flag⟩
  | succ n ih =>
    cases q with
    | nil => exact ⟨c, rfl, transferred_nil flag⟩
    | cons bp q =>
      have hk := List.length_take (i := (driver i).done) (l := batch c.blocknr nrIoreqs
        (c.blocknr bp) (bp :: q))
      unfold reported transferLoop
      simp only [← hk]
      rw [batch_take]
      have hcons := batch_consecutive c.blocknr (min (driver i).done nrIoreqs)
        (c.blocknr bp) (bp :: q)
      have hsplit := batch_append_drop c.blocknr (min (driver i).done nrIoreqs)
        (c.blocknr bp) (bp :: q)
      generalize batch c.blocknr (min (driver i).done nrIoreqs) (c.blocknr bp) (bp :: q) = done
        at hcons hsplit ⊢
      have htake := congrArg (List.take done.length) hsplit
      rw [List.take_left] at htake
      rw [Consecutive.places (i := 0) hcons blockSize]
      cases flag with
      | reading =>
        simp only [true_or, if_true, ← htake]
        refine ⟨_, rfl, Transferred.puts ?_ _⟩
        split
        · next hnil => exact hnil ▸ giveUp_transferred .reading _
        · exact gather_transferred hcons
      | writing =>
        by_cases hnil : done = []
        · simp only [hnil, List.length_nil, or_true, if_true, List.take_zero, List.map_nil]
          exact ⟨_, rfl, giveUp_transferred .writing _⟩
        obtain ⟨disk, hwrote⟩ := writeOuts_eq dev done c
        have hpos := List.length_pos_iff.mpr hnil
        obtain ⟨c', hloop, ⟨dev', hc'⟩, -⟩ :=
          @ih (done.foldl (fun c b => c.writeOut dev b) c) ((bp :: q).drop done.length) (i + 1)
          (by rw [List.length_drop]; omega)
        have hnr : (done.foldl (fun c b => c.writeOut dev b) c).blocknr = c.blocknr := by
          rw [hwrote]
        simp only [reduceCtorEq, List.length_eq_zero_iff, hnil, or_self, if_false,
          List.take_add, ← htake]
        rw [hnr] at hloop hc'
        refine ⟨c', ?_, ?_⟩
        · rw [scatter_eq hcons, hloop, List.map_append]
          rfl
        · rw [hc', ← List.foldl_append]
          exact writeOuts_transferred dev _ c dev'

/-- The sort leaves the buffers in the order of their blocks. Whatever the driver does, the loop
ends, and exactly the buffers that it reports complete have been transferred, each at the place of
its block and only once; of the others none has been read, written or marked clean. -/
theorem scattered_transfers (blockSize dev : Nat) (flag : RwFlag) (driver : Nat → Answer)
    (bufq : List (Fin N)) (c : Cache N D) :
    (c.shellSort bufq).Perm bufq ∧ c.Sorted (c.shellSort bufq) ∧
      ∃ done c', done = (c.shellSort bufq).take (reported c.blocknr flag driver bufq.length 0
        (c.shellSort bufq)) ∧
        c.rwScatteredWith blockSize dev flag driver bufq = some (done.map fun b =>
          (b, c.blocknr b * blockSize), c') ∧
        (bufq.Nodup → done.Nodup) ∧ Transferred dev flag done c c' := by
  have hperm := shellSort_perm c bufq
  obtain ⟨c', hloop, hdone⟩ := @transferLoop_spec _ _ c (c.shellSort bufq) dev blockSize bufq.length
    0 flag driver hperm.length_eq.le
  refine ⟨hperm, shellSort_sorted c bufq, _, c', rfl, hloop, fun hnd => ?_, hdone⟩
  exact (hperm.nodup_iff.mpr hnd).sublist (List.take_sublist _ _)

/-- Four dirty buffers; the blocks of three of them follow each other. -/
def fourDirty : Cache 4 Nat :=
  { bufPool (fun b => b.val) fun _ _ => 9 with
    blocknr := fun b => [7, 30, 5, 6].getD b 0, dev := fun _ => 3, dirt := fun _ => true }

/-- The driver completes two of the three buffers, and nothing of what is left. -/
theorem scattered_transfers_broken :
    ∃ c', fourDirty.rwScatteredWith 1024 3 .writing (fun i => if i = 0 then ⟨0, 2⟩ else ⟨-5, 0⟩)
      [0, 1, 2, 3] = some ([(2, 5120), (3, 6144)], c') ∧
    Transferred 3 .writing [2, 3] fourDirty c' ∧ c'.dirt 0 = true ∧ c'.dirt 2 = false := by
  obtain ⟨-, -, done, c', rfl, hloop, -, hdone⟩ :=
    scattered_transfers 1024 3 .writing (fun i => if i = 0 then ⟨0, 2⟩ else ⟨-5, 0⟩)
    [0, 1, 2, 3] fourDirty
  have htwo : (fourDirty.shellSort [0, 1, 2, 3]).take (reported fourDirty.blocknr .writing
      (fun i => if i = 0 then ⟨0, 2⟩ else ⟨-5, 0⟩) [(0 : Fin 4), 1, 2, 3].length 0
        (fourDirty.shellSort [0, 1, 2, 3])) = [2, 3] := by
    decide +kernel
  rw [htwo] at hloop hdone
  refine ⟨c', hloop, hdone, ?_, ?_⟩
  · rw [hdone.2 0]
    decide
  · rw [hdone.2 2]
    decide

lemma transferLoop_whole {blockSize n i : Nat} {flag : RwFlag} {driver : Nat → Answer}
    (hall : ∀ i, nrIoreqs ≤ (driver i).done)
    (hn : q.length ≤ n) : ∃ places, transferLoop blockSize dev flag driver n i q c =
      some (places, if flag = .reading then c.readQueue dev q else c.writeQueue dev n q) := by
  induction n generalizing q c i with
  | zero =>
    obtain rfl := List.length_eq_zero_iff.mp (Nat.le_zero.mp hn)
    cases flag <;> exact ⟨_, rfl⟩
  | succ n ih =>
    cases q with
    | nil => cases flag <;> exact ⟨_, rfl⟩
    | cons bp q =>
      have hpos := batch_nonempty c.blocknr bp q
      unfold transferLoop
      simp only [batch_take, Nat.min_eq_right (hall i), if_neg (List.ne_nil_of_length_pos hpos)]
      cases flag with
      | reading => exact ⟨_, rfl⟩
      | writing =>
        obtain ⟨places, hloop⟩ :=
          @ih (c.scatter dev (c.blocknr bp) (batch c.blocknr nrIoreqs (c.blocknr bp) (bp :: q)))
          ((bp :: q).drop (batch c.blocknr nrIoreqs (c.blocknr bp) (bp :: q)).length) (i + 1)
            (by rw [List.length_drop]; omega)
        simp only [hloop]
        exact ⟨_, rfl⟩

/-- With a driver that completes its requests the loop does what the cache does without one. -/
theorem scattered_whole (blockSize dev : Nat) (flag : RwFlag) {driver : Nat → Answer}
    (hall : ∀ i, nrIoreqs ≤ (driver i).done)
    (bufq : List (Fin N)) (c : Cache N D) :
    ∃ places, c.rwScatteredWith blockSize dev flag driver bufq =
      some (places, c.rwScattered dev bufq flag) := by
  obtain ⟨places, hloop⟩ := @transferLoop_whole _ _ c (c.shellSort bufq) dev blockSize bufq.length 0
    flag driver hall
    (shellSort_perm c bufq).length_eq.le
  refine ⟨places, hloop.trans ?_⟩
  cases flag <;> rfl

theorem scattered_whole_driver :
    ∃ places, fourDirty.rwScatteredWith 1024 3 .writing (fun _ => ⟨0, nrIoreqs⟩) [0, 1, 2, 3] =
    some (places, fourDirty.rwScattered 3 [0, 1, 2, 3] .writing) :=
  scattered_whole 1024 3 .writing (fun _ => le_rfl) [0, 1, 2, 3] _

end Nucleos.Minixfs.Cache
