import Mathlib

/-!
# Bit maps stored in chunks, and masks of flag bits

Bit `b` of a map of `w`-bit chunks is bit `b % w` of chunk `b / w`. The mask lemmas
say when setting or clearing one mask leaves the test of another mask alone.
-/

namespace Nucleos.ChunkMap

section Masks
variable {w : Nat} {f g x : BitVec w}

def isset (x f : BitVec w) : Bool := x &&& f == f

lemma isset_iff (x f : BitVec w) : isset x f = true ↔ ∀ i, f.getLsbD i = true → x.getLsbD i = true := by
  simp only [isset, beq_iff_eq]
  constructor
  · intro h i hi
    have := congrArg (fun y : BitVec w => y.getLsbD i) h
    simp only [BitVec.getLsbD_and, hi, Bool.and_true] at this
    exact this
  intro h
  apply BitVec.eq_of_getLsbD_eq
  intro i _
  rw [BitVec.getLsbD_and]
  cases hf : f.getLsbD i with
  | false => simp
  | true => simp [h i hf]

lemma isset_congr {y : BitVec w} (h : ∀ i, f.getLsbD i = true → y.getLsbD i = x.getLsbD i) :
    isset y f = isset x f := by
  rw [Bool.eq_iff_iff, isset_iff, isset_iff]
  exact forall_congr' fun i => imp_congr_right fun hf => by rw [h i hf]

lemma disjoint_bits (h : f &&& g = 0#w) (i : Nat) : ¬ (f.getLsbD i = true ∧ g.getLsbD i = true) := by
  rintro ⟨hf, hg⟩
  have := congrArg (fun y : BitVec w => y.getLsbD i) h
  simp [hf, hg] at this

lemma disjoint_bit (h : f &&& g = 0#w) {i : Nat} (hg : g.getLsbD i = true) : f.getLsbD i = false :=
  Bool.eq_false_iff.mpr fun hf => disjoint_bits h i ⟨hf, hg⟩

lemma ne_zero_iff : x ≠ 0#w ↔ ∃ i, x.getLsbD i = true := by
  constructor
  · intro h
    by_contra hno
    refine h (BitVec.eq_of_getLsbD_eq fun i _ => ?_)
    rw [BitVec.getLsbD_zero]
    exact Bool.eq_false_iff.mpr fun hi => hno ⟨i, hi⟩
  · rintro ⟨i, hi⟩ rfl
    rw [BitVec.getLsbD_zero] at hi
    nomatch hi

lemma and_ne_zero_iff : x &&& f ≠ 0#w ↔ ∃ i, x.getLsbD i = true ∧ f.getLsbD i = true := by
  rw [ne_zero_iff]
  exact exists_congr fun i => by rw [BitVec.getLsbD_and, Bool.and_eq_true]

lemma getLsbD_andNot_of_disjoint {i : Nat} (h : f.getLsbD i = false) :
    (x &&& ~~~f).getLsbD i = x.getLsbD i := by
  rw [BitVec.getLsbD_and, BitVec.getLsbD_not, h]
  cases hx : x.getLsbD i with
  | false => rfl
  | true => simp [BitVec.lt_of_getLsbD hx]

lemma getLsbD_andNot_self {i : Nat} (h : f.getLsbD i = true) : (x &&& ~~~f).getLsbD i = false := by
  rw [BitVec.getLsbD_and, BitVec.getLsbD_not, h]
  simp

@[simp] lemma isset_or_self (x f : BitVec w) : isset (x ||| f) f = true := by
  rw [isset_iff]
  intro i hi
  simp [hi]

lemma isset_or_left (g : BitVec w) (h : isset x f = true) :
    isset (x ||| g) f = true := by
  rw [isset_iff] at h ⊢
  intro i hi
  simp [h i hi]

lemma isset_or_of_disjoint (x : BitVec w) (h : f &&& g = 0#w) : isset (x ||| f) g = isset x g :=
  isset_congr fun _ hg => by simp [disjoint_bit h hg]

lemma isset_andNot_of_disjoint (x : BitVec w) (h : f &&& g = 0#w) : isset (x &&& ~~~f) g = isset x g :=
  isset_congr fun _ hg => getLsbD_andNot_of_disjoint (disjoint_bit h hg)

lemma andNot_eq_self (h : f &&& g = 0#w) : g &&& ~~~f = g := by
  apply BitVec.eq_of_getLsbD_eq
  intro i _
  cases hb : g.getLsbD i with
  | false => simp [hb]
  | true => rw [getLsbD_andNot_of_disjoint (disjoint_bit h hb), hb]

lemma isset_andNot_self (x : BitVec w) (h : f ≠ 0#w) : isset (x &&& ~~~f) f = false := by
  obtain ⟨i, hi⟩ := ne_zero_iff.mp h
  rw [Bool.eq_false_iff]
  intro hs
  have hset := (isset_iff _ _).mp hs i hi
  rw [getLsbD_andNot_self hi] at hset
  nomatch hset

lemma isset_merge (x y : BitVec w) {m : BitVec w} (h : f &&& ~~~m = 0#w) :
    isset ((x &&& m) ||| (y &&& ~~~m)) f = isset x f := by
  refine isset_congr fun i hf => ?_
  have hm := disjoint_bit ((BitVec.and_comm _ _).trans h) hf
  rw [BitVec.getLsbD_not] at hm
  simp only [BitVec.lt_of_getLsbD hf, decide_true, Bool.true_and, Bool.not_eq_false'] at hm
  simp [hm]

@[simp] lemma isset_zero (h : f ≠ 0#w) : isset 0#w f = false := by
  simp [isset, Ne.symm h]

end Masks

variable {n w : Nat}

abbrev Map (n w : Nat) := Fin n → BitVec w

def get (m : Map n w) (b : Nat) : Bool :=
  if h : b / w < n then (m ⟨b / w, h⟩).getLsbD (b % w) else false

def set (m : Map n w) (b : Nat) : Map n w :=
  fun c => if c.val = b / w then m c ||| (1#w <<< (b % w)) else m c

def unset (m : Map n w) (b : Nat) : Map n w :=
  fun c => if c.val = b / w then m c &&& ~~~(1#w <<< (b % w)) else m c

lemma one_shift_getLsbD {i j : Nat} (hi : i < w) : (1#w <<< i).getLsbD j = decide (j = i) := by
  simp only [BitVec.getLsbD_shiftLeft, BitVec.getLsbD_one]
  by_cases h : j = i
  · subst h
    simp [hi]
    omega
  by_cases hlt : j < i
  · simp [hlt, h]
  · simp [hlt, h]
    omega

lemma mod_eq_iff {a b : Nat} (hc : b / w = a / w) : b % w = a % w ↔ b = a :=
  ⟨fun hm => by rw [← Nat.div_add_mod b w, ← Nat.div_add_mod a w, hc, hm], fun h => by rw [h]⟩

lemma get_set (m : Map n w) (hw : 0 < w) {a b : Nat} (ha : a / w < n) :
    get (set m a) b = (decide (b = a) || get m b) := by
  unfold get set
  by_cases hb : b / w < n
  · simp only [hb, dif_pos]
    by_cases hc : b / w = a / w
    · simp only [hc, if_true, BitVec.getLsbD_or, one_shift_getLsbD (Nat.mod_lt a hw)]
      simp [mod_eq_iff hc, Bool.or_comm]
    · have hba : b ≠ a := fun h => hc (by rw [h])
      simp [hc, hba]
  · have hba : b ≠ a := fun h => hb (by rw [h]; exact ha)
    simp [hb, hba]

lemma get_unset (m : Map n w) (hw : 0 < w) {a b : Nat} : get (unset m a) b = (decide (b ≠ a) && get m b) := by
  unfold get unset
  by_cases hb : b / w < n
  · simp only [hb, dif_pos]
    by_cases hc : b / w = a / w
    · simp only [hc, if_true, BitVec.getLsbD_and, BitVec.getLsbD_not,
        one_shift_getLsbD (Nat.mod_lt a hw), Nat.mod_lt b hw, decide_true, Bool.true_and]
      simp [mod_eq_iff hc, Bool.and_comm]
    · have hba : b ≠ a := fun h => hc (by rw [h])
      simp [hc, hba]
  · simp [hb]

def lowest (c : BitVec w) : Nat := ((List.range w).find? (fun i => c.getLsbD i)).getD 0

lemma lowest_spec {c : BitVec w} (h : c ≠ 0#w) :
    lowest c < w ∧ c.getLsbD (lowest c) = true ∧ ∀ j < lowest c, c.getLsbD j = false := by
  obtain ⟨i, hc⟩ := ne_zero_iff.mp h
  cases hf : (List.range w).find? (fun i => c.getLsbD i) with
  | none =>
    rw [List.find?_eq_none] at hf
    exact absurd hc (hf i (List.mem_range.mpr (BitVec.lt_of_getLsbD hc)))
  | some k =>
    have hlow : lowest c = k := by simp [lowest, hf]
    rw [hlow]
    obtain ⟨hk, hkw, hlt⟩ := List.find?_range_eq_some.mp hf
    refine ⟨List.mem_range.mp hkw, hk, fun j hj => ?_⟩
    simpa using hlt j hj

end Nucleos.ChunkMap
