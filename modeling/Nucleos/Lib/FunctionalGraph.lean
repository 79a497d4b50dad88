import Mathlib

/-!
# Graphs in which every node has at most one successor

The edges are the graph of a partial function. On a finite type such a graph has
no cycle exactly when following the edges ends from every node, within as many
steps as there are nodes.
-/

namespace Nucleos.FunctionalGraph

universe u
variable {α : Type u} {f g : α → Option α} {a b c : α}

def Edge (f : α → Option α) (a b : α) : Prop := f a = some b

def Reaches (f : α → Option α) : α → α → Prop := Relation.ReflTransGen (Edge f)

def Acyclic (f : α → Option α) : Prop := ∀ a, ¬ Relation.TransGen (Edge f) a a

lemma Reaches.cons (h : f a = some b) (hbc : Reaches f b c) : Reaches f a c :=
  Relation.ReflTransGen.head h hbc

lemma Acyclic.mono (h : Acyclic f) (hsub : ∀ a b, g a = some b → f a = some b) : Acyclic g :=
  fun a ha => h a (Relation.TransGen.mono hsub _ _ ha)

lemma reaches_of_update [DecidableEq α] {d : α}
    (hab : Relation.ReflTransGen (Edge (Function.update f c (some d))) a b) :
    Reaches f a b ∨ (Reaches f a c ∧ Relation.ReflTransGen (Edge (Function.update f c (some d))) d b) := by
  induction hab using Relation.ReflTransGen.head_induction_on with
  | refl => exact .inl .refl
  | @head x y hxy hyb ih =>
    by_cases hx : x = c
    · subst hx
      have hd : d = y := by simpa [Edge] using hxy
      exact .inr ⟨.refl, hd ▸ hyb⟩
    have hf : f x = some y := by simpa [Edge, hx] using hxy
    rcases ih with h | ⟨h, hr⟩
    · exact .inl (Reaches.cons hf h)
    · exact .inr ⟨Reaches.cons hf h, hr⟩

lemma Acyclic.update [DecidableEq α] {d : α} (h : Acyclic f) (hc : f c = none)
    (hd : ¬ Reaches f d c) : Acyclic (Function.update f c (some d)) := by
  -- A path to `c` in the new graph was a path in the old one, since `c` is left only at its end.
  have back : ∀ x, Relation.ReflTransGen (Edge (Function.update f c (some d))) x c → Reaches f x c := by
    intro x hx
    rcases reaches_of_update hx with hr | ⟨hr, _⟩
    · exact hr
    · exact hr
  have sub : ∀ x y, Edge f x y → Edge (Function.update f c (some d)) x y := by
    intro x y hxy
    by_cases hx : x = c
    · subst hx
      simp [Edge, hc] at hxy
    · simpa [Edge, hx] using hxy
  intro a ha
  obtain ⟨b, hab, hba⟩ := Relation.TransGen.head'_iff.mp ha
  by_cases hac : a = c
  · subst hac
    have hbd : d = b := by simpa [Edge] using hab
    exact hd (back d (hbd ▸ hba))
  have hf : f a = some b := by simpa [Edge, hac] using hab
  rcases reaches_of_update hba with hr | ⟨hr, hda⟩
  · exact h a (Relation.TransGen.head' hf hr)
  · exact hd (back d (hda.trans (Relation.ReflTransGen.head hab
      (Relation.ReflTransGen.mono sub _ _ hr))))

def follow (f : α → Option α) : Nat → α → Option α
  | 0, a => some a
  | n + 1, a => (f a).bind (follow f n)

lemma follow_add (f : α → Option α) (m n : Nat) (a : α) :
    follow f (m + n) a = (follow f m a).bind (follow f n) := by
  induction m generalizing a with
  | zero => simp [follow]
  | succ m ih =>
    rw [Nat.succ_add]
    simp only [follow]
    cases f a with
    | none => rfl
    | some b => exact ih b

lemma transGen_of_follow {n : Nat} (h : follow f (n + 1) a = some b) : Relation.TransGen (Edge f) a b := by
  induction n generalizing a with
  | zero =>
    cases hf : f a with
    | none => simp [follow, hf] at h
    | some c =>
      have hcb : c = b := by simpa [follow, hf] using h
      exact .single (hcb ▸ hf)
  | succ n ih =>
    cases hf : f a with
    | none => simp [follow, hf] at h
    | some c =>
      have hc : follow f (n + 1) c = some b := by
        rw [follow, hf] at h
        exact h
      exact .head hf (ih hc)

/-- In a finite graph without cycles no path has as many edges as there are nodes. -/
theorem Acyclic.follow_card [Fintype α] (h : Acyclic f) (a : α) : follow f (Fintype.card α) a = none := by
  by_contra hne
  have hsome : ∀ n ≤ Fintype.card α, (follow f n a).isSome := by
    intro n hn
    obtain ⟨k, hk⟩ := Nat.le.dest hn
    cases hf : follow f n a with
    | some b => rfl
    | none => exact absurd (by rw [← hk, follow_add, hf]; rfl) hne
  let node : Fin (Fintype.card α + 1) → α :=
    fun i => (follow f i.val a).get (hsome i.val (Nat.lt_succ_iff.mp i.isLt))
  obtain ⟨i, j, hij, heq⟩ := Fintype.exists_ne_map_eq_of_card_lt node (by simp)
  have hnode : ∀ k : Fin (Fintype.card α + 1), follow f k.val a = some (node k) :=
    fun k => (Option.some_get _).symm
  have hcycle : ∀ i j : Fin (Fintype.card α + 1), i.val < j.val → node i = node j → False := by
    intro i j hlt he
    obtain ⟨k, hk⟩ := Nat.exists_eq_add_of_lt hlt
    have hj := hnode j
    rw [hk, Nat.add_assoc, follow_add, hnode i, Option.bind_some, he] at hj
    exact h _ (transGen_of_follow hj)
  rcases Nat.lt_or_gt_of_ne (fun hv => hij (Fin.ext hv)) with hlt | hgt
  · exact hcycle i j hlt heq
  · exact hcycle j i hgt heq.symm

lemma Acyclic.exists_leaves [Fintype α] (h : Acyclic f) (X : α → Prop) (ha : X a) :
    ∃ b, X b ∧ ∀ c, f b = some c → ¬ X c := by
  by_contra hne
  have hstep : ∀ b, X b → ∃ c, f b = some c ∧ X c := by
    intro b hb
    by_contra hno
    exact hne ⟨b, hb, fun c hf hc => hno ⟨c, hf, hc⟩⟩
  have hall : ∀ n b, X b → ∃ c, follow f n b = some c := by
    intro n
    induction n with
    | zero => exact fun b _ => ⟨b, rfl⟩
    | succ n ih =>
      intro b hb
      obtain ⟨c, hf, hc⟩ := hstep b hb
      obtain ⟨d, hd⟩ := ih c hc
      exact ⟨d, by simp [follow, hf, hd]⟩
  obtain ⟨c, hc⟩ := hall (Fintype.card α) a ha
  rw [h.follow_card a] at hc
  cases hc

end Nucleos.FunctionalGraph
