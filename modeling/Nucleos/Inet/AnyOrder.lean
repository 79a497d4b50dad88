import Nucleos.Inet.Reassembly

/-!
# Fragments in any order

A datagram that was cut into pieces is put together whatever the order of their arrival, as long as
no piece comes between others before the one directly in front of it has come. -/

namespace Nucleos.Inet

open Run

/-- The fragments of a datagram: none is empty, no two overlap, and nothing is missing. -/
structure Partition (d : List UInt8) (l : List Packet) : Prop where
  piece : ∀ f ∈ l, Piece d f ∧ f.whole = false ∧ f.data ≠ []
  apart : l.Pairwise fun f g => f.stop ≤ g.offset ∨ g.stop ≤ f.offset
  all : ∀ i < d.length, Covers l i

/-- If a fragment comes between two others, the one directly in front of it has come. -/
def Follows (done : List Packet) (p : Packet) : Prop :=
  ∀ f ∈ done, ∀ g ∈ done, f.offset < p.offset → p.offset < g.offset → ∃ c ∈ done, c.stop = p.offset

def InTurn (l : List Packet) : Prop := ∀ i < l.length, ∀ p ∈ l[i]?, Follows (l.take i) p

/-- What `reassemble` returns for one fragment after the other, with the times at which they
come. -/
def feed (hz : Nat) : Entry → List (Packet × Nat) → Except Assert (List (Option Packet))
  | _, [] => .ok []
  | e, a :: l => do
    let (e', r) ← reassemble hz a.1 a.2 e
    let rs ← feed hz e' l
    .ok (r :: rs)

structure Held (d : List UInt8) (done l : List Packet) : Prop where
  chain : Chain d l
  covers : ∀ i, Covers l i ↔ Covers done i
  first : ∀ f ∈ l, ∃ g ∈ done, g.fragoff = f.fragoff ∧ g.ihl = f.ihl ∧ g.stop ≤ f.stop

lemma offset_lt_stop {f : Packet} (hf : f.data ≠ []) : f.offset < f.stop :=
  Nat.lt_add_of_pos_right (List.length_pos_iff.mpr hf)

section Step
variable {d : List UInt8} {done l : List Packet} {p : Packet} (h : Held d done l)
include h

section Apart
variable (hpos : p.data ≠ []) (hdone : ∀ f ∈ done, f.data ≠ [] ∧
    (f.stop ≤ p.offset ∨ p.stop ≤ f.offset))
include hpos hdone

lemma Held.not_covers_offset : ¬ Covers l p.offset := by
  intro hcov
  obtain ⟨f, hf, hle, hlt⟩ := (h.covers p.offset).mp hcov
  have hp := offset_lt_stop hpos
  have := (hdone f hf).2
  omega

lemma Held.fitting (hturn : Follows done p) : Fitting p l := by
  have hlt := offset_lt_stop hpos
  have hshort : Short p (ahead p l) := by
    intro n hn
    have hoff := ahead_head hn
    obtain ⟨g, hg, hfrag, -, hle⟩ :=
      h.first n ((List.dropWhile_sublist _).subset (List.mem_of_head? hn))
    obtain ⟨hne, hapart⟩ := hdone g hg
    have hgs := offset_lt_stop hne
    simp only [Packet.offset] at *
    omega
  unfold Fitting
  split
  · exact hshort
  next curr hlast =>
  have hle := passed_le (List.mem_of_getLast? hlast)
  have hl : Chain d ((passed p l).dropLast ++ curr :: ahead p l) :=
    (split_behind hlast).symm ▸ h.chain
  refine ⟨fun hapart => or_iff_not_imp_right.mpr fun _ => ?_, fun _ hin => ?_, fun _ _ => hshort⟩
  · cases hcase : ahead p l with
    | nil => rfl
    | cons n rest =>
      -- the one directly in front has come, and would be held
      have hmem : n ∈ (ahead p l).head? := by rw [hcase]; rfl
      obtain ⟨f, hf, hfrag, -⟩ :=
        h.first curr ((List.takeWhile_sublist _).subset (List.mem_of_getLast? hlast))
      obtain ⟨g, hg, hfrag', -⟩ :=
        h.first n ((List.dropWhile_sublist _).subset (List.mem_of_head? hmem))
      have hnext := ahead_head hmem
      have hcs := curr.offset_le_stop
      obtain ⟨c, hc, hend⟩ := hturn f hf g hg (by simp only [Packet.offset] at *; omega)
        (by simp only [Packet.offset] at *; omega)
      have hcov := (h.covers (p.offset - 1)).mpr ⟨c, hc,
        by have := offset_lt_stop (hdone c hc).1; omega, by omega⟩
      refine absurd (split_behind hlast ▸ hcov) (hl.lost (by omega) ?_)
      rw [covers_cons, not_or]
      exact ⟨fun hhas => by have := hhas.2; omega,
        hl.behind.2.2.not_covers fun n hn => by have := ahead_head hn; omega⟩
  · exact absurd ⟨curr, (List.takeWhile_sublist _).subset (List.mem_of_getLast? hlast),
      hle, by omega⟩
      (h.not_covers_offset hpos hdone)

lemma Held.follows (hfit : Fitting p l) : Follows done p := by
  intro f hf g hg hfp hpg
  have hcov : ∀ x ∈ done, Covers l x.offset :=
    fun x hx => (h.covers _).mpr ⟨x, hx, le_rfl, offset_lt_stop (hdone x hx).1⟩
  unfold Fitting at hfit
  split at hfit
  · next hlast =>
    have hsplit := passed_append_ahead p l
    rw [List.getLast?_eq_none_iff.mp hlast, List.nil_append] at hsplit
    refine absurd (hcov f hf) (h.chain.not_covers fun n hn => ?_)
    have := ahead_head (hsplit.symm ▸ hn)
    omega
  next curr hlast =>
  have hmem := (List.takeWhile_sublist _).subset (List.mem_of_getLast? hlast)
  have hle := passed_le (List.mem_of_getLast? hlast)
  have hnot : ∀ x ∈ l, x.offset ≤ p.offset → x.stop ≤ p.offset := fun x hx hle =>
    Nat.not_lt.mp fun hlt => h.not_covers_offset hpos hdone ⟨x, hx, hle, hlt⟩
  have hahead : ahead p l ≠ [] := by
    intro hnil
    obtain ⟨x, hx, hxle, hxlt⟩ := hcov g hg
    have hpass : x ∈ passed p l := by
      rwa [← List.append_nil (passed p l), ← hnil, passed_append_ahead]
    have := hnot x hx (passed_le hpass)
    omega
  have htouch : p.offset ≤ curr.stop := Nat.not_lt.mp fun hlt => (hfit.1 hlt).elim hahead hpos
  have hstop := hnot curr hmem hle
  -- the last byte of the fragment held in front came with one that ends there
  obtain ⟨x, hx, hfrag, -, hxs⟩ := h.first curr hmem
  have hxpos := offset_lt_stop (hdone x hx).1
  have hoff : x.offset = curr.offset := by rw [Packet.offset, hfrag, Packet.offset]
  obtain ⟨c, hc, hcle, hclt⟩ := (h.covers (p.offset - 1)).mp ⟨curr, hmem, by omega, by omega⟩
  have hp := offset_lt_stop hpos
  have := (hdone c hc).2
  exact ⟨c, hc, by omega⟩

end Apart

lemma Held.placed (hp : Piece d p) (hfit : Fitting p l) : Held d (done ++ [p]) (placed p l) := by
  obtain ⟨hchain, hcov⟩ := (placed_spec h.chain hp).1 hfit
  have hclosed : Closed fun x => Piece d x ∧ ∃ g ∈ done ++ [p], g.fragoff = x.fragoff ∧
    g.ihl = x.ihl ∧ g.stop ≤ x.stop := by
    refine ⟨fun hx => hx.1.length, fun {x y} hx hy hmeet hlt => ⟨hx.1.join hy.1 hmeet hlt, ?_⟩⟩
    obtain ⟨g, hg, hfrag, hihl, hle⟩ := hx.2
    exact ⟨g, hg, hfrag, hihl, by rw [join_stop hx.1.length hy.1.length hmeet hlt]; omega⟩
  refine ⟨hchain, fun i => ?_, fun f hf =>
    ((hclosed.place ⟨hp, p, by simp, rfl, rfl, le_rfl⟩ fun x hx => ?_).2.2 f hf).2⟩
  · rw [hcov, h.covers, covers_append, covers_cons, or_iff_left not_covers_nil]
  · obtain ⟨g, hg, hfirst⟩ := h.first x hx
    exact ⟨h.chain.piece x hx, g, List.mem_append_left _ hg, hfirst⟩

end Step

section Lost
variable {d : List UInt8} {hz j : Nat} {e : Entry} {frags : List Packet}
    {rest : List (Packet × Nat)} {rs : List (Option Packet)}
    (hj : j < d.length)
include hj

lemma feed_step {a : Packet × Nat} (hpieces : ∀ f ∈ frags, Piece d f) (hp : Piece d a.1)
    (hpart : a.1.whole = false)
    (hlost : ¬ Covers (placed a.1 frags) j) (h : feed hz { e with frags } (a :: rest) = .ok rs) :
    ∃ rs', rs = none :: rs' ∧ feed hz { e with frags := placed a.1 frags } rest = .ok rs' := by
  have hplaced := ((closed_piece d).place hp hpieces).2.2
  rw [feed, reassemble_eq hpieces hp hpart, if_neg fun hw => hlost (covers_of_whole hplaced hw hj)]
    at h
  obtain ⟨_, heq, h⟩ := bind_eq_ok.mp h
  cases heq
  obtain ⟨rs', hrs, h⟩ := bind_eq_ok.mp h
  cases h
  exact ⟨rs', rfl, hrs⟩

/-- A byte that is lost does not come again, and nothing is returned. -/
lemma feed_lost (hfrags : ∀ f ∈ frags, Piece d f ∧ ¬ f.Has j)
    (hrest : ∀ b ∈ rest, Piece d b.1 ∧ b.1.whole = false ∧ ¬ b.1.Has j)
    (h : feed hz { e with frags } rest = .ok rs) :
    ∀ r ∈ rs, r = none := by
  induction rest generalizing frags rs with
  | nil =>
    cases h
    exact nofun
  | cons b rest ih =>
    obtain ⟨⟨hb, hpart, hnot⟩, hrest⟩ := List.forall_mem_cons.mp hrest
    have hclosed : Closed fun x => Piece d x ∧ ¬ x.Has j := by
      refine ⟨fun hx => hx.1.length, fun {x y} hx hy hmeet hlt => ⟨hx.1.join hy.1 hmeet hlt,
        fun hhas => ?_⟩⟩
      have hend := join_stop hx.1.length hy.1.length hmeet hlt
      have hoff : (x.join y).offset = x.offset := rfl
      have hx := hx.2
      have hy := hy.2
      simp only [Packet.Has, hoff, hend] at *
      omega
    have hplaced := (hclosed.place ⟨hb, hnot⟩ hfrags).2.2
    have hlost : ¬ Covers (placed b.1 frags) j := by
      rintro ⟨f, hf, hhas⟩
      exact (hplaced f hf).2 hhas
    obtain ⟨rs', rfl, hfeed⟩ := feed_step hj (fun f hf => (hfrags f hf).1) hb hpart hlost h
    exact List.forall_mem_cons.mpr ⟨rfl, ih hplaced hrest hfeed⟩

end Lost

/-- As long as fragments are missing the entry holds those that have come, and nothing is returned.
All of them are put together with the last one exactly if each one that is still to come is in
turn. -/
theorem feed_held {d : List UInt8} {hz : Nat} {e : Entry} {all : List Packet} (hl : Partition d all)
    {rest : List (Packet × Nat)}
    (hrest : rest ≠ []) (htime : ∀ a ∈ rest, a.2 ≤ e.minTtl * hz + e.firstTime)
    {done frags : List Packet}
    (hsplit : all = done ++ rest.map Prod.fst) (h : Held d done frags) :
    (∃ p ∈ all, p.offset = 0 ∧ feed hz { e with frags } rest =
      .ok (List.replicate (rest.length - 1) none ++
        [some { p with length := p.hdrSize + d.length, more := false, data := d }])) ↔
    ∀ i, done.length ≤ i → ∀ p ∈ all[i]?, Follows (all.take i) p := by
  induction rest generalizing done frags with
  | nil => exact absurd rfl hrest
  | cons a rest ih =>
    have hapart := List.pairwise_append.mp (hsplit ▸ hl.apart)
    have hmem : a.1 ∈ all := hsplit ▸ List.mem_append_right _ (.head _)
    obtain ⟨hp, hpart, hpos⟩ := hl.piece _ hmem
    have hdone : ∀ f ∈ done, f.data ≠ [] ∧ (f.stop ≤ a.1.offset ∨ a.1.stop ≤ f.offset) :=
      fun f hf =>
      ⟨(hl.piece f (hsplit ▸ List.mem_append_left _ hf)).2.2, hapart.2.2 f hf _ (.head _)⟩
    have hfirst : (∀ p ∈ all[done.length]?, Follows (all.take done.length) p) ↔
      Follows done a.1 := by simp [hsplit]
    by_cases hfit : Fitting a.1 frags
    · have hnext := h.placed hp hfit
      have hlater : (∀ i, done.length ≤ i → ∀ p ∈ all[i]?, Follows (all.take i) p) ↔
          ∀ i, (done ++ [a.1]).length ≤ i → ∀ p ∈ all[i]?, Follows (all.take i) p := by
        rw [List.length_append, List.length_singleton]
        refine ⟨fun hall i hi => hall i (by omega), fun hall i hi => ?_⟩
        rcases Nat.eq_or_lt_of_le hi with rfl | hlt
        · exact hfirst.mpr (h.follows hpos hdone hfit)
        · exact hall i hlt
      rw [hlater, feed, reassemble_eq h.chain.piece hp hpart,
        if_neg (Nat.not_lt.mpr (htime a (.head _)))]
      cases rest with
      | nil =>
        refine iff_of_true ?_ fun i hi p hp => ?_
        · obtain ⟨q, hq, hw, hdata⟩ :=
            hnext.chain.complete (fun i hi => (hnext.covers i).mpr (hsplit ▸ hl.all i hi))
            (hp.length_pos hpart)
          obtain ⟨g, hg, hfrag, hihl, -⟩ := hnext.first q (List.mem_of_head? hq)
          have hlen := (hnext.chain.piece q (List.mem_of_head? hq)).length
          have hwhole : q = { g with length := g.hdrSize + d.length, more := false, data := d } := by
            obtain ⟨ihl, length, fragoff, more, data⟩ := q
            simp_all [Packet.whole, Packet.bufsize, Packet.hdrSize]
          have hzero : g.fragoff = 0 := by
            rw [hfrag]
            exact beq_iff_eq.mp (Bool.and_eq_true_iff.mp hw).1
          rw [if_pos (by rw [hq]; exact hw), hq, hwhole]
          exact ⟨g, hsplit ▸ hg, by rw [Packet.offset, hzero], rfl⟩
        · rw [hsplit, List.getElem?_eq_none (by simpa using hi)] at hp
          cases hp
      | cons b rest =>
        have hw : ¬ (placed a.1 frags).head?.any Packet.whole = true := by
          intro hw
          obtain ⟨hb, -, hne⟩ := hl.piece b.1 (by simp [hsplit])
          have hpos := offset_lt_stop hne
          have hend := hb.stop
          obtain ⟨f, hf, hle, hlt⟩ :=
            (hnext.covers b.1.offset).mp (covers_of_whole hnext.chain.piece hw (by omega))
          rw [hsplit, List.map_cons, List.append_cons] at hl
          have := (List.pairwise_append.mp hl.apart).2.2 f hf b.1 (.head _)
          omega
        rw [if_neg hw, ← ih (by simp) (fun x hx => htime x (.tail _ hx))
          (by simpa using hsplit) hnext]
        refine exists_congr fun p => and_congr_right fun _ => and_congr_right fun _ => ?_
        simp [bind_eq_ok, List.replicate_succ]
    · refine iff_of_false ?_ fun hall => hfit (h.fitting hpos hdone (hfirst.mp (hall _ le_rfl)))
      rintro ⟨p, -, -, hfeed⟩
      obtain ⟨j, hhad, hlost⟩ := (placed_spec h.chain hp).2 hfit
      obtain ⟨x, hx, hhas⟩ : Covers (done ++ [a.1]) j := by
        rw [covers_append, covers_cons, or_iff_left not_covers_nil, ← h.covers]
        exact hhad
      rw [hsplit, List.map_cons, List.append_cons] at hl
      have hj : j < d.length :=
        Nat.lt_of_lt_of_le hhas.2 (hl.piece x (List.mem_append_left _ hx)).1.stop
      obtain ⟨rs, heq, hfeed⟩ := feed_step hj h.chain.piece hp hpart hlost hfeed
      have hnone := feed_lost hj (fun f hf => ⟨((closed_piece d).place hp h.chain.piece).2.2 f hf,
        fun hhas => hlost ⟨f, hf, hhas⟩⟩)
        (fun b hb => ?_) hfeed
      · have hlast : some _ ∈ none :: rs := heq ▸ List.mem_append_right _ (.head _)
        cases hnone _ ((List.mem_cons.mp hlast).resolve_left (by simp))
      have hmem : b.1 ∈ rest.map Prod.fst := List.mem_map_of_mem hb
      obtain ⟨hpiece, hpart, -⟩ := hl.piece b.1 (List.mem_append_right _ hmem)
      refine ⟨hpiece, hpart, fun hhas' => ?_⟩
      have := (List.pairwise_append.mp hl.apart).2.2 x hx b.1 hmem
      have hlo := hhas.1
      have hhi := hhas.2
      have hlo' := hhas'.1
      have hhi' := hhas'.2
      omega

/-- Fragments are put together with the last of them, and not before, exactly if they arrive in
turn: all that was sent, under the header of the first fragment. -/
theorem any_order_reassembled {d : List UInt8} {hz : Nat} {e : Entry} {l : List (Packet × Nat)}
    (hne : l ≠ []) (hl : Partition d (l.map Prod.fst))
    (htime : ∀ a ∈ l, a.2 ≤ e.minTtl * hz + e.firstTime) (he : e.frags = []) :
    (∃ p ∈ l.map Prod.fst, p.offset = 0 ∧ feed hz e l =
      .ok (List.replicate (l.length - 1) none ++
        [some { p with length := p.hdrSize + d.length, more := false, data := d }])) ↔
      InTurn (l.map Prod.fst) := by
  have hheld : Held d [] [] := ⟨⟨.nil, nofun⟩, fun _ => Iff.rfl, nofun⟩
  obtain ⟨frags, firstTime, minTtl⟩ := e
  cases he
  refine (feed_held hl hne htime rfl hheld).trans ⟨fun hall i _ => hall i (Nat.zero_le i),
    fun hall i _ p hp => hall i ?_ p hp⟩
  exact (List.getElem?_eq_some_iff.mp hp).1

def bytes32 : List UInt8 := List.replicate 32 1

def quarter (o : Nat) : Packet := ⟨5, 28, o, o ≠ 3, List.replicate 8 1⟩

def quarters (l : List Nat) : List (Packet × Nat) := l.map fun o => (quarter o, 2)

lemma quarter_piece {o : Nat} (h : o < 4) :
    Piece bytes32 (quarter o) ∧ (quarter o).whole = false ∧ (quarter o).data ≠ [] := by
  match o, h with
  | 0, _ | 1, _ | 2, _ | 3, _ => exact ⟨⟨rfl, rfl, by decide, by decide, by decide⟩, rfl, nofun⟩

lemma quarters_piece {l : List Nat} (hl : ∀ o ∈ l, o < 4) :
    ∀ f ∈ (quarters l).map Prod.fst, Piece bytes32 f ∧ f.whole = false ∧ f.data ≠ [] := by
  simpa [quarters] using fun o ho => quarter_piece (hl o ho)

theorem last_first_reassembled : ∃ p : Packet, p.offset = 0 ∧
    feed 60 ⟨[], 1, 255⟩ (quarters [3, 0, 1, 2]) = .ok [none, none, none,
      some { p with length := p.hdrSize + 32, more := false, data := bytes32 }] := by
  obtain ⟨p, -, h⟩ := @any_order_reassembled bytes32 60 ⟨[], 1, 255⟩ (quarters [3, 0, 1, 2]) nofun
    ⟨quarters_piece (by decide), by decide, by decide⟩ (by decide) rfl |>.mpr
      (by unfold InTurn Follows; decide)
  exact ⟨p, h⟩

/-- The third quarter comes between the first and the last, without the second, and is lost. -/
theorem third_quarter_lost : Partition bytes32 ((quarters [0, 3, 2, 1]).map Prod.fst) ∧
    feed 60 ⟨[], 1, 255⟩ (quarters [0, 3, 2, 1]) = .ok [none, none, none, none] :=
  ⟨⟨quarters_piece (by decide), by decide, by decide⟩, by decide +kernel⟩

end Nucleos.Inet
