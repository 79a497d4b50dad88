import Nucleos.Lib.Run

/-!
# Reassembly of IP datagrams

The fragments of a datagram are kept in the order of their offsets. `reassemble` merges a new
fragment with the one before it and with the one behind it, and `merge_frags` throws the first of
two fragments away when the second does not reach beyond it. -/

namespace Nucleos.Inet

open Run

/-- The assertions of `merge_frags`. -/
inductive Assert where
  | firstSize
  | secondSize
  | order
  | mergedSize
deriving DecidableEq, Repr

/-- A packet in its buffer: the fields of the header that are looked at here, and what is behind the
header. `fragoff` counts in units of eight bytes. -/
structure Packet where
  ihl : Nat
  length : Nat
  fragoff : Nat
  more : Bool
  data : List UInt8
deriving DecidableEq, Repr

namespace Packet
variable (p : Packet)

def hdrSize : Nat := p.ihl * 4
def datasize : Nat := p.length - p.hdrSize
def offset : Nat := p.fragoff * 8
def bufsize : Nat := p.hdrSize + p.data.length

def whole : Bool := p.fragoff == 0 && !p.more

def stop : Nat := p.offset + p.data.length

def Has (i : Nat) : Prop := p.offset ≤ i ∧ i < p.stop

instance (i : Nat) : Decidable (p.Has i) := inferInstanceAs (Decidable (_ ∧ _))

/-- The first packet with what the second one has behind its end. The length field has 16 bits. -/
def join (second : Packet) : Packet :=
  let secondDatasize := second.offset + second.datasize - (p.offset + p.datasize)
  { p with
    more := p.more && second.more
    length := (p.hdrSize + (p.datasize + secondDatasize)) % 65536
    data := p.data ++ (second.data.drop (p.offset + p.datasize - second.offset)).take secondDatasize }

end Packet

/-- `merge_frags`: the packet that is left, and those linked behind it. `link` is what the second
packet has behind it; whatever the first one has is lost. -/
def mergeFrags (first second : Packet) (link : List Packet) : Except Assert (Packet × List Packet) :=
  if first.hdrSize + first.datasize ≠ first.bufsize then .error .firstSize
  else if second.hdrSize + second.datasize ≠ second.bufsize then .error .secondSize
  else if second.offset < first.offset then .error .order
  else if second.offset > first.offset + first.datasize then .ok (first, second :: link)
  else if second.offset + second.datasize ≤ first.offset + first.datasize then .ok (second, link)
  else if first.hdrSize + (first.datasize +
    (second.offset + second.datasize - (first.offset + first.datasize))) ≠
      (first.join second).bufsize then .error .mergedSize
  else .ok (first.join second, link)

def passed (pack : Packet) (frags : List Packet) : List Packet := frags.takeWhile (·.offset ≤ pack.offset)

def ahead (pack : Packet) (frags : List Packet) : List Packet := frags.dropWhile (·.offset ≤ pack.offset)

/-- The fragments of an entry together with a new one. -/
def place (pack : Packet) (frags : List Packet) : Except Assert (List Packet) :=
  match (passed pack frags).getLast?, ahead pack frags with
  | none, [] => .ok [pack]
  | none, next :: rest => do
    let (curr, link) ← mergeFrags pack next rest
    .ok (curr :: link)
  | some curr, [] => do
    let (curr, link) ← mergeFrags curr pack []
    .ok ((passed pack frags).dropLast ++ curr :: link)
  | some curr, next :: rest => do
    let (curr, _) ← mergeFrags curr pack []
    let (curr, link) ← mergeFrags curr next rest
    .ok ((passed pack frags).dropLast ++ curr :: link)

/-- `ip_ass_t` without the names of the datagram. -/
structure Entry where
  frags : List Packet
  firstTime : Nat
  minTtl : Nat
deriving DecidableEq, Repr

/-- `reassemble` with the entry that was found for the packet; `hz` is the number of ticks in a
second. -/
def reassemble (hz : Nat) (pack : Packet) (now : Nat) (e : Entry) : Except Assert (Entry × Option Packet) :=
  if e.frags = [] then .ok ({ e with frags := [pack] }, none)
  else do
    let frags ← place pack e.frags
    if frags.head?.any Packet.whole then
      let e' : Entry := { e with frags := [], firstTime := 0 }
      if e.minTtl * hz + e.firstTime < now then .ok (e', none) else .ok (e', frags.head?)
    else .ok ({ e with frags }, none)

/-- The packet has these bytes of a datagram, which fits into the length field with the header of
the packet. -/
structure Piece (d : List UInt8) (p : Packet) : Prop where
  length : p.length = p.bufsize
  data : p.data = (d.drop p.offset).take p.data.length
  stop : p.stop ≤ d.length
  more : p.more = false ↔ p.stop = d.length
  fits : p.hdrSize + d.length < 65536

def Covers (l : List Packet) (i : Nat) : Prop := ∃ f ∈ l, f.Has i

instance (l : List Packet) (i : Nat) : Decidable (Covers l i) :=
  inferInstanceAs (Decidable (∃ f ∈ l, f.Has i))

/-- Nothing that was received is lost, and a datagram of which all has been received is returned. -/
structure Kept (d : List UInt8) (e : Entry) (p : Packet) (e' : Entry) (r : Option Packet) : Prop where
  kept : r = none → ∀ i, Covers e.frags i ∨ p.Has i → Covers e'.frags i
  returned : (∀ i < d.length, Covers e.frags i ∨ p.Has i) → (∃ f ∈ p :: e.frags, f.more = false) →
    ∃ q, r = some q ∧ q.whole = true ∧ q.data = d

def Short (p : Packet) (l : List Packet) : Prop := ∀ n ∈ l.head?, p.stop < n.stop

/-- The new fragment ends before the end of the first one, if it comes before it. If it comes behind
another one, it is apart from it and the last one, or the same once more, or reaches beyond it and
ends before the end of the next one. -/
def Fitting (p : Packet) (l : List Packet) : Prop :=
  match (passed p l).getLast? with
  | none => Short p (ahead p l)
  | some curr =>
    (curr.stop < p.offset → ahead p l = [] ∨ p.data = []) ∧
    (p.offset ≤ curr.stop → p.stop ≤ curr.stop → p.offset = curr.offset ∧ p.stop = curr.stop) ∧
    (p.offset ≤ curr.stop → curr.stop < p.stop → Short p (ahead p l))

/-- The fragment is fitting, and comes in time if it is the last one that is missing. -/
def Clean (hz : Nat) (d : List UInt8) (e : Entry) (p : Packet) (now : Nat) : Prop :=
  Fitting p e.frags ∧ ((∀ i < d.length, Covers e.frags i ∨ p.Has i) → now ≤ e.minTtl * hz + e.firstTime)

def merged (first second : Packet) (link : List Packet) : Packet × List Packet :=
  if first.stop < second.offset then (first, second :: link)
  else if second.stop ≤ first.stop then (second, link)
  else (first.join second, link)

def front (x : Packet) : List Packet → List Packet
  | [] => [x]
  | next :: rest => (merged x next rest).1 :: (merged x next rest).2

def placed (pack : Packet) (frags : List Packet) : List Packet :=
  match (passed pack frags).getLast?, ahead pack frags with
  | none, l => front pack l
  | some curr, [] => (passed pack frags).dropLast ++ (merged curr pack []).1 :: (merged curr pack []).2
  | some curr, l => (passed pack frags).dropLast ++ front (merged curr pack []).1 l

variable {d : List UInt8} {p q x y next curr : Packet} {l link before rest : List Packet} {i : Nat}

section Merge

lemma Packet.offset_le_stop (p : Packet) : p.offset ≤ p.stop := Nat.le_add_right _ _

section Sized
variable (h : p.length = p.bufsize) (hq : q.length = q.bufsize)
include h

lemma datasize_eq : p.datasize = p.data.length := by
  rw [Packet.datasize, h, Packet.bufsize]
  omega

include hq

section
variable (hmeet : q.offset ≤ p.stop) (hlt : p.stop < q.stop)
include hmeet hlt

lemma join_data_length :
    (p.join q).data.length = p.data.length + (q.stop - p.stop) := by
  simp only [Packet.join, Packet.stop, datasize_eq h, datasize_eq hq, List.length_append,
    List.length_take, List.length_drop] at *
  omega

lemma join_stop : (p.join q).stop = q.stop := by
  have hlen := join_data_length h hq hmeet hlt
  have hoff : (p.join q).offset = p.offset := rfl
  rw [Packet.stop, hoff, hlen]
  simp only [Packet.stop] at *
  omega

lemma join_length (hfits : p.hdrSize + (q.stop - p.offset) < 65536) :
    (p.join q).length = (p.join q).bufsize := by
  have hbuf : (p.join q).bufsize = p.hdrSize + (p.join q).data.length := rfl
  rw [hbuf, join_data_length h hq hmeet hlt]
  simp only [Packet.join, Packet.stop, datasize_eq h, datasize_eq hq] at *
  exact Nat.mod_eq_of_lt (by omega)

end

lemma mergeFrags_eq (hle : p.offset ≤ q.offset) (link : List Packet) :
    mergeFrags p q link = .ok (merged p q link) := by
  have hsize : p.hdrSize + p.datasize = p.bufsize := by rw [datasize_eq h, Packet.bufsize]
  have hsize' : q.hdrSize + q.datasize = q.bufsize := by rw [datasize_eq hq, Packet.bufsize]
  have hstop : p.offset + p.datasize = p.stop := by rw [datasize_eq h, Packet.stop]
  have hstop' : q.offset + q.datasize = q.stop := by rw [datasize_eq hq, Packet.stop]
  rw [mergeFrags, if_neg (not_not.mpr hsize), if_neg (not_not.mpr hsize'),
    if_neg (Nat.not_lt.mpr hle), hstop, hstop', merged]
  by_cases hgap : p.stop < q.offset
  · rw [if_pos hgap, if_pos hgap]
  rw [if_neg hgap, if_neg hgap]
  by_cases hin : q.stop ≤ p.stop
  · rw [if_pos hin, if_pos hin]
  rw [if_neg hin, if_neg hin]
  refine if_neg (not_not.mpr ?_)
  have hhdr : (p.join q).hdrSize = p.hdrSize := rfl
  rw [Packet.bufsize, hhdr, join_data_length h hq (Nat.not_lt.mp hgap) (Nat.not_le.mp hin), datasize_eq h]

end Sized

lemma ahead_head (h : next ∈ (ahead p l).head?) : p.offset < next.offset := by
  have hd := List.head?_dropWhile_not (fun f : Packet => decide (f.offset ≤ p.offset)) l
  rw [ahead] at h
  rw [Option.mem_def.mp h] at hd
  simpa using hd

lemma passed_append_ahead (p : Packet) (l : List Packet) : passed p l ++ ahead p l = l :=
  List.takeWhile_append_dropWhile

lemma passed_le (h : x ∈ passed p l) : x.offset ≤ p.offset := by
  simpa using List.mem_takeWhile_imp h

/-- A property that says the length is right and that merging keeps. -/
structure Closed (P : Packet → Prop) : Prop where
  length : ∀ {x}, P x → x.length = x.bufsize
  join : ∀ {x y}, P x → P y → y.offset ≤ x.stop → x.stop < y.stop → P (x.join y)

namespace Closed
variable {P : Packet → Prop} (hP : Closed P)
include hP

lemma merge (hx : P x) (hy : P y) (hle : x.offset ≤ y.offset) (hlink : ∀ f ∈ link, P f) :
    mergeFrags x y link = .ok (merged x y link) ∧ (∀ f ∈ (merged x y link).1 :: (merged x y link).2, P f) ∧
      (merged x y link).1.offset ≤ y.offset := by
  refine ⟨mergeFrags_eq (hP.length hx) (hP.length hy) hle link, ?_⟩
  rw [merged]
  split_ifs with hgap hin
  · exact ⟨List.forall_mem_cons.mpr ⟨hx, List.forall_mem_cons.mpr ⟨hy, hlink⟩⟩, hle⟩
  · exact ⟨List.forall_mem_cons.mpr ⟨hy, hlink⟩, le_rfl⟩
  · exact ⟨List.forall_mem_cons.mpr ⟨hP.join hx hy (Nat.not_lt.mp hgap) (Nat.not_le.mp hin), hlink⟩, hle⟩

lemma place (hp : P p) (hl : ∀ f ∈ l, P f) :
    place p l = .ok (placed p l) ∧ placed p l ≠ [] ∧ ∀ f ∈ placed p l, P f := by
  have hahead : ∀ f ∈ ahead p l, P f := fun f hf => hl f ((List.dropWhile_sublist _).subset hf)
  have hpassed : ∀ f ∈ passed p l, P f := fun f hf => hl f ((List.takeWhile_sublist _).subset hf)
  have happend : ∀ {m : List Packet}, (∀ f ∈ m, P f) → ∀ f ∈ (passed p l).dropLast ++ m, P f := fun hm f hf =>
    (List.mem_append.mp hf).elim (fun h => hpassed f ((List.dropLast_sublist _).subset h)) (hm f)
  have hfirst : ∀ n ∈ (ahead p l).head?, p.offset < n.offset := fun n hn => ahead_head hn
  unfold Inet.place placed
  cases hlast : (passed p l).getLast? with
  | none =>
    cases hcase : ahead p l with
    | nil => exact ⟨rfl, nofun, fun f hf => List.mem_singleton.mp hf ▸ hp⟩
    | cons next rest =>
      obtain ⟨hnext, hrest⟩ := List.forall_mem_cons.mp (hcase ▸ hahead)
      obtain ⟨hr, hfine, -⟩ := hP.merge hp hnext (hfirst next (by rw [hcase]; rfl)).le hrest
      exact ⟨bind_eq_ok.mpr ⟨_, hr, rfl⟩, nofun, hfine⟩
  | some curr =>
    have hmem := List.mem_of_getLast? hlast
    obtain ⟨hr, hfine, hoff⟩ := hP.merge (hpassed curr hmem) hp (passed_le hmem) (List.forall_mem_nil P)
    cases hcase : ahead p l with
    | nil => exact ⟨bind_eq_ok.mpr ⟨_, hr, rfl⟩, by simp, happend hfine⟩
    | cons next rest =>
      obtain ⟨hnext, hrest⟩ := List.forall_mem_cons.mp (hcase ▸ hahead)
      obtain ⟨hr', hfine', -⟩ :=
        hP.merge (hfine _ List.mem_cons_self) hnext
        (hoff.trans (hfirst next (by rw [hcase]; rfl)).le) hrest
      exact ⟨bind_eq_ok.mpr ⟨_, hr, bind_eq_ok.mpr ⟨_, hr', rfl⟩⟩, by simp [front], happend hfine'⟩

end Closed

lemma Piece.join (h : Piece d p) (hq : Piece d q) (hmeet : q.offset ≤ p.stop)
    (hlt : p.stop < q.stop) : Piece d (p.join q) := by
  have hend := join_stop h.length hq.length hmeet hlt
  have hstop : p.offset + p.data.length = p.stop := rfl
  have hqstop : q.offset + q.data.length = q.stop := rfl
  have hqend := hq.stop
  have hfits := h.fits
  refine ⟨join_length h.length hq.length hmeet hlt (by omega), ?_, hend ▸ hq.stop, ?_, h.fits⟩
  · have hoff : (p.join q).offset = p.offset := rfl
    rw [join_data_length h.length hq.length hmeet hlt, hoff, List.take_add, ← h.data, List.drop_drop]
    have hdata : (p.join q).data = p.data ++ (q.data.drop (p.stop - q.offset)).take (q.stop - p.stop) := by
      simp only [Packet.join, datasize_eq h.length, datasize_eq hq.length, hstop, hqstop]
    rw [hdata, hq.data, List.drop_take, List.drop_drop, List.take_take]
    congr 2
    · omega
    · congr 1
      omega
  · have hmore : (p.join q).more = (p.more && q.more) := rfl
    have hp : p.more = true := by
      by_contra hno
      have := h.more.mp (Bool.not_eq_true _ ▸ hno)
      omega
    rw [hmore, hp, Bool.true_and, hend]
    exact hq.more

lemma closed_piece (d : List UInt8) : Closed (Piece d) := ⟨Piece.length, Piece.join⟩

end Merge

/-- Pieces of the datagram in order, with a gap before each but the first. -/
structure Chain (d : List UInt8) (l : List Packet) : Prop where
  gaps : l.Pairwise fun f g => f.stop < g.offset
  piece : ∀ f ∈ l, Piece d f

section Chain

lemma covers_append {l' : List Packet} : Covers (l ++ l') i ↔ Covers l i ∨ Covers l' i := by
  simp only [Covers, List.mem_append, or_and_right, exists_or]

lemma covers_cons : Covers (p :: l) i ↔ p.Has i ∨ Covers l i := by
  simp only [Covers, List.mem_cons, or_and_right, exists_or, exists_eq_left]

lemma not_covers_nil : ¬ Covers [] i := fun ⟨_, h, _⟩ => nomatch h

lemma not_covers_of_lt (h : ∀ f ∈ l, i < f.offset) : ¬ Covers l i := by
  rintro ⟨f, hf, hle, -⟩
  exact Nat.not_le.mpr (h f hf) hle

lemma not_covers_of_le (h : ∀ f ∈ l, f.stop ≤ i) : ¬ Covers l i := by
  rintro ⟨f, hf, -, hlt⟩
  exact Nat.not_lt.mpr (h f hf) hlt

lemma chain_cons : Chain d (p :: l) ↔ Piece d p ∧ (∀ g ∈ l, p.stop < g.offset) ∧ Chain d l := by
  constructor
  · intro h
    obtain ⟨hgap, hgaps⟩ := List.pairwise_cons.mp h.gaps
    exact ⟨h.piece p (.head _), hgap, hgaps, fun f hf => h.piece f (.tail p hf)⟩
  · rintro ⟨hp, hgap, hl⟩
    exact ⟨List.pairwise_cons.mpr ⟨hgap, hl.gaps⟩, List.forall_mem_cons.mpr ⟨hp, hl.piece⟩⟩

lemma chain_append {l' : List Packet} :
    Chain d (l ++ l') ↔ Chain d l ∧ Chain d l' ∧ ∀ f ∈ l, ∀ g ∈ l', f.stop < g.offset := by
  constructor
  · intro h
    obtain ⟨hl, hl', hgap⟩ := List.pairwise_append.mp h.gaps
    exact ⟨⟨hl, fun f hf => h.piece f (List.mem_append_left _ hf)⟩,
      ⟨hl', fun f hf => h.piece f (List.mem_append_right _ hf)⟩, hgap⟩
  · rintro ⟨hl, hl', hgap⟩
    refine ⟨List.pairwise_append.mpr ⟨hl.gaps, hl'.gaps, hgap⟩, fun f hf => ?_⟩
    exact (List.mem_append.mp hf).elim (hl.piece f) (hl'.piece f)

lemma Chain.complete (h : Chain d l) (hall : ∀ i < d.length, Covers l i) (hpos : 0 < d.length) :
    ∃ q, l.head? = some q ∧ q.whole = true ∧ q.data = d := by
  cases l with
  | nil => exact absurd (hall 0 hpos) not_covers_nil
  | cons q rest =>
    obtain ⟨hq, hgap, -⟩ := chain_cons.mp h
    have hqs := q.offset_le_stop
    have hzero : q.offset = 0 := by
      rcases covers_cons.mp (hall 0 hpos) with hhas | hrest
      · exact Nat.le_zero.mp hhas.1
      · exact absurd hrest (not_covers_of_lt fun g hg => Nat.lt_of_le_of_lt (Nat.zero_le _) (hgap g hg))
    have hend : q.stop = d.length := by
      refine Nat.le_antisymm hq.stop (Nat.not_lt.mp fun hlt => ?_)
      rcases covers_cons.mp (hall q.stop hlt) with hhas | hrest
      · exact Nat.lt_irrefl _ hhas.2
      · exact not_covers_of_lt hgap hrest
    refine ⟨q, rfl, ?_, ?_⟩
    · have hoff : q.fragoff = 0 := by
        rw [Packet.offset] at hzero
        omega
      rw [Packet.whole, hq.more.mpr hend, hoff]
      rfl
    · have hlen : q.data.length = d.length := by
        rw [Packet.stop] at hend
        omega
      rw [hq.data, hzero, hlen, List.drop_zero, List.take_length]

lemma covers_of_whole (h : ∀ f ∈ l, Piece d f) (hhead : l.head?.any Packet.whole = true)
    (hi : i < d.length) : Covers l i := by
  cases l with
  | nil => nomatch hhead
  | cons q rest =>
    have hw : q.whole = true := hhead
    rw [Packet.whole, Bool.and_eq_true, beq_iff_eq, Bool.not_eq_true'] at hw
    have hend := (h q (.head _)).more.mp hw.2
    refine covers_cons.mpr (.inl ⟨?_, hend ▸ hi⟩)
    rw [Packet.offset, hw.1]
    omega

lemma Chain.not_covers (h : Chain d l) (hlt : ∀ n ∈ l.head?, i < n.offset) : ¬ Covers l i := by
  cases l with
  | nil => exact not_covers_nil
  | cons next rest =>
    have hnext := hlt next rfl
    refine not_covers_of_lt (List.forall_mem_cons.mpr ⟨hnext, fun g hg => ?_⟩)
    have := (chain_cons.mp h).2.1 g hg
    have := next.offset_le_stop
    omega

lemma chain_single (h : Piece d p) : Chain d [p] := chain_cons.mpr ⟨h, nofun, ⟨.nil, nofun⟩⟩

lemma front_spec (hx : Piece d x) (hl : Chain d l) (hlt : ∀ n ∈ l.head?, x.offset < n.offset) :
    (Short x l → Chain d (front x l) ∧ (∀ f ∈ front x l, x.offset ≤ f.offset) ∧
      ∀ i, Covers (front x l) i ↔ x.Has i ∨ Covers l i) ∧
    (¬ Short x l → front x l = l ∧ x.Has x.offset) := by
  cases l with
  | nil => exact ⟨fun _ => ⟨chain_single hx, fun f hf => List.mem_singleton.mp hf ▸ le_rfl,
      fun i => covers_cons⟩, fun h => absurd nofun h⟩
  | cons next rest =>
    obtain ⟨hnext, hgap, hrest⟩ := chain_cons.mp hl
    have hlt := hlt next rfl
    have hns := next.offset_le_stop
    have hshort : Short x (next :: rest) ↔ x.stop < next.stop :=
      ⟨fun h => h next rfl, fun h n hn => Option.some.inj hn ▸ h⟩
    have hxs := x.offset_le_stop
    have hbehind : ∀ f ∈ rest, x.offset ≤ f.offset := fun f hf => by have := hgap f hf; omega
    rw [front, merged, hshort]
    split_ifs with hapart hin
    · refine ⟨fun _ => ⟨chain_cons.mpr ⟨hx, List.forall_mem_cons.mpr ⟨hapart, fun g hg => ?_⟩, hl⟩,
        ?_, fun i => covers_cons⟩, by omega⟩
      · exact Nat.lt_trans hapart (Nat.lt_of_le_of_lt hns (hgap g hg))
      · exact List.forall_mem_cons.mpr ⟨le_rfl, List.forall_mem_cons.mpr ⟨hlt.le, hbehind⟩⟩
    · exact ⟨fun h => absurd h (Nat.not_lt.mpr hin), fun _ => ⟨rfl, le_rfl, by omega⟩⟩
    have hjoin := hx.join hnext (Nat.not_lt.mp hapart) (Nat.not_le.mp hin)
    have hend := join_stop hx.length hnext.length (Nat.not_lt.mp hapart) (Nat.not_le.mp hin)
    have hoff : (x.join next).offset = x.offset := rfl
    refine ⟨fun _ => ⟨chain_cons.mpr ⟨hjoin, by rwa [hend], hrest⟩,
      List.forall_mem_cons.mpr ⟨le_rfl, hbehind⟩, fun i => ?_⟩, by omega⟩
    rw [covers_cons, covers_cons, ← or_assoc]
    refine or_congr_left ?_
    simp only [Packet.Has, hoff, hend]
    omega

end Chain

section Place

/-- All that was held and the new fragment is kept when `C` holds, and otherwise a byte is lost. -/
def KeepsIff (C : Prop) (d : List UInt8) (p : Packet) (l l' : List Packet) : Prop :=
  (C → Chain d l' ∧ ∀ i, Covers l' i ↔ Covers l i ∨ p.Has i) ∧ (¬ C → ∃ i, (Covers l i ∨ p.Has i) ∧
    ¬ Covers l' i)

section Behind
variable {tail m : List Packet} (hl : Chain d (before ++ curr :: tail))
include hl

lemma Chain.replace (hm : Chain d m) (hoff : ∀ f ∈ m, curr.offset ≤ f.offset) : Chain d (before ++ m) := by
  obtain ⟨hbefore, -, hgap⟩ := chain_append.mp hl
  exact chain_append.mpr ⟨hbefore, hm, fun f hf g hg =>
    Nat.lt_of_lt_of_le (hgap f hf curr (.head _)) (hoff g hg)⟩

lemma Chain.lost (hi : curr.offset ≤ i) (hno : ¬ Covers m i) : ¬ Covers (before ++ m) i := by
  obtain ⟨-, -, hgap⟩ := chain_append.mp hl
  rw [covers_append, not_or]
  refine ⟨not_covers_of_le fun f hf => ?_, hno⟩
  have := hgap f hf curr (.head _)
  omega

lemma Chain.behind : Piece d curr ∧ (∀ n ∈ tail.head?, curr.stop < n.offset ∧ n.offset ≤ n.stop) ∧
    Chain d tail := by
  obtain ⟨hcurr, hgap, htail⟩ := chain_cons.mp (chain_append.mp hl).2.1
  exact ⟨hcurr, fun n hn => ⟨hgap n (List.mem_of_head? hn), n.offset_le_stop⟩, htail⟩

lemma front_behind (hx : Piece d x) (hoff : curr.offset ≤ x.offset)
    (hlt : ∀ n ∈ tail.head?, x.offset < n.offset)
    (hsub : ∀ i, x.Has i → curr.Has i ∨ p.Has i) {C : Prop}
    (hC : C → Short x tail ∧ ∀ i, curr.Has i ∨ p.Has i → x.Has i)
    (hlost : ¬ C → ¬ Short x tail ∨ ∃ i, curr.offset ≤ i ∧ (curr.Has i ∨ p.Has i) ∧ ¬ x.Has i ∧
      ∀ n ∈ tail.head?, i < n.offset) :
    KeepsIff C d p (before ++ curr :: tail) (before ++ front x tail) := by
  have htail := hl.behind.2.2
  obtain ⟨hkeep, hlose⟩ := front_spec hx htail hlt
  have hheld : ∀ {i}, curr.Has i ∨ p.Has i → Covers (before ++ curr :: tail) i ∨ p.Has i := fun h =>
    h.imp_left fun h => covers_append.mpr (.inr (covers_cons.mpr (.inl h)))
  refine ⟨fun h => ?_, fun h => ?_⟩
  · obtain ⟨hchain, hfront, hcov⟩ := hkeep (hC h).1
    refine ⟨hl.replace hchain fun f hf => hoff.trans (hfront f hf), fun i => ?_⟩
    have hiff : x.Has i ↔ curr.Has i ∨ p.Has i := ⟨hsub i, (hC h).2 i⟩
    rw [covers_append, covers_append, hcov, covers_cons, hiff, or_right_comm, or_assoc, or_assoc, or_assoc]
  by_cases hshort : Short x tail
  · obtain ⟨i, hi, hhas, hno, hbefore⟩ := (hlost h).resolve_left (not_not.mpr hshort)
    refine ⟨i, hheld hhas, hl.lost hi ?_⟩
    rw [(hkeep hshort).2.2, not_or]
    exact ⟨hno, htail.not_covers hbefore⟩
  · obtain ⟨heq, hhas⟩ := hlose hshort
    refine ⟨x.offset, hheld (hsub _ hhas), hl.lost hoff ?_⟩
    rw [heq]
    exact htail.not_covers hlt

variable (hp : Piece d p) (hle : curr.offset ≤ p.offset) (hlt : ∀ n ∈ tail.head?, p.offset < n.offset)

lemma last_behind (hp : Piece d p) (hnil : tail = []) (hapart : curr.stop < p.offset) :
    KeepsIff True d p (before ++ curr :: tail) (before ++ [curr, p]) := by
  subst hnil
  have hcs := curr.offset_le_stop
  refine ⟨fun _ => ⟨hl.replace (chain_cons.mpr ⟨hl.behind.1, ?_, chain_single hp⟩) ?_, fun i => ?_⟩,
    fun h => absurd trivial h⟩
  · exact List.forall_mem_singleton.mpr hapart
  · exact List.forall_mem_cons.mpr ⟨le_rfl, List.forall_mem_singleton.mpr (by omega)⟩
  · simp only [covers_append, covers_cons, not_covers_nil, or_false, or_assoc]

include hle hlt

lemma apart_behind (hapart : curr.stop < p.offset) :
    KeepsIff (p.data = []) d p (before ++ curr :: tail) (before ++ front curr tail) := by
  obtain ⟨hcurr, hnext, -⟩ := hl.behind
  have hstop : p.stop = p.offset + p.data.length := rfl
  refine front_behind hl hcurr le_rfl (fun n hn => ?_) (fun i h => .inl h) (fun hempty =>
    ⟨fun n hn => ?_, fun i hi => hi.resolve_right fun h => ?_⟩)
    fun hne => .inr ⟨p.offset, hle, .inr ⟨le_rfl, ?_⟩, fun h => ?_, hlt⟩
  · have := hlt n hn
    omega
  · have := hnext n hn
    omega
  · rw [hempty, List.length_nil] at hstop
    have := h.1
    have := h.2
    omega
  · have := List.length_pos_iff.mpr hne
    omega
  · have := h.2
    omega

include hp

lemma inside_behind (hin : p.stop ≤ curr.stop) :
    KeepsIff (p.offset = curr.offset ∧ p.stop = curr.stop) d p (before ++ curr :: tail) (before ++
      front p tail) := by
  obtain ⟨-, hnext, -⟩ := hl.behind
  have hps := p.offset_le_stop
  refine front_behind hl hp hle hlt (fun i h => .inr h) (fun hsame =>
    ⟨fun n hn => ?_, fun i hi => ?_⟩) fun hnot => .inr ?_
  · have := hnext n hn
    omega
  · rcases hi with hi | hi
    · rwa [Packet.Has, hsame.1, hsame.2]
    · exact hi
  by_cases hoff : curr.offset < p.offset
  · refine ⟨curr.offset, le_rfl, .inl ⟨le_rfl, by omega⟩, fun h => Nat.not_le.mpr hoff h.1, fun n hn => ?_⟩
    exact hoff.trans (hlt n hn)
  · refine ⟨p.stop, by omega, .inl ⟨by omega, by omega⟩, fun h => Nat.lt_irrefl _ h.2, fun n hn => ?_⟩
    have := hnext n hn
    omega

lemma over_behind (hmeet : p.offset ≤ curr.stop) (hover : curr.stop < p.stop) :
    KeepsIff (Short p tail) d p (before ++ curr :: tail) (before ++ front (curr.join p) tail) := by
  have hcurr := hl.behind.1
  have hend := join_stop hcurr.length hp.length hmeet hover
  have hoff : (curr.join p).offset = curr.offset := rfl
  have hhas : ∀ i, (curr.join p).Has i ↔ curr.Has i ∨ p.Has i := by
    intro i
    simp only [Packet.Has, hoff, hend]
    omega
  have hshort : Short (curr.join p) tail ↔ Short p tail := by rw [Short, hend, Short]
  exact front_behind hl (hcurr.join hp hmeet hover) le_rfl (fun n hn =>
    Nat.lt_of_le_of_lt hle (hlt n hn)) (fun i => (hhas i).mp)
    (fun h => ⟨hshort.mpr h, fun i => (hhas i).mpr⟩) fun h => .inl (h ∘ hshort.mp)

end Behind

lemma placed_first (hl : Chain d l) (hp : Piece d p) (hlast : (passed p l).getLast? = none) :
    KeepsIff (Fitting p l) d p l (placed p l) := by
  have hall : ahead p l = l := by
    have hsplit := passed_append_ahead p l
    rwa [List.getLast?_eq_none_iff.mp hlast, List.nil_append] at hsplit
  have hlt : ∀ n ∈ l.head?, p.offset < n.offset := fun n hn => ahead_head (hall.symm ▸ hn)
  have hplaced : placed p l = front p l := by simp only [placed, hlast, hall]
  have hfit : Fitting p l ↔ Short p l := by rw [Fitting, hlast, hall]
  obtain ⟨hkeep, hlose⟩ := front_spec hp hl hlt
  rw [hfit, hplaced]
  refine ⟨fun h => ⟨(hkeep h).1, fun i => ((hkeep h).2.2 i).trans or_comm⟩,
    fun h => ⟨p.offset, .inr (hlose h).2, ?_⟩⟩
  rw [(hlose h).1]
  exact hl.not_covers hlt

lemma split_behind (hlast : (passed p l).getLast? = some curr) :
    (passed p l).dropLast ++ curr :: ahead p l = l := by
  obtain ⟨before, hbefore⟩ := List.getLast?_eq_some_iff.mp hlast
  have hpass : (passed p l).dropLast ++ [curr] = passed p l := by rw [hbefore, List.dropLast_concat]
  have hsplit := passed_append_ahead p l
  rwa [← hpass, List.append_assoc, List.singleton_append] at hsplit

lemma placed_second (hl : Chain d l) (hp : Piece d p) (hlast : (passed p l).getLast? = some curr) :
    KeepsIff (Fitting p l) d p l (placed p l) := by
  have hsplit := split_behind hlast
  have hl' : Chain d ((passed p l).dropLast ++ curr :: ahead p l) := hsplit.symm ▸ hl
  have hle := passed_le (List.mem_of_getLast? hlast)
  have hlt : ∀ n ∈ (ahead p l).head?, p.offset < n.offset := fun n hn => ahead_head hn
  have hfit : Fitting p l ↔ (curr.stop < p.offset → ahead p l = [] ∨ p.data = []) ∧
      (p.offset ≤ curr.stop → p.stop ≤ curr.stop → p.offset = curr.offset ∧ p.stop = curr.stop) ∧
      (p.offset ≤ curr.stop → curr.stop < p.stop → Short p (ahead p l)) := by rw [Fitting, hlast]
  have hplaced : ahead p l ≠ [] ∨ p.offset ≤ curr.stop → placed p l = (passed p l).dropLast ++
    front (merged curr p []).1 (ahead p l) := by
    intro h
    unfold placed
    rw [hlast]
    cases hcase : ahead p l with
    | nil =>
      have hle := h.resolve_left (not_not.mpr hcase)
      simp only [front, merged, if_neg (Nat.not_lt.mpr hle)]
      split_ifs <;> rfl
    | cons next rest => rfl
  by_cases hapart : curr.stop < p.offset
  · by_cases hnil : ahead p l = []
    · have h := last_behind hl' hp hnil hapart
      have heq : placed p l = (passed p l).dropLast ++ [curr, p] := by
        simp only [placed, hlast, hnil, merged, if_pos hapart]
      have hC : Fitting p l ↔ True := iff_true_intro (hfit.mpr ⟨fun _ => .inl hnil, by omega, by omega⟩)
      rwa [hsplit, ← heq, ← hC] at h
    · have h := apart_behind hl' hle hlt hapart
      have hC : Fitting p l ↔ p.data = [] :=
        hfit.trans ⟨fun h => (h.1 hapart).resolve_left hnil, fun h => ⟨fun _ => .inr h, by omega, by omega⟩⟩
      rw [hsplit, ← hC] at h
      rwa [hplaced (.inl hnil), merged, if_pos hapart]
  have hmeet := Nat.not_lt.mp hapart
  rw [hplaced (.inr hmeet), merged, if_neg hapart]
  by_cases hin : p.stop ≤ curr.stop
  · have h := inside_behind hl' hp hle hlt hin
    have hC : Fitting p l ↔ p.offset = curr.offset ∧ p.stop = curr.stop :=
      hfit.trans ⟨fun h => h.2.1 hmeet hin, fun h => ⟨by omega, fun _ _ => h, by omega⟩⟩
    rw [hsplit, ← hC] at h
    rwa [if_pos hin]
  · have h := over_behind hl' hp hle hlt hmeet (Nat.not_le.mp hin)
    have hC : Fitting p l ↔ Short p (ahead p l) :=
      hfit.trans ⟨fun h => h.2.2 hmeet (Nat.not_le.mp hin), fun h => ⟨by omega, by omega, fun _ _ => h⟩⟩
    rw [hsplit, ← hC] at h
    rwa [if_neg hin]

lemma placed_spec (hl : Chain d l) (hp : Piece d p) : KeepsIff (Fitting p l) d p l (placed p l) := by
  cases hlast : (passed p l).getLast? with
  | none => exact placed_first hl hp hlast
  | some curr => exact placed_second hl hp hlast

end Place

section Run
variable {hz now : Nat} {e e' : Entry} {r : Option Packet}

lemma Piece.length_pos (hp : Piece d p) (hpart : p.whole = false) : 0 < d.length := by
  refine Nat.pos_of_ne_zero fun hzero => ?_
  have hstop : p.stop = d.length := by
    have := hp.stop
    omega
  have hoff : p.fragoff = 0 := by
    rw [hzero, Packet.stop, Packet.offset] at hstop
    omega
  rw [Packet.whole, hp.more.mpr hstop, hoff] at hpart
  nomatch hpart

/-- A call that finds the datagram complete returns it if it is in time; any other keeps what has
come. -/
theorem reassemble_eq (he : ∀ f ∈ e.frags, Piece d f) (hp : Piece d p) (hpart : p.whole = false) :
    reassemble hz p now e = .ok (if (placed p e.frags).head?.any Packet.whole then
      ({ e with frags := [], firstTime := 0 }, if e.minTtl * hz + e.firstTime < now then none
        else (placed p e.frags).head?)
    else ({ e with frags := placed p e.frags }, none)) := by
  unfold reassemble
  split
  · next hnil =>
    have hw : ¬ (placed p []).head?.any Packet.whole = true := ne_true_of_eq_false hpart
    rw [hnil, if_neg hw]
    rfl
  · rw [((closed_piece d).place hp he).1]
    simp only [bind, Except.bind]
    split_ifs <;> rfl

lemma reassemble_kept_iff (he : Chain d e.frags) (hp : Piece d p) (hpart : p.whole = false)
    (h : reassemble hz p now e = .ok (e', r)) :
    (Kept d e p e' r ↔ Clean hz d e p now) ∧ (Clean hz d e p now → Chain d e'.frags) := by
  have hpos := hp.length_pos hpart
  obtain ⟨-, -, hpieces⟩ := (closed_piece d).place hp he.piece
  obtain ⟨hfit, hunfit⟩ := placed_spec he hp
  rw [reassemble_eq he.piece hp hpart, Except.ok.injEq] at h
  by_cases hf : Fitting p e.frags
  · obtain ⟨hchain, hcov⟩ := hfit hf
    rcases ite_eq_iff.mp h with ⟨hw, h⟩ | ⟨hw, h⟩
    · have hall : ∀ i < d.length, Covers e.frags i ∨ p.Has i :=
        fun i hi => (hcov i).mp (covers_of_whole hpieces hw hi)
      by_cases hlate : e.minTtl * hz + e.firstTime < now
      · rw [if_pos hlate] at h
        cases h
        have hnot : ¬ Clean hz d e p now := fun hc => Nat.not_le.mpr hlate (hc.2 hall)
        exact ⟨iff_of_false (fun hk => not_covers_nil (hk.kept rfl 0 (hall 0 hpos))) hnot,
          fun hc => absurd hc hnot⟩
      rw [if_neg hlate] at h
      cases h
      obtain ⟨q, hq, hwhole, hdata⟩ := hchain.complete (fun i hi => covers_of_whole hpieces hw hi) hpos
      refine ⟨iff_of_true ⟨fun hnone => ?_, fun _ _ => ⟨q, hq, hwhole, hdata⟩⟩
        ⟨hf, fun _ => Nat.not_lt.mp hlate⟩, fun _ => ⟨.nil, nofun⟩⟩
      nomatch hq.symm.trans hnone
    · cases h
      have hnot : ¬ ∀ i < d.length, Covers e.frags i ∨ p.Has i := by
        intro hall
        obtain ⟨q, hq, hwhole, -⟩ := hchain.complete (fun i hi => (hcov i).mpr (hall i hi)) hpos
        exact hw (hq ▸ hwhole)
      exact ⟨iff_of_true ⟨fun _ i hi => (hcov i).mpr hi,
        fun h => absurd h hnot⟩ ⟨hf, fun h => absurd h hnot⟩, fun _ => hchain⟩
  · obtain ⟨i, hi, hlost⟩ := hunfit hf
    -- a whole packet would hold the byte that is lost
    have hlt : i < d.length := by
      rcases hi with ⟨f, hf, -, hi⟩ | ⟨-, hi⟩
      · exact Nat.lt_of_lt_of_le hi (he.piece f hf).stop
      · exact Nat.lt_of_lt_of_le hi hp.stop
    have hw : (placed p e.frags).head?.any Packet.whole ≠ true :=
      fun hw => hlost (covers_of_whole hpieces hw hlt)
    cases (if_neg hw).symm.trans h
    exact ⟨iff_of_false (fun hk => hlost (hk.kept rfl i hi)) fun hc => hf hc.1, fun hc => absurd hc.1 hf⟩

end Run

abbrev Assembly := Entry × Option Packet

def step (hz : Nat) (s : Assembly) (a : Packet × Nat) : Except Assert Assembly := reassemble hz a.1 a.2 s.1

/-- Fragments of one datagram arrive one after the other at an entry that holds none. Every call
keeps all that has been received, and returns the datagram once it is complete, exactly when every
fragment is clean. -/
theorem reassembly_keeps_iff (hz : Nat) (d : List UInt8) {n : Nat} (tr : Trace (step hz) n)
    (h0 : (tr.state 0).1.frags = [])
    (hfrag : ∀ i < n, Piece d (tr.act i).1 ∧ (tr.act i).1.whole = false) :
    (∀ i < n, Kept d (tr.state i).1 (tr.act i).1 (tr.state (i + 1)).1 (tr.state (i + 1)).2) ↔
      ∀ i < n, Clean hz d (tr.state i).1 (tr.act i).1 (tr.act i).2 := by
  have hstep : ∀ i < n, Chain d (tr.state i).1.frags → _ := fun i hi he =>
    reassemble_kept_iff he (hfrag i hi).1 (hfrag i hi).2 (tr.ok i hi)
  have hheld : ∀ m, (∀ i < m, Clean hz d (tr.state i).1 (tr.act i).1 (tr.act i).2) → m ≤ n →
    Chain d (tr.state m).1.frags := by
    intro m
    induction m with
    | zero => exact fun _ _ => ⟨h0 ▸ .nil, fun _ h => (nomatch h0 ▸ h)⟩
    | succ m ih =>
      intro hclean hm
      have he := ih (fun i hi => hclean i (by omega)) (by omega)
      exact (hstep m (by omega) he).2 (hclean m (Nat.lt_succ_self m))
  constructor
  · intro hkept i
    induction i using Nat.strong_induction_on with
    | _ i ih =>
      intro hi
      exact (hstep i hi (hheld i (fun j hj => ih j hj (by omega)) hi.le)).1.mp (hkept i hi)
  · intro hclean i hi
    exact (hstep i hi (hheld i (fun j hj => hclean j (by omega)) hi.le)).1.mpr (hclean i hi)

def bytes24 : List UInt8 := List.replicate 24 1

def cut24 (o len : Nat) : Packet := ⟨5, 20 + len, o, o * 8 + len ≠ 24, (bytes24.drop (o * 8)).take len⟩

def outOfOrder : Nat → Packet × Nat
  | 0 => (cut24 1 16, 1)
  | _ => (cut24 0 8, 2)

/-- The first two thirds arrive, the first third arrives once more, and then the last one. -/
def partAgain : Nat → Packet × Nat
  | 0 => (cut24 0 16, 1)
  | 1 => (cut24 0 8, 2)
  | _ => (cut24 2 8, 3)

theorem outOfOrder_returned : ∃ tr : Trace (step 60) 2, tr.act = outOfOrder ∧ (tr.state 0).1.frags = [] ∧
    ∃ q, (tr.state 2).2 = some q ∧ q.data = bytes24 := by
  let tr := Trace.run (step 60) (⟨[], 1, 255⟩, none) outOfOrder 2 (by decide +kernel)
  have hfrag : ∀ i < 2, Piece bytes24 (tr.act i).1 ∧ (tr.act i).1.whole = false := by
    intro i hi
    match i, hi with
    | 0, _ => exact ⟨⟨rfl, rfl, by decide, by decide, by decide⟩, rfl⟩
    | 1, _ => exact ⟨⟨rfl, rfl, by decide, by decide, by decide⟩, rfl⟩
  have hclean : ∀ i < 2, Clean 60 bytes24 (tr.state i).1 (tr.act i).1 (tr.act i).2 := by
    intro i hi
    match i, hi with
    | 0, _ => exact ⟨nofun, fun _ => by decide⟩
    | 1, _ =>
      have hends : ∀ n, some (cut24 1 16) = some n → (8 : Nat) < n.stop :=
        fun n hn => Option.some.inj hn ▸ by decide
      exact ⟨hends, fun _ => by decide⟩
  have hkept := (reassembly_keeps_iff 60 bytes24 tr rfl hfrag).mpr hclean 1 (by decide)
  obtain ⟨q, hq, -, hdata⟩ := hkept.returned (by decide +kernel) (by decide +kernel)
  exact ⟨tr, rfl, rfl, q, hq, hdata⟩

/-- The bytes 8 to 15 are thrown away, and the datagram is not complete when all of it has come. -/
theorem partAgain_lost : ∃ tr : Trace (step 60) 3, tr.act = partAgain ∧ (tr.state 0).1.frags = [] ∧
    (∀ i < 3, Piece bytes24 (tr.act i).1 ∧ (tr.act i).1.whole = false) ∧ Covers (tr.state 1).1.frags 8 ∧
    ¬ Covers (tr.state 2).1.frags 8 ∧ (tr.state 2).2 = none ∧ (tr.state 3).2 = none := by
  refine ⟨Trace.run (step 60) (⟨[], 1, 255⟩, none) partAgain 3 (by decide +kernel), rfl, rfl, ?_,
    by decide +kernel,
    by decide +kernel, by decide +kernel, by decide +kernel⟩
  intro i hi
  match i, hi with
  | 0, _ => exact ⟨⟨rfl, rfl, by decide, by decide, by decide⟩, rfl⟩
  | 1, _ => exact ⟨⟨rfl, rfl, by decide, by decide, by decide⟩, rfl⟩
  | 2, _ => exact ⟨⟨rfl, rfl, by decide, by decide, by decide⟩, rfl⟩

end Nucleos.Inet
