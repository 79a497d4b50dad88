import Nucleos.Lib.ChunkMap
import Nucleos.Lib.IntrusiveList
import Nucleos.Lib.Run

/-!
# Interrupt lines and their handlers

The handlers of a line are hooks on a list. Every hook of a line has an id of one bit, and a line
has a word of the ids that are active: disabled by their owner, or not yet done with an interrupt.
The line is masked at the controller while some id is active, so that a level triggered device does
not interrupt again before its driver has been heard. -/

namespace Nucleos.Kernel

open Function IntrusiveList Run

abbrev nrIrqVectors : Nat := 16
abbrev Irq := Fin nrIrqVectors

/-- The hooks are named by addresses of any kind. -/
structure Irqs (H : Type) where
  lists : Lists Irq H
  irq : H → Irq
  id : H → BitVec 32
  actids : Irq → BitVec 32
  masked : Irq → Bool

inductive IrqStop where
  | tooMany
  | endless
  | notNow
deriving DecidableEq, Repr

variable {H : Type} [DecidableEq H]

namespace Irqs

def hwIntrMask (irq : Irq) (s : Irqs H) : Irqs H := { s with masked := update s.masked irq true }
def hwIntrUnmask (irq : Irq) (s : Irqs H) : Irqs H := { s with masked := update s.masked irq false }

def setActids (irq : Irq) (x : BitVec 32) (s : Irqs H) : Irqs H := { s with actids := update s.actids irq x }

def idsFrom (s : Irqs H) : Nat → Option H → BitVec 32
  | 0, _ => 0
  | _ + 1, none => 0
  | n + 1, some h => s.id h ||| idsFrom s n (s.lists.next h)

def lineFuel : Nat := 33

def lowestId (bitmap : BitVec 32) : Option (BitVec 32) :=
  ((List.range 32).map (BitVec.twoPow 32)).find? fun id => bitmap &&& id = 0

def enableIrq (hook : H) (s : Irqs H) : Irqs H :=
  let left := s.actids (s.irq hook) &&& ~~~ s.id hook
  let s := s.setActids (s.irq hook) left
  if left = 0 then s.hwIntrUnmask (s.irq hook) else s

def disableIrq (hook : H) (s : Irqs H) : Bool × Irqs H :=
  if s.actids (s.irq hook) &&& s.id hook ≠ 0 then (false, s)
  else (true, (s.setActids (s.irq hook) (s.actids (s.irq hook) ||| s.id hook)).hwIntrMask (s.irq hook))

def register (hook : H) (irq : Irq) (id : BitVec 32) (e : Cell Irq H) (s : Irqs H) : Irqs H :=
  { s with lists := s.lists.append e hook, irq := update s.irq hook irq, id := update s.id hook id }

def putIrqHandler (hook : H) (irq : Irq) (s : Irqs H) : Except IrqStop (Irqs H) :=
  match s.lists.walk (fun h => h = hook) lineFuel (.head irq) with
  | none => .error .endless
  | some e =>
    -- The hook is on the list already.
    if (s.lists.read e).isSome then .ok s
    else
      match lowestId (s.idsFrom lineFuel (s.lists.head irq)) with
      | none => .error .tooMany
      | some id => .ok ((s.register hook irq id e).enableIrq hook)

def unhook (irq : Irq) (id : BitVec 32) (e : Cell Irq H) (s : Irqs H) : Irqs H :=
  match s.lists.read e with
  | none => s
  | some x => ({ s with lists := s.lists.unlink e x } : Irqs H).setActids irq (s.actids irq &&& ~~~ id)

def disabled (hook : H) (s : Irqs H) : Irqs H :=
  (s.setActids (s.irq hook) (s.actids (s.irq hook) ||| s.id hook)).hwIntrMask (s.irq hook)

def rmIrqHandler (hook : H) (s : Irqs H) : Except IrqStop (Irqs H) :=
  match (s.disabled hook).lists.walk (fun h => s.id h = s.id hook) lineFuel (.head (s.irq hook)) with
  | none => .error .endless
  | some e => .ok ((s.disabled hook).unhook (s.irq hook) (s.id hook) e)

def serve (irq : Irq) (hook : H) (done : Bool) (s : Irqs H) : Irqs H :=
  let s := s.setActids irq (s.actids irq ||| s.id hook)
  if done then s.setActids (s.irq hook) (s.actids (s.irq hook) &&& ~~~ s.id hook) else s

def reenable (irq : Irq) (s : Irqs H) : Irqs H := if s.actids irq = 0 then s.hwIntrUnmask irq else s

omit [DecidableEq H] in
lemma enableIrq_eq (hook : H) (s : Irqs H) : s.enableIrq hook = { s with
    actids := update s.actids (s.irq hook) (s.actids (s.irq hook) &&& ~~~ s.id hook)
    masked := if s.actids (s.irq hook) &&& ~~~ s.id hook = 0 then update s.masked (s.irq hook) false
      else s.masked } := by
  by_cases hleft : s.actids (s.irq hook) &&& ~~~ s.id hook = 0
  · simp only [enableIrq, hleft, if_pos, hwIntrUnmask, setActids]
  · simp only [enableIrq, hleft, if_false, setActids]

/-! ## Lists and ids -/

structure Wired (s : Irqs H) (line : Irq → List H) : Prop where
  links : ∀ irq, Links s.lists.next (s.lists.read (.head irq)) (line irq)
  home : ∀ {irq h}, h ∈ line irq → s.irq h = irq
  nonzero : ∀ {irq h}, h ∈ line irq → s.id h ≠ 0
  apart : ∀ {irq h k}, h ∈ line irq → k ∈ line irq → h ≠ k → s.id h &&& s.id k = 0

variable {s t : Irqs H} {line : Irq → List H} {hook h k : H} {irq j : Irq} {id : BitVec 32}

lemma Wired.eq_of_id (hw : s.Wired line) (hh : h ∈ line irq) (hk : k ∈ line irq)
    (hid : s.id h = s.id k) : h = k := by
  by_contra hne
  have happart := hw.apart hh hk hne
  rw [← hid, BitVec.and_self] at happart
  exact hw.nonzero hh happart

lemma Wired.length_lt (hw : s.Wired line) (irq : Irq) : (line irq).length < lineFuel := by
  have hbit : ∀ h : {h // h ∈ line irq}, ∃ i : Fin 32, (s.id h.val).getLsbD i = true := by
    intro h
    obtain ⟨i, hi⟩ := ChunkMap.ne_zero_iff.mp (hw.nonzero h.property)
    exact ⟨⟨i, BitVec.lt_of_getLsbD hi⟩, hi⟩
  choose bit hbit using hbit
  have hinj : Injective bit := by
    intro h k heq
    by_contra hne
    have happart := hw.apart h.property k.property fun hv => hne (Subtype.ext hv)
    exact ChunkMap.disjoint_bits happart (bit h) ⟨hbit h, heq ▸ hbit k⟩
  have hnodup : ((line irq).attach.map bit).Nodup := ((hw.links irq).nodup.attach).map hinj
  have hlen := hnodup.length_le_card
  rw [List.length_map, List.length_attach, Fintype.card_fin] at hlen
  exact Nat.lt_succ_of_le hlen

lemma Wired.walk (hw : s.Wired line) (stop : H → Bool) (irq : Irq) :
    ∃ l₁ l₂, line irq = l₁ ++ l₂ ∧
      s.lists.walk stop lineFuel (.head irq) = some (Lists.lastCell (.head irq) l₁) ∧
      (∀ b ∈ l₁, stop b = false) ∧ (∀ a l₃, l₂ = a :: l₃ → stop a = true) ∧
      Links s.lists.next (s.lists.read (Lists.lastCell (.head irq) l₁)) l₂ := by
  obtain ⟨e, he⟩ := s.lists.walk_ends stop (hw.links irq) (hw.length_lt irq)
  obtain ⟨l₁, l₂, hl, rfl, hstop, hrest⟩ := s.lists.walk_split stop (hw.links irq) he
  exact ⟨l₁, l₂, hl, he, hstop, hrest, s.lists.read_lastCell (hl ▸ hw.links irq)⟩

omit [DecidableEq H] in
lemma idsFrom_bit {n i : Nat} {p : Option H} {l : List H} (hl : Links s.lists.next p l)
    (hn : l.length < n) (hh : h ∈ l)
    (hi : (s.id h).getLsbD i = true) : (s.idsFrom n p).getLsbD i = true := by
  induction n generalizing p l with
  | zero => omega
  | succ n ih =>
    cases hl with
    | nil => nomatch hh
    | @cons a l hl =>
      rw [idsFrom, BitVec.getLsbD_or]
      rcases List.mem_cons.mp hh with rfl | hh
      · rw [hi, Bool.true_or]
      · rw [ih hl (by rw [List.length_cons] at hn; omega) hh, Bool.or_true]

def IsId (id : BitVec 32) : Prop := ∃ b < 32, id = BitVec.twoPow 32 b

lemma IsId.getLsbD_iff {b i : Nat} (hb : b < 32) : (BitVec.twoPow 32 b).getLsbD i = true ↔ b = i := by
  rw [BitVec.getLsbD_twoPow]
  simp [hb]

lemma IsId.ne_zero (h : IsId id) : id ≠ 0 := by
  obtain ⟨b, hb, rfl⟩ := h
  exact ChunkMap.ne_zero_iff.mpr ⟨b, (IsId.getLsbD_iff hb).mpr rfl⟩

lemma IsId.apart {f g : BitVec 32} (hf : IsId f) (hg : IsId g) (hne : f ≠ g) : f &&& g = 0 := by
  obtain ⟨a, ha, rfl⟩ := hf
  obtain ⟨b, hb, rfl⟩ := hg
  by_contra hand
  obtain ⟨i, hai, hbi⟩ := ChunkMap.and_ne_zero_iff.mp hand
  exact hne (by rw [(IsId.getLsbD_iff ha).mp hai, (IsId.getLsbD_iff hb).mp hbi])

lemma lowestId_spec {bitmap : BitVec 32} (h : lowestId bitmap = some id) : IsId id ∧ bitmap &&& id = 0 := by
  obtain ⟨b, hb, rfl⟩ := List.mem_map.mp (List.mem_of_find?_eq_some h)
  exact ⟨⟨b, List.mem_range.mp hb, rfl⟩, by simpa using List.find?_some h⟩

omit [DecidableEq H] in
lemma Wired.congr (hw : s.Wired line) (hl : t.lists = s.lists) (hi : t.irq = s.irq)
    (hd : t.id = s.id) : t.Wired line :=
  ⟨by rw [hl]; exact hw.links, by rw [hi]; exact hw.home, by rw [hd]; exact hw.nonzero,
    by rw [hd]; exact hw.apart⟩

omit [DecidableEq H] in
lemma Wired.not_mem (hw : s.Wired line) (hne : j ≠ irq) : ∀ a ∈ line irq, a ∉ line j :=
  fun _ ha ha' => hne ((hw.home ha').symm.trans (hw.home ha))

omit [DecidableEq H] in
lemma mem_extended : h ∈ update line irq (line irq ++ [hook]) j ↔ h ∈ line j ∨ j = irq ∧ h = hook := by
  by_cases hj : j = irq
  · subst hj
    simp
  · simp [hj]

lemma Wired.register (hw : s.Wired line) (hout : ∀ j, hook ∉ line j) (hid : id ≠ 0)
    (hfree : ∀ k ∈ line irq, s.id k &&& id = 0) :
    (s.register hook irq id (Lists.lastCell (.head irq) (line irq))).Wired
      (update line irq (line irq ++ [hook])) := by
  have hne : ∀ {j a}, a ∈ line j → a ≠ hook := fun {j} {a} ha => ne_of_mem_of_not_mem ha (hout j)
  have hold : ∀ {j a}, a ∈ line j → update s.id hook id a = s.id a := fun ha => update_of_ne (hne ha) _ _
  have hnew : update s.id hook id hook = id := update_self _ _ _
  refine ⟨fun j => ?_, fun {j h} hh => ?_, fun {j h} hh => ?_, fun {j h k} hh hk hhk => ?_⟩
  · have hlinks := Lists.links_append_chain (hw.links irq) (hw.links j) ⟨hout irq, hout j⟩ hw.not_mem
    rw [update_apply]
    split_ifs at hlinks ⊢ with hj
    · exact hj ▸ hlinks
    · exact hlinks
  · rcases mem_extended.mp hh with hh | ⟨rfl, rfl⟩
    · exact (update_of_ne (hne hh) _ _).trans (hw.home hh)
    · exact update_self _ _ _
  · rcases mem_extended.mp hh with hh | ⟨rfl, rfl⟩
    · exact ne_of_eq_of_ne (hold hh) (hw.nonzero hh)
    · exact ne_of_eq_of_ne hnew hid
  · rw [mem_extended] at hh hk
    rcases hh with hh | ⟨rfl, rfl⟩
    · rcases hk with hk | ⟨rfl, rfl⟩
      · exact (congrArg₂ _ (hold hh) (hold hk)).trans (hw.apart hh hk hhk)
      · exact (congrArg₂ _ (hold hh) hnew).trans (hfree h hh)
    · rcases hk with hk | ⟨-, rfl⟩
      · exact (congrArg₂ _ hnew (hold hk)).trans ((BitVec.and_comm _ _).trans (hfree k hk))
      · exact absurd rfl hhk

def without (s : Irqs H) (line : Irq → List H) (irq : Irq) (id : BitVec 32) : Irq → List H :=
  update line irq ((line irq).filter fun h => s.id h ≠ id)

omit [DecidableEq H] in
lemma mem_without : h ∈ s.without line irq id j ↔ h ∈ line j ∧ ¬ (j = irq ∧ s.id h = id) := by
  unfold without
  by_cases hj : j = irq
  · subst hj
    rw [update_self, List.mem_filter]
    simp
  · rw [update_of_ne hj]
    simp [hj]

lemma Wired.unlink (hw : s.Wired line) {l₁ l₂ : List H} (hl : line irq = l₁ ++ h :: l₂) :
    ({ s with lists := s.lists.unlink (Lists.lastCell (.head irq) l₁) h } : Irqs H).Wired
      (s.without line irq (s.id h)) where
  links j := by
    have hmem : h ∈ line irq := hl ▸ List.mem_append_right _ (.head _)
    have hkeep : s.without line irq (s.id h) j = (line j).erase h := by
      unfold without
      by_cases hj : j = irq
      · rw [hj, update_self, (hw.links irq).nodup.erase_eq_filter]
        refine List.filter_congr fun a ha => ?_
        have hid : s.id a = s.id h ↔ a = h := ⟨hw.eq_of_id ha hmem, congrArg s.id⟩
        by_cases hah : a = h <;> simp [hid, hah]
      · rw [update_of_ne hj, List.erase_of_not_mem (hw.not_mem hj h hmem)]
    rw [hkeep]
    exact Lists.links_unlink_chain (hl ▸ hw.links irq) (hw.links j) fun hj => hl ▸ hw.not_mem hj
  home hh := hw.home (mem_without.mp hh).1
  nonzero hh := hw.nonzero (mem_without.mp hh).1
  apart hh hk hne := hw.apart (mem_without.mp hh).1 (mem_without.mp hk).1 hne

lemma putIrqHandler_cases (hw : s.Wired line) (hout : ∀ j, hook ∈ line j → j = irq)
    (hok : s.putIrqHandler hook irq = .ok t) :
    (hook ∈ line irq ∧ t = s) ∨
      (∀ j, hook ∉ line j) ∧ ∃ id, IsId id ∧ (∀ k ∈ line irq, s.id k &&& id = 0) ∧
        t = (s.register hook irq id (Lists.lastCell (.head irq) (line irq))).enableIrq hook := by
  obtain ⟨l₁, l₂, hl, hwalk, hstop, hrest, hread⟩ := hw.walk (fun h => h = hook) irq
  unfold putIrqHandler at hok
  simp only [hwalk] at hok
  cases l₂ with
  | cons a l₂ =>
    rw [hread.eq_some, if_pos Option.isSome_some] at hok
    obtain rfl : a = hook := by simpa using hrest a l₂ rfl
    exact .inl ⟨hl ▸ List.mem_append_right _ (.head _), (Except.ok.inj hok).symm⟩
  | nil =>
    rw [hread.eq_none, if_neg (by simp)] at hok
    have hnot : hook ∉ line irq := by
      intro hmem
      rw [hl, List.append_nil] at hmem
      simpa using hstop hook hmem
    split at hok
    · nomatch hok
    next id hid =>
    obtain ⟨hne, hfree⟩ := lowestId_spec hid
    refine .inr ⟨fun j hj => hnot (hout j hj ▸ hj), id, hne, fun k hk => ?_, ?_⟩
    · by_contra hand
      obtain ⟨i, hki, hidi⟩ := ChunkMap.and_ne_zero_iff.mp hand
      have hbit := idsFrom_bit (hw.links irq) (hw.length_lt irq) hk hki
      exact ChunkMap.disjoint_bits hfree i ⟨hbit, hidi⟩
    · rw [hl, List.append_nil]
      exact (Except.ok.inj hok).symm

/-- What `rm_irq_handler` leaves behind: the hook of the line that has the id of the given hook is
gone, whichever it is. -/
structure Removed (s : Irqs H) (line : Irq → List H) (hook : H) (t : Irqs H) : Prop where
  wired : t.Wired (s.without line (s.irq hook) (s.id hook))
  irq : t.irq = s.irq
  id : t.id = s.id
  masked : t.masked = update s.masked (s.irq hook) true
  found : (∃ k ∈ line (s.irq hook), s.id k = s.id hook) →
    t.actids = update s.actids (s.irq hook) (s.actids (s.irq hook) &&& ~~~ s.id hook)
  absent : (∀ k ∈ line (s.irq hook), s.id k ≠ s.id hook) →
    t.actids = update s.actids (s.irq hook) (s.actids (s.irq hook) ||| s.id hook)

lemma or_andNot_self (x f : BitVec 32) : (x ||| f) &&& ~~~ f = x &&& ~~~ f := by
  apply BitVec.eq_of_getLsbD_eq
  intro i _
  cases hf : f.getLsbD i <;> simp [hf]

lemma rmIrqHandler_removed (hw : s.Wired line) (hook : H) :
    ∃ t, s.rmIrqHandler hook = .ok t ∧ s.Removed line hook t := by
  have hmarked : (s.disabled hook).Wired line := hw.congr rfl rfl rfl
  obtain ⟨l₁, l₂, hl, hwalk, hstop, hrest, hread⟩ := hmarked.walk (fun h => s.id h = s.id hook) (s.irq hook)
  refine ⟨(s.disabled hook).unhook (s.irq hook) (s.id hook) _, by rw [rmIrqHandler, hwalk], ?_⟩
  cases l₂ with
  | nil =>
    rw [List.append_nil] at hl
    have habsent : ∀ k ∈ line (s.irq hook), s.id k ≠ s.id hook := by
      intro k hk
      simpa using hstop k (hl ▸ hk)
    have hsame : s.without line (s.irq hook) (s.id hook) = line := by
      unfold without
      rw [List.filter_eq_self.mpr fun k hk => by simpa using habsent k hk, update_eq_self]
    unfold unhook
    rw [hread.eq_none]
    exact ⟨hsame.symm ▸ hmarked, rfl, rfl, rfl, fun ⟨k, hk, hid⟩ => absurd hid (habsent k hk), fun _ => rfl⟩
  | cons a l₂ =>
    have hid : s.id a = s.id hook := by simpa using hrest a l₂ rfl
    have ha : a ∈ line (s.irq hook) := hl ▸ List.mem_append_right _ (.head _)
    unfold unhook
    rw [hread.eq_some]
    refine ⟨?_, rfl, rfl, rfl, fun _ => ?_, fun h => absurd hid (h a ha)⟩
    · rw [← hid]
      exact (hmarked.unlink hl).congr rfl rfl rfl
    · simp only [disabled, setActids, hwIntrMask, update_self, update_idem, or_andNot_self]

end Irqs

end Nucleos.Kernel
