import Nucleos.Ds.Store

/-!
# Updates that wait for their subscribers

An update is pending while the bit of the subscription is set at the item. The handlers change the
tables before the copies that may fail: a new key is entered before its value has arrived, and a
`do_check` takes the bit away before the client has the item.
-/

namespace Nucleos.Ds

open Function Run

section Bits

lemma newFlags_type (f : Flags) : (dsInUse ||| f) &&& dsTypeMask = f &&& dsTypeMask := by
  have h : dsInUse &&& dsTypeMask = 0#32 := rfl
  ext i hi
  have hbit := congrArg (fun x => x[i]) h
  simp only [BitVec.getElem_and, BitVec.getElem_zero] at hbit
  simp only [BitVec.getElem_and, BitVec.getElem_or, Bool.and_or_distrib_right, hbit, Bool.false_or]

lemma newFlags_inUse (f : Flags) : (dsInUse ||| f) &&& dsInUse ≠ 0 := by
  intro h
  have hbit := congrArg (fun x => x.getLsbD 0) h
  simp [dsInUse] at hbit

lemma and_type_eq {f t : Flags} (ht : t = dsTypeU32 ∨ t = dsTypeStr)
    (hf : f &&& dsTypeMask = dsTypeU32 ∨ f &&& dsTypeMask = dsTypeStr) :
    f &&& t = t ↔ f &&& dsTypeMask = t := by
  have h : f &&& t = (f &&& dsTypeMask) &&& t := by
    rw [BitVec.and_assoc]
    rcases ht with rfl | rfl <;> rfl
  rw [h]
  rcases ht with rfl | rfl <;> rcases hf with hf | hf <;> rw [hf] <;> decide

lemma eq_zero_of_and {f t : Flags} (i : Nat) (ht : t = BitVec.twoPow 32 i) (h : t &&& f = f) :
    f = t ∨ f = 0 := by
  rw [ht, BitVec.twoPow_and, ← ht] at h
  split at h
  · exact .inl h.symm
  · exact .inr h.symm

end Bits

inductive Value where
  | u32 (v : UInt32)
  | str (v : Str)
deriving DecidableEq, Repr

def Item.value (x : Item) : Value :=
  if x.type = dsTypeStr then .str (cstr x.valStr) else .u32 x.valU32

/-- There is a terminator in the array, or right behind it. -/
def Item.Ends (x : Item) : Prop := 0 ∈ (List.range dsMaxVallen.toNat).map x.valStr ∨ x.subByte 0 = 0

def Item.withStr (x : Item) (a : Nat → UInt8) : Item := { x with valStr := a }

namespace Publish

def KeyOk (m : Publish) : Prop :=
  2 ≤ m.keyLen ∧ m.keyLen ≤ dsMaxKeylen ∧ (m.type = dsTypeU32 ∨ m.type = dsTypeStr) ∧ m.keyCopy = 0

def LenOk (m : Publish) : Prop := 1 ≤ m.valLen ∧ m.valLen ≤ dsMaxVallen

instance (m : Publish) : Decidable m.LenOk := inferInstanceAs (Decidable (_ ∧ _))

def ValueOk (m : Publish) : Prop := m.type = dsTypeU32 ∨ (m.LenOk ∧ m.valCopy = 0)

/-- The value that the request gives to an item whose array held this. -/
def value (m : Publish) (old : Nat → UInt8) : Value :=
  if m.type = dsTypeStr then .str (cstr (overlay m.valLen.toNat m.valBytes old)) else .u32 m.val

end Publish

namespace Store

def contents (st : Store) (d : Fin nrDsKeys) : Option (Str × Flags × Value) :=
  if (st.item d).inUse then some ((st.item d).key, (st.item d).type, (st.item d).value) else none

def Pending (st : Store) (s : Fin nrDsSubs) (d : Fin nrDsKeys) : Prop :=
  (st.item d).inUse = true ∧ (st.item d).oldSubs s = true

instance (st : Store) (s : Fin nrDsSubs) (d : Fin nrDsKeys) : Decidable (st.Pending s d) :=
  inferInstanceAs (Decidable (_ ∧ _))

def IsKey (st : Store) (d : Fin nrDsKeys) (key : Str) (type : Flags) : Prop :=
  (st.item d).inUse = true ∧ (st.item d).key = key ∧ (st.item d).type = type

def Wants (re : Regexps) (st : Store) (s : Fin nrDsSubs) (key : Str) : Prop :=
  (st.sub s).inUse = true ∧ re.regexec (anchoredWhole (st.sub s).asked) key = true

/-- The call hands the item, with its key and its present value, to the owner of the
subscription. -/
def Delivers (st : Store) (c : Call) (st' : Store) (s : Fin nrDsSubs) (d : Fin nrDsKeys) : Prop :=
  ∃ m, c = .check m ∧ m.source = (st.sub s).owner ∧ st'.reply.code = 0 ∧
    st'.reply.found = some (s, d) ∧
    st'.reply.key = (st.item d).key ++ [0] ∧
    match (st.item d).value with
    | .u32 v => st'.reply.val = v
    | .str v => st'.reply.str = v ++ [0]

def Publishes (st : Store) (c : Call) (st' : Store) (m : Publish) (d : Fin nrDsKeys) : Prop :=
  c = .publish m ∧ st'.reply.code = 0 ∧ st'.IsKey d m.key m.type ∧
    (st'.item d).value = m.value (st.item d).valStr

structure Inv (re : Regexps) (st : Store) : Prop where
  used : ∀ d, (st.item d).inUse = true ↔ d.val < st.nrInUse
  typed : ∀ d, (st.item d).inUse = true → (st.item d).type = dsTypeU32 ∨
    (st.item d).type = dsTypeStr
  flagged : ∀ {s d}, (st.item d).oldSubs s = true → (st.item d).inUse = true ∧
    st.matchesKey re s (st.item d).key = true
  unique : ∀ {d d'}, (st.item d).inUse = true → (st.item d').inUse = true →
    (st.item d).key = (st.item d').key →
    (st.item d).type = (st.item d').type → d = d'

/-- The call keeps what is in the store when it fails, flags what it publishes for everyone who
wants it, and takes no flag away but by a delivery. -/
structure Kept (re : Regexps) (st : Store) (c : Call) (st' : Store) : Prop where
  refused : ∀ m, c = .publish m → st'.reply.code ≠ 0 → st'.contents = st.contents
  published : ∀ m, c = .publish m → st'.reply.code = 0 → ∀ d, st'.IsKey d m.key m.type →
    ∀ s, st.Wants re s m.key → st'.Pending s d
  pending : ∀ s d, st.Pending s d → ¬ Delivers st c st' s d → st'.Pending s d

/-- No copy fails behind a change that it should have preceded; the subscribers' expressions have
been compiled whole, as far as the key can tell. -/
def Clean (re : Regexps) (st : Store) : Call → Prop
  | .publish m => m.KeyOk →
    match st.findKey m.key m.type with
    | some d =>
      (m.ValueOk → ∀ s, st.Wants re s m.key → st.matchesKey re s m.key = true) ∧
      (¬ m.ValueOk → m.LenOk → cstr (overlay m.copied m.valBytes (st.item d).valStr) =
        cstr (st.item d).valStr)
    | none => st.nrInUse < nrDsKeys → m.ValueOk ∧ ∀ s, st.Wants re s m.key →
        st.matchesKey re s m.key = true
  | .check m => ∀ s d, m.flags &&& dsTypeMask ≠ 0 → st.nextFor m.source (m.flags &&&
      dsTypeMask) = some (s, d) →
    m.keyCopy = 0 ∧ (st.item d).key.length < m.keyLen ∧
      (m.flags &&& dsTypeMask = dsTypeStr → m.valCopy = 0 ∧
        (cstr (st.item d).valStr).length < m.valLen ∧
        ((st.unflag s d).item d).Ends)
  | _ => True

variable {re : Regexps} {st st' : Store} {s : Fin nrDsSubs} {d : Fin nrDsKeys}
    {m : Publish} {c : Call}

section Find
variable (hinv : Inv re st) {key : Str} {type : Flags} (htype : type = dsTypeU32 ∨ type = dsTypeStr)
include hinv htype

lemma findKey_iff : (((st.item d).inUse && ((st.item d).flags &&& type == type) &&
    ((st.item d).key == key)) = true) ↔
    st.IsKey d key type := by
  simp only [Bool.and_eq_true, beq_iff_eq, IsKey]
  constructor
  · rintro ⟨⟨huse, ht⟩, hkey⟩
    exact ⟨huse, hkey, (and_type_eq htype (hinv.typed d huse)).mp ht⟩
  · rintro ⟨huse, hkey, ht⟩
    exact ⟨⟨huse, (and_type_eq htype (hinv.typed d huse)).mpr ht⟩, hkey⟩

lemma findKey_some (h : st.findKey key type = some d) : st.IsKey d key type := by
  have hfind := List.find?_some h
  exact (findKey_iff hinv htype).mp hfind

lemma findKey_none (h : st.findKey key type = none) : ¬ st.IsKey d key type := by
  intro hd
  exact (List.find?_eq_none.mp h d (List.mem_finRange d)) ((findKey_iff hinv htype).mpr hd)

end Find

lemma nextFor_some {source : Int} {type : Flags} (h : st.nextFor source type = some (s, d)) :
    (st.sub s).inUse = true ∧ source = (st.sub s).owner ∧ st.Pending s d ∧
      type = (st.item d).type := by
  obtain ⟨s', -, hs'⟩ := List.exists_of_findSome?_eq_some h
  rcases ite_eq_iff.mp hs' with ⟨⟨huse, hown⟩, hs'⟩ | ⟨_, hs'⟩
  · obtain ⟨d', hd', heq⟩ := Option.map_eq_some_iff.mp hs'
    cases heq
    have hfind := List.find?_some hd'
    simp only [Bool.and_eq_true, beq_iff_eq] at hfind
    exact ⟨huse, hown, hfind.1, hfind.2⟩
  · nomatch hs'

structure Heads (st st' : Store) : Prop where
  nrInUse : st'.nrInUse = st.nrInUse
  key : ∀ d, (st'.item d).key = (st.item d).key
  flags : ∀ d, (st'.item d).flags = (st.item d).flags

section Heads
variable (h : Heads st st')
include h

lemma Heads.inUse (d : Fin nrDsKeys) : (st'.item d).inUse = (st.item d).inUse := by
  rw [Item.inUse, h.flags, Item.inUse]

lemma Heads.type (d : Fin nrDsKeys) : (st'.item d).type = (st.item d).type := by
  rw [Item.type, h.flags, Item.type]

lemma Heads.isKey {key : Str} {type : Flags} : st'.IsKey d key type ↔ st.IsKey d key type := by
  rw [IsKey, h.inUse, h.key, h.type, IsKey]

lemma Heads.contents_eq (hvalue : (st'.item d).value = (st.item d).value) :
    st'.contents d = st.contents d := by
  rw [contents, h.inUse, h.key, h.type, hvalue, contents]

lemma Heads.inv (hinv : Inv re st) (hbits : ∀ {s d}, (st'.item d).oldSubs s = true →
    (st.item d).inUse = true ∧ st'.matchesKey re s (st.item d).key = true) : Inv re st' := by
  refine ⟨fun d => ?_, fun d => ?_, fun {s d} hs => ?_, fun {d d'} => ?_⟩
  · rw [h.inUse, h.nrInUse]
    exact hinv.used d
  · rw [h.inUse, h.type]
    exact hinv.typed d
  · rw [h.inUse, h.key]
    exact hbits hs
  · rw [h.inUse, h.inUse, h.key, h.key, h.type, h.type]
    exact hinv.unique

end Heads

structure Wrote (st st' : Store) (d : Fin nrDsKeys) : Prop extends Heads st st' where
  sub : st'.sub = st.sub
  other : ∀ d', d' ≠ d → st'.item d' = st.item d'

lemma setItem_self (x : Item) : (st.setItem d x).item d = x := update_self _ _ _

variable {d' : Fin nrDsKeys}

lemma setItem_other (x : Item) (h : d' ≠ d) : (st.setItem d x).item d' = st.item d' :=
  update_of_ne h _ _

variable {x : Item}

lemma wrote_setItem (hkey : x.key = (st.item d).key) (hflags : x.flags = (st.item d).flags) :
    Wrote st (st.setItem d x) d := by
  refine ⟨⟨rfl, fun d' => ?_, fun d' => ?_⟩, rfl, fun _ h => setItem_other x h⟩
  · by_cases hd : d' = d
    · rw [hd, setItem_self, hkey]
    · rw [setItem_other x hd]
  · by_cases hd : d' = d
    · rw [hd, setItem_self, hflags]
    · rw [setItem_other x hd]

lemma Wrote.answer (h : Wrote st st' d) (r : Reply) : Wrote st { st' with reply := r } d :=
  ⟨⟨h.nrInUse, h.key, h.flags⟩, h.sub, h.other⟩

lemma Wrote.matchesKey (h : Wrote st st' d) (s : Fin nrDsSubs) (key : Str) :
    st'.matchesKey re s key = st.matchesKey re s key := by
  rw [Store.matchesKey, h.sub, Store.matchesKey]

lemma Wrote.pending_other (h : Wrote st st' d) (hd : d' ≠ d) (hp : st.Pending s d') :
    st'.Pending s d' := by
  rw [Pending, h.other d' hd]
  exact hp

lemma lenOk_iff : ¬ (m.valLen < 1 ∨ m.valLen > dsMaxVallen) ↔ m.LenOk := by
  unfold Publish.LenOk
  omega

lemma setFields_ok (re : Regexps) (st : Store) (d : Fin nrDsKeys) (h : m.ValueOk) :
    Wrote st (st.setFields re m d) d ∧ (st.setFields re m d).reply.code = 0 ∧
      ((st.setFields re m d).item d).oldSubs = st.updatedSubs re d := by
  have key : ∀ x : Item, x.key = (st.item d).key → x.flags = (st.item d).flags →
    x.oldSubs = (st.item d).oldSubs →
      Wrote st ((st.setItem d x).checkSubscribers re d) d ∧
        ((st.setItem d x).checkSubscribers re d).reply.code = 0 ∧
      (((st.setItem d x).checkSubscribers re d).item d).oldSubs = st.updatedSubs re d := by
    intro x hkey hflags hsubs
    have hbits : (st.setItem d x).updatedSubs re d = st.updatedSubs re d := by
      funext s
      simp only [updatedSubs, setItem_self, hkey, hsubs]
      rfl
    have hset : (st.setItem d x).setItem d
      { (st.setItem d x).item d with oldSubs := (st.setItem d x).updatedSubs re d } =
        st.setItem d { x with oldSubs := st.updatedSubs re d } := by
      rw [hbits, setItem_self, setItem, setItem, setItem, update_idem]
    refine ⟨?_, rfl, ?_⟩
    · rw [checkSubscribers, hset]
      refine Wrote.answer (wrote_setItem ?_ ?_) _
      · exact hkey
      · exact hflags
    · rw [checkSubscribers, hset]
      exact congrArg Item.oldSubs (setItem_self _)
  by_cases hu : m.type = dsTypeU32
  · rw [setFields, if_pos hu]
    exact key _ rfl rfl rfl
  obtain ⟨hlen, hcopy⟩ := h.resolve_left hu
  rw [setFields, if_neg hu, if_neg (lenOk_iff.mpr hlen)]
  simp only [hcopy, ne_eq, not_true_eq_false, if_false]
  exact key _ rfl rfl rfl

lemma setFields_bad (re : Regexps) (st : Store) (d : Fin nrDsKeys) (h : ¬ m.ValueOk) :
    (st.setFields re m d).reply.code ≠ 0 ∧ Wrote st (st.setFields re m d) d ∧
      (st.setFields re m d).item d = (st.item d).withStr
        (if m.LenOk then overlay m.copied m.valBytes (st.item d).valStr
          else (st.item d).valStr) := by
  obtain ⟨hu, hval⟩ := not_or.mp h
  rw [setFields, if_neg hu]
  by_cases hlen : m.LenOk
  · have hcopy : m.valCopy ≠ 0 := fun hc => hval ⟨hlen, hc⟩
    rw [if_neg (lenOk_iff.mpr hlen)]
    simp only [if_pos hcopy, if_pos hlen]
    have hw : Wrote st (st.setItem d
      ((st.item d).withStr (overlay m.copied m.valBytes (st.item d).valStr))) d :=
      wrote_setItem rfl rfl
    exact ⟨hcopy, hw.answer _, setItem_self _⟩
  · rw [if_pos (not_not.mp (mt lenOk_iff.mp hlen))]
    simp only [if_neg hlen]
    exact ⟨(by decide : -einval ≠ 0), ⟨⟨rfl, fun _ => rfl, fun _ => rfl⟩, rfl, fun _ _ => rfl⟩, rfl⟩

lemma setFields_wrote (re : Regexps) (m : Publish) (st : Store) (d : Fin nrDsKeys) :
    Wrote st (st.setFields re m d) d := by
  by_cases hv : m.ValueOk
  · exact (setFields_ok re st d hv).1
  · exact (setFields_bad re st d hv).2.1

lemma setFields_value (hm : m.KeyOk) (hkey : st.IsKey d m.key m.type) (hv : m.ValueOk) :
    ((st.setFields re m d).item d).value = m.value (st.item d).valStr := by
  have htype := (setFields_wrote re m st d).type d
  by_cases hu : m.type = dsTypeU32
  · have hns : m.type ≠ dsTypeStr := by rw [hu]; decide
    rw [Item.value, htype, if_neg (by rw [hkey.2.2]; exact hns), Publish.value, if_neg hns]
    rw [setFields, if_pos hu, checkSubscribers, setItem_self]
    simp only [setItem_self]
  obtain ⟨hlen, hcopy⟩ := hv.resolve_left hu
  have hs : m.type = dsTypeStr := hm.2.2.1.resolve_left hu
  rw [Item.value, htype, if_pos (by rw [hkey.2.2]; exact hs), Publish.value, if_pos hs]
  rw [setFields, if_neg hu, if_neg (lenOk_iff.mpr hlen)]
  simp only [hcopy, ne_eq, not_true_eq_false, if_false, checkSubscribers, setItem_self,
    Publish.copied, if_true]

/-- Where a publication puts its value: into the item of the key, or into a new one. -/
inductive Slot (m : Publish) (st : Store) : Fin nrDsKeys → Store → Prop
  | found {d : Fin nrDsKeys} (hfind : st.findKey m.key m.type = some d) : Slot m st d st
  | fresh (hfind : st.findKey m.key m.type = none) (hroom : st.nrInUse < nrDsKeys) :
    Slot m st ⟨st.nrInUse, hroom⟩ (st.newSlot ⟨st.nrInUse, hroom⟩ m)

lemma newSlot_self : (st.newSlot d m).item d =
    { st.item d with key := m.key, flags := dsInUse ||| m.flags } :=
  setItem_self _

lemma newSlot_other (h : d' ≠ d) : (st.newSlot d m).item d' = st.item d' :=
  setItem_other _ h

lemma newSlot_isKey (m : Publish) (st : Store) (d : Fin nrDsKeys) :
    (st.newSlot d m).IsKey d m.key m.type := by
  rw [IsKey, newSlot_self]
  exact ⟨decide_eq_true (newFlags_inUse m.flags), rfl, newFlags_type m.flags⟩

lemma newSlot_fresh (hinv : Inv re st) (hroom : st.nrInUse < nrDsKeys) :
    (st.item ⟨st.nrInUse, hroom⟩).inUse = false :=
  Bool.eq_false_iff.mpr fun h => absurd ((hinv.used _).mp h) (Nat.lt_irrefl _)

lemma newSlot_inv (hinv : Inv re st) (hroom : st.nrInUse < nrDsKeys) (hm : m.KeyOk)
    (hnone : st.findKey m.key m.type = none) : Inv re (st.newSlot ⟨st.nrInUse, hroom⟩ m) := by
  have hfresh := newSlot_fresh hinv hroom
  obtain ⟨d, hd⟩ : ∃ d : Fin nrDsKeys, d = ⟨st.nrInUse, hroom⟩ := ⟨_, rfl⟩
  rw [← hd] at hfresh ⊢
  obtain ⟨huse, hkey, htype⟩ := newSlot_isKey m st d
  have hnew : ∀ d', d' ≠ d → ¬ (st.newSlot d m).IsKey d' m.key m.type := by
    intro d' hd
    rw [IsKey, newSlot_other hd]
    exact findKey_none hinv hm.2.2.1 hnone
  refine ⟨fun d' => ?_, fun d' => ?_, fun {s d'} hs => ?_, fun {d₁ d₂} h₁ h₂ hk ht => ?_⟩
  · by_cases hd' : d' = d
    · rw [hd']
      exact ⟨fun _ => hd ▸ Nat.lt_succ_self _, fun _ => huse⟩
    · rw [newSlot_other hd', hinv.used]
      have hne : d'.val ≠ st.nrInUse := fun h => hd' (hd ▸ Fin.ext h)
      exact ⟨fun h => Nat.lt_succ_of_lt h,
        fun h => (Nat.lt_succ_iff_lt_or_eq.mp h).resolve_right hne⟩
  · by_cases hd : d' = d
    · rw [hd, htype]
      exact fun _ => hm.2.2.1
    · rw [newSlot_other hd]
      exact hinv.typed d'
  · by_cases hd : d' = d
    · rw [hd, newSlot_self] at hs
      nomatch hfresh.symm.trans (hinv.flagged hs).1
    · rw [newSlot_other hd] at hs ⊢
      exact hinv.flagged hs
  · by_cases hd₁ : d₁ = d
    · subst hd₁
      by_contra hd₂
      exact hnew d₂ (Ne.symm hd₂) ⟨h₂, hk.symm.trans hkey, ht.symm.trans htype⟩
    by_cases hd₂ : d₂ = d
    · subst hd₂
      exact absurd ⟨h₁, hk.trans hkey, ht.trans htype⟩ (hnew d₁ hd₁)
    rw [newSlot_other hd₁] at h₁ hk ht
    rw [newSlot_other hd₂] at h₂ hk ht
    exact hinv.unique h₁ h₂ hk ht

namespace Slot
variable {base : Store} (h : Slot m st d base)
include h

lemma sub : base.sub = st.sub := by
  cases h with
  | found => rfl
  | fresh => rfl

lemma other (hd : d' ≠ d) : base.item d' = st.item d' := by
  cases h with
  | found => rfl
  | fresh => exact newSlot_other hd

lemma same : (base.item d).oldSubs = (st.item d).oldSubs ∧
    (base.item d).valStr = (st.item d).valStr := by
  cases h with
  | found => exact ⟨rfl, rfl⟩
  | fresh =>
    rw [newSlot_self]
    exact ⟨rfl, rfl⟩

lemma matchesKey (s : Fin nrDsSubs) (key : Str) :
    base.matchesKey re s key = st.matchesKey re s key := by
  rw [Store.matchesKey, h.sub, Store.matchesKey]

lemma wants {key : Str} : base.Wants re s key ↔ st.Wants re s key := by
  rw [Wants, h.sub, Wants]

variable (hinv : Inv re st) (hm : m.KeyOk)
include hinv hm

lemma inv : Inv re base := by
  cases h with
  | found => exact hinv
  | fresh hfind hroom => exact newSlot_inv hinv hroom hm hfind

lemma isKey : base.IsKey d m.key m.type := by
  cases h with
  | found hfind => exact findKey_some hinv hm.2.2.1 hfind
  | fresh => exact newSlot_isKey m st _

omit hm in
lemma pending (hp : st.Pending s d') : base.Pending s d' := by
  cases h with
  | found => exact hp
  | fresh hfind hroom =>
    have hd : d' ≠ ⟨st.nrInUse, hroom⟩ := by
      rintro rfl
      nomatch (newSlot_fresh hinv hroom).symm.trans hp.1
    rw [Pending, newSlot_other hd]
    exact hp

end Slot

lemma unflag_wrote : Wrote st (st.unflag s d) d := wrote_setItem rfl rfl

lemma unflag_bit {s' : Fin nrDsSubs} :
    ((st.unflag s d).item d).oldSubs s' = true ↔ s' ≠ s ∧ (st.item d).oldSubs s' = true := by
  rw [unflag, setItem_self]
  by_cases hs : s' = s
  · simp [hs]
  · simp [hs]

lemma unflag_of {s' : Fin nrDsSubs} (h : ((st.unflag s d).item d').oldSubs s' = true) :
    (st.item d').oldSubs s' = true := by
  by_cases hd : d' = d
  · subst hd
    exact (unflag_bit.mp h).2
  · rwa [unflag_wrote.other d' hd] at h

structure Joined (re : Regexps) (st st' : Store) (s : Fin nrDsSubs) :
    Prop extends Heads st st' where
  value : ∀ d, (st'.item d).value = (st.item d).value
  live : (st'.sub s).inUse = true
  other : ∀ s', s' ≠ s → st'.sub s' = st.sub s'
  kept : ∀ {d s'}, (st.item d).oldSubs s' = true → (st'.item d).oldSubs s' = true
  added : ∀ {d s'}, (st'.item d).oldSubs s' = true → (st.item d).oldSubs s' = true ∨
    (s' = s ∧ (st.item d).inUse = true ∧ st'.matchesKey re s (st.item d).key = true)

lemma enroll_self (r : Subscribe) : ((st.enroll s r).sub s).inUse = true := by
  have hself : (st.enroll s r).sub s = ⟨dsInUse ||| (r.flags &&& dsTypeMask), anchored r.key,
    r.source, r.key⟩ :=
    update_self _ _ _
  rw [hself]
  exact decide_eq_true (newFlags_inUse _)

lemma joined_enroll (re : Regexps) (st : Store) (s : Fin nrDsSubs) (r : Subscribe) :
    Joined re st ((st.enroll s r).answer 0) s :=
  ⟨⟨rfl, fun _ => rfl, fun _ => rfl⟩, fun _ => rfl, enroll_self r, fun _ hs =>
    update_of_ne hs _ _, id, .inl⟩

lemma joined_initial (re : Regexps) (st : Store) (s : Fin nrDsSubs) (r : Subscribe) :
    Joined re st ((st.enroll s r).flagInitial re s) s := by
  have hitem : ∀ d, ((st.enroll s r).flagInitial re s).item d =
      if (st.item d).inUse && re.regexec ((st.enroll s r).sub s).regex (st.item d).key then
        { st.item d with oldSubs := update (st.item d).oldSubs s true } else st.item d :=
          fun _ => rfl
  refine ⟨⟨rfl, fun d => ?_, fun d => ?_⟩, fun d => ?_, enroll_self r, fun _ hs =>
    update_of_ne hs _ _,
    fun {d s'} hs' => ?_, fun {d s'} hs' => ?_⟩
  · rw [hitem]
    split <;> rfl
  · rw [hitem]
    split <;> rfl
  · rw [hitem]
    split <;> rfl
  · rw [hitem]
    split
    · by_cases hs : s' = s
      · simp [hs]
      · simpa [update_of_ne hs] using hs'
    · exact hs'
  · rw [hitem] at hs'
    split at hs'
    · rename_i hmatch
      rw [Bool.and_eq_true] at hmatch
      by_cases hs : s' = s
      · refine .inr ⟨hs, hmatch.1, ?_⟩
        rw [matchesKey]
        exact Bool.and_eq_true_iff.mpr ⟨enroll_self r, hmatch.2⟩
      · exact .inl (by simpa [update_of_ne hs] using hs')
    · exact .inl hs'

inductive Turn (re : Regexps) (st : Store) : Call → Store → Prop
  | idle {c : Call} {st' : Store} (hitem : st'.item = st.item) (hsub : st'.sub = st.sub)
      (hnr : st'.nrInUse = st.nrInUse)
    (hfound : st'.reply.found = none) (hcode : ∀ m, c = .publish m → st'.reply.code ≠ 0)
    (hclean : Clean re st c) : Turn re st c st'
  | publish {m : Publish} {d : Fin nrDsKeys} {base : Store} (hm : m.KeyOk)
      (hslot : Slot m st d base) :
    Turn re st (.publish m) (base.setFields re m d)
  | check {k : Check} {s : Fin nrDsSubs} {d : Fin nrDsKeys} (htype : k.flags &&& dsTypeMask ≠ 0)
    (hnext : st.nextFor k.source (k.flags &&& dsTypeMask) = some (s, d)) :
    Turn re st (.check k) { st.unflag s d with reply := st.deliver k s d }
  | subscribe {r : Subscribe} {s : Fin nrDsSubs} {st' : Store} (hfree : (st.sub s).inUse = false)
      (hjoin : Joined re st st' s) :
    Turn re st (.subscribe r) st'

lemma turn_publish (re : Regexps) (m : Publish) (st : Store) :
    Turn re st (.publish m) (st.doPublish re m) := by
  have hidle : ∀ code, code ≠ 0 → Clean re st (.publish m) →
    Turn re st (.publish m) (st.answer code) :=
    fun code hne hclean => .idle rfl rfl rfl rfl (fun _ _ => hne) hclean
  have hkeyOk : ¬ m.KeyOk → Clean re st (.publish m) := fun hno hm => absurd hm hno
  unfold doPublish
  split
  · refine hidle _ (by decide) (hkeyOk fun hm => ?_)
    have := hm.1
    have := hm.2.1
    omega
  split
  · next htype => exact hidle _ (by decide) (hkeyOk fun hm => hm.2.2.1.elim htype.1 htype.2)
  next htype =>
  split
  · next hcopy => exact hidle _ hcopy (hkeyOk fun hm => hcopy hm.2.2.2)
  next hcopy =>
  have hm : m.KeyOk := by
    refine ⟨by omega, by omega, ?_, not_not.mp hcopy⟩
    rwa [not_and_or, not_not, not_not] at htype
  cases hfind : st.findKey m.key m.type with
  | some d => exact .publish hm (.found hfind)
  | none =>
    simp only
    split
    · next hroom => exact .publish hm (.fresh hfind hroom)
    next hroom =>
    refine hidle _ (by decide) fun _ => ?_
    rw [hfind]
    exact fun h => absurd h hroom

lemma turn_check (re : Regexps) (k : Check) (st : Store) :
    Turn re st (.check k) (st.doCheck k) := by
  by_cases htype : k.flags &&& dsTypeMask = 0
  · simp only [doCheck, if_pos htype]
    exact .idle rfl rfl rfl rfl nofun fun _ _ hne => absurd htype hne
  cases hnext : st.nextFor k.source (k.flags &&& dsTypeMask) with
  | none =>
    simp only [doCheck, if_neg htype, hnext]
    exact .idle rfl rfl rfl rfl nofun fun _ _ _ h => nomatch hnext.symm.trans h
  | some r =>
    simp only [doCheck, if_neg htype, hnext]
    exact .check htype hnext

lemma turn_subscribe (re : Regexps) (r : Subscribe) (st : Store) :
    Turn re st (.subscribe r) (st.doSubscribe re r) := by
  have hidle : ∀ code, Turn re st (.subscribe r) (st.answer code) :=
    fun code => .idle rfl rfl rfl rfl nofun trivial
  unfold doSubscribe
  split
  · exact hidle _
  split
  · exact hidle _
  cases hfind : (List.finRange nrDsSubs).find? fun s => !(st.sub s).inUse with
  | none => exact hidle _
  | some s =>
    have hfree : (st.sub s).inUse = false := by simpa using List.find?_some hfind
    simp only
    split
    · exact hidle _
    split
    · exact .subscribe hfree (joined_initial re st s r)
    · exact .subscribe hfree (joined_enroll re st s r)

lemma step_turn (h : step re st c = .ok st') : Turn re st c st' := by
  cases c with
  | publish m => exact Except.ok.inj h ▸ turn_publish re m st
  | check k => exact Except.ok.inj h ▸ turn_check re k st
  | subscribe r => exact Except.ok.inj h ▸ turn_subscribe re r st
  | retrieve r =>
    have hsame : st'.item = st.item ∧ st'.sub = st.sub ∧ st'.nrInUse = st.nrInUse ∧
      st'.reply.found = none := by
      simp only [step, doRetrieve] at h
      repeat' split at h
      all_goals first
        | (obtain rfl := Except.ok.inj h; exact ⟨rfl, rfl, rfl, rfl⟩)
        | nomatch h
    exact .idle hsame.1 hsame.2.1 hsame.2.2.1 hsame.2.2.2 nofun trivial

lemma updatedSubs_matches (hinv : Inv re st) (hs : st.updatedSubs re d s = true) :
    st.matchesKey re s (st.item d).key = true := by
  rw [updatedSubs] at hs
  split at hs
  · exact hs
  · exact (hinv.flagged hs).2

lemma updatedSubs_of_flagged (hinv : Inv re st) (hs : (st.item d).oldSubs s = true) :
    st.updatedSubs re d s = true := by
  rw [updatedSubs]
  split
  · exact (hinv.flagged hs).2
  · exact hs

lemma setFields_inv (hinv : Inv re st) (huse : (st.item d).inUse = true) :
    Inv re (st.setFields re m d) := by
  have hw := setFields_wrote re m st d
  refine hw.inv hinv fun {s d'} hs => ?_
  rw [hw.matchesKey]
  by_cases hd : d' = d
  · subst hd
    by_cases hv : m.ValueOk
    · rw [(setFields_ok re st d' hv).2.2] at hs
      exact ⟨huse, updatedSubs_matches hinv hs⟩
    · rw [(setFields_bad re st d' hv).2.2] at hs
      exact hinv.flagged hs
  · rw [hw.other d' hd] at hs
    exact hinv.flagged hs

lemma Turn.inv (h : Turn re st c st') (hinv : Inv re st) : Inv re st' := by
  cases h with
  | idle hitem hsub hnr =>
    refine Heads.inv ⟨hnr, fun _ => by rw [hitem], fun _ => by rw [hitem]⟩ hinv fun hs => ?_
    rw [hitem] at hs
    rw [matchesKey, hsub]
    exact hinv.flagged hs
  | publish hm hslot => exact setFields_inv (hslot.inv hinv hm) (hslot.isKey hinv hm).1
  | check => exact (unflag_wrote.answer _).inv hinv fun hs => hinv.flagged (unflag_of hs)
  | @subscribe r s st' hfree hjoin =>
    refine hjoin.inv hinv fun {s' d} hs => ?_
    rcases hjoin.added hs with hold | ⟨rfl, huse, hmatch⟩
    · obtain ⟨huse, hmatch⟩ := hinv.flagged hold
      have hne : s' ≠ s := by
        rintro rfl
        simp [matchesKey, hfree] at hmatch
      rw [matchesKey, hjoin.other s' hne]
      exact ⟨huse, hmatch⟩
    · exact ⟨huse, hmatch⟩

section Kept

lemma Inv.isKey_unique (hinv : Inv re st) {key : Str} {type : Flags} (h : st.IsKey d key type)
    (h' : st.IsKey d' key type) : d' = d :=
  hinv.unique h'.1 h.1 (h'.2.1.trans h.2.1.symm) (h'.2.2.trans h.2.2.symm)

lemma setFields_flags_iff (hinv : Inv re st) (hkey : st.IsKey d m.key m.type) (hv : m.ValueOk) :
    (∀ d', (st.setFields re m d).IsKey d' m.key m.type → ∀ s, st.Wants re s m.key →
      (st.setFields re m d).Pending s d') ↔
      ∀ s, st.Wants re s m.key → st.matchesKey re s m.key = true := by
  obtain ⟨hw, -, hbits⟩ := setFields_ok re st d hv
  have hpend : ∀ s, st.Wants re s m.key → ((st.setFields re m d).Pending s d ↔
    st.matchesKey re s m.key = true) := by
    intro s hs
    rw [Pending, hw.inUse, hbits, updatedSubs, if_pos hs.1, hkey.2.1]
    exact and_iff_right hkey.1
  constructor
  · intro h s hs
    exact (hpend s hs).mp (h d (hw.isKey.mpr hkey) s hs)
  intro h d' hd' s hs
  rw [hinv.isKey_unique hkey (hw.isKey.mp hd')]
  exact (hpend s hs).mpr (h s hs)

lemma setFields_keeps_pending (hinv : Inv re st) (hp : st.Pending s d') :
    (st.setFields re m d).Pending s d' := by
  have hw := setFields_wrote re m st d
  by_cases hd : d' = d
  · subst hd
    rw [Pending, hw.inUse]
    refine ⟨hp.1, ?_⟩
    by_cases hv : m.ValueOk
    · rw [(setFields_ok re st d' hv).2.2]
      exact updatedSubs_of_flagged hinv hp.2
    · rw [(setFields_bad re st d' hv).2.2]
      exact hp.2
  · exact hw.pending_other hd hp

lemma value_withStr {a : Nat → UInt8} (h : x.type = dsTypeStr) :
    (x.withStr a).value = .str (cstr a) := if_pos h

lemma setFields_contents_iff (hkey : st.IsKey d m.key m.type) (hm : m.KeyOk) (hv : ¬ m.ValueOk) :
    (st.setFields re m d).contents = st.contents ↔
      (m.LenOk → cstr (overlay m.copied m.valBytes (st.item d).valStr) =
        cstr (st.item d).valStr) := by
  obtain ⟨-, hw, hitem⟩ := setFields_bad re st d hv
  have htype : (st.item d).type = dsTypeStr :=
    hkey.2.2.trans (hm.2.2.1.resolve_left fun h => hv (.inl h))
  have hvalue : (st.item d).value = .str (cstr (st.item d).valStr) := if_pos htype
  have hself : (st.setFields re m d).contents d = st.contents d ↔
      (m.LenOk → cstr (overlay m.copied m.valBytes (st.item d).valStr) =
        cstr (st.item d).valStr) := by
    rw [contents, contents, hw.inUse, hw.key, hw.type, if_pos hkey.1, if_pos hkey.1, hitem,
      value_withStr htype, hvalue]
    by_cases hlen : m.LenOk
    · simp [hlen]
    · simp [hlen]
  rw [← hself]
  refine ⟨fun h => congrFun h d, fun h => funext fun d' => ?_⟩
  by_cases hd : d' = d
  · rw [hd, h]
  · exact hw.contents_eq (by rw [hw.other d' hd])

lemma Slot.clean_iff {base : Store} (h : Slot m st d base) (hinv : Inv re st) (hm : m.KeyOk) :
    Clean re st (.publish m) ↔
    (m.ValueOk → ∀ s, st.Wants re s m.key → st.matchesKey re s m.key = true) ∧
    (¬ m.ValueOk → (base.setFields re m d).contents = st.contents) := by
  have hkey := h.isKey hinv hm
  cases h with
  | found hfind =>
    rw [Clean, hfind]
    refine ⟨fun h => ⟨(h hm).1, fun hv => (setFields_contents_iff hkey hm hv).mpr ((h hm).2 hv)⟩,
      fun h _ => ⟨h.1, fun hv => (setFields_contents_iff hkey hm hv).mp (h.2 hv)⟩⟩
  | fresh hfind hroom =>
    rw [Clean, hfind]
    refine ⟨fun h => ⟨fun _ => (h hm hroom).2, fun hv => absurd (h hm hroom).1 hv⟩, fun h _ _ => ?_⟩
    by_cases hv : m.ValueOk
    · exact ⟨hv, h.1 hv⟩
    -- the key has come into the store without its value
    have hsame := congrFun (h.2 hv) ⟨st.nrInUse, hroom⟩
    have huse := (setFields_wrote re m (st.newSlot ⟨st.nrInUse, hroom⟩ m) ⟨st.nrInUse, hroom⟩).inUse
      ⟨st.nrInUse, hroom⟩
    rw [contents, contents, huse, if_pos hkey.1, newSlot_fresh hinv hroom] at hsame
    nomatch hsame

lemma publish_kept_iff {base : Store} (hinv : Inv re st) (hm : m.KeyOk) (h : Slot m st d base) :
    Kept re st (.publish m) (base.setFields re m d) ↔ Clean re st (.publish m) := by
  have hinv' := h.inv hinv hm
  have hpending : ∀ s d', st.Pending s d' →
    ¬ Delivers st (.publish m) (base.setFields re m d) s d' →
      (base.setFields re m d).Pending s d' :=
        fun s d' hp _ => setFields_keeps_pending hinv' (h.pending hinv hp)
  rw [h.clean_iff hinv hm]
  by_cases hv : m.ValueOk
  · have hcode := (setFields_ok re base d hv).2.1
    have hflags := setFields_flags_iff hinv' (h.isKey hinv hm) hv
    simp only [h.wants, h.matchesKey] at hflags
    constructor
    · intro hk
      exact ⟨fun _ => hflags.mp (hk.published m rfl hcode), fun hno => absurd hv hno⟩
    intro hclean
    refine ⟨fun _ _ hne => absurd hcode hne, fun m' hm' _ => ?_, hpending⟩
    obtain rfl := Call.publish.inj hm'
    exact hflags.mpr (hclean.1 hv)
  · have hcode := (setFields_bad re base d hv).1
    constructor
    · intro hk
      exact ⟨fun hv' => absurd hv' hv, fun _ => hk.refused m rfl hcode⟩
    · intro hclean
      exact ⟨fun _ _ _ => hclean.2 hv, fun _ _ hc => absurd hc hcode, hpending⟩

lemma strFrom_cases (x : Item) (behind : Str) : x.Ends ∧ x.strFrom behind = cstr x.valStr ∨
    ¬ x.Ends ∧ ∃ b l, b ≠ 0 ∧ x.strFrom behind = cstr x.valStr ++ b :: l := by
  unfold Item.strFrom Item.Ends cstr
  generalize (List.range dsMaxVallen.toNat).map x.valStr = a
  rw [List.takeWhile_append]
  by_cases hzero : 0 ∈ a
  · rw [if_neg]
    · exact .inl ⟨.inl hzero, rfl⟩
    · intro hlen
      rw [← (List.takeWhile_prefix _).eq_of_length hlen] at hzero
      simpa using List.mem_takeWhile_imp hzero
  · have hall : a.takeWhile (· ≠ 0) = a := by
      refine List.takeWhile_eq_self_iff.mpr fun b hb => decide_eq_true ?_
      rintro rfl
      exact hzero hb
    rw [hall, if_pos rfl, show List.range (nrDsSubs / 8) = 0 :: (List.range (nrDsSubs / 8)).tail
      from rfl, List.map_cons,
      List.cons_append, List.takeWhile_cons]
    by_cases hbyte : x.subByte 0 = 0
    · exact .inl ⟨.inr hbyte, by simp [hbyte]⟩
    · rw [if_pos (decide_eq_true hbyte)]
      exact .inr ⟨not_or.mpr ⟨hzero, hbyte⟩, x.subByte 0, _, hbyte, rfl⟩

lemma take_strFrom (x : Item) (behind : Str) (n : Int) :
    (x.strFrom behind ++ [0]).take n.toNat = cstr x.valStr ++ [0] ↔
    (cstr x.valStr).length < n ∧ x.Ends := by
  rcases strFrom_cases x behind with ⟨hends, heq⟩ | ⟨hno, b, l, hb, heq⟩
  · rw [heq, and_iff_left hends]
    simp
  refine iff_of_false (fun h => ?_) fun h => hno h.2
  have hpre := h ▸ List.take_prefix n.toNat (x.strFrom behind ++ [0])
  rw [heq, List.append_assoc, List.prefix_append_right_inj, List.cons_append,
    List.cons_prefix_cons] at hpre
  exact hb hpre.1.symm

variable {k : Check}

lemma delivers_iff (hinv : Inv re st)
    (hnext : st.nextFor k.source (k.flags &&& dsTypeMask) = some (s, d))
    (hreply : st'.reply = st.deliver k s d) : Delivers st (.check k) st' s d ↔
      k.keyCopy = 0 ∧ (st.item d).key.length < k.keyLen ∧
        (k.flags &&& dsTypeMask = dsTypeStr → k.valCopy = 0 ∧
          (cstr (st.item d).valStr).length < k.valLen ∧
          ((st.unflag s d).item d).Ends) := by
  obtain ⟨-, hown, hpend, htype⟩ := nextFor_some hnext
  simp only [Delivers, Call.check.injEq, exists_eq_left', hreply, deliver]
  by_cases hkey : k.keyCopy = 0
  swap
  · simp [hkey]
  rcases hinv.typed d hpend.1 with hu | hs
  · have hns : k.flags &&& dsTypeMask ≠ dsTypeStr := by
      rw [htype, hu]
      decide
    have hvalue : (st.item d).value = .u32 (st.item d).valU32 := if_neg (by rw [hu]; decide)
    simp [hkey, hns, hvalue, hown]
  · have hstr : k.flags &&& dsTypeMask = dsTypeStr := htype.trans hs
    have hvalue : (st.item d).value = .str (cstr (st.item d).valStr) := if_pos hs
    by_cases hval : k.valCopy = 0
    · have hsame : ((st.unflag s d).item d).valStr = (st.item d).valStr := by simp [unflag, setItem]
      simp [hkey, hstr, hval, hvalue, hown, ← hsame, take_strFrom]
    · simp [hkey, hstr, hval]

lemma check_kept_iff (hinv : Inv re st) (htype : k.flags &&& dsTypeMask ≠ 0)
    (hnext : st.nextFor k.source (k.flags &&& dsTypeMask) = some (s, d)) :
    Kept re st (.check k) { st.unflag s d with reply := st.deliver k s d } ↔
      Clean re st (.check k) := by
  have hclean : Clean re st (.check k) ↔
    Delivers st (.check k) { st.unflag s d with reply := st.deliver k s d } s d := by
    rw [delivers_iff hinv hnext rfl]
    constructor
    · intro h
      exact h s d htype hnext
    intro h s' d' _ hnext'
    obtain ⟨rfl, rfl⟩ := Prod.mk.inj (Option.some.inj (hnext.symm.trans hnext'))
    exact h
  rw [hclean]
  constructor
  · intro h
    by_contra hnot
    have hp := h.pending s d (nextFor_some hnext).2.2.1 hnot
    exact (unflag_bit.mp hp.2).1 rfl
  intro h
  refine ⟨nofun, nofun, fun s' d' hp hnot => ?_⟩
  have hgoal : (st.unflag s d).Pending s' d' := by
    by_cases hd : d' = d
    · subst hd
      have hs : s' ≠ s := fun hs => hnot (hs ▸ h)
      exact ⟨(unflag_wrote.inUse d').trans hp.1, unflag_bit.mpr ⟨hs, hp.2⟩⟩
    · exact unflag_wrote.pending_other hd hp
  exact hgoal

lemma Turn.kept_iff (h : Turn re st c st') (hinv : Inv re st) :
    Kept re st c st' ↔ Clean re st c := by
  cases h with
  | idle hitem hsub hnr hfound hcode hclean =>
    refine iff_of_true ⟨fun _ _ _ => ?_, fun m hm h => absurd h (hcode m hm),
      fun s d hp _ => ?_⟩ hclean
    · funext d
      rw [contents, hitem, contents]
    · rw [Pending, hitem]
      exact hp
  | publish hm hslot => exact publish_kept_iff hinv hm hslot
  | check htype hnext => exact check_kept_iff hinv htype hnext
  | subscribe hfree hjoin =>
    refine iff_of_true ⟨nofun, nofun, fun s d hp _ => ?_⟩ trivial
    exact ⟨(hjoin.toHeads.inUse d).trans hp.1, hjoin.kept hp.2⟩

end Kept

section Changes

lemma Slot.publishes {base : Store} (h : Slot m st d base) (hinv : Inv re st) (hm : m.KeyOk)
    (hcode : (base.setFields re m d).reply.code = 0) :
    Publishes st (.publish m) (base.setFields re m d) m d := by
  have hkey := h.isKey hinv hm
  by_cases hv : m.ValueOk
  · refine ⟨rfl, hcode, (setFields_wrote re m base d).isKey.mpr hkey, ?_⟩
    rw [setFields_value hm hkey hv, h.same.2]
  · exact absurd hcode (setFields_bad re base d hv).1

lemma Slot.unchanged {base : Store} (h : Slot m st d base) :
    (d' ≠ d → (base.setFields re m d).item d' = st.item d') ∧
    ((base.setFields re m d).reply.code ≠ 0 →
      ((base.setFields re m d).item d').oldSubs = (st.item d').oldSubs) := by
  have hother : d' ≠ d → (base.setFields re m d).item d' = st.item d' :=
    fun hd => ((setFields_wrote re m base d).other d' hd).trans (h.other hd)
  refine ⟨hother, fun hcode => ?_⟩
  by_cases hd : d' = d
  · subst hd
    have hv : ¬ m.ValueOk := fun hv => hcode (setFields_ok re base d' hv).2.1
    rw [(setFields_bad re base d' hv).2.2]
    exact h.same.1
  · rw [hother hd]

lemma Turn.contents_cases (h : Turn re st c st') (d : Fin nrDsKeys) :
    st'.contents d = st.contents d ∨
    ∃ m base, c = .publish m ∧ m.KeyOk ∧ Slot m st d base ∧ st' = base.setFields re m d := by
  cases h with
  | idle hitem => exact .inl (by rw [contents, hitem, contents])
  | @publish m d' base hm hslot =>
    by_cases hd : d = d'
    · exact .inr ⟨m, base, rfl, hm, hd ▸ hslot, hd ▸ rfl⟩
    · exact .inl (by rw [contents, hslot.unchanged.1 hd, contents])
  | @check k s d' =>
    refine .inl ((unflag_wrote.answer _).contents_eq ?_)
    by_cases hd : d = d'
    · rw [hd, unflag, setItem_self]
      rfl
    · rw [(unflag_wrote.answer _).other d hd]
  | subscribe hfree hjoin => exact .inl (hjoin.contents_eq (hjoin.value d))

/-- Nothing but a successful publication changes a key or a value, when publications that fail
change none. -/
theorem Turn.contents_changes (h : Turn re st c st') (hinv : Inv re st) (hkept : Kept re st c st')
    (hne : st'.contents d ≠ st.contents d) : ∃ m, Publishes st c st' m d := by
  obtain ⟨m, base, rfl, hm, hslot, rfl⟩ := (h.contents_cases d).resolve_left hne
  by_cases hcode : (base.setFields re m d).reply.code = 0
  · exact ⟨m, hslot.publishes hinv hm hcode⟩
  · exact absurd (congrFun (hkept.refused m rfl hcode) d) hne

lemma contents_eq_some {key : Str} {type : Flags} {v : Value} :
    st.contents d = some (key, type, v) ↔ st.IsKey d key type ∧ (st.item d).value = v := by
  rw [contents, IsKey]
  split <;> simp_all [and_assoc]

lemma Turn.number_kept {key : Str} {v : Value} (h : Turn re st c st') (hinv : Inv re st)
    (hd : st.contents d = some (key, dsTypeU32, v))
    (hother : ∀ m, c = .publish m → m.key = key → m.type = dsTypeU32 → st'.reply.code ≠ 0) :
    st'.contents d = some (key, dsTypeU32, v) := by
  rcases h.contents_cases d with hsame | ⟨m, base, rfl, hm, hslot, rfl⟩
  · exact hsame.trans hd
  obtain ⟨⟨huse, hkey, htype⟩, -⟩ := contents_eq_some.mp hd
  cases hslot with
  | found hfind =>
    obtain ⟨-, hk, ht⟩ := findKey_some hinv hm.2.2.1 hfind
    -- a number that gets as far as its item is stored
    have hu := ht.symm.trans htype
    exact absurd (setFields_ok re st d (.inl hu)).2.1 (hother m rfl (hk.symm.trans hkey) hu)
  | fresh hfind hroom => cases (newSlot_fresh hinv hroom).symm.trans huse

lemma Turn.unflags (h : Turn re st c st') (hdel : Delivers st c st' s d) :
    (st.sub s).inUse = true ∧ st.Pending s d ∧ ¬ st'.Pending s d := by
  obtain ⟨k, rfl, -, -, hfound, -⟩ := hdel
  cases h with
  | idle _ _ _ hnone => nomatch hnone.symm.trans hfound
  | @check _ s' d' htype hnext =>
    have hpick : (st.deliver k s' d').found = some (s', d') := by
      rw [deliver]
      repeat' split
      all_goals rfl
    obtain ⟨rfl, rfl⟩ := Prod.mk.inj (Option.some.inj (hpick.symm.trans hfound))
    obtain ⟨huse, -, hpend, -⟩ := nextFor_some hnext
    exact ⟨huse, hpend, fun hp => (unflag_bit.mp hp.2).1 rfl⟩

lemma Turn.sub_inUse (h : Turn re st c st') (huse : (st.sub s).inUse = true) :
    (st'.sub s).inUse = true := by
  cases h with
  | idle _ hsub => exact hsub ▸ huse
  | publish hm hslot =>
    rw [(setFields_wrote re _ _ _).sub, hslot.sub]
    exact huse
  | check => exact huse
  | @subscribe r s' _ hfree hjoin =>
    by_cases hs : s = s'
    · exact hs ▸ hjoin.live
    · exact hjoin.other s hs ▸ huse

lemma Turn.publishes_of_flag (h : Turn re st c st') (hinv : Inv re st)
    (huse : (st.sub s).inUse = true)
    (hno : ¬ st.Pending s d) (hp : st'.Pending s d) : ∃ m, Publishes st c st' m d := by
  have hbit : (st.item d).oldSubs s ≠ true := fun hb => hno ⟨(hinv.flagged hb).1, hb⟩
  cases h with
  | idle hitem =>
    rw [Pending, hitem] at hp
    exact absurd hp hno
  | @publish m d' base hm hslot =>
    by_cases hcode : (base.setFields re m d').reply.code = 0
    · have hd : d = d' := by
        by_contra hd
        rw [Pending, hslot.unchanged.1 hd] at hp
        exact hno hp
      exact ⟨m, hd ▸ hslot.publishes hinv hm hcode⟩
    · exact absurd (hslot.unchanged.2 hcode ▸ hp.2) hbit
  | check => exact absurd (unflag_of hp.2) hbit
  | @subscribe r s' _ hfree hjoin =>
    rcases hjoin.added hp.2 with hold | ⟨rfl, -⟩
    · exact absurd hold hbit
    · nomatch huse.symm.trans hfree

end Changes

lemma inv_dsInit (re : Regexps) : Inv re dsInit := by
  have hnone : ∀ d, (dsInit.item d).inUse ≠ true := fun d => by decide +revert
  refine ⟨fun d => ?_, fun d h => absurd h (hnone d), nofun, fun h => absurd h (hnone _)⟩
  exact ⟨fun h => absurd h (hnone d), fun h => absurd h (Nat.not_lt_zero _)⟩

/-! ## Runs -/

section Runs
variable {n : Nat} (tr : Trace (step re) n)

def PublishesAt (i : Nat) (m : Publish) (d : Fin nrDsKeys) : Prop :=
  Publishes (tr.state i) (tr.act i) (tr.state (i + 1)) m d

def DeliversAt (i : Nat) (s : Fin nrDsSubs) (d : Fin nrDsKeys) : Prop :=
  Delivers (tr.state i) (tr.act i) (tr.state (i + 1)) s d

variable {tr}

lemma inv_state (h0 : tr.state 0 = dsInit) : ∀ i ≤ n, Inv re (tr.state i) :=
  tr.invariant (Inv re) (h0 ▸ inv_dsInit re) fun hinv hs => (step_turn hs).inv hinv

variable {i : Nat}

lemma publishes_between (h0 : tr.state 0 = dsInit) {k : Nat} (hik : i < k) (hk : k < n)
    (hi : DeliversAt tr i s d) (hd : DeliversAt tr k s d) :
    ∃ j m, i < j ∧ j < k ∧ PublishesAt tr j m d := by
  obtain ⟨huse, -, hgone⟩ := (step_turn (tr.ok i (by omega))).unflags hi
  by_contra hnone
  -- without a publication the flag stays away
  have hstay : ∀ j, i < j → j ≤ k → ((tr.state j).sub s).inUse = true ∧
    ¬ (tr.state j).Pending s d := by
    intro j hij
    induction j, hij using Nat.le_induction with
    | base => exact fun _ => ⟨(step_turn (tr.ok i (by omega))).sub_inUse huse, hgone⟩
    | succ j hij ih =>
      intro hjk
      obtain ⟨huse, hno⟩ := ih (by omega)
      have hok := tr.ok j (by omega)
      refine ⟨(step_turn hok).sub_inUse huse, fun hp => hnone ?_⟩
      obtain ⟨m, hm⟩ := (step_turn hok).publishes_of_flag (inv_state h0 j (by omega)) huse hno hp
      exact ⟨j, m, hij, by omega, hm⟩
  exact (hstay k hik (by omega)).2 ((step_turn (tr.ok k hk)).unflags hd).2.1

lemma pending_until
    (hkeep : ∀ i < n, ∀ s d, (tr.state i).Pending s d →
      (tr.state (i + 1)).Pending s d ∨ DeliversAt tr i s d)
    (hp : (tr.state (i + 1)).Pending s d) :
    ∀ j, i < j → j ≤ n → (∀ k, i < k → k < j → ¬ DeliversAt tr k s d) →
      (tr.state j).Pending s d := by
  intro j hij
  induction j, hij using Nat.le_induction with
  | base => exact fun _ _ => hp
  | succ j hij ih =>
    intro hj hno
    have hpj := ih (by omega) fun k hik hkj => hno k hik (by omega)
    exact (hkeep j (by omega) s d hpj).resolve_right (hno j hij (by omega))

end Runs

/-- In a run from the start, every key and value survives a publication that fails, what is
published stays pending for those who want it until they have it, and only by being delivered, once,
exactly when all steps are clean: no copy fails after the tables have been changed for it, no buffer
of a client is too short, and no expression has lost its end. -/
theorem updates_kept_iff (re : Regexps) {n : Nat} (tr : Trace (step re) n)
    (h0 : tr.state 0 = dsInit) :
    ((∀ i < n, ∀ m, tr.act i = .publish m → (tr.state (i + 1)).reply.code ≠ 0 →
        (tr.state (i + 1)).contents = (tr.state i).contents) ∧
      (∀ i < n, ∀ d, (tr.state (i + 1)).contents d ≠ (tr.state i).contents d →
        ∃ m, PublishesAt tr i m d) ∧
      (∀ i < n, ∀ m d s, PublishesAt tr i m d → (tr.state i).Wants re s m.key →
        ∀ j, i < j → j ≤ n → (∀ k, i < k → k < j → ¬ DeliversAt tr k s d) →
          (tr.state j).Pending s d) ∧
      (∀ i < n, ∀ s d, (tr.state i).Pending s d → (tr.state (i + 1)).Pending s d ∨
        DeliversAt tr i s d) ∧
      (∀ i k s d, i < k → k < n → DeliversAt tr i s d → DeliversAt tr k s d →
        ∃ j m, i < j ∧ j < k ∧ PublishesAt tr j m d)) ↔ ∀ i < n,
          Clean re (tr.state i) (tr.act i) := by
  constructor
  · rintro ⟨hrefused, -, hpub, hkeep, -⟩ i hi
    have hinv := inv_state h0 i hi.le
    refine ((step_turn (tr.ok i hi)).kept_iff hinv).mp ⟨hrefused i hi, fun m hm hcode d hd s hs =>
      ?_, fun s d hp hno => ?_⟩
    · have hpubs : PublishesAt tr i m d := by
        have hturn := step_turn (tr.ok i hi)
        have hinv' := inv_state h0 (i + 1) hi
        rw [PublishesAt]
        generalize tr.state (i + 1) = st' at hturn hinv' hcode hd
        rw [hm] at hturn ⊢
        cases hturn with
        | idle _ _ _ _ hne => exact absurd hcode (hne m rfl)
        | publish hkey hslot =>
          have hpub := hslot.publishes hinv hkey hcode
          exact hinv'.isKey_unique hpub.2.2.1 hd ▸ hpub
      exact hpub i hi m d s hpubs hs (i + 1) (Nat.lt_succ_self i) hi fun k hik hki => by omega
    · exact (hkeep i hi s d hp).resolve_right hno
  · intro hclean
    have hkept : ∀ i (hi : i < n), Kept re (tr.state i) (tr.act i) (tr.state (i + 1)) :=
      fun i hi => ((step_turn (tr.ok i hi)).kept_iff (inv_state h0 i hi.le)).mpr (hclean i hi)
    have hkeep : ∀ i < n, ∀ s d, (tr.state i).Pending s d → (tr.state (i + 1)).Pending s d ∨
      DeliversAt tr i s d :=
      fun i hi s d hp => or_iff_not_imp_right.mpr fun hno => (hkept i hi).pending s d hp hno
    refine ⟨fun i hi => (hkept i hi).refused, fun i hi d hne => ?_,
      fun i hi m d s hpub hs => ?_, hkeep,
      fun i k s d hik hk hi hd => publishes_between h0 hik hk hi hd⟩
    · exact (step_turn (tr.ok i hi)).contents_changes (inv_state h0 i hi.le) (hkept i hi) hne
    · exact pending_until hkeep ((hkept i hi).published m hpub.1 hpub.2.1 d hpub.2.2.1 s hs)

instance : NeZero nrDsKeys := ⟨by decide⟩

instance : NeZero nrDsSubs := ⟨by decide⟩

def literal : Regexps where
  regcomp _ := 0
  regexec text key := text = anchoredWhole key

/-- Client 5 subscribes to the key `a`, client 6 publishes it, and client 5 looks for news. -/
def news (keyCopy : Int) : Nat → Call
  | 0 => .subscribe ⟨5, dsTypeU32, 2, [97], 0⟩
  | 1 => .publish ⟨6, dsTypeU32, 2, [97], 0, 7, 0, fun _ => 0, 0, 0⟩
  | 2 => .check ⟨5, dsTypeU32, 80, keyCopy, 0, 0, []⟩
  | _ => .publish ⟨6, dsTypeStr, 2, [98], 0, 0, 0, fun _ => 0, 0, 0⟩

theorem news_delivered : ∃ tr : Trace (step literal) 3, tr.state 0 = dsInit ∧ tr.act = news 0 ∧
    (tr.state 2).Pending 0 0 ∧ DeliversAt tr 2 0 0 := by
  let tr := Trace.run (step literal) dsInit (news 0) 3 (by decide +kernel)
  have hpend : (tr.state 2).Pending 0 0 := by decide +kernel
  have hgone : ¬ (tr.state 3).Pending 0 0 := by decide +kernel
  have hclean : ∀ i < 3, Clean literal (tr.state i) (tr.act i) := by
    intro i hi
    match i, hi with
    | 0, _ => exact trivial
    | 1, _ =>
      intro _
      have hfind : (tr.state 1).findKey [97] dsTypeU32 = none := by decide +kernel
      have hmatch : ∀ s, ((tr.state 1).sub s).inUse = true ∧
          literal.regexec (anchoredWhole ((tr.state 1).sub s).asked) [97] = true →
          (tr.state 1).matchesKey literal s [97] = true := by decide +kernel
      simp only [Publish.type]
      rw [show dsTypeU32 &&& dsTypeMask = dsTypeU32 from rfl, hfind]
      exact fun _ => ⟨.inl rfl, hmatch⟩
    | 2, _ =>
      intro s d _ hnext
      have hfirst : (tr.state 2).nextFor 5 (dsTypeU32 &&& dsTypeMask) = some (0, 0) := by
        decide +kernel
      obtain ⟨rfl, rfl⟩ := Prod.mk.inj (Option.some.inj (hfirst.symm.trans hnext))
      exact ⟨rfl, by decide +kernel, nofun⟩
  have h := (updates_kept_iff literal tr rfl).mpr hclean
  exact ⟨tr, rfl, rfl, hpend, (h.2.2.2.1 2 (by decide) 0 0 hpend).resolve_left hgone⟩

/-- The copy of the key to client 5 fails, and it never hears of the update. Then client 6 publishes
a string of length 0 under a new key, is refused, and the key is there. -/
theorem news_lost : ∃ tr : Trace (step literal) 4, tr.state 0 = dsInit ∧ tr.act = news (-14) ∧
    ((tr.state 2).Pending 0 0 ∧ (tr.state 3).reply.code = -14 ∧ ¬ DeliversAt tr 2 0 0 ∧
      ¬ (tr.state 3).Pending 0 0) ∧
    ((tr.state 4).reply.code = -einval ∧ (tr.state 4).contents ≠ (tr.state 3).contents) := by
  let tr := Trace.run (step literal) dsInit (news (-14)) 4 (by decide +kernel)
  have hcode : (tr.state 3).reply.code = -14 := by decide +kernel
  refine ⟨tr, rfl, rfl, ⟨by decide +kernel, hcode, ?_, by decide +kernel⟩, by decide +kernel,
    fun h => ?_⟩
  · rintro ⟨k, -, -, hzero, -⟩
    rw [hcode] at hzero
    exact absurd hzero (by decide)
  · have hitem := congrFun h 1
    revert hitem
    decide +kernel

/-- A number is retrieved as it was published last, whatever happens to other keys and to strings in
the meantime. -/
theorem retrieve_published {n i j : Nat} (tr : Trace (step re) n) (h0 : tr.state 0 = dsInit)
    (hij : i < j) (hj : j < n)
    {m : Publish} (hm : tr.act i = .publish m) (hcode : (tr.state (i + 1)).reply.code = 0)
    (htype : m.type = dsTypeU32)
    (hlast : ∀ k, i < k → k < j → ∀ m', tr.act k = .publish m' → m'.key = m.key →
      m'.type = dsTypeU32 →
      (tr.state (k + 1)).reply.code ≠ 0)
    {r : Retrieve} (hr : tr.act j = .retrieve r) (hkey : r.key = m.key)
    (hflags : r.flags &&& dsTypeMask = dsTypeU32)
    (hlen : 1 ≤ r.keyLen ∧ r.keyLen ≤ dsMaxKeylen) (hcopy : r.keyCopy = 0) :
    (tr.state (j + 1)).reply.code = 0 ∧ (tr.state (j + 1)).reply.val = m.val := by
  obtain ⟨d, hd⟩ : ∃ d, (tr.state (i + 1)).contents d = some (m.key, dsTypeU32, .u32 m.val) := by
    have hturn := step_turn (tr.ok i (hij.trans hj))
    generalize tr.state (i + 1) = st' at hturn hcode
    rw [hm] at hturn
    cases hturn with
    | idle _ _ _ _ hne => exact absurd hcode (hne m rfl)
    | @publish _ d _ hok hslot =>
      obtain ⟨-, -, hd, hvalue⟩ := hslot.publishes (inv_state h0 i (by omega)) hok hcode
      refine ⟨d, contents_eq_some.mpr ⟨htype ▸ hd, hvalue.trans ?_⟩⟩
      rw [Publish.value, htype, if_neg (by decide)]
  have hkept : ∀ k, i < k → k ≤ j →
    (tr.state k).contents d = some (m.key, dsTypeU32, .u32 m.val) := by
    intro k hik
    induction k, hik using Nat.le_induction with
    | base => exact fun _ => hd
    | succ k hik ih =>
      intro hk
      exact (step_turn (tr.ok k (by omega))).number_kept (inv_state h0 k (by omega)) (ih (by omega))
        (hlast k hik hk)
  have hinv := inv_state h0 j hj.le
  obtain ⟨hd, hvalue⟩ := contents_eq_some.mp (hkept j hij le_rfl)
  have hstep := tr.ok j hj
  rw [hr, step, doRetrieve, if_neg (by omega), if_neg (not_not.mpr hcopy)] at hstep
  cases hfind : (tr.state j).findKey m.key dsTypeU32 with
  | none => exact absurd hd (findKey_none hinv (.inl rfl) hfind)
  | some d' =>
    obtain rfl := hinv.isKey_unique hd (findKey_some hinv (.inl rfl) hfind)
    simp only [hflags, hkey, hfind, if_true] at hstep
    rw [← Except.ok.inj hstep]
    rw [Item.value, hd.2.2, if_neg (by decide)] at hvalue
    exact ⟨rfl, Value.u32.inj hvalue⟩

/-- A request to retrieve makes the server panic just if it names no type and there is an item with
the key. -/
theorem retrieve_panics_iff {n k : Nat} (tr : Trace (step re) n) (h0 : tr.state 0 = dsInit)
    (hk : k ≤ n) (r : Retrieve) :
    (tr.state k).doRetrieve r = .error .panic ↔ (1 ≤ r.keyLen ∧ r.keyLen ≤ dsMaxKeylen) ∧
      r.keyCopy = 0 ∧
      r.flags &&& dsTypeMask = 0 ∧ ∃ d, ((tr.state k).item d).inUse = true ∧
        ((tr.state k).item d).key = r.key := by
  have hinv := inv_state h0 k hk
  generalize tr.state k = st at hinv ⊢
  constructor
  · intro h
    unfold doRetrieve at h
    split at h
    · cases h
    next hlen =>
    split at h
    · cases h
    next hcopy =>
    cases hfind : st.findKey r.key (r.flags &&& dsTypeMask) with
    | none => simp [hfind] at h
    | some d =>
      have hd := List.find?_some hfind
      simp only [Bool.and_eq_true, beq_iff_eq] at hd
      refine ⟨by omega, not_not.mp hcopy, ?_, d, hd.1.1, hd.2⟩
      simp only [hfind] at h
      split_ifs at h with hu hs
      have hand : (st.item d).type &&& (r.flags &&& dsTypeMask) = r.flags &&& dsTypeMask := by
        rw [Item.type, BitVec.and_comm r.flags, BitVec.and_assoc, ← BitVec.and_assoc dsTypeMask,
          BitVec.and_self,
          BitVec.and_comm dsTypeMask, hd.1.2]
      rcases hinv.typed d hd.1.1 with ht | ht
      · exact (eq_zero_of_and 8 (by decide) (ht ▸ hand)).resolve_left hu
      · exact (eq_zero_of_and 9 (by decide) (ht ▸ hand)).resolve_left hs
  · rintro ⟨hlen, hcopy, hflags, d, huse, hkey⟩
    rw [doRetrieve, if_neg (by omega), if_neg (not_not.mpr hcopy)]
    cases hfind : st.findKey r.key (r.flags &&& dsTypeMask) with
    | none => simpa [hflags, huse, hkey] using List.find?_eq_none.mp hfind d (List.mem_finRange d)
    | some d' =>
      simp only [hfind]
      rw [hflags, if_neg (by decide), if_neg (by decide)]

/-- Client 6 publishes a number under the key `a`, client 5 subscribes to `b` and hears of it, and
asks for `a`. -/
def readBack (type : Flags) : Nat → Call
  | 0 => .publish ⟨6, dsTypeU32, 2, [97], 0, 7, 0, fun _ => 0, 0, 0⟩
  | 1 => .subscribe ⟨5, dsTypeU32, 2, [98], 0⟩
  | 2 => .publish ⟨6, dsTypeU32, 2, [98], 0, 9, 0, fun _ => 0, 0, 0⟩
  | 3 => .check ⟨5, dsTypeU32, 80, 0, 0, 0, []⟩
  | _ => .retrieve ⟨5, type, 2, [97], 0, 0, 0, []⟩

theorem retrieve_published_number : ∃ tr : Trace (step literal) 5, tr.act = readBack dsTypeU32 ∧
    (tr.state 4).reply.val = 9 ∧ (tr.state 5).reply.val = 7 := by
  let tr := Trace.run (step literal) dsInit (readBack dsTypeU32) 5 (by decide +kernel)
  have hcode : (tr.state 1).reply.code = 0 := by decide +kernel
  refine ⟨tr, rfl, by decide +kernel, ?_⟩
  refine (retrieve_published (i := 0) (j := 4) tr rfl (by decide) (by decide) rfl hcode rfl
    (fun k hk hk' m' hm' hkey => ?_) rfl rfl rfl
    (by decide) rfl).2
  obtain rfl | rfl | rfl : k = 1 ∨ k = 2 ∨ k = 3 := by omega
  · cases hm'
  · obtain rfl := Call.publish.inj hm'
    exact absurd hkey (by decide)
  · cases hm'

theorem retrieve_panics_without_type : ∃ tr : Trace (step literal) 4, tr.state 0 = dsInit ∧
    (tr.state 4).step literal (readBack 0 4) = .error .panic := by
  let tr := Trace.run (step literal) dsInit (readBack 0) 4 (by decide +kernel)
  have hkey : ((tr.state 4).item 0).inUse = true ∧ ((tr.state 4).item 0).key = [97] := by
    decide +kernel
  exact ⟨tr, rfl, (retrieve_panics_iff tr rfl le_rfl _).mpr ⟨by decide, rfl, rfl, 0, hkey⟩⟩

end Store
end Nucleos.Ds
