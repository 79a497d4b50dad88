import Nucleos.Lib.Run

/-!
# The data store

Clients publish values under keys and subscribe to the keys that a regular expression matches. An
item has a bit for every subscription, set while the subscriber has not fetched the item since its
last update; `do_check` fetches one such item. Every handler copies from or to its client, and a
copy may fail. -/

namespace Nucleos.Ds

open Function

abbrev Str := List UInt8

abbrev Flags := BitVec 32

def nrDsKeys : Nat := 64
/-- `4*NR_SYS_PROCS`. -/
def nrDsSubs : Nat := 128

def dsInUse : Flags := 0x0001
def dsInitial : Flags := 0x0004
def dsTypeU32 : Flags := 0x0100
def dsTypeStr : Flags := 0x0200
def dsTypeMask : Flags := 0xff00

def dsMaxKeylen : Int := 80
def dsMaxVallen : Int := 100

def esrch : Int := 3
def eagain : Int := 11
def einval : Int := 22
def enospc : Int := 28

inductive Stop where
  | panic
deriving DecidableEq, Repr

/-- The library of regular expressions: `regcomp` of a text, and `regexec` of it on a string. -/
structure Regexps where
  regcomp : Str → Int
  regexec : Str → Str → Bool

/-- `struct data_store`. An item has one type for ever, so the parts of `ds_val` are kept apart. -/
structure Item where
  flags : Flags
  key : Str
  valU32 : UInt32
  valStr : Nat → UInt8
  oldSubs : Fin nrDsSubs → Bool

/-- `struct subscription`; `asked` is the expression that the client passed. -/
structure Subscription where
  flags : Flags
  regex : Str
  owner : Int
  asked : Str

/-- What the client of the last call gets: the result, the bytes copied to its buffers for the key
and for a string, `DS_VAL` of the message, and the clients notified. `found` is what `do_check` has
picked. -/
structure Reply where
  code : Int
  key : List UInt8 := []
  val : UInt32 := 0
  str : List UInt8 := []
  notified : List Int := []
  found : Option (Fin nrDsSubs × Fin nrDsKeys) := none

structure Store where
  item : Fin nrDsKeys → Item
  sub : Fin nrDsSubs → Subscription
  nrInUse : Nat
  reply : Reply

/-- A request to publish, with the outcome of the copies: the results, and how many bytes of the
value a failed copy has moved. -/
structure Publish where
  source : Int
  flags : Flags
  keyLen : Int
  key : Str
  keyCopy : Int
  val : UInt32
  valLen : Int
  valBytes : Nat → UInt8
  valCopy : Int
  moved : Nat

structure Subscribe where
  source : Int
  flags : Flags
  keyLen : Int
  key : Str
  keyCopy : Int

/-- `behind` is what the memory behind the item holds that is found. -/
structure Check where
  source : Int
  flags : Flags
  keyLen : Int
  keyCopy : Int
  valLen : Int
  valCopy : Int
  behind : Str

structure Retrieve where
  source : Int
  flags : Flags
  keyLen : Int
  key : Str
  keyCopy : Int
  valLen : Int
  valCopy : Int
  behind : Str

inductive Call where
  | publish (m : Publish)
  | retrieve (m : Retrieve)
  | check (m : Check)
  | subscribe (m : Subscribe)

def Item.inUse (x : Item) : Bool := x.flags &&& dsInUse ≠ 0

def Item.type (x : Item) : Flags := x.flags &&& dsTypeMask

def Subscription.inUse (x : Subscription) : Bool := x.flags &&& dsInUse ≠ 0

def cstr (a : Nat → UInt8) : Str := ((List.range dsMaxVallen.toNat).map a).takeWhile (· ≠ 0)

/-- A byte of `ds_old_subs`. -/
def Item.subByte (x : Item) (i : Nat) : UInt8 :=
  UInt8.ofNat (((List.finRange nrDsSubs).filter fun s => s.val / 8 = i ∧ x.oldSubs s).map fun s =>
    2 ^ (s.val % 8)).sum

/-- What `strlen` takes for the string: without a terminator it goes on in `ds_old_subs` and behind
the item. -/
def Item.strFrom (x : Item) (behind : Str) : Str :=
  ((List.range dsMaxVallen.toNat).map x.valStr ++ ((List.range (nrDsSubs / 8)).map x.subByte ++
    behind)).takeWhile (· ≠ 0)

/-- An array after its first `n` bytes have been copied from another. -/
def overlay (n : Nat) (src dst : Nat → UInt8) : Nat → UInt8 :=
  fun i => if i < n then src i else dst i

def Publish.type (m : Publish) : Flags := m.flags &&& dsTypeMask

def Publish.copied (m : Publish) : Nat :=
  if m.valCopy = 0 then m.valLen.toNat else min m.moved m.valLen.toNat

namespace Store
variable (re : Regexps)

def answer (code : Int) (st : Store) : Store := { st with reply := { code } }

def setItem (d : Fin nrDsKeys) (x : Item) (st : Store) : Store :=
  { st with item := update st.item d x }

def findKey (keyName : Str) (type : Flags) (st : Store) : Option (Fin nrDsKeys) :=
  (List.finRange nrDsKeys).find? fun d =>
    (st.item d).inUse && ((st.item d).flags &&& type == type) && ((st.item d).key == keyName)

/-- The subscription is in use and its compiled expression takes the key. -/
def matchesKey (s : Fin nrDsSubs) (key : Str) (st : Store) : Bool :=
  (st.sub s).inUse && re.regexec (st.sub s).regex key

def updatedSubs (d : Fin nrDsKeys) (st : Store) (s : Fin nrDsSubs) : Bool :=
  if (st.sub s).inUse then st.matchesKey re s (st.item d).key else (st.item d).oldSubs s

def checkSubscribers (d : Fin nrDsKeys) (st : Store) : Store :=
  let x := st.item d
  let st' := st.setItem d { x with oldSubs := st.updatedSubs re d }
  { st' with reply :=
    { code := 0, notified := ((List.finRange nrDsSubs).filter
      (st.matchesKey re · x.key)).map (st.sub · |>.owner) } }

def newSlot (d : Fin nrDsKeys) (m : Publish) (st : Store) : Store :=
  { st.setItem d { st.item d with key := m.key, flags := dsInUse ||| m.flags } with
    nrInUse := st.nrInUse + 1 }

def setFields (m : Publish) (d : Fin nrDsKeys) (st : Store) : Store :=
  if m.type = dsTypeU32 then (st.setItem d { st.item d with valU32 := m.val }).checkSubscribers re d
  else if m.valLen < 1 ∨ m.valLen > dsMaxVallen then st.answer (-einval)
  else
    let st := st.setItem d { st.item d with
      valStr := overlay m.copied m.valBytes (st.item d).valStr }
    if m.valCopy ≠ 0 then st.answer m.valCopy else st.checkSubscribers re d

def doPublish (m : Publish) (st : Store) : Store :=
  if m.keyLen > dsMaxKeylen ∨ m.keyLen < 2 then st.answer (-einval)
  else if m.type ≠ dsTypeU32 ∧ m.type ≠ dsTypeStr then st.answer (-einval)
  else if m.keyCopy ≠ 0 then st.answer m.keyCopy
  else
    match st.findKey m.key m.type with
    | some d => st.setFields re m d
    | none =>
      if h : st.nrInUse < nrDsKeys
        then (st.newSlot ⟨st.nrInUse, h⟩ m).setFields re m ⟨st.nrInUse, h⟩
      else st.answer (-eagain)

def doRetrieve (m : Retrieve) (st : Store) : Except Stop Store :=
  if m.keyLen > dsMaxKeylen ∨ m.keyLen < 1 then .ok (st.answer (-einval))
  else if m.keyCopy ≠ 0 then .ok (st.answer m.keyCopy)
  else
    let type := m.flags &&& dsTypeMask
    match st.findKey m.key type with
    | none => .ok (st.answer (-esrch))
    | some d =>
      if type = dsTypeU32 then .ok { st with reply := { code := 0, val := (st.item d).valU32 } }
      else if type = dsTypeStr then
        if m.valCopy ≠ 0 then .ok (st.answer m.valCopy)
        -- the lengths are compared as `size_t`
        else .ok { st with reply :=
          { code := 0
            str := ((st.item d).strFrom m.behind ++ [0]).take (m.valLen % 2 ^ 32).toNat } }
      else .error .panic

def nextFor (source : Int) (type : Flags) (st : Store) : Option (Fin nrDsSubs × Fin nrDsKeys) :=
  (List.finRange nrDsSubs).findSome? fun s =>
    if (st.sub s).inUse ∧ source = (st.sub s).owner then
      ((List.finRange nrDsKeys).find? fun d =>
        (st.item d).inUse && (st.item d).oldSubs s && (type == (st.item d).type)).map (s, ·)
    else none

def unflag (s : Fin nrDsSubs) (d : Fin nrDsKeys) (st : Store) : Store :=
  st.setItem d { st.item d with oldSubs := update (st.item d).oldSubs s false }

def deliver (m : Check) (s : Fin nrDsSubs) (d : Fin nrDsKeys) (st : Store) : Reply :=
  let found := some (s, d)
  if m.keyCopy ≠ 0 then { code := m.keyCopy, found }
  else
    let key := ((st.item d).key ++ [0]).take m.keyLen.toNat
    if m.flags &&& dsTypeMask = dsTypeStr then
      if m.valCopy ≠ 0 then { code := m.valCopy, key, found }
      else { code := 0, key, str := (((st.unflag s d).item d).strFrom m.behind ++
        [0]).take m.valLen.toNat, found }
    else { code := 0, key, val := (st.item d).valU32, found }

def doCheck (m : Check) (st : Store) : Store :=
  let type := m.flags &&& dsTypeMask
  if type = 0 then st.answer (-einval)
  else
    match st.nextFor m.source type with
    | none => st.answer (-esrch)
    | some (s, d) => { st.unflag s d with reply := st.deliver m s d }

/-- The text that is compiled. The terminator is put at index `DS_MAX_KEYLEN-1` of a buffer whose
first character is the `^`, so that 78 characters of the expression are kept. -/
def anchored (key : Str) : Str := 94 :: key.take 78 ++ [36]

/-- The text that the comment promises: the whole expression, anchored. -/
def anchoredWhole (key : Str) : Str := 94 :: key ++ [36]

def enroll (s : Fin nrDsSubs) (m : Subscribe) (st : Store) : Store :=
  let x : Subscription := ⟨dsInUse ||| (m.flags &&& dsTypeMask), anchored m.key, m.source, m.key⟩
  { st with sub := update st.sub s x }

def flagInitial (s : Fin nrDsSubs) (st : Store) : Store :=
  { st with
    item := fun d =>
      if (st.item d).inUse && re.regexec (st.sub s).regex (st.item d).key then
        { st.item d with oldSubs := update (st.item d).oldSubs s true }
      else st.item d
    reply := { code := 0, notified :=
      if (List.finRange nrDsKeys).any fun d => (st.item d).inUse &&
        re.regexec (st.sub s).regex (st.item d).key
      then [(st.sub s).owner] else [] } }

def doSubscribe (m : Subscribe) (st : Store) : Store :=
  if m.keyLen < 2 ∨ m.keyLen > dsMaxKeylen then st.answer (-einval)
  else if m.keyCopy ≠ 0 then st.answer m.keyCopy
  else
    match (List.finRange nrDsSubs).find? fun s => !(st.sub s).inUse with
    | none => st.answer (-enospc)
    | some s =>
      if re.regcomp (anchored m.key) ≠ 0 then st.answer (-einval)
      else
        let st := st.enroll s m
        if m.flags &&& dsInitial ≠ 0 then st.flagInitial re s else st.answer 0

def step (st : Store) : Call → Except Stop Store
  | .publish m => .ok (st.doPublish re m)
  | .retrieve m => st.doRetrieve m
  | .check m => .ok (st.doCheck m)
  | .subscribe m => .ok (st.doSubscribe re m)

def dsInit : Store where
  item _ := ⟨0, [], 0, fun _ => 0, fun _ => false⟩
  sub _ := ⟨0, [], 0, []⟩
  nrInUse := 0
  reply := { code := 0 }

end Store

end Nucleos.Ds
