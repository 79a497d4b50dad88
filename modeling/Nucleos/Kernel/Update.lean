import Nucleos.Kernel.Step
import Nucleos.Lib.Rendezvous

/-!
# What a kernel entry can do to the state

Every routine of the kernel changes the state by a sequence of a few kinds of updates.
`Update` lists them, each with the facts the code has checked when it makes it. What the
routines do is said here once; the later modules look only at the single updates.
-/

namespace Nucleos.Kernel

open IntrusiveList

/-- Who enters the kernel and for what; `source` is the process the actor receives from, and `write`
what a process outside the kernel writes into a table. -/
structure Entry extends Rendezvous.Label Slot where
  env : Env
  write : Option AsynMsg

structure Shadow where
  free : Bool
  sending : Bool
  receiving : Bool
  noEndpoint : Bool
  replyPend : Bool
  asynmsg : Bool
  priv : Option PrivId
  endpoint : Int
  callerQ : Option Slot
  qLink : Option Slot
  getfrom : Int
  sendto : Int

def Proc.shadow (x : Proc) : Shadow where
  free := x.pRtsFlags == rtsSlotFree
  sending := ChunkMap.isset x.pRtsFlags rtsSending
  receiving := ChunkMap.isset x.pRtsFlags rtsReceiving
  noEndpoint := ChunkMap.isset x.pRtsFlags rtsNoEndpoint
  replyPend := ChunkMap.isset x.pMiscFlags mfReplyPend
  asynmsg := ChunkMap.isset x.pMiscFlags mfAsynmsg
  priv := x.pPriv
  endpoint := x.pEndpoint
  callerQ := x.pCallerQ
  qLink := x.pQLink
  getfrom := x.pGetfromE
  sendto := x.pSendtoE

def Proc.FreeOk (x : Proc) : Prop :=
  ChunkMap.isset x.pRtsFlags rtsSlotFree = true → x.pRtsFlags = rtsSlotFree

namespace State

def FreeOk (s : State) : Prop := ∀ p, (s.proc p).FreeOk

def Live (s : State) (p : Slot) : Prop := s.isemptyp p = false ∧ s.rtsIsset p rtsNoEndpoint = false

def Ready (s : State) (p : Slot) : Prop :=
  s.Live p ∧ s.rtsIsset p rtsSending = false ∧ s.rtsIsset p rtsReceiving = false

end State

structure Quiet (s t : State) : Prop where
  shadow : ∀ p, (t.proc p).shadow = (s.proc p).shadow
  freeOk : s.FreeOk → t.FreeOk
  priv : t.priv = s.priv
  tables : t.tables = s.tables
  history : t.history = s.history

inductive NotifyEffect (caller dst : Slot) (s : State) : State → Prop where
  | direct (m : Msg) (u : State)
      (hwill : s.willReceive dst (s.proc caller).pEndpoint = true)
      (hreply : s.mfIsset dst mfReplyPend = false)
      (hbuild : buildNotifyMessage (procNr caller) dst s = .ok (m, u)) :
      NotifyEffect caller dst s
        ((((deposit (u.proc caller).pEndpoint m dst u).rtsUnset dst rtsReceiving).record
          (.notify caller dst)).record (.notified (procNr caller) dst m.mData4))
  | posted (i j : PrivId) (hcaller : (s.proc caller).pPriv = some i)
      (hdst : (s.proc dst).pPriv = some j) :
      NotifyEffect caller dst s
        ((s.modPriv j fun v =>
          { v with sNotifyPending := setSysBit v.sNotifyPending (s.priv i).sId }).record
            (.notify caller dst))

/-- An entry of an asynchronous table that the kernel has still to deliver. -/
def Undelivered (e : AsynMsg) : Prop :=
  e.flags ≠ 0 ∧ badFlags e.flags = false ∧ e.flags &&& amfDone = 0

def Refused (env : Env) (s : State) (src : Slot) (a : Nat) : Prop :=
  ∀ d, s.isokendpt (s.tables src a).dst = some d →
    iskerneln (procNr d) = true ∨ s.maySendTo src d = .ok false ∨
      s.rtsIsset d rtsNoEndpoint = true ∨ env.canRead src (a + offMsg) = false

def WellFormed (e : AsynMsg) : Prop := e.flags = 0 ∨ badFlags e.flags = false

/-- An entry that `mini_senda` has looked at and need not look at again. -/
def Settled (s : State) (src : Slot) (a : Nat) : Prop :=
  WellFormed (s.tables src a) ∧ (Undelivered (s.tables src a) →
    ∃ d, s.isokendpt (s.tables src a).dst = some d ∧ s.maySendTo src d = .ok true ∧
      s.mfIsset d mfAsynmsg = true)

def Env.Reaches (env : Env) (p : Slot) : Prop := ∀ a, env.canRead p a = true ∧ env.canWrite p a = true

def State.entry (s : State) (src : Slot) (i : PrivId) (k : Nat) : AsynMsg :=
  s.tables src (entryAddr (s.priv i).sAsyntab k)

def NothingFor (env : Env) (s : State) (src dst : Slot) : Prop :=
  ∀ i, (s.proc src).pPriv = some i → (s.priv i).sId ≠ userPrivId →
    s.maySendTo src dst = .ok true → env.Reaches src →
      ∀ k < (s.priv i).sAsynsize, Undelivered (s.entry src i k) →
        (s.entry src i k).dst ≠ (s.proc dst).pEndpoint

/-- Who may notify: a kernel task, or a running process with the right to this trap. -/
def MayNotify (l : Entry) (s : State) (caller : Slot) : Prop :=
  iskerneln (procNr caller) = true ∨ (l.actor = some caller ∧ s.Live caller ∧
    ∃ i, (s.proc caller).pPriv = some i ∧ (s.priv i).sTrapMask.getLsbD kipcNotify = true)

def MayReceive (s : State) (p : Slot) : Prop :=
  ∃ i, (s.proc p).pPriv = some i ∧ (s.priv i).sTrapMask.getLsbD kipcReceive = true

abbrev State.Named (s : State) (src : Slot) : Prop :=
  s.isemptyp src = false ∨ ∃ j, (s.priv j).sProcNr = procNr src

abbrev State.Spent (s : State) (src : Slot) (i : PrivId) : Prop :=
  (∃ k < (s.priv i).sAsynsize, (s.entry src i k).flags ≠ 0 ∧ badFlags (s.entry src i k).flags = true) ∨
    ∀ k < (s.priv i).sAsynsize, ¬ Undelivered (s.entry src i k)

inductive Update (l : Entry) (s : State) : State → Prop where
  | quiet (t : State) (h : Quiet s t) : Update l s t
  | sent (src dst : Slot) (m : Msg) : Update l s (s.record (.sent src dst m))
  | expectReply (p : Slot) (hactor : l.actor = some p) : Update l s (s.mfSet p mfReplyPend)
  | expectAny (p : Slot) (hactor : l.actor = some p) (hmay : MayReceive s p) :
      Update l s (s.mfUnset p mfReplyPend)
  | wake (p : Slot) : Update l s (s.rtsUnset p rtsReceiving)
  | block (p d : Slot) (dstE : Int) (m : Msg) (t : State) (hactor : l.actor = some p)
      (hp : s.Ready p) (hd : s.isokendpt dstE = some d) (hlive : s.rtsIsset d rtsNoEndpoint = false)
      (hwill : s.willReceive d (s.proc p).pEndpoint = false) (hallow : s.maySendTo p d = .ok true)
      (hdead : deadlock kipcSend p (some d) s = .ok 0) (hblock : blockSend p d dstE m s = .ok t) :
      Update l s t
  | wait (p : Slot) (srcE : Int) (hactor : l.actor = some p) (hlive : s.Live p)
      (hrecv : s.rtsIsset p rtsReceiving = false) (hsrc : receiveSource srcE s = .ok l.source)
      (hsrcLive : ∀ d, l.source = some d → s.rtsIsset d rtsNoEndpoint = false)
      (hsend : s.rtsIsset p rtsSending = true → (s.proc p).pSendtoE = srcE ∧ srcE ≠ endptAny)
      (hqueue : s.rtsIsset p rtsSending = false → receiveCaller p l.source s = .ok none)
      (hdead : deadlock kipcReceive p l.source s = .ok 0)
      (hmay : s.mfIsset p mfReplyPend = true ∨ MayReceive s p) :
      Update l s (markReceiving p srcE s)
  | release (p q : Slot) (xpp : Cell Slot Slot) (hactor : l.actor = some p) (hlive : s.Live p)
      (hwalk : s.queues.walk (accepts l.source) State.queueFuel (.head p) = some xpp)
      (hread : s.queues.read xpp = some q) :
      Update l s ((s.rtsUnset q rtsSending).writeCell xpp (s.proc q).pQLink)
  | notify (caller dst : Slot) (t : State) (hmay : MayNotify l s caller)
      (hdst : s.isemptyp dst = false) (h : NotifyEffect caller dst s t) : Update l s t
  | interrupt (task dst : Slot) (i : PrivId) (bits : BitVec 32) (t : State)
      (htask : procNr task = hardware) (hdst : s.isemptyp dst = false)
      (hpriv : (s.proc dst).pPriv = some i)
      (h : NotifyEffect task dst ((s.modPriv i fun v =>
        { v with sIntPending := v.sIntPending ||| bits }).record (.intr dst bits)) t) :
      Update l s t
  | signal (task dst : Slot) (i : PrivId) (bits : BitVec 32) (t : State)
      (htask : procNr task = system) (hdst : s.isemptyp dst = false)
      (hpriv : (s.proc dst).pPriv = some i)
      (h : NotifyEffect task dst ((s.modPriv i fun v =>
        { v with sSigPending := v.sSigPending ||| bits }).record (.sig dst bits)) t) :
      Update l s t
  | take (p : Slot) (i id : PrivId) (t : State) (hp : s.isemptyp p = false)
      (hpriv : (s.proc p).pPriv = some i) (hmay : MayReceive s p)
      (hbit : getSysBit (s.priv i).sNotifyPending id = true) (h : takeNotify p i id s = .ok t) :
      Update l s t
  | asynOpen (p : Slot) (i : PrivId) (hactor : l.actor = some p) (hlive : s.Live p)
      (hpriv : (s.proc p).pPriv = some i)
      (hsys : (s.priv i).sFlags &&& sysProc ≠ 0) :
      Update l s ((s.modPriv i fun v => { v with sAsyntab := 2 ^ 32 - 1, sAsynsize := 0 }).record
        (.asynClear p))
  | asynMark (d : Slot) : Update l s (s.mfSet d mfAsynmsg)
  | asynClose (p : Slot) (i : PrivId) (table count : Nat) (hactor : l.actor = some p) (hlive : s.Live p)
      (hpriv : (s.proc p).pPriv = some i) (hsys : (s.priv i).sFlags &&& sysProc ≠ 0)
      (hscan : ∀ k < count, Settled s p (entryAddr table k)) :
      Update l s ((s.modPriv i fun v => { v with sAsyntab := table, sAsynsize := count }).record
        (.asynAccept p table count))
  | asynSettle (p : Slot) (table count : Nat) (hactor : l.actor = some p)
      (hdone : ∀ k < count, ¬ Undelivered (s.tables p (entryAddr table k))) :
      Update l s (s.record (.asynAccept p table count))
  | asynDeliver (src dst : Slot) (a : Nat) (hund : Undelivered (s.tables src a))
      (hdst : (s.tables src a).dst = (s.proc dst).pEndpoint)
      (hreply : (s.tables src a).flags &&& amfNoreply = 0 ∨ s.mfIsset dst mfReplyPend = false) :
      Update l s (completeEntry l.env src a 0 (s.tables src a).flags
        (s.record (.asyn src dst a (s.tables src a) (s.mfIsset dst mfReplyPend)))).2
  | asynRefuse (src : Slot) (a : Nat) (r : Int) (hund : Undelivered (s.tables src a))
      (hwhy : Refused l.env s src a) :
      Update l s (completeEntry l.env src a r (s.tables src a).flags s).2
  | asynDrop (src : Slot) (i : PrivId) (hpriv : (s.proc src).pPriv = some i) (howner : s.Named src)
      (hwhy : s.Spent src i) :
      Update l s (s.modPriv i fun v => { v with sAsynsize := 0 })
  | asynNone (p : Slot)
      (hnone : ∀ i src, (s.priv i).sProcNr = procNr src → NothingFor l.env s src p) :
      Update l s (s.mfUnset p mfAsynmsg)
  | write (p : Slot) (a : Nat) (e : AsynMsg) (hwrite : l.write = some e) :
      Update l s ((modEntry p a (fun _ => e) s).record (.wrote p a))
  | gone (rc : Slot) (t : State) (hleave : l.leaving = some rc) (hker : iskerneln (procNr rc) = false)
      (h : clearEndpoint rc s = .ok t) : Update l s t
  | free (rc : Slot) (i : PrivId) (hleave : l.leaving = some rc) (hker : iskerneln (procNr rc) = false)
      (hpriv : (s.proc rc).pPriv = some i) (hgone : s.rtsIsset rc rtsNoEndpoint = true) :
      Update l s
        (if (s.priv i).sFlags &&& sysProc ≠ 0 then
          (s.modProc rc fun p => { p with pRtsFlags := rtsSlotFree }).modPriv i fun v =>
            { v with sProcNr := endptNone }
        else s.modProc rc fun p => { p with pRtsFlags := rtsSlotFree })

def Updates (l : Entry) : State → State → Prop := Relation.ReflTransGen (Update l)

lemma Updates.refl (l : Entry) (s : State) : Updates l s s := Relation.ReflTransGen.refl

lemma Update.updates {l : Entry} {s t : State} (h : Update l s t) : Updates l s t :=
  Relation.ReflTransGen.single h

lemma Updates.trans {l : Entry} {s t u : State} (h : Updates l s t) (h' : Updates l t u) :
    Updates l s u := Relation.ReflTransGen.trans h h'

namespace Quiet

variable {s t u : State}

lemma refl (s : State) : Quiet s s := ⟨fun _ => rfl, id, rfl, rfl, rfl⟩

lemma trans (h : Quiet s t) (h' : Quiet t u) : Quiet s u :=
  ⟨fun p => (h'.shadow p).trans (h.shadow p), fun hs => h'.freeOk (h.freeOk hs),
    h'.priv.trans h.priv, h'.tables.trans h.tables, h'.history.trans h.history⟩

lemma modProc (s : State) (p : Slot) {f : Proc → Proc} (hshadow : (f (s.proc p)).shadow = (s.proc p).shadow)
    (hfree : (s.proc p).FreeOk → (f (s.proc p)).FreeOk) : Quiet s (s.modProc p f) := by
  refine ⟨s.modProc_keep Proc.shadow hshadow, fun hs q => ?_, rfl, rfl, rfl⟩
  rw [State.modProc_proc]
  split
  · rename_i hq
    exact hq ▸ hfree (hs p)
  · exact hs q

end Quiet

namespace State
variable (s : State) (p q : Slot) {f g : BitVec 16}

lemma rtsIsset_rtsSet_self : (s.rtsSet p f).rtsIsset p f = true := by
  simp [rtsIsset, rtsSet, modProc_proc]

lemma rtsIsset_rtsSet (h : f &&& g = 0#16) : (s.rtsSet p f).rtsIsset q g = s.rtsIsset q g :=
  s.modProc_keep (fun x => ChunkMap.isset x.pRtsFlags g) (ChunkMap.isset_or_of_disjoint _ h) q

lemma rtsIsset_rtsUnset (h : f &&& g = 0#16) : (s.rtsUnset p f).rtsIsset q g = s.rtsIsset q g :=
  s.modProc_keep (fun x => ChunkMap.isset x.pRtsFlags g) (ChunkMap.isset_andNot_of_disjoint _ h) q

lemma rtsIsset_rtsUnset_self (h : f ≠ 0#16) :
    (s.rtsUnset p f).rtsIsset q f = (decide (q ≠ p) && s.rtsIsset q f) := by
  simp only [rtsIsset, rtsUnset, modProc_proc]
  split
  · rename_i hq
    simp [hq, ChunkMap.isset_andNot_self _ h]
  · rename_i hq
    simp [hq]

end State

lemma Proc.free_unset {x y : Proc} {f : BitVec 16} (h : x.FreeOk) (hf : f &&& rtsSlotFree = 0#16)
    (hy : y.pRtsFlags = x.pRtsFlags &&& ~~~f) : y.FreeOk ∧ y.shadow.free = x.shadow.free := by
  have hback : ChunkMap.isset y.pRtsFlags rtsSlotFree = true → x.pRtsFlags = rtsSlotFree := by
    intro hfree
    rw [hy, ChunkMap.isset_andNot_of_disjoint _ hf] at hfree
    exact h hfree
  have hforth : x.pRtsFlags = rtsSlotFree → y.pRtsFlags = rtsSlotFree := by
    intro hx
    rw [hy, hx, ChunkMap.andNot_eq_self hf]
  refine ⟨fun hfree => hforth (hback hfree), ?_⟩
  simp only [shadow]
  rw [Bool.eq_iff_iff, beq_iff_eq, beq_iff_eq]
  refine ⟨fun hfree => hback ?_, hforth⟩
  rw [hfree]
  decide

namespace State

lemma writeCell_proc (s : State) (c : Cell Slot Slot) (v : Option Slot) (q : Slot) :
    ∃ x y, (s.writeCell c v).proc q = { s.proc q with pCallerQ := x, pQLink := y } := by
  cases c with
  | head d =>
    simp only [writeCell, modProc_proc]
    split
    · exact ⟨v, (s.proc q).pQLink, rfl⟩
    · exact ⟨(s.proc q).pCallerQ, (s.proc q).pQLink, rfl⟩
  | next d =>
    simp only [writeCell, modProc_proc]
    split
    · exact ⟨(s.proc q).pCallerQ, v, rfl⟩
    · exact ⟨(s.proc q).pCallerQ, (s.proc q).pQLink, rfl⟩

variable (s : State) (c : Cell Slot Slot) (v : Option Slot) (q : Slot)

@[simp] lemma writeCell_rtsFlags : ((s.writeCell c v).proc q).pRtsFlags = (s.proc q).pRtsFlags := by
  obtain ⟨x, y, h⟩ := s.writeCell_proc c v q
  rw [h]

@[simp] lemma writeCell_miscFlags : ((s.writeCell c v).proc q).pMiscFlags = (s.proc q).pMiscFlags := by
  obtain ⟨x, y, h⟩ := s.writeCell_proc c v q
  rw [h]

@[simp] lemma writeCell_sendto : ((s.writeCell c v).proc q).pSendtoE = (s.proc q).pSendtoE := by
  obtain ⟨x, y, h⟩ := s.writeCell_proc c v q
  rw [h]

@[simp] lemma writeCell_getfrom : ((s.writeCell c v).proc q).pGetfromE = (s.proc q).pGetfromE := by
  obtain ⟨x, y, h⟩ := s.writeCell_proc c v q
  rw [h]

@[simp] lemma writeCell_endpoint : ((s.writeCell c v).proc q).pEndpoint = (s.proc q).pEndpoint := by
  obtain ⟨x, y, h⟩ := s.writeCell_proc c v q
  rw [h]

@[simp] lemma writeCell_rtsIsset (f : BitVec 16) : (s.writeCell c v).rtsIsset q f = s.rtsIsset q f := by
  simp [rtsIsset]

@[simp] lemma writeCell_mfIsset (f : BitVec 16) : (s.writeCell c v).mfIsset q f = s.mfIsset q f := by
  simp [mfIsset]

@[simp] lemma writeCell_priv : (s.writeCell c v).priv = s.priv := by
  cases c <;> rfl

@[simp] lemma writeCell_tables : (s.writeCell c v).tables = s.tables := by
  cases c <;> rfl

@[simp] lemma writeCell_history : (s.writeCell c v).history = s.history := by
  cases c <;> rfl

@[simp] lemma writeCell_isemptyp : (s.writeCell c v).isemptyp q = s.isemptyp q := by
  simp [isemptyp]

end State

end Nucleos.Kernel
