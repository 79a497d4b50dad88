import Nucleos.Kernel.Refine

/-!
# The boot state

`main` clears the tables and fills in the processes of the boot image; the reincarnation
server then hands out the privileges of `rs/const.h`. Nobody has sent anything yet. The
predicate leaves open which slots are in use and who may send to whom.
-/

namespace Nucleos.Kernel

open IntrusiveList Rendezvous Run

structure Boot (s : State) : Prop where
  endpoint : ∀ p, (s.proc p).pEndpoint = procNr p
  flags : ∀ p, s.isemptyp p = true ∨ (s.proc p).pRtsFlags &&& ipcRtsFlags = 0
  misc : ∀ p, (s.proc p).pMiscFlags = 0
  callerQ : ∀ p, (s.proc p).pCallerQ = none
  qLink : ∀ p, (s.proc p).pQLink = none
  id : ∀ i, (s.priv i).sId = i
  noSelf : ∀ i, getSysBit (s.priv i).sIpcTo i = false
  /-- Only user processes share a privilege structure, and all they may use is `KIPC_SENDREC`. -/
  owner : ∀ p i, s.isemptyp p = false → (s.proc p).pPriv = some i → (s.priv i).sFlags &&& sysProc ≠ 0 →
    (s.priv i).sProcNr = procNr p
  user : ∀ i c, (s.priv i).sFlags &&& sysProc = 0 → (s.priv i).sTrapMask.getLsbD c = true → c = kipcSendrec
  assigned : ∀ i, (s.priv i).sProcNr = endptNone ∨
    ∃ p, (s.priv i).sProcNr = procNr p ∧ s.isemptyp p = false ∧ (s.proc p).pPriv = some i
  task : ∀ p, iskerneln (procNr p) = true → s.isemptyp p = false ∧
    ∃ i, (s.proc p).pPriv = some i ∧ (s.priv i).sFlags &&& sysProc ≠ 0
  notify : ∀ i b, getSysBit (s.priv i).sNotifyPending b = false
  intr : ∀ i, (s.priv i).sIntPending = 0
  sig : ∀ i, (s.priv i).sSigPending = 0
  asynsize : ∀ i, (s.priv i).sAsynsize = 0
  history : s.history = []

lemma endpointP_procNr (p : Slot) : endpointP (procNr p) = procNr p := by
  have hlt := p.isLt
  simp only [nrTasks, nrProcs] at hlt
  have hmod : (procNr p + maxNrTasks).tmod endpointGenerationSize = procNr p + maxNrTasks := by
    apply Int.tmod_eq_of_lt
    · simp only [procNr, maxNrTasks, nrTasks]
      omega
    · simp only [procNr, maxNrTasks, nrTasks, endpointGenerationSize, maxMagicProc]
      omega
  rw [endpointP, hmod]
  omega

section Boot
variable {s : State} (h : Boot s)
include h

lemma Boot.isset {f : BitVec 16} (p : Slot) (hp : s.isemptyp p = false) (hf : f &&& ~~~ipcRtsFlags = 0#16)
    (hne : f ≠ 0#16) : s.rtsIsset p f = false := by
  rcases h.flags p with hempty | hzero
  · exact absurd hempty (ne_true_of_eq_false hp)
  have hm := ChunkMap.isset_merge (s.proc p).pRtsFlags 0#16 hf
  rw [hzero] at hm
  rw [State.rtsIsset, ← hm]
  have hz : (0 : BitVec 16) ||| (0#16 &&& ~~~ipcRtsFlags) = 0#16 := by decide
  rw [hz]
  exact ChunkMap.isset_zero hne

lemma Boot.idle (p : Slot) : s.rtsIsset p rtsSending = false ∧ s.rtsIsset p rtsReceiving = false := by
  cases hp : s.isemptyp p with
  | false => exact ⟨h.isset p hp (by decide) (by decide), h.isset p hp (by decide) (by decide)⟩
  | true => exact ⟨isset_empty hp (by decide) (by decide), isset_empty hp (by decide) (by decide)⟩

lemma Boot.good : s.Good := by
  have hends : ∀ c : Cell Slot Slot, s.queues.read c = none := by
    intro c
    cases c with
    | head d => exact h.callerQ d
    | next p => exact h.qLink p
  refine ⟨fun p hfree => ?_, fun p _ => ?_, fun i => ?_, fun p hp => ?_, fun p hp => ?_, ?_, ?_, ?_, ?_, ?_⟩
  · cases hp : s.isemptyp p with
    | true => simpa [State.isemptyp] using hp
    | false => exact absurd hfree (ne_true_of_eq_false (h.isset p hp (by decide) (by decide)))
  · rw [h.endpoint p]
    exact endpointP_procNr p
  · rw [h.id i]
    exact h.noSelf i
  · exact absurd hp (ne_true_of_eq_false (h.idle p).1)
  · exact absurd hp (ne_true_of_eq_false (h.idle p).2)
  · intro d _
    refine ⟨[], ?_, fun p => ?_⟩
    · change Links s.queues.next (s.queues.read (.head d)) []
      rw [hends]
      exact .nil
    · simp [State.sendTo_of_not (h.idle p).1]
  · intro p d hd
    rw [State.sendTo_of_not (h.idle p).1] at hd
    cases hd
  · intro p x hx
    rw [State.waitFor_of_not (h.idle p).2] at hx
    cases hx
  · intro p d x hd
    rw [State.sendTo_of_not (h.idle p).1] at hd
    cases hd
  · intro c
    refine ⟨[], ?_⟩
    change Links s.queues.next (s.queues.read c) []
    rw [hends]
    exact .nil

end Boot

lemma Trace.good {n : Nat} (t : Trace step n) (hboot : Boot (t.state 0)) : ∀ k ≤ n, (t.state k).Good :=
  t.invariant State.Good hboot.good fun hg hs => hg.step hs

/-- The processes of the boot image: four tasks, the services, and `init` in the last slot. -/
def bootProc (p : Slot) : Proc where
  retreg := 0
  pPriv := if h : p.val < 16 then some ⟨p.val, by simp only [nrSysProcs]; omega⟩ else none
  pRtsFlags :=
    if p.val < 16 then if procNr p = idle ∨ procNr p = hardware then rtsProcStop else 0 else rtsSlotFree
  pMiscFlags := 0
  pCallerQ := none
  pQLink := none
  pGetfromE := 0
  pSendtoE := 0
  pPending := 0
  pEndpoint := procNr p
  pSendmsg := Msg.zero
  pDelivermsg := Msg.zero
  syscall0x80 := false

def bootPriv (i : PrivId) : Priv where
  sProcNr := if i.val < 16 then (i.val : Int) - nrTasks else endptNone
  sId := i
  sFlags := if i.val < 15 then sysProc else 0
  sAsyntab := 2 ^ 32 - 1
  sAsynsize := 0
  sTrapMask :=
    if i.val = 1 ∨ i.val = 2 then 1#16 <<< kipcReceive
    else if i.val < 4 then 0
    else if i.val < 15 then 0xffff
    else if i.val = 15 then 1#16 <<< kipcSendrec
    else 0
  sIpcTo c :=
    if c.val = 0 then
      if i.val < 4 then 0
      else if i.val < 15 then 0xffff &&& ~~~(1#16 <<< i.val)
      else if i.val = 15 then 0x1070
      else 0
    else 0
  sNotifyPending _ := 0
  sIntPending := 0
  sSigPending := 0

def bootKernel : State where
  proc := bootProc
  priv := bootPriv
  tables _ _ := ⟨0, 0, 0, Msg.zero⟩
  uptime := 0
  history := []

lemma boot_bootKernel : Boot bootKernel where
  endpoint _ := rfl
  flags := by decide +kernel
  misc _ := rfl
  callerQ _ := rfl
  qLink _ := rfl
  id _ := rfl
  noSelf := by decide +kernel
  owner := by decide +kernel
  user := by
    intro i c hflags hmask
    have hlt : c < 16 := BitVec.lt_of_getLsbD hmask
    have hall : ∀ (i : PrivId) (c : Fin 16), (bootKernel.priv i).sFlags &&& sysProc = 0 →
        (bootKernel.priv i).sTrapMask.getLsbD c.val = true → c.val = kipcSendrec := by decide +kernel
    exact hall i ⟨c, hlt⟩ hflags hmask
  assigned := by decide +kernel
  task := by decide +kernel
  notify := by decide +kernel
  intr _ := rfl
  sig _ := rfl
  asynsize _ := rfl
  history := rfl

end Nucleos.Kernel
