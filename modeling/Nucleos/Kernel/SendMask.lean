import Nucleos.Kernel.Exit
import Nucleos.Kernel.Privctl

/-!
# Send masks

Filling in the target mask of a new privilege structure sets bits in both directions. Two structures
that can reply then agree about each other, and no mask names a free slot. An exit clears no bit,
and a request that fails after its slot is claimed leaves the mask of the caller in it. -/

namespace Nucleos.Kernel

open Run

namespace State

def maySend (s : State) (a b : PrivId) : Bool := getSysBit (s.priv a).sIpcTo b

/-- Structures in use whose processes can reply may send to each other or not at all, and no mask
names a free slot. -/
structure Balanced (s : State) : Prop where
  symm : ∀ a b, s.freePriv a = false → s.freePriv b = false → s.canReply a = true → s.canReply b = true →
    s.maySend a b = s.maySend b a
  noStale : ∀ a b, s.freePriv b = true → s.maySend a b = false

structure Even (s : State) : Prop where
  id : ∀ i, (s.priv i).sId = i
  symm : ∀ a b, s.canReply a = true → s.canReply b = true → s.maySend a b = s.maySend b a
  noStale : ∀ a b, s.freePriv b = true → s.maySend a b = false

lemma Even.balanced {s : State} (h : s.Even) : s.Balanced := ⟨fun a b _ _ => h.symm a b, h.noStale⟩

structure SameButTargets (s t : State) : Prop where
  proc : t.proc = s.proc
  priv : ∀ i, ∃ m, t.priv i = { s.priv i with sIpcTo := m }

variable {s t u : State}

namespace SameButTargets

lemma refl (s : State) : s.SameButTargets s := ⟨rfl, fun _ => ⟨_, rfl⟩⟩

lemma trans (h₁ : s.SameButTargets t) (h₂ : t.SameButTargets u) : s.SameButTargets u := by
  refine ⟨h₂.proc.trans h₁.proc, fun i => ?_⟩
  obtain ⟨m₁, e₁⟩ := h₁.priv i
  obtain ⟨m₂, e₂⟩ := h₂.priv i
  exact ⟨m₂, by rw [e₂, e₁]⟩

lemma modPriv (s : State) (i : PrivId) (f : SysMap → SysMap) :
    s.SameButTargets (s.modPriv i fun v => { v with sIpcTo := f v.sIpcTo }) := by
  refine ⟨rfl, fun j => ?_⟩
  rw [modPriv_priv]
  by_cases hj : j = i
  · exact ⟨_, if_pos hj⟩
  · exact ⟨(s.priv j).sIpcTo, if_neg hj⟩

variable (h : s.SameButTargets t)
include h

lemma freePriv (i : PrivId) : t.freePriv i = s.freePriv i := by
  obtain ⟨m, hm⟩ := h.priv i
  simp only [State.freePriv, hm]

lemma canReply (i : PrivId) : t.canReply i = s.canReply i := by
  obtain ⟨m, hm⟩ := h.priv i
  simp only [State.canReply, hm]

lemma id (i : PrivId) : (t.priv i).sId = (s.priv i).sId := by
  obtain ⟨m, hm⟩ := h.priv i
  rw [hm]

end SameButTargets

variable {n id a b c : PrivId} {m : Targets}

lemma sendtoBit_same (n : PrivId) (m : Targets) (s : State) (id : PrivId) :
    s.SameButTargets (sendtoBit n m s id) := by
  unfold sendtoBit
  split
  · unfold setSendtoBit
    have hset := SameButTargets.modPriv s n fun v => setSysBit v id
    simp only
    split_ifs
    · exact .modPriv s n fun v => unsetSysBit v id
    · exact hset.trans (.modPriv _ id fun v => setSysBit v _)
    · exact hset
  · exact (SameButTargets.modPriv s n fun v => unsetSysBit v id).trans
      (.modPriv _ id fun v => unsetSysBit v _)

lemma fill_same (n : PrivId) (m : Targets) (s : State) (l : List PrivId) :
    s.SameButTargets (l.foldl (sendtoBit n m) s) := by
  induction l generalizing s with
  | nil => exact .refl s
  | cons id l ih => exact (sendtoBit_same n m s id).trans (ih _)

lemma allow_maySend (i : PrivId) :
    (s.modPriv i fun v => { v with sIpcTo := setSysBit v.sIpcTo c }).maySend a b =
    (decide (a = i ∧ b = c) || s.maySend a b) := by
  unfold maySend
  rw [modPriv_priv]
  split_ifs with ha <;> simp [getSysBit_set, ha]

lemma forbid_maySend (i : PrivId) :
    (s.modPriv i fun v => { v with sIpcTo := unsetSysBit v.sIpcTo c }).maySend a b =
    (!decide (a = i ∧ b = c) && s.maySend a b) := by
  unfold maySend
  rw [modPriv_priv]
  split_ifs with ha <;> simp [getSysBit_unset, ha]

lemma sendtoBit_maySend (hid : ∀ i, (s.priv i).sId = i) : (sendtoBit n m s id).maySend a b =
    if a = n ∧ b = id then m id && !s.freePriv id && decide (id ≠ n)
    else if a = id ∧ b = n then m id && (s.maySend a b || (!s.freePriv id && s.canReply id))
    else s.maySend a b := by
  unfold sendtoBit
  cases hm : m id with
  | true =>
    rw [if_pos rfl, setSendtoBit, hid]
    by_cases hstop : s.freePriv id = true ∨ n = id
    · rw [if_pos hstop, forbid_maySend]
      by_cases hown : a = n ∧ b = id
      all_goals
        rcases hstop with hfree | rfl
        · simp [hown, hfree]
        · simp [hown]
    · obtain ⟨hfree, hne⟩ := not_or.mp hstop
      have hset := SameButTargets.modPriv s n fun v => setSysBit v id
      rw [if_neg hstop]
      simp only [hset.canReply, hset.id, hid]
      cases hr : s.canReply id with
      | true =>
        rw [if_pos rfl, allow_maySend, allow_maySend]
        by_cases hown : a = n ∧ b = id
        · simp [hown, hfree, Ne.symm hne]
        by_cases hback : a = id ∧ b = n
        · have hne' : ¬ id = n := Ne.symm hne
          simp [hback, hfree, hne']
        · simp [hown, hback]
      | false =>
        rw [if_neg (by simp), allow_maySend]
        by_cases hown : a = n ∧ b = id
        · simp [hown, hfree, Ne.symm hne]
        · simp [hown]
  | false =>
    have hset := SameButTargets.modPriv s n fun v => unsetSysBit v id
    rw [if_neg (by simp), unsetSendtoBit]
    simp only [hset.id, hid]
    rw [forbid_maySend, forbid_maySend]
    by_cases hown : a = n ∧ b = id
    · simp [hown]
    by_cases hback : a = id ∧ b = n
    · simp [hback]
    · simp [hown, hback]

lemma fill_maySend {l : List PrivId} (hl : l.Nodup) (hid : ∀ i, (s.priv i).sId = i) :
    (l.foldl (sendtoBit n m) s).maySend a b =
      if a = n ∧ b ∈ l then m b && !s.freePriv b && decide (b ≠ n)
      else if b = n ∧ a ∈ l then m a && (s.maySend a b || (!s.freePriv a && s.canReply a))
      else s.maySend a b := by
  induction l generalizing s with
  | nil => simp
  | cons id l ih =>
    obtain ⟨hnot, hl⟩ := List.nodup_cons.mp hl
    have hsame := sendtoBit_same n m s id
    rw [List.foldl_cons, ih hl fun i => (hsame.id i).trans (hid i), sendtoBit_maySend hid]
    simp only [hsame.freePriv, hsame.canReply, List.mem_cons]
    split
    · next hlater =>
      rw [if_pos ⟨hlater.1, .inr hlater.2⟩]
    next hlater =>
    by_cases hnow : a = n ∧ b = id
    · have hback : ¬ (b = n ∧ a ∈ l) := by
        rintro ⟨hb, ha⟩
        rw [hnow.1, ← hb, hnow.2] at ha
        exact hnot ha
      rw [if_neg hback, if_pos hnow, if_pos ⟨hnow.1, .inl hnow.2⟩, hnow.2]
    rw [if_neg hnow, if_neg (and_or_left.not.mpr (not_or.mpr ⟨hnow, hlater⟩))]
    by_cases hback : b = n ∧ a ∈ l
    · have ha : ¬ (a = id ∧ b = n) := fun hc => hnot (hc.1 ▸ hback.2)
      rw [if_pos hback, if_neg ha, if_pos ⟨hback.1, .inr hback.2⟩]
    rw [if_neg hback]
    by_cases hid : a = id ∧ b = n
    · rw [if_pos hid, if_pos ⟨hid.2, .inl hid.1⟩, hid.1]
    rw [if_neg hid, if_neg (and_or_left.not.mpr (not_or.mpr ⟨fun h => hid h.symm, hback⟩))]

lemma fillTargets_same (n : PrivId) (m : Targets) (s : State) : s.SameButTargets (s.fillTargets n m) :=
  fill_same n m s _

lemma fillTargets_maySend (hid : ∀ i, (s.priv i).sId = i) : (s.fillTargets n m).maySend a b =
    if a = n then m b && !s.freePriv b && decide (b ≠ n)
    else if b = n then m a && (s.maySend a b || (!s.freePriv a && s.canReply a))
    else s.maySend a b := by
  have hfill := fill_maySend (n := n) (m := m) (a := a) (b := b) (List.nodup_finRange nrSysProcs) hid
  simp only [List.mem_finRange, and_true] at hfill
  exact hfill

/-- All is even but for the structure `n`, which has just been claimed and which no mask names. -/
structure EvenBut (n : PrivId) (s : State) : Prop where
  id : ∀ i, (s.priv i).sId = i
  symm : ∀ a b, a ≠ n → b ≠ n → s.canReply a = true → s.canReply b = true → s.maySend a b = s.maySend b a
  noStale : ∀ a b, a ≠ n → s.freePriv b = true → s.maySend a b = false
  unnamed : ∀ a, a ≠ n → s.maySend a n = false
  used : s.freePriv n = false

lemma EvenBut.fillTargets (h : s.EvenBut n) (m : Targets) : (s.fillTargets n m).Even := by
  have hsame := fillTargets_same n m s
  have hown : ∀ b, b ≠ n → s.canReply b = true →
    (s.fillTargets n m).maySend n b = (s.fillTargets n m).maySend b n := by
    intro b hb hr
    rw [fillTargets_maySend h.id, fillTargets_maySend h.id, if_pos rfl, if_neg hb, if_pos rfl,
      h.unnamed b hb, hr]
    simp [hb]
  refine ⟨fun i => (hsame.id i).trans (h.id i), fun a b ha hb => ?_, fun a b hfree => ?_⟩
  · rw [hsame.canReply] at ha hb
    by_cases han : a = n
    · subst han
      by_cases hbn : b = a
      · rw [hbn]
      · exact hown b hbn hb
    by_cases hbn : b = n
    · subst hbn
      exact (hown a han ha).symm
    · rw [fillTargets_maySend h.id, fillTargets_maySend h.id, if_neg han, if_neg hbn, if_neg hbn, if_neg han]
      exact h.symm a b han hbn ha hb
  · rw [hsame.freePriv] at hfree
    have hbn : b ≠ n := by
      rintro rfl
      rw [h.used] at hfree
      nomatch hfree
    rw [fillTargets_maySend h.id]
    by_cases han : a = n
    · rw [if_pos han, hfree]
      simp
    · rw [if_neg han, if_neg hbn]
      exact h.noStale a b han hfree

structure Claimed (n : PrivId) (s t : State) : Prop where
  id : (t.priv n).sId = (s.priv n).sId
  used : t.freePriv n = false
  others : ∀ i, i ≠ n → t.priv i = s.priv i

lemma Claimed.evenBut (h : Claimed n s t) (hs : s.Even) (hfree : s.freePriv n = true) : t.EvenBut n := by
  have hsend : ∀ {a b}, a ≠ n → t.maySend a b = s.maySend a b := by
    intro a b ha
    rw [maySend, maySend, h.others a ha]
  refine ⟨fun i => ?_, fun a b ha hb hra hrb => ?_, fun a b ha hfb => ?_, fun a ha => ?_, h.used⟩
  · by_cases hi : i = n
    · subst hi
      exact h.id.trans (hs.id i)
    · rw [h.others i hi]
      exact hs.id i
  · rw [hsend ha, hsend hb]
    rw [canReply, h.others a ha] at hra
    rw [canReply, h.others b hb] at hrb
    exact hs.symm a b hra hrb
  · rw [hsend ha]
    have hb : b ≠ n := by
      rintro rfl
      rw [h.used] at hfb
      nomatch hfb
    rw [freePriv, h.others b hb] at hfb
    exact hs.noStale a b hfb
  · rw [hsend ha]
    exact hs.noStale a n hfree

end State

/-! ## Exits -/

section Exit
variable {s t : State} {rc : Slot}

/-- An exit leaves the privilege structures as they are, but for the slot of a system process. -/
structure Vacated (rc : Slot) (s t : State) : Prop where
  static : ∀ j, (t.priv j).sId = (s.priv j).sId ∧ (t.priv j).sTrapMask = (s.priv j).sTrapMask ∧
    (t.priv j).sIpcTo = (s.priv j).sIpcTo
  procNr : ∃ i, (s.proc rc).pPriv = some i ∧ ∀ j, (t.priv j).sProcNr =
    if j = i ∧ (s.priv i).sFlags &&& sysProc ≠ 0 then endptNone else (s.priv j).sProcNr

lemma clearProc_vacated (h : clearProc rc s = .ok t) : (s.isemptyp rc = true ∧ t = s) ∨
    (s.isemptyp rc = false ∧ Vacated rc s t) := by
  unfold clearProc at h
  split_ifs at h with he
  · exact .inl ⟨he, (Except.ok.inj h).symm⟩
  obtain ⟨u, hu, h⟩ := bind_eq_ok.mp h
  obtain ⟨i, hi, h⟩ := bind_eq_ok.mp h
  have hst := static_clearEndpoint hu
  have hpriv : (s.proc rc).pPriv = some i := (hst.priv rc).symm.trans ((State.privOf_eq_ok _).mp hi)
  cases h
  refine .inr ⟨Bool.eq_false_iff.mpr he, fun j => ?_, i, hpriv, fun j => ?_⟩
  · have hback := And.intro (hst.id j) (And.intro (hst.trapMask j) (hst.ipcTo j))
    split
    · rw [State.modPriv_priv]
      split <;> exact hback
    · exact hback
  · have hflags : ((u.modProc rc fun p => { p with pRtsFlags := rtsSlotFree }).priv i).sFlags =
      (s.priv i).sFlags := hst.flags i
    rw [hflags]
    split
    · next hsys =>
      rw [State.modPriv_priv]
      split
      · next hj =>
        rw [if_pos ⟨hj, hsys⟩]
      next hj =>
      rw [if_neg fun hc => hj hc.1]
      exact clearEndpoint_procNr hu j
    · next hsys =>
      rw [if_neg fun hc => hsys hc.2]
      exact clearEndpoint_procNr hu j

end Exit

/-! ## Boot -/

namespace State
variable {s t : State} {n : PrivId} {rp : Slot}

lemma Even.congr (hs : s.Even) (h : ∀ i, (t.priv i).sId = (s.priv i).sId ∧
    (t.priv i).sTrapMask = (s.priv i).sTrapMask ∧
    (t.priv i).sIpcTo = (s.priv i).sIpcTo) (hfree : ∀ a b, t.freePriv b = true →
      s.maySend a b = false) : t.Even := by
  have hsend : ∀ a b, t.maySend a b = s.maySend a b := fun a b => by rw [maySend, maySend, (h a).2.2]
  have hreply : ∀ a, t.canReply a = s.canReply a := fun a => by rw [canReply, canReply, (h a).2.1]
  refine ⟨fun i => (h i).1.trans (hs.id i), fun a b ha hb => ?_, fun a b hb => ?_⟩
  · rw [hsend, hsend]
    rw [hreply] at ha hb
    exact hs.symm a b ha hb
  · rw [hsend]
    exact hfree a b hb

lemma Even.of_priv (hs : s.Even) (h : t.priv = s.priv) : t.Even := by
  refine hs.congr (fun i => by rw [h]; exact ⟨rfl, rfl, rfl⟩) fun a b hb => hs.noStale a b ?_
  rwa [freePriv, h] at hb

lemma claimPriv_claimed (s : State) (rp : Slot) (n : PrivId) : Claimed n s (s.claimPriv rp n) := by
  refine ⟨?_, ?_, fun i hi => PrivState.claimPriv_others s hi⟩
  · rw [claimPriv, modPriv_priv, if_pos rfl, modProc_priv]
  · rw [freePriv, claimPriv, modPriv_priv, if_pos rfl]
    exact beq_false_of_ne (procNr_ne_none rp)

lemma Claimed.modPriv (h : Claimed n s t) {f : Priv → Priv} (hid : ∀ v, (f v).sId = v.sId)
    (hnr : ∀ v, (f v).sProcNr = v.sProcNr) : Claimed n s (t.modPriv n f) := by
  refine ⟨?_, ?_, fun i hi => ?_⟩
  · rw [modPriv_priv, if_pos rfl, hid]
    exact h.id
  · rw [freePriv, modPriv_priv, if_pos rfl, hnr]
    exact h.used
  · rw [modPriv_priv, if_neg hi]
    exact h.others i hi

end State

namespace PrivState
open State
variable {s s' : PrivState}

lemma getSysBit_zero (b : PrivId) : getSysBit (fun _ => 0) b = false := by
  unfold getSysBit ChunkMap.get
  split <;> simp

lemma cleared_even : cleared.kernel.Even := by
  have hsend : ∀ a b, cleared.kernel.maySend a b = false := fun a b => getSysBit_zero b
  exact ⟨fun i => rfl, fun a b _ _ => by rw [hsend, hsend], fun a b _ => hsend a b⟩

lemma bootRights_even (hs : s.kernel.Even) (rp : Slot) (flags trap : BitVec 16) (targets : Targets)
    (kcalls : BitVec 16) :
    (s.bootRights rp flags trap targets kcalls).kernel.Even := by
  unfold bootRights
  cases hf : s.kernel.findPriv (procNr rp + nrTasks) with
  | error r => exact hs
  | ok n =>
    have hclaim := (claimPriv_claimed s.kernel rp n).modPriv (f := fun v =>
      { v with sFlags := flags, sTrapMask := trap })
      (fun _ => rfl) fun _ => rfl
    exact (hclaim.evenBut hs (findPriv_free hf)).fillTargets targets

lemma bootOne_even (hs : s.kernel.Even) (rp : Slot) : (s.bootOne rp).kernel.Even := by
  have hflags : ∀ {u : PrivState}, u.kernel.Even → (u.modKernel (bootFlags rp)).kernel.Even := by
    intro u hu
    refine hu.of_priv ?_
    unfold modKernel bootFlags
    simp only
    split <;> rfl
  unfold bootOne
  apply hflags
  split
  · exact bootRights_even hs ..
  split
  · exact bootRights_even hs ..
  · exact hs.of_priv rfl

lemma bootPrivs_even : bootPrivs.kernel.Even := by
  unfold bootPrivs
  generalize bootImage = image
  have hboot : ∀ {s : PrivState}, s.kernel.Even → (image.foldl bootOne s).kernel.Even := by
    induction image with
    | nil => exact fun h => h
    | cons rp l ih => exact fun h => ih (bootOne_even h rp)
  exact hboot cleared_even

/-! ## Runs -/

/-- A system process exits only when no mask names its structure; a request that fails after its
slot `n` is claimed was made with a structure that names no structure in use that can reply. -/
def Proper (s : PrivState) : PrivEvent → Prop
  | .exit rc => s.kernel.isemptyp rc = false → ∀ i, (s.kernel.proc rc).pPriv = some i →
      (s.kernel.priv i).sFlags &&& sysProc ≠ 0 →
    ∀ a, s.kernel.maySend a i = false
  | .privctl who m => ∀ rp a n j, s.Claims who m rp a n → s.Source who rp n j → ¬ (∀ x ∈ a, x.Fits) →
    ∀ b, b ≠ n → s.kernel.freePriv b = false → s.kernel.canReply b = true → s.kernel.maySend j b = false
  | _ => True

lemma Installed.claimed {rp : Slot} {n j : PrivId} {k : State} (h : s.Installed rp n j k) :
    Claimed n s.kernel k := by
  obtain ⟨flags, trap, hnew⟩ := h.new
  refine ⟨by rw [hnew], ?_, h.others⟩
  rw [freePriv, hnew]
  exact beq_false_of_ne (procNr_ne_none rp)

lemma Installed.maySend {rp : Slot} {n j b : PrivId} {k : State} (h : s.Installed rp n j k) :
    k.maySend n b = s.kernel.maySend j b := by
  obtain ⟨flags, trap, hnew⟩ := h.new
  rw [State.maySend, State.maySend, hnew]
  by_cases hj : j = n
  · subst hj
    rw [claimPriv, modPriv_priv, if_pos rfl, modProc_priv]
  · rw [claimPriv_others s.kernel hj]

variable {who rp : Slot} {m : PrivMsg} {e : PrivEvent} {r : Int}

def SameMasks (s t : State) : Prop :=
  ∀ i, (t.priv i).sId = (s.priv i).sId ∧ (t.priv i).sTrapMask = (s.priv i).sTrapMask ∧
  (t.priv i).sIpcTo = (s.priv i).sIpcTo ∧ (t.priv i).sProcNr = (s.priv i).sProcNr

lemma sameMasks_of_priv {s t : State} (h : t.priv = s.priv) : SameMasks s t := fun i => by
  rw [h]
  exact ⟨rfl, rfl, rfl, rfl⟩

lemma SameMasks.even {s t : State} (h : SameMasks s t) (hs : s.Even) : t.Even := by
  refine hs.congr (fun i => ⟨(h i).1, (h i).2.1, (h i).2.2.1⟩) fun a b hb => hs.noStale a b ?_
  rwa [freePriv, (h b).2.2.2] at hb

lemma addResource_same {flag : BitVec 16} {count : Rights → Int} {max : Nat} {add : Rights → Rights}
    (hok : s.addResource rp flag count max add = .ok (r, s')) : SameMasks s.kernel s'.kernel := by
  have hflag : ∀ i, SameMasks s.kernel (s.kernel.modPriv i fun v =>
    { v with sFlags := v.sFlags ||| flag }) := by
    intro i j
    rw [modPriv_priv]
    split <;> exact ⟨rfl, rfl, rfl, rfl⟩
  unfold addResource at hok
  split at hok
  · cases hok
    exact sameMasks_of_priv rfl
  obtain ⟨i, -, hok⟩ := bind_eq_ok.mp hok
  split at hok
  · cases hok
    exact sameMasks_of_priv rfl
  rcases ite_eq_iff.mp hok with ⟨-, hok⟩ | ⟨-, hok⟩
  · cases hok
    exact hflag i
  · cases hok
    exact hflag i

lemma privRequest_same {q : PrivRequest} (hq : ∀ arg, q ≠ .setSys arg)
    (hok : s.privRequest who rp q = .ok (r, s')) :
    SameMasks s.kernel s'.kernel := by
  have hstay : ∀ {x : Int}, Except.ok (ε := Stop) (x, s) = .ok (r, s') → SameMasks s.kernel s'.kernel := by
    intro x hok
    cases hok
    exact sameMasks_of_priv rfl
  cases q with
  | setSys arg => exact absurd rfl (hq arg)
  | addIo x =>
    simp only [privRequest, privAddIo] at hok
    exact addResource_same hok
  | addIrq x =>
    simp only [privRequest, privAddIrq] at hok
    exact addResource_same hok
  | queryMem addr len | other => exact hstay hok
  | disallow | setUser =>
    rcases ite_eq_iff.mp hok with ⟨-, hok⟩ | ⟨-, hok⟩
    · exact hstay hok
    · cases hok
      exact sameMasks_of_priv rfl
  | allow =>
    rcases ite_eq_iff.mp hok with ⟨-, hok⟩ | ⟨-, hok⟩
    · exact hstay hok
    obtain ⟨i, -, hok⟩ := bind_eq_ok.mp hok
    split at hok
    · exact hstay hok
    · cases hok
      exact sameMasks_of_priv rfl
  | addMem x =>
    cases x with
    | ok x =>
      simp only [privRequest, privCopyMem, privAddMem] at hok
      exact addResource_same hok
    | error e =>
      rcases ite_eq_iff.mp hok with ⟨-, hok⟩ | ⟨-, hok⟩
      · exact hstay hok
      obtain ⟨i, -, hok⟩ := bind_eq_ok.mp hok
      split at hok
      · exact hstay hok
      · exact hstay hok

lemma doPrivctl_same (hm : ∀ arg, m.ctlRequest ≠ .setSys arg) (hok : s.doPrivctl who m = .ok (r, s')) :
    SameMasks s.kernel s'.kernel := by
  obtain ⟨i, -, hok⟩ := bind_eq_ok.mp hok
  split at hok
  · cases hok
    exact sameMasks_of_priv rfl
  split at hok
  · cases hok
    exact sameMasks_of_priv rfl
  · exact privRequest_same hm hok

lemma doFork_priv {prEndpt map : Int} {child : Slot} {vminhibit : Bool} {k k' : State}
    (hok : doFork prEndpt child vminhibit map k = .ok (r, k')) : k'.priv = k.priv := by
  have hstay : ∀ {x : Int}, Except.ok (ε := Stop) (x, k) = .ok (r, k') → k'.priv = k.priv := by
    intro x hok
    rw [(ok_pair_inj hok).2]
  unfold doFork at hok
  split at hok
  · exact hstay hok
  split at hok
  · exact hstay hok
  split at hok
  · exact hstay hok
  obtain ⟨i, -, hok⟩ := bind_eq_ok.mp hok
  split at hok
  · exact hstay hok
  · cases hok
    rfl

lemma clearProc_kernel {rc : Slot} (hok : s.clearProc rc = .ok s') :
    Kernel.clearProc rc s.kernel = .ok s'.kernel := by
  obtain ⟨k, hk, hok⟩ := bind_eq_ok.mp hok
  refine hk.trans (congrArg Except.ok ?_)
  split at hok
  · cases hok
    rfl
  split at hok
  · cases hok
    rfl
  · cases hok
    rfl

lemma exit_even {rc : Slot} (hs : s.kernel.Even) (hok : s.clearProc rc = .ok s') :
    (s.Proper (.exit rc) → s'.kernel.Even) ∧ (s'.kernel.Balanced → s.Proper (.exit rc)) := by
  rcases clearProc_vacated (clearProc_kernel hok) with ⟨hempty, heq⟩ | ⟨hlive, hv⟩
  · rw [heq]
    exact ⟨fun _ => hs, fun _ hne => nomatch hempty.symm.trans hne⟩
  obtain ⟨i, hi, hnr⟩ := hv.procNr
  constructor
  · intro hp
    refine hs.congr hv.static fun a b hb => ?_
    have hb : (s'.kernel.priv b).sProcNr = endptNone := beq_iff_eq.mp hb
    rw [hnr] at hb
    by_cases hgone : b = i ∧ (s.kernel.priv i).sFlags &&& sysProc ≠ 0
    · obtain ⟨rfl, hsys⟩ := hgone
      exact hp hlive b hi hsys a
    · rw [if_neg hgone] at hb
      exact hs.noStale a b (beq_iff_eq.mpr hb)
  · intro hbal _ i' hi' hsys a
    obtain rfl := Option.some.inj (hi.symm.trans hi')
    have hfree : s'.kernel.freePriv i = true := by
      rw [freePriv, hnr, if_pos ⟨rfl, hsys⟩]
      rfl
    have hsend := hbal.noStale a i hfree
    rwa [State.maySend, (hv.static a).2.2] at hsend

lemma setSys_even {arg : Option (Copied PrivArg)} (hs : s.kernel.Even) (hm : m.ctlRequest = .setSys arg)
    (hok : s.doPrivctl who m = .ok (r, s')) :
    (s.Proper (.privctl who m) → s'.kernel.Even) ∧ (s'.kernel.Balanced → s.Proper (.privctl who m)) := by
  rcases doPrivctl_setSys hm hok with ⟨-, rfl, hno⟩ | ⟨rp, a, n, hc, hinst⟩
  · exact ⟨fun _ => hs, fun _ rp a n j hc => absurd hc (hno rp a n)⟩
  obtain ⟨j, k, hsource, hk, -, ⟨hfit, -, targets, heq⟩ | ⟨hfit, -, rfl, htrap⟩⟩ := installPriv_spec hinst
  · have heven := (hk.claimed.evenBut hs (findPriv_free hc.found)).fillTargets targets
    rw [← heq] at heven
    refine ⟨fun _ => heven, fun _ rp' a' n' j' hc' _ hnot => absurd ?_ hnot⟩
    obtain ⟨-, rfl, -⟩ := hc'.unique hc
    exact hfit
  · have hbut := hk.claimed.evenBut hs (findPriv_free hc.found)
    have hreply : s'.kernel.canReply n = true := by
      rw [canReply, htrap]
      decide
    have hothers : ∀ {b}, b ≠ n → s'.kernel.priv b = s.kernel.priv b := fun hb => hk.others _ hb
    constructor
    · intro hp
      have hnone : ∀ b, b ≠ n → s'.kernel.canReply b = true → s'.kernel.maySend n b = false := by
        intro b hb hr
        rw [hk.maySend]
        cases hfree : s.kernel.freePriv b with
        | true => exact hs.noStale j b hfree
        | false =>
          rw [canReply, hothers hb] at hr
          exact hp rp a n j hc hsource hfit b hb hfree hr
      refine ⟨hbut.id, fun a b ha hb => ?_, fun a b hb => ?_⟩
      · by_cases han : a = n
        · subst han
          by_cases hbn : b = a
          · rw [hbn]
          · rw [hnone b hbn hb, hbut.unnamed b hbn]
        · by_cases hbn : b = n
          · subst hbn
            rw [hnone a han ha, hbut.unnamed a han]
          · exact hbut.symm a b han hbn ha hb
      · by_cases han : a = n
        · subst han
          have hbn : b ≠ a := by
            rintro rfl
            rw [hbut.used] at hb
            nomatch hb
          rw [hk.maySend]
          rw [freePriv, hothers hbn] at hb
          exact hs.noStale j b hb
        · exact hbut.noStale a b han hb
    · intro hbal rp' a' n' j' hc' hsource' _ b hb hfree hr
      obtain ⟨rfl, rfl, rfl⟩ := hc'.unique hc
      obtain rfl : j' = j := Option.some.inj (hsource'.symm.trans hsource)
      have hfree' : s'.kernel.freePriv b = false := by rw [freePriv, hothers hb]; exact hfree
      have hr' : s'.kernel.canReply b = true := by rw [canReply, hothers hb]; exact hr
      have hsym := hbal.symm n' b hbut.used hfree' hreply hr'
      rw [hbut.unnamed b hb, hk.maySend] at hsym
      exact hsym

lemma step_even (hs : s.kernel.Even) (hok : s.step e = .ok s') :
    (s.Proper e → s'.kernel.Even) ∧ (s'.kernel.Balanced → s.Proper e) := by
  cases e with
  | exit rc => exact exit_even hs hok
  | fork prEndpt child vminhibit map =>
    obtain ⟨⟨r, k⟩, hk, hok⟩ := bind_eq_ok.mp hok
    cases hok
    exact ⟨fun _ => hs.of_priv (doFork_priv hk), fun _ => trivial⟩
  | setalarm who time absolute =>
    obtain ⟨⟨r, t⟩, ht, hok⟩ := bind_eq_ok.mp hok
    cases hok
    refine ⟨fun _ => hs.of_priv ?_, fun _ => trivial⟩
    obtain ⟨i, -, ht⟩ := bind_eq_ok.mp ht
    split at ht
    · rw [← (ok_pair_inj ht).2]
    · rw [← (ok_pair_inj ht).2]
      rfl
  | privctl who m =>
    obtain ⟨⟨r, t⟩, ht, hok⟩ := bind_eq_ok.mp hok
    cases hok
    by_cases hm : ∃ arg, m.ctlRequest = .setSys arg
    · obtain ⟨arg, hm⟩ := hm
      exact setSys_even hs hm ht
    · refine ⟨fun _ => (doPrivctl_same (fun arg harg => hm ⟨arg, harg⟩) ht).even hs, fun _ rp a n j hc => ?_⟩
      exact absurd ⟨_, hc.request⟩ hm

end PrivState

/-- In every run from the boot in which system processes exit only when no mask names them, and no
request fails with a slot claimed and a mask copied that names structures in use which can reply,
the masks are balanced in every state; and an event from a state so reached keeps them balanced only
if it is of that kind. -/
theorem masks_balanced {n : Nat} (tr : Trace PrivState.step n) (h0 : tr.state 0 = PrivState.bootPrivs)
    (hp : ∀ i < n, (tr.state i).Proper (tr.act i)) : (∀ i ≤ n, (tr.state i).kernel.Balanced) ∧
    ∀ e s', (tr.state n).step e = .ok s' → (s'.kernel.Balanced ↔ (tr.state n).Proper e) := by
  have heven : ∀ i ≤ n, (tr.state i).kernel.Even :=
    tr.invariant_of (fun s => s.kernel.Even) PrivState.Proper (h0 ▸ PrivState.bootPrivs_even) hp
      fun hs hproper hok => (PrivState.step_even hs hok).1 hproper
  refine ⟨fun i hi => (heven i hi).balanced, fun e s' hok => ?_⟩
  obtain ⟨hkeep, hneeds⟩ := PrivState.step_even (heven n le_rfl) hok
  exact ⟨hneeds, fun h => (hkeep h).balanced⟩

/-! ## The exit of a driver -/

/-- The processes of the boot image that wait for the root system process, in slot 6. -/
def bootServices : List Int := [0, 1, 3, 4, 5, 6, 7, 8, 9, 10, 11]

/-- All get a structure with the default targets, and then the log driver exits. -/
def logExits (i : Nat) : PrivEvent :=
  match bootServices[i]? with
  | some nr => .privctl 6 ⟨nr, .setSys none⟩
  | none => .exit 8

def logExited : Trace PrivState.step 12 :=
  Trace.run PrivState.step PrivState.bootPrivs logExits 12 (by decide +kernel)

theorem exit_leaves_stale_bit :
    ∃ tr : Trace PrivState.step 12, tr.state 0 = PrivState.bootPrivs ∧ tr.act 11 = .exit 8 ∧
      (tr.state 12).kernel.freePriv 19 = true ∧ (tr.state 12).kernel.maySend 6 19 = true ∧
      ¬ (tr.state 12).kernel.Balanced := by
  have hfree : (logExited.state 12).kernel.freePriv 19 = true := by decide +kernel
  have hsend : (logExited.state 12).kernel.maySend 6 19 = true := by decide +kernel
  exact ⟨logExited, rfl, rfl, hfree, hsend, fun h => nomatch hsend.symm.trans (h.noStale 6 19 hfree)⟩

/-- Requests without a structure of the caller's own cannot fail late. -/
theorem masks_balanced_services :
    (logExited.state 11).kernel.Balanced ∧ (logExited.state 11).kernel.maySend 6 19 = true := by
  let tr : Trace PrivState.step 11 := ⟨logExited.state, logExited.act, fun i hi => logExited.ok i (by omega)⟩
  have hproper : ∀ i < 11, (tr.state i).Proper (tr.act i) := by
    intro i hi
    have hact : ∃ nr, tr.act i = .privctl 6 ⟨nr, .setSys none⟩ := by
      have hlen : i < bootServices.length := hi
      refine ⟨bootServices[i], ?_⟩
      change logExits i = _
      rw [logExits, List.getElem?_eq_getElem hlen]
    obtain ⟨nr, hact⟩ := hact
    rw [hact]
    intro rp a n j hc _ hnot
    have hnone : a = none := Option.map_eq_none_iff.mp (PrivRequest.setSys.inj hc.request).symm
    subst hnone
    exact absurd nofun hnot
  exact ⟨(masks_balanced tr rfl hproper).1 11 le_rfl, by decide +kernel⟩

end Nucleos.Kernel
