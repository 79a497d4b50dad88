import Nucleos.Inet.Options
import Nucleos.Inet.Reassembly

/-!
# Packets that arrive from the network

`ip_frag_chk` lets a packet pass. A fragment goes to the entry of its datagram, and what is whole
goes to the descriptors that want it. A descriptor without a read keeps the packet for the next
one. -/

namespace Nucleos.Inet

open Run Function

def ipVersion : Nat := 4
def ipAssNr : Nat := 3
def ipMaxTtl : Nat := 255

/-- The port and what names a datagram there. -/
structure Name where
  port : Nat
  src : Nat
  dst : Nat
  proto : Nat
  id : Nat
deriving DecidableEq, Repr

/-- `ip_ass_t`. -/
structure AssEnt where
  name : Name
  entry : Entry

/-- `ip_fd_t`. A descriptor of another server takes its packets by `if_put_pkt`. -/
structure IpFd where
  inUse : Bool
  readIp : Bool
  rwDatOnly : Bool
  putPkt : Bool
  rdbuf : List Packet

/-- Why the server ends: an assertion, or no entry to follow. -/
inductive Crash where
  | merge (a : Assert)
  | noEntry
  | fragment
  | size
  | notInUse
  | header
  | noData
deriving DecidableEq, Repr

/-- `passedOn` are the packets that `ip_packet2user` was called with. -/
structure Ip where
  table : Fin ipAssNr → AssEnt
  fds : Nat → IpFd
  passedOn : List Packet

/-- A packet from the network with the port and the time; `wants` are the descriptors it is for. -/
structure Arrival where
  port : Nat
  buf : List UInt8
  now : Nat
  wants : List Nat

def words : List UInt8 → List Nat
  | [] => []
  | [a] => [a.toNat]
  | a :: b :: l => (a.toNat + b.toNat * 256) :: words l

/-- `oneC_sum` of data at an even address. -/
def oneCSum (prev : Nat) (data : List UInt8) : BitVec 16 :=
  let sum := prev + (words data).sum
  let sum := sum % 2 ^ 16 + sum / 2 ^ 16
  BitVec.ofNat 16 (if sum > 0xFFFF then sum + 1 else sum)

namespace Arrival
variable (a : Arrival)

def byte (i : Nat) : Nat := (a.buf.getD i 0).toNat

def word (i : Nat) : Nat := a.byte i * 256 + a.byte (i + 1)

def ihl : Nat := a.byte 0 &&& ihIhlMask

def name : Name := ⟨a.port, a.word 12 * 65536 + a.word 14, a.word 16 * 65536 + a.word 18,
    a.byte 9, a.word 4⟩

def packet : Packet := ⟨a.ihl, a.word 2, a.word 6 &&& 0x1FFF, a.word 6 &&& 0x2000 ≠ 0,
    a.buf.drop (a.ihl * 4)⟩

end Arrival

def ipFragChk (a : Arrival) : Prop :=
  ipMinHdrSize ≤ a.buf.length ∧ a.ihl * 4 ≤ a.buf.length ∧ a.byte 0 >>> 4 = ipVersion ∧
    a.word 2 = a.buf.length ∧
    ~~~ oneCSum 0 (a.buf.take (a.ihl * 4)) = 0 ∧
    (ipMinHdrSize < a.ihl * 4 → ipChkHdropt (fun i => a.buf.getD (ipMinHdrSize + i) 0)
      (a.ihl * 4 - ipMinHdrSize : Nat) (a.ihl * 4) =
      some (.returned 0))

instance (a : Arrival) : Decidable (ipFragChk a) := inferInstanceAs (Decidable (_ ∧ _))

def AssEnt.strange (x : AssEnt) : Bool := x.entry.frags.isEmpty && x.entry.firstTime != 0

def older (table : Fin ipAssNr → AssEnt) (best : Option (Fin ipAssNr)) (i : Fin ipAssNr) :
    Option (Fin ipAssNr) :=
  if (table i).strange then best
  else
    match best with
    | none => some i
    | some j => if (table i).entry.firstTime < (table j).entry.firstTime then some i else some j

def findAssEnt (name : Name) (now : Nat) (table : Fin ipAssNr → AssEnt) :
    Option (Fin ipAssNr × AssEnt) :=
  match (List.finRange ipAssNr).find? fun i => !(table i).strange && (table i).name == name with
  | some i => some (i, table i)
  | none => ((List.finRange ipAssNr).foldl (older table) none).map fun i =>
      (i, ⟨name, ⟨[], now, ipMaxTtl⟩⟩)

def ipPacket2user (pack : Packet) (dataLen : Nat) (s : Ip) (fd : Nat) : Except Crash Ip :=
  let x := s.fds fd
  let s := { s with passedOn := pack :: s.passedOn }
  if x.inUse = false then .error .notInUse
  else if x.readIp = false then .ok
    { s with fds := update s.fds fd { x with rdbuf := x.rdbuf ++ [pack] } }
  else if pack.bufsize < ipMinHdrSize then .error .header
  else if x.rwDatOnly = true ∧ dataLen ≤ pack.hdrSize then .error .noData
  else .ok { s with fds := update s.fds fd { x with readIp := x.putPkt } }

/-- `ip_port_arrive` from the place on where the packet is whole. The lists of a port hold
descriptors in use only. -/
def passOn (pack : Packet) (wants : List Nat) (s : Ip) : Except Crash Ip :=
  if pack.length > pack.bufsize then .error .size
  else (wants.filter fun fd => (s.fds fd).inUse).foldlM (ipPacket2user pack pack.length) s

def ipPortArrive (hz : Nat) (a : Arrival) (s : Ip) : Except Crash Ip :=
  if a.packet.whole = true then passOn a.packet a.wants s
  else
    match findAssEnt a.name a.now s.table with
    | none => .error .noEntry
    | some (i, ent) =>
      match reassemble hz a.packet a.now ent.entry with
      | .error x => .error (.merge x)
      | .ok (e, r) =>
        let s := { s with table := update s.table i ⟨ent.name, e⟩ }
        match r with
        | none => .ok s
        | some q => if q.whole = false then .error .fragment else passOn q a.wants s

/-- `late` says that the packets kept for the descriptor have expired. -/
def ipRead (fd : Nat) (late : Bool) (s : Ip) : Except Crash Ip :=
  let x := s.fds fd
  match x.rdbuf with
  | [] => .ok { s with fds := update s.fds fd { x with readIp := true } }
  | pack :: rest =>
    if late = true then .ok { s with fds := update s.fds fd { x with readIp := true, rdbuf := [] } }
    else ipPacket2user pack pack.bufsize
      { s with fds := update s.fds fd { x with readIp := true, rdbuf := rest } } fd

/-- Opening, closing and setting options leave a descriptor that keeps no packets. -/
inductive NetEvent where
  | arrive (a : Arrival)
  | read (fd : Nat) (late : Bool)
  | setFd (fd : Nat) (inUse readIp rwDatOnly putPkt : Bool)

def ipStep (hz : Nat) (s : Ip) : NetEvent → Except Crash Ip
  | .arrive a => if ipFragChk a then ipPortArrive hz a s else .ok s
  | .read fd late => if (s.fds fd).inUse = true then ipRead fd late s else .ok s
  | .setFd fd inUse readIp rwDatOnly putPkt =>
      .ok { s with fds := update s.fds fd ⟨inUse, readIp, rwDatOnly, putPkt, []⟩ }

def ipInit (fds : Nat → IpFd) : Ip := ⟨fun _ => ⟨⟨0, 0, 0, 0, 0⟩, ⟨[], 0, 0⟩⟩, fds, []⟩

/-- The header has its fixed part, there is data behind it, and with the longest header all up to
the end of the data would fit into the length field. -/
structure Decent (p : Packet) : Prop where
  hdrSize : ipMinHdrSize ≤ p.hdrSize ∧ p.hdrSize ≤ 60
  data : 0 < p.data.length
  stop : p.stop + 60 < 65536

def NetEvent.Decent : NetEvent → Prop
  | .arrive a => ipFragChk a → Inet.Decent a.packet
  | _ => True

def Fine (p : Packet) : Prop := Decent p ∧ p.length = p.bufsize

variable {p q : Packet} {l : List Packet} {e : Entry} {s : Ip}

section Merge

lemma Fine.join (h : Fine p) (hq : Fine q) (hmeet : q.offset ≤ p.stop) (hlt : p.stop < q.stop) :
    Fine (p.join q) := by
  have hend := join_stop h.2 hq.2 hmeet hlt
  have hlen := join_data_length h.2 hq.2 hmeet hlt
  have hhdr := h.1.hdrSize.2
  have hstop := hq.1.stop
  refine ⟨⟨h.1.hdrSize, by omega, hend ▸ hq.1.stop⟩, join_length h.2 hq.2 hmeet hlt (by omega)⟩

lemma closed_fine : Closed Fine := ⟨And.right, Fine.join⟩

/-- An entry that holds fine fragments; one that holds none has no time. -/
def EntryOk (e : Entry) : Prop := (∀ f ∈ e.frags, Fine f) ∧ (e.frags = [] → e.firstTime = 0)

lemma reassemble_fine (hz now : Nat) (hp : Fine p) (he : ∀ f ∈ e.frags, Fine f) :
    ∃ e' r, reassemble hz p now e = .ok (e', r) ∧ EntryOk e' ∧ ∀ q ∈ r, Fine q ∧
      q.whole = true := by
  unfold reassemble
  split
  · exact ⟨_, _, rfl, ⟨fun f hf => List.mem_singleton.mp hf ▸ hp, nofun⟩, nofun⟩
  obtain ⟨hplace, hne, hfine⟩ := closed_fine.place hp he
  rw [hplace]
  generalize placed p e.frags = l' at hne hfine
  by_cases hw : l'.head?.any Packet.whole
  · by_cases hlate : e.minTtl * hz + e.firstTime < now
    · exact ⟨_, _, (if_pos hw).trans (if_pos hlate), ⟨nofun, fun _ => rfl⟩, nofun⟩
    · refine ⟨_, _, (if_pos hw).trans (if_neg hlate), ⟨nofun, fun _ => rfl⟩, fun q hq => ?_⟩
      rw [Option.mem_def.mp hq] at hw
      exact ⟨hfine q (List.mem_of_head? hq), hw⟩
  · exact ⟨_, _, if_neg hw, ⟨hfine, fun h => absurd h hne⟩, nofun⟩

end Merge

structure IpOk (s : Ip) : Prop where
  entry : ∀ i, EntryOk (s.table i).entry
  rdbuf : ∀ fd, ∀ p ∈ (s.fds fd).rdbuf, Fine p
  passedOn : ∀ p ∈ s.passedOn, Fine p

section Step

lemma rdbuf_update {fds : Nat → IpFd} (h : ∀ fd, ∀ p ∈ (fds fd).rdbuf, Fine p) {fd : Nat} {x : IpFd}
    (hx : ∀ p ∈ x.rdbuf, Fine p) :
    ∀ fd', ∀ p ∈ (update fds fd x fd').rdbuf, Fine p := by
  intro fd'
  by_cases hfd : fd' = fd
  · rw [hfd, update_self]
    exact hx
  · rw [update_of_ne hfd]
    exact h fd'

lemma ipPacket2user_fine (hs : IpOk s) (hp : Fine p) (fd : Nat) (huse : (s.fds fd).inUse = true)
    {n : Nat} (hn : n = p.bufsize) :
    ∃ s', ipPacket2user p n s fd = .ok s' ∧ IpOk s' ∧ ∀ fd',
      (s'.fds fd').inUse = (s.fds fd').inUse := by
  have hpassed : ∀ q ∈ p :: s.passedOn, Fine q := List.forall_mem_cons.mpr ⟨hp, hs.passedOn⟩
  have huses : ∀ x : IpFd, x.inUse = (s.fds fd).inUse → ∀ fd',
    (update s.fds fd x fd').inUse = (s.fds fd').inUse := by
    intro x hx fd'
    by_cases hfd : fd' = fd
    · rw [hfd, update_self, hx]
    · rw [update_of_ne hfd]
  have hhdr := hp.1.hdrSize.1
  have hdata := hp.1.data
  have hbuf : p.bufsize = p.hdrSize + p.data.length := rfl
  rw [ipPacket2user, if_neg (Bool.eq_false_iff.not.mpr (not_not.mpr huse))]
  split
  · refine ⟨_, rfl, ⟨hs.entry, rdbuf_update hs.rdbuf fun q hq => ?_, hpassed⟩, huses _ rfl⟩
    exact (List.mem_append.mp hq).elim (hs.rdbuf fd q) fun h => List.mem_singleton.mp h ▸ hp
  · rw [if_neg (by omega), if_neg (by omega)]
    exact ⟨_, rfl, ⟨hs.entry, rdbuf_update hs.rdbuf (hs.rdbuf fd), hpassed⟩, huses _ rfl⟩

lemma passOn_fine (hs : IpOk s) (hp : Fine p) (wants : List Nat) :
    ∃ s', passOn p wants s = .ok s' ∧ IpOk s' := by
  rw [passOn, if_neg (Nat.not_lt.mpr hp.2.le)]
  have huse : ∀ fd ∈ wants.filter fun fd => (s.fds fd).inUse, (s.fds fd).inUse = true :=
    fun fd hfd => (List.mem_filter.mp hfd).2
  generalize wants.filter (fun fd => (s.fds fd).inUse) = l at huse
  induction l generalizing s with
  | nil => exact ⟨s, rfl, hs⟩
  | cons fd rest ih =>
    obtain ⟨s₁, h₁, hs₁, huse₁⟩ := ipPacket2user_fine hs hp fd (huse fd (.head _)) hp.2
    obtain ⟨s', h', hs'⟩ := ih hs₁ fun fd' hfd' => (huse₁ fd').trans (huse fd' (.tail _ hfd'))
    exact ⟨s', by rw [List.foldlM_cons, h₁]; exact h', hs'⟩

lemma foldl_older {table : Fin ipAssNr → AssEnt} (h : ∀ i, (table i).strange = false)
    (l : List (Fin ipAssNr))
    (best : Option (Fin ipAssNr)) (hne : best ≠ none ∨ l ≠ []) :
    l.foldl (older table) best ≠ none := by
  induction l generalizing best with
  | nil => exact hne.resolve_right fun h => h rfl
  | cons i rest ih =>
    refine ih _ (.inl ?_)
    cases best with
    | none =>
      simp only [older, h i, Bool.false_eq_true, if_false]
      exact nofun
    | some j =>
      simp only [older, h i, Bool.false_eq_true, if_false]
      split
      · exact nofun
      · exact nofun

lemma findAssEnt_fine (hs : ∀ i, EntryOk (s.table i).entry) (name : Name) (now : Nat) :
    ∃ i ent, findAssEnt name now s.table = some (i, ent) ∧ ∀ f ∈ ent.entry.frags, Fine f := by
  have hstrange : ∀ i, (s.table i).strange = false := by
    intro i
    refine Bool.eq_false_iff.mpr fun h => ?_
    rw [AssEnt.strange, Bool.and_eq_true, List.isEmpty_iff, bne_iff_ne] at h
    exact h.2 ((hs i).2 h.1)
  unfold findAssEnt
  cases hfind : (List.finRange ipAssNr).find? fun i => !(s.table i).strange &&
    (s.table i).name == name with
  | some i => exact ⟨i, s.table i, rfl, (hs i).1⟩
  | none =>
    obtain ⟨i, hi⟩ := Option.ne_none_iff_exists'.mp (foldl_older hstrange (List.finRange ipAssNr)
      none (.inr nofun))
    exact ⟨i, ⟨name, ⟨[], now, ipMaxTtl⟩⟩, by rw [hi]; rfl, nofun⟩

lemma ipStep_fine (hz : Nat) (hs : IpOk s) {ev : NetEvent} (hev : ev.Decent) :
    ∃ s', ipStep hz s ev = .ok s' ∧ IpOk s' := by
  cases ev with
  | setFd fd => exact ⟨_, rfl, hs.entry, rdbuf_update hs.rdbuf nofun, hs.passedOn⟩
  | read fd late =>
    rw [ipStep]
    by_cases huse : (s.fds fd).inUse = true
    swap
    · exact ⟨s, if_neg huse, hs⟩
    rw [if_pos huse, ipRead]
    have hrd := hs.rdbuf fd
    cases hbuf : (s.fds fd).rdbuf with
    | nil => exact ⟨_, rfl, hs.entry, rdbuf_update hs.rdbuf (hbuf ▸ hrd), hs.passedOn⟩
    | cons p rest =>
      rw [hbuf] at hrd
      obtain ⟨hp, hrest⟩ := List.forall_mem_cons.mp hrd
      simp only
      split
      · exact ⟨_, rfl, hs.entry, rdbuf_update hs.rdbuf nofun, hs.passedOn⟩
      obtain ⟨s', hs', hok, -⟩ := ipPacket2user_fine
        (s := { s with fds := update s.fds fd { s.fds fd with readIp := true, rdbuf := rest } })
        ⟨hs.entry, rdbuf_update hs.rdbuf hrest,
          hs.passedOn⟩ hp fd (by simp only [update_self]; exact huse) rfl
      exact ⟨s', hs', hok⟩
  | arrive a =>
    rw [ipStep]
    by_cases hchk : ipFragChk a
    swap
    · exact ⟨s, if_neg hchk, hs⟩
    rw [if_pos hchk, ipPortArrive]
    have hp : Fine a.packet := by
      refine ⟨hev hchk, ?_⟩
      have hle := hchk.2.1
      rw [Packet.bufsize, Packet.hdrSize, Arrival.packet, List.length_drop, hchk.2.2.2.1]
      simp only
      omega
    split
    · exact passOn_fine hs hp a.wants
    obtain ⟨i, ent, hfind, hent⟩ := findAssEnt_fine hs.entry a.name a.now
    obtain ⟨e, r, hre, he, hr⟩ := reassemble_fine hz a.now hp hent
    have hs' : IpOk { s with table := update s.table i ⟨ent.name, e⟩ } := by
      refine ⟨fun j => ?_, hs.rdbuf, hs.passedOn⟩
      by_cases hj : j = i
      · simp only [hj, update_self]
        exact he
      · simp only [update_of_ne hj]
        exact hs.entry j
    simp only [hfind, hre]
    cases r with
    | none => exact ⟨_, rfl, hs'⟩
    | some q =>
      obtain ⟨hq, hqw⟩ := hr q rfl
      simp only [hqw, Bool.true_eq_false, if_false]
      exact passOn_fine hs' hq a.wants

end Step

/-- Whatever decent packets and fragments arrive, in whatever order, and whatever the descriptors
and their options are: no assertion fails, and what is passed on has a header and the length that it
says. -/
theorem decent_packets_survived (hz : Nat) (fds : Nat → IpFd) (hfds : ∀ fd, (fds fd).rdbuf = [])
    (events : List NetEvent)
    (hdecent : ∀ ev ∈ events, ev.Decent) : ∃ s, events.foldlM (ipStep hz) (ipInit fds) = .ok s ∧
      ∀ p ∈ s.passedOn, ipMinHdrSize ≤ p.hdrSize ∧ p.length = p.bufsize := by
  have hinit : IpOk (ipInit fds) := by
    refine ⟨fun _ => ⟨nofun, fun _ => rfl⟩, fun fd p hp => ?_, nofun⟩
    have hnil : ((ipInit fds).fds fd).rdbuf = [] := hfds fd
    rw [hnil] at hp
    nomatch hp
  have hrun : ∀ (l : List NetEvent) (s : Ip), IpOk s → (∀ ev ∈ l, ev.Decent) →
    ∃ s', l.foldlM (ipStep hz) s = .ok s' ∧ IpOk s' := by
    intro l
    induction l with
    | nil => exact fun s hs _ => ⟨s, rfl, hs⟩
    | cons ev rest ih =>
      intro s hs hl
      obtain ⟨s₁, h₁, hs₁⟩ := ipStep_fine hz hs (hl ev (.head _))
      obtain ⟨s', h', hs'⟩ := ih s₁ hs₁ fun ev' hev' => hl ev' (.tail _ hev')
      exact ⟨s', by rw [List.foldlM_cons, h₁]; exact h', hs'⟩
  obtain ⟨s, hs, hok⟩ := hrun events (ipInit fds) hinit hdecent
  exact ⟨s, hs, fun p hp => ⟨(hok.passedOn p hp).1.hdrSize.1, (hok.passedOn p hp).2⟩⟩

def reader (rwDatOnly : Bool) (fd : Nat) : IpFd := ⟨fd == 0, true, rwDatOnly, false, []⟩

/-- A packet for somebody at 10.0.0.2 from 10.0.0.1, with an identification and a sum. -/
def plain (versIhl len id₀ id₁ sum₀ sum₁ : UInt8) : Arrival :=
  ⟨0, [versIhl, 0, 0, len, id₀, id₁, 0, 0, 64, 17, sum₀, sum₁, 10, 0, 0, 1, 10, 0, 0, 2] ++
    List.replicate (len.toNat - 20) 0, 1, [0]⟩

theorem plain_survived : ∃ s, [NetEvent.arrive (plain 0x45 28 0 0 0x66 0xCF)].foldlM (ipStep 60)
    (ipInit (reader true)) = .ok s ∧
    ipFragChk (plain 0x45 28 0 0 0x66 0xCF) ∧ ∀ p ∈ s.passedOn, ipMinHdrSize ≤ p.hdrSize ∧
      p.length = p.bufsize := by
  obtain ⟨s, hs, hall⟩ := decent_packets_survived 60 (reader true) (fun _ => rfl)
    [.arrive (plain 0x45 28 0 0 0x66 0xCF)] fun ev hev => by
    rw [List.mem_singleton.mp hev]
    exact fun _ => ⟨by decide, by decide, by decide⟩
  exact ⟨s, hs, by decide +kernel, hall⟩

/-- A packet without data ends the server when somebody reads data only; one with a header of eight
bytes, over which the sum fits, is passed on. -/
theorem bare_packets_crash :
    failure ([NetEvent.arrive (plain 0x45 20 0 0 0x66 0xD7)].foldlM (ipStep 60)
      (ipInit (reader true))) = some .noData ∧
    ∃ s, [NetEvent.arrive (plain 0x42 20 0xBD 0xEB 0 0)].foldlM (ipStep 60)
      (ipInit (reader false)) = .ok s ∧
      ∃ p ∈ s.passedOn, p.hdrSize = 8 := by
  refine ⟨by decide +kernel, _, rfl, (plain 0x42 20 0xBD 0xEB 0 0).packet, ?_, rfl⟩
  exact .head _

end Nucleos.Inet
