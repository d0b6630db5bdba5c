import Apos.ReceiveLoops

/-!
# The probes of the split-brain check

Before a node takes the active role it asks for the addresses of the other node, by ARP
(`HA_AGENT_Arping`) on the own network and by ICMP (`HA_AGENT_Ping`) across it.  Each probe
sends a request and waits for the reply on a socket on which all other traffic of its kind
arrives too.

The ARP loop passes over packets that are meant for others, but gives up on a packet that is
damaged.  The ICMP loop passes over everything, but compares 16-bit fields of the reply with
the process number and the sequence number as they were before they were stored in 16 bits.
-/

namespace Apos.DrbdAgent

/-! ## Packets -/

def byteAt (bytes : List UInt8) (place : Nat) : Nat :=
  (bytes.getD place 0).toNat

def wordAt (bytes : List UInt8) (place : Nat) : Nat :=
  byteAt bytes place * 256 + byteAt bytes (place + 1)

def bytesAt (bytes : List UInt8) (place count : Nat) : List Nat :=
  (List.range count).map fun index => byteAt bytes (place + index)

/-! ## ARP -/

/-- A packet with the fields `sll_pkttype` and `sll_hatype` of its origin. -/
structure ArpPacket where
  bytes : List UInt8
  pkttype : Nat
  hatype : Nat
  deriving DecidableEq, Repr

/-- The class data of a probe: `m_curr`, `m_src` and `m_dst`. -/
structure Arping where
  halen : Nat
  addr : List Nat
  src : List Nat
  dst : List Nat
  deriving DecidableEq, Repr

namespace ArpPacket

variable (packet : ArpPacket)

/-- The length that `recvfrom` returns for a buffer of 4096 bytes. -/
def cc : Nat :=
  min packet.bytes.length 4096

def arHrd : Nat := wordAt packet.bytes 0

def arPro : Nat := wordAt packet.bytes 2

def arHln : Nat := byteAt packet.bytes 4

def arPln : Nat := byteAt packet.bytes 5

def arOp : Nat := wordAt packet.bytes 6

def senderIp : List Nat := bytesAt packet.bytes (8 + packet.arHln) 4

def targetMac : List Nat := bytesAt packet.bytes (8 + packet.arHln + 4) packet.arHln

def targetIp : List Nat := bytesAt packet.bytes (8 + packet.arHln + 4 + packet.arHln) 4

/-- `PACKET_HOST`, `PACKET_BROADCAST` or `PACKET_MULTICAST`. -/
def isForUs : Bool :=
  packet.pkttype = 0 || packet.pkttype = 1 || packet.pkttype = 2

/-- The hardware types agree; Ethernet is accepted on an FDDI interface. -/
def hardwareMatches : Bool :=
  packet.arHrd = packet.hatype || (packet.hatype = 774 && packet.arHrd = 1)

def headerMatches (probe : Arping) : Bool :=
  packet.arPro = 0x0800 && packet.arPln = 4 && packet.arHln = probe.halen &&
    8 + 2 * (4 + packet.arHln) ≤ packet.cc

def isReply : Bool :=
  packet.arOp = 2

def fromProbed (probe : Arping) : Bool :=
  packet.senderIp = probe.dst

def toUs (probe : Arping) : Bool :=
  packet.targetIp = probe.src && packet.targetMac = probe.addr

end ArpPacket

/-- What `recv_resp` makes of one packet. -/
def inspectArp (probe : Arping) (packet : ArpPacket) : Verdict :=
  if packet.cc = 0 then .giveUp
  else if !packet.isForUs then .giveUp
  else if !packet.isReply then .goOn
  else if !packet.hardwareMatches then .giveUp
  else if !packet.headerMatches probe then .giveUp
  else if !packet.fromProbed probe then .goOn
  else if !packet.toUs probe then .goOn
  else .succeed

def recvResp (probe : Arping) (packets : List ArpPacket) : Int :=
  if Verdict.succeeds (inspectArp probe) packets then 0 else -1

structure AnswersArp (probe : Arping) (packet : ArpPacket) : Prop where
  reply : packet.isReply = true
  hardware : packet.hardwareMatches = true
  header : packet.headerMatches probe = true
  sender : packet.fromProbed probe = true
  target : packet.toUs probe = true

def ArpPacket.disturbs (packet : ArpPacket) (probe : Arping) : Bool :=
  packet.cc = 0 || !packet.isForUs ||
    (packet.isReply && !(packet.hardwareMatches && packet.headerMatches probe))

theorem inspectArp_eq (probe : Arping) (packet : ArpPacket) :
    inspectArp probe packet =
      if packet.disturbs probe then .giveUp
      else if packet.isReply && packet.fromProbed probe && packet.toUs probe then .succeed
      else .goOn := by
  unfold inspectArp ArpPacket.disturbs
  by_cases empty : packet.cc = 0
  · simp [empty]
  · cases packet.isForUs <;> cases packet.isReply <;> cases packet.hardwareMatches <;>
      cases packet.headerMatches probe <;> cases packet.fromProbed probe <;>
      cases packet.toUs probe <;> simp [empty]

theorem inspectArp_eq_giveUp_iff (probe : Arping) (packet : ArpPacket) :
    inspectArp probe packet = .giveUp ↔ packet.disturbs probe = true := by
  rw [inspectArp_eq]
  split
  · simp [*]
  · split <;> simp [*]

theorem answersArp_of_succeed {probe : Arping} {packet : ArpPacket}
    (succeeds : inspectArp probe packet = .succeed) : AnswersArp probe packet := by
  rw [inspectArp_eq] at succeeds
  by_cases disturbs : packet.disturbs probe = true
  · rw [if_pos disturbs] at succeeds
    cases succeeds
  · rw [if_neg disturbs] at succeeds
    by_cases accepted : packet.isReply && packet.fromProbed probe && packet.toUs probe
    · simp only [Bool.and_eq_true] at accepted
      obtain ⟨⟨reply, sender⟩, target⟩ := accepted
      simp [ArpPacket.disturbs, reply] at disturbs
      exact ⟨reply, disturbs.2.1, disturbs.2.2, sender, target⟩
    · rw [if_neg accepted] at succeeds
      cases succeeds

theorem not_answersArp_of_goOn {probe : Arping} {packet : ArpPacket}
    (passes : inspectArp probe packet = .goOn) : ¬AnswersArp probe packet := by
  rintro ⟨reply, -, -, sender, target⟩
  rw [inspectArp_eq, reply, sender, target] at passes
  split at passes <;> simp at passes

/-- `recv_resp` returns 0 if and only if a reply is among the packets, and no other packet
makes it return early. -/
structure RecognisesReplies (probe : Arping) (packets : List ArpPacket) : Prop where
  exact : recvResp probe packets = 0 ↔ ∃ packet ∈ packets, AnswersArp probe packet
  patient : ∀ packet, Verdict.endsAt (inspectArp probe) packets = some packet →
    AnswersArp probe packet

theorem recvResp_eq_zero_iff (probe : Arping) (packets : List ArpPacket) :
    recvResp probe packets = 0 ↔ Verdict.succeeds (inspectArp probe) packets = true := by
  unfold recvResp
  split <;> simp [*]

/-- The probe is complete and sound if and only if no packet up to the first reply disturbs
it. -/
theorem recognises_replies_iff (probe : Arping) (packets : List ArpPacket) :
    RecognisesReplies probe packets ↔
      ∀ earlier packet later, packets = earlier ++ packet :: later →
        (∀ other ∈ earlier, ¬AnswersArp probe other) → packet.disturbs probe = false := by
  have awaits := Verdict.awaits_iff (fun packet => @answersArp_of_succeed probe packet)
    (fun packet => @not_answersArp_of_goOn probe packet) packets
  simp only [Ne, inspectArp_eq_giveUp_iff, Bool.not_eq_true] at awaits
  rw [← awaits]
  constructor
  · rintro ⟨exact, patient⟩
    exact ⟨(recvResp_eq_zero_iff probe packets).symm.trans exact, patient⟩
  · rintro ⟨succeeds, patient⟩
    exact ⟨(recvResp_eq_zero_iff probe packets).trans succeeds, patient⟩

/-- We are 10.0.0.1 with the address 02:00:00:00:00:01 and look for 10.0.0.2. -/
def sampleArping : Arping :=
  ⟨6, [2, 0, 0, 0, 0, 1], [10, 0, 0, 1], [10, 0, 0, 2]⟩

def sampleReply : ArpPacket :=
  ⟨[0, 1, 8, 0, 6, 4, 0, 2, 2, 0, 0, 0, 0, 2, 10, 0, 0, 2, 2, 0, 0, 0, 0, 1, 10, 0, 0, 1], 0, 1⟩

/-- A packet for another host comes before the reply: the reply is not looked at. -/
theorem reply_missed_after_other_packet :
    AnswersArp sampleArping sampleReply ∧
      recvResp sampleArping [⟨[0, 1], 3, 1⟩, sampleReply] = -1 ∧
      ¬RecognisesReplies sampleArping [⟨[0, 1], 3, 1⟩, sampleReply] := by
  have isAnswer : AnswersArp sampleArping sampleReply := by
    constructor <;> decide +kernel
  refine ⟨isAnswer, by decide +kernel, fun recognises => ?_⟩
  have missed := recognises.exact.mpr ⟨sampleReply, by simp, isAnswer⟩
  revert missed
  decide +kernel

/-! ## ICMP -/

/-- A packet, and the microseconds since the request when it has been looked at. -/
structure PingArrival where
  bytes : List UInt8
  elapsed : Nat
  deriving DecidableEq, Repr

/-- The process number, the sequence number and `ysecs`. -/
structure Pinging where
  pid : Nat
  pingSeqNum : Nat
  ysecs : Nat
  deriving DecidableEq, Repr

def fieldAt (bytes : List UInt8) (place : Nat) : Nat :=
  byteAt bytes place + byteAt bytes (place + 1) * 256

/-- The request: type and code, a checksum, identifier and sequence number. -/
def Pinging.icmpId (ping : Pinging) : Nat :=
  ping.pid % 65536

def Pinging.icmpSeq (ping : Pinging) : Nat :=
  ping.pingSeqNum % 65536

def Pinging.timeout (ping : Pinging) : Nat :=
  ping.ysecs * 1000 % 4294967296

def packetlen : Nat :=
  56 + 60 + 76

/-- `ICMP_ECHOREPLY` with the numbers of the probe, where the ICMP part begins after a header
of the given length. -/
def acceptsAt (hlen id seq : Nat) (bytes : List UInt8) : Bool :=
  hlen + 8 ≤ min bytes.length packetlen && byteAt bytes hlen = 0 &&
    fieldAt bytes (hlen + 6) = seq && fieldAt bytes (hlen + 4) = id

/-- What `send_ping` makes of one packet.  The length of the IP header is taken to be that of
`struct ip`. -/
def inspectPing (ping : Pinging) (arrival : PingArrival) : Verdict :=
  if acceptsAt 20 ping.pid ping.pingSeqNum arrival.bytes then .succeed
  else if ping.timeout < arrival.elapsed then .giveUp
  else .goOn

/-- `send_ping` after the request has been sent, on the packets that arrive before a `select`
runs out of time. -/
def sendPing (ping : Pinging) (arrivals : List PingArrival) : Int :=
  if Verdict.succeeds (inspectPing ping) arrivals then 0 else -1

def ipHeaderLength (bytes : List UInt8) : Nat :=
  byteAt bytes 0 % 16 * 4

def AnswersPing (ping : Pinging) (bytes : List UInt8) : Prop :=
  acceptsAt (ipHeaderLength bytes) ping.icmpId ping.icmpSeq bytes = true

/-- The packet would be such a reply if its header were that of `struct ip`. -/
def ResemblesAnswer (ping : Pinging) (bytes : List UInt8) : Prop :=
  acceptsAt 20 ping.icmpId ping.icmpSeq bytes = true

def InTime (ping : Pinging) (arrivals : List PingArrival) (arrival : PingArrival) : Prop :=
  ∃ earlier later, arrivals = earlier ++ arrival :: later ∧
    ∀ other ∈ earlier, other.elapsed ≤ ping.timeout

theorem fieldAt_lt (bytes : List UInt8) (place : Nat) : fieldAt bytes place < 65536 := by
  have low := (bytes.getD place 0).toNat_lt
  have high := (bytes.getD (place + 1) 0).toNat_lt
  unfold fieldAt byteAt
  omega

theorem acceptsAt_iff (ping : Pinging) (bytes : List UInt8) :
    acceptsAt 20 ping.pid ping.pingSeqNum bytes = true ↔
      ping.pid < 65536 ∧ ping.pingSeqNum < 65536 ∧ ResemblesAnswer ping bytes := by
  have idLt := fieldAt_lt bytes (20 + 4)
  have seqLt := fieldAt_lt bytes (20 + 6)
  by_cases pidSmall : ping.pid < 65536
  · by_cases seqSmall : ping.pingSeqNum < 65536
    · simp only [ResemblesAnswer, Pinging.icmpId, Pinging.icmpSeq, Nat.mod_eq_of_lt pidSmall,
        Nat.mod_eq_of_lt seqSmall, pidSmall, seqSmall, true_and]
    · refine iff_of_false (fun accepted => seqSmall ?_) fun small => seqSmall small.2.1
      simp only [acceptsAt, Bool.and_eq_true, decide_eq_true_eq] at accepted
      omega
  · refine iff_of_false (fun accepted => pidSmall ?_) fun small => pidSmall small.1
    simp only [acceptsAt, Bool.and_eq_true, decide_eq_true_eq] at accepted
    omega

theorem inspectPing_eq_succeed_iff (ping : Pinging) (arrival : PingArrival) :
    inspectPing ping arrival = .succeed ↔
      acceptsAt 20 ping.pid ping.pingSeqNum arrival.bytes = true := by
  unfold inspectPing
  split
  · simp [*]
  · split <;> simp [*]

theorem inspectPing_ne_giveUp_of_elapsed {ping : Pinging} {arrival : PingArrival}
    (timely : arrival.elapsed ≤ ping.timeout) : inspectPing ping arrival ≠ .giveUp := by
  unfold inspectPing
  rw [if_neg (Nat.not_lt.mpr timely)]
  split <;> simp

theorem elapsed_of_inspectPing_goOn {ping : Pinging} {arrival : PingArrival}
    (goesOn : inspectPing ping arrival = .goOn) : arrival.elapsed ≤ ping.timeout := by
  by_contra late
  unfold inspectPing at goesOn
  rw [if_pos (Nat.lt_of_not_le late)] at goesOn
  split at goesOn <;> simp at goesOn

theorem sendPing_eq_zero_iff (ping : Pinging) (arrivals : List PingArrival) :
    sendPing ping arrivals = 0 ↔ ping.pid < 65536 ∧ ping.pingSeqNum < 65536 ∧
      ∃ arrival, InTime ping arrivals arrival ∧ ResemblesAnswer ping arrival.bytes := by
  have isZero : sendPing ping arrivals = 0 ↔
      Verdict.succeeds (inspectPing ping) arrivals = true := by
    unfold sendPing
    split <;> simp [*]
  rw [isZero]
  constructor
  · intro succeeds
    obtain ⟨earlier, arrival, later, shape, waits, accepted⟩ :=
      (Verdict.succeeds_iff _ _).mp succeeds
    rw [inspectPing_eq_succeed_iff, acceptsAt_iff] at accepted
    obtain ⟨pidSmall, seqSmall, resembles⟩ := accepted
    exact ⟨pidSmall, seqSmall, arrival, ⟨earlier, later, shape, fun other member =>
      elapsed_of_inspectPing_goOn (waits other member)⟩, resembles⟩
  · rintro ⟨pidSmall, seqSmall, arrival, ⟨earlier, later, rfl, timely⟩, resembles⟩
    refine Verdict.succeeds_of_reached _ (fun other member =>
      inspectPing_ne_giveUp_of_elapsed (timely other member)) ?_
    rw [inspectPing_eq_succeed_iff, acceptsAt_iff]
    exact ⟨pidSmall, seqSmall, resembles⟩

/-- An echo reply with the fields of the request is recognised if it arrives in time, and
nothing else is taken for one. -/
structure RecognisesPing (ping : Pinging) (arrivals : List PingArrival) : Prop where
  heard : ∀ arrival, InTime ping arrivals arrival → AnswersPing ping arrival.bytes →
    sendPing ping arrivals = 0
  sound : sendPing ping arrivals = 0 → ∃ arrival ∈ arrivals, AnswersPing ping arrival.bytes

/-- Where a reply arrives in time, the numbers fit their fields and some packet in time has
them after 20 bytes; and where some packet does, a reply arrives. -/
structure PingsTellable (ping : Pinging) (arrivals : List PingArrival) : Prop where
  legible : ∀ arrival, InTime ping arrivals arrival → AnswersPing ping arrival.bytes →
    ping.pid < 65536 ∧ ping.pingSeqNum < 65536 ∧
      ∃ other, InTime ping arrivals other ∧ ResemblesAnswer ping other.bytes
  distinct : ping.pid < 65536 → ping.pingSeqNum < 65536 →
    ∀ other, InTime ping arrivals other → ResemblesAnswer ping other.bytes →
      ∃ arrival ∈ arrivals, AnswersPing ping arrival.bytes

/-- Replies are recognised, and only they, if and only if the process number and the sequence
number fit 16 bits and the IP headers have no options where it matters. -/
theorem recognises_ping_iff (ping : Pinging) (arrivals : List PingArrival) :
    RecognisesPing ping arrivals ↔ PingsTellable ping arrivals := by
  constructor
  · rintro ⟨heard, sound⟩
    constructor
    · intro arrival inTime answers
      exact (sendPing_eq_zero_iff ping arrivals).mp (heard arrival inTime answers)
    · intro pidSmall seqSmall other inTime resembles
      exact sound ((sendPing_eq_zero_iff ping arrivals).mpr
        ⟨pidSmall, seqSmall, other, inTime, resembles⟩)
  · rintro ⟨legible, distinct⟩
    constructor
    · intro arrival inTime answers
      exact (sendPing_eq_zero_iff ping arrivals).mpr (legible arrival inTime answers)
    · intro isZero
      obtain ⟨pidSmall, seqSmall, other, inTime, resembles⟩ :=
        (sendPing_eq_zero_iff ping arrivals).mp isZero
      exact distinct pidSmall seqSmall other inTime resembles

/-- The process 70000 sends the identifier 4464. -/
def samplePinging : Pinging :=
  ⟨70000, 0, 1000⟩

/-- The echo reply to it, behind an IP header without options. -/
def sampleEchoReply : PingArrival :=
  ⟨69 :: List.replicate 19 0 ++ [0, 0, 0, 0, 112, 17, 0, 0], 5⟩

/-- The reply arrives at once and carries the fields of the request, but it is compared with
the process number itself. -/
theorem reply_to_large_pid_missed :
    InTime samplePinging [sampleEchoReply] sampleEchoReply ∧
      AnswersPing samplePinging sampleEchoReply.bytes ∧
      sendPing samplePinging [sampleEchoReply] = -1 ∧
      ¬RecognisesPing samplePinging [sampleEchoReply] := by
  have inTime : InTime samplePinging [sampleEchoReply] sampleEchoReply :=
    ⟨[], [], rfl, by simp⟩
  have answers : AnswersPing samplePinging sampleEchoReply.bytes := by
    unfold AnswersPing
    decide +kernel
  refine ⟨inTime, answers, by decide +kernel, fun recognises => ?_⟩
  have isZero := recognises.heard sampleEchoReply inTime answers
  revert isZero
  decide +kernel

end Apos.DrbdAgent
