import Pilot2Cloud.Network.SendCorrect

/-!
# Fragments as a partition of the message

The packets of a large message carry its content in order, each under a head
with its index and the number of all.  `Send` stays inside the caller's buffer
while it writes them, unless a packet holds less than a head and the first
payload does not make room for it.
-/

namespace Pilot2Cloud
namespace Network

open Foundation Words Memory

/-- The content of a packet, behind its head. -/
def contentOf (packet : List UInt8) : List UInt8 :=
  packet.drop sizeofPacketHead

/-- The packets are numbered from one on, say how many there are and where their
content belongs, and their contents make up that of the message. -/
structure Partitions (message : List UInt8) (packets : List (List UInt8)) :
    Prop where
  head : ∀ (index : Nat) (bound : index < packets.length),
    ∃ head : PacketHead,
      packets[index] = head.bytes ++ contentOf packets[index] ∧
      head.packetIndex = index + 1 ∧
      head.totalPacketNum = packets.length ∧
      head.packetLen = (contentOf packets[index]).length ∧
      head.packetOffset = ((packets.take index).flatMap contentOf).length
  content : packets.flatMap contentOf = message.drop sizeofMsgHeader

section Fragments

variable {message : List UInt8} {packetMaxLen sendID padding : Nat}

@[simp] theorem contentOf_fragment {index : Nat} :
    contentOf (fragment message packetMaxLen sendID padding index) =
      fragmentPayload message packetMaxLen index := by
  unfold contentOf fragment
  exact List.drop_left' (PacketHead.length_bytes _)

/-- The contents of the first fragments are the front of the message. -/
@[simp] theorem flatMap_fragmentPayload (count : Nat) :
    (List.range count).flatMap (fragmentPayload message packetMaxLen) =
      (message.drop 16).take (count * (packetMaxLen - 40)) := by
  induction count with
  | zero => simp
  | succ count inductionHypothesis =>
      rw [List.range_succ, List.flatMap_append, inductionHypothesis,
        List.flatMap_singleton, fragmentPayload, Nat.succ_mul, List.take_add,
        List.drop_drop]

variable (stepPositive : 40 < packetMaxLen)
  (large : packetMaxLen < message.length) (sizeFits : message.length < 2 ^ 32)

include stepPositive

theorem length_take_content {index : Nat}
    (bound : index < fragmentCount message.length (packetMaxLen - 40))
    (large : packetMaxLen < message.length) :
    ((message.drop 16).take (index * (packetMaxLen - 40))).length =
      index * (packetMaxLen - 40) := by
  have start := fragment_start_lt message.length (packetMaxLen - 40) (by omega)
    (by omega) bound
  rw [List.length_take, List.length_drop]
  omega

include large sizeFits

theorem partitions_fragments :
    Partitions message (fragments message packetMaxLen sendID padding) where
  head := by
    intro index bound
    have isCount : (fragments message packetMaxLen sendID padding).length =
        fragmentCount message.length (packetMaxLen - 40) := by
      rw [fragments, List.length_map, List.length_range]
    have inside := isCount ▸ bound
    have isFragment : (fragments message packetMaxLen sendID padding)[index] =
        fragment message packetMaxLen sendID padding index := by
      simp [fragments]
    have isFront : ((fragments message packetMaxLen sendID padding).take
          index).flatMap contentOf =
        (message.drop 16).take (index * (packetMaxLen - 40)) := by
      rw [fragments, ← List.map_take, List.take_range,
        Nat.min_eq_left inside.le, List.flatMap_map]
      simp only [contentOf_fragment]
      exact flatMap_fragmentPayload index
    have total : (fragmentHead message packetMaxLen sendID padding
          index).totalPacketNum =
        fragmentCount message.length (packetMaxLen - 40) :=
      carriedHead_totalPacketNum sendID padding stepPositive large sizeFits index
    rw [isFragment, contentOf_fragment, isFront,
      length_take_content stepPositive inside large, isCount]
    refine ⟨fragmentHead message packetMaxLen sendID padding index, rfl, rfl,
      total, ?_, rfl⟩
    unfold fragmentPayload
    rw [List.length_take, List.length_drop, ← Nat.sub_sub]
    rfl
  content := by
    have covered := le_fragmentCount_mul message.length (packetMaxLen - 40)
      (by omega)
    rw [fragments, List.flatMap_map]
    simp only [contentOf_fragment]
    rw [flatMap_fragmentPayload]
    apply List.take_of_length_le
    rw [List.length_drop]
    exact covered

end Fragments

/-- The `Send` function of a session. -/
abbrev SendFunction :=
  SendEnvironment → SendSession → List UInt8 → Nat → Nat →
    Except Fault (SendSession × SendOutcome)

/-- The call comes back without a fault, and what it put on the connection
begins a partition of the message: all of it if the call returns true, which it
does unless the packet for the first fragment is not served or a packet is
refused. -/
def SendsPartition (send : SendFunction) (environment : SendEnvironment)
    (session : SendSession) (message : List UInt8) (packetMaxLen padding : Nat) :
    Prop :=
  ∃ next outcome packets,
    send environment session message packetMaxLen padding =
        .ok (next, outcome) ∧
      Partitions message packets ∧
      outcome.written <+: packets ∧
      (outcome.result = true → outcome.written = packets) ∧
      (environment.malloc packetMaxLen = true →
        (∀ packet ∈ packets, environment.sendData packet = true) →
          outcome.result = true)

section Send

variable {environment : SendEnvironment} {session : SendSession}
  {message : List UInt8} {packetMaxLen padding : Nat}

theorem sendMessage_fragmented
    (packetMode : session.sessionmode = .packetHead)
    (stepPositive : 40 < packetMaxLen)
    (large : packetMaxLen < message.length) :
    sendMessage environment session message packetMaxLen padding =
      (sendFragmented environment message packetMaxLen
        (nextSendID session.sendID) padding).map
          (Prod.mk { session with sendID := nextSendID session.sendID }) := by
  unfold sendMessage
  rw [if_neg (not_not.mpr packetMode), if_pos large,
    if_neg (not_le.mpr stepPositive)]
  dsimp only
  generalize sendFragmented environment message packetMaxLen
    (nextSendID session.sendID) padding = result
  cases result with
  | error fault => rfl
  | ok outcome => rfl

theorem sendsPartition_of_room
    (packetMode : session.sessionmode = .packetHead)
    (roomForHead : 64 ≤ packetMaxLen)
    (large : packetMaxLen < message.length)
    (sizeFits : message.length < 2 ^ 32) :
    SendsPartition sendMessage environment session message packetMaxLen
      padding := by
  have stepPositive : 40 < packetMaxLen := by omega
  have notNarrow : ¬(packetMaxLen < 64 ∧ environment.sendData
      (fragment message packetMaxLen (nextSendID session.sendID) padding 0)) :=
    fun both => not_lt.mpr roomForHead both.1
  have isFragmented := @sendMessage_fragmented environment session message
    packetMaxLen padding packetMode stepPositive large
  rw [sendFragmented_eq _ _ stepPositive large sizeFits, if_neg notNarrow]
    at isFragmented
  have isPartition : Partitions message
      (fragments message packetMaxLen (nextSendID session.sendID) padding) :=
    partitions_fragments stepPositive large sizeFits
  unfold SendsPartition
  rw [isFragmented]
  split_ifs with served
  · refine ⟨_, _, _, rfl, isPartition, List.takeWhile_prefix _, ?_, ?_⟩
    · intro allAccepted
      exact List.takeWhile_eq_self_iff.mpr (List.all_eq_true.mp allAccepted)
    · intro _ allAccepted
      exact List.all_eq_true.mpr allAccepted
  · refine ⟨_, _, _, rfl, isPartition, List.nil_prefix, ?_, ?_⟩
    · intro isTrue
      cases isTrue
    · intro isServed
      exact absurd isServed served

/-- A connection that takes every packet, and memory for every one. -/
def acceptingEnvironment : SendEnvironment where
  malloc _ := true
  sendData _ := true

theorem not_sendsPartition_of_narrow
    (packetMode : session.sessionmode = .packetHead)
    (stepPositive : 40 < packetMaxLen)
    (narrow : packetMaxLen < 64)
    (large : packetMaxLen < message.length)
    (sizeFits : message.length < 2 ^ 32) :
    ¬SendsPartition sendMessage acceptingEnvironment session message packetMaxLen
      padding := by
  rintro ⟨next, outcome, packets, goesThrough, -⟩
  rw [sendMessage_fragmented packetMode stepPositive large,
    sendFragmented_accepting _ _ ⟨fun _ => rfl, fun _ => rfl⟩ stepPositive large
      sizeFits,
    if_pos narrow] at goesThrough
  cases goesThrough

/-- Whatever the connection takes, a large message goes out as a partition and
nothing is stored outside the buffer, just if `packet_max_len` has room for a
head behind the message header. -/
theorem sendsPartition_iff
    (packetMode : session.sessionmode = .packetHead)
    (stepPositive : sizeofPacketHead < packetMaxLen)
    (large : packetMaxLen < message.length)
    (sizeFits : message.length < 2 ^ 32) :
    (∀ environment,
      SendsPartition ClientNetSession.send environment session message
          packetMaxLen padding ∧
        SendsPartition ServerNetSession.send environment session message
          packetMaxLen padding) ↔
      64 ≤ packetMaxLen := by
  constructor
  · intro sends
    by_contra narrow
    exact not_sendsPartition_of_narrow packetMode stepPositive
      (not_le.mp narrow) large sizeFits (sends acceptingEnvironment).1
  · intro roomForHead environment
    exact ⟨sendsPartition_of_room packetMode roomForHead large sizeFits,
      sendsPartition_of_room packetMode roomForHead large sizeFits⟩

/-- A head is stored 14 bytes before a message that is sent in packets of 50
bytes. -/
theorem not_sendsPartition_fifty :
    ¬SendsPartition ClientNetSession.send acceptingEnvironment
      ⟨.packetHead, 0⟩ (List.replicate 100 0) 50 0 :=
  not_sendsPartition_of_narrow rfl (by decide) (by decide)
    (by rw [List.length_replicate]; decide)
    (by rw [List.length_replicate]; decide)

/-- A message of 100 bytes in packets of 64 bytes. -/
theorem sendsPartition_sixtyFour :
    SendsPartition ClientNetSession.send acceptingEnvironment ⟨.packetHead, 0⟩
        (List.replicate 100 0) 64 0 ∧
      SendsPartition ServerNetSession.send acceptingEnvironment ⟨.packetHead, 0⟩
        (List.replicate 100 0) 64 0 :=
  (sendsPartition_iff rfl (by decide)
    (by rw [List.length_replicate]; decide)
    (by rw [List.length_replicate]; decide)).mpr le_rfl acceptingEnvironment

end Send

end Network
end Pilot2Cloud
