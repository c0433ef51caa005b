import Pilot2Cloud.Foundation.Outcome
import Pilot2Cloud.Foundation.Segments
import Pilot2Cloud.Network.CheckPacket

/-!
# Well-framed packets in a stream

What the decoder reads off the front of a well-framed packet: from all of it,
from a part of it at the end of a chunk, and from a part in the half-packet
buffer together with the next chunk.
-/

namespace Pilot2Cloud
namespace Network

open Foundation Words Memory

/-- A packet carries `PACKET_ENABLE` in its message length. -/
def isSubpacket (packet : List UInt8) : Bool :=
  decide (flagBit ≤ wordAt packet 8)

/-- A packet whose own length members tell its length, within the limits that
the decoder enforces. -/
structure WellFramed (lastEvent : Nat) (packet : List UInt8) : Prop where
  hasHeader : 16 ≤ packet.length
  lengthMax : packet.length ≤ singlePacketLenMax
  msgtype : wordAt packet 12 < lastEvent
  whole : isSubpacket packet = false → packet.length = wordAt packet 8 + 16
  hasPacketHead : isSubpacket packet = true → 40 ≤ packet.length
  subpacket : isSubpacket packet = true →
    packet.length = wordAt packet 32 + 40

/-- How far the members that hold a packet's length reach into it. -/
def headBytes (packet : List UInt8) : Nat :=
  if isSubpacket packet then 36 else 12

/-- The length that the length members announce. -/
def declaredLen (packet : List UInt8) : Nat :=
  if isSubpacket packet then wrap (wordAt packet 32 + 40)
  else wrap (wordAt packet 8 + 16)

/-- The message type, which counts as zero until it has arrived. -/
def declaredType (data : List UInt8) : Nat :=
  if data.length < 16 then 0 else wordAt data 12

variable {lastEvent : Nat} {packet : List UInt8}

theorem twelve_le_headBytes (packet : List UInt8) : 12 ≤ headBytes packet := by
  unfold headBytes
  split <;> omega

theorem isSubpacket_of_isPrefix
    {data : List UInt8} (isPrefix : packet <+: data)
    (hasHeader : 12 ≤ packet.length) :
    isSubpacket packet = isSubpacket data := by
  rw [isSubpacket, isSubpacket, wordAt_of_isPrefix isPrefix (by omega)]

theorem land_packetEnable_eq_zero_iff (data : List UInt8) :
    wordAt data 8 &&& flagBit = 0 ↔ isSubpacket data = false := by
  rw [land_flagBit_eq_zero_iff (wordAt_lt data 8), isSubpacket,
    decide_eq_false_iff_not, Nat.not_le]

theorem WellFramed.headBytes_le (framed : WellFramed lastEvent packet) :
    headBytes packet ≤ packet.length := by
  have header := framed.hasHeader
  unfold headBytes
  split
  next sub =>
    have head := framed.hasPacketHead sub
    omega
  next => omega

theorem WellFramed.length_lt (framed : WellFramed lastEvent packet) :
    packet.length < 2 ^ 32 :=
  Nat.lt_of_le_of_lt framed.lengthMax (by decide)

/-- The length that a well-framed packet announces is its own. -/
theorem WellFramed.declaredLen_eq (framed : WellFramed lastEvent packet) :
    declaredLen packet = packet.length := by
  have fits := framed.length_lt
  cases sub : isSubpacket packet with
  | false =>
      have length := framed.whole sub
      rw [declaredLen, if_neg (by simp [sub]), wrap_of_lt (by omega), length]
  | true =>
      have length := framed.subpacket sub
      rw [declaredLen, if_pos sub, wrap_of_lt (by omega), length]

/-! ## The front of the unscanned bytes -/

theorem readMsgtype_eq (data : List UInt8) :
    readMsgtype data = .ok (declaredType data) := by
  by_cases short : data.length < 16
  · rw [declaredType, if_pos short]
    exact if_pos short
  · rw [declaredType, if_neg short]
    exact (if_neg short).trans
      (readWord_of_inside (show 12 + 4 ≤ data.length by omega))

/-- The front of any bytes: their length once its members have arrived, and the
flag of a fragment. -/
theorem readFront_eq (data : List UInt8) :
    readFront data =
      .ok ⟨if headBytes data ≤ data.length then declaredLen data else 0,
        declaredType data, 12 ≤ data.length && isSubpacket data⟩ := by
  have minimum := twelve_le_headBytes data
  by_cases twelve : data.length < 8 + 4
  · have unknown : ¬headBytes data ≤ data.length := by omega
    have noType : declaredType data = 0 := if_pos (by omega)
    have noFlag : ¬12 ≤ data.length := by omega
    simp only [readFront, Field.msgLength, memberSizeByte, if_pos twelve,
      if_neg unknown, noType, noFlag, decide_false, Bool.false_and,
      pure_eq_ok]
  · have arrived : 12 ≤ data.length := by omega
    have lengthRead : readWord data 8 = .ok (wordAt data 8) :=
      readWord_of_inside arrived
    simp only [readFront, Field.msgLength, memberSizeByte, if_neg twelve,
      lengthRead, readMsgtype_eq, ok_bind, arrived, decide_true,
      Bool.true_and, packetEnable, land_packetEnable_eq_zero_iff, headBytes,
      declaredLen, Field.subpacketLen]
    by_cases sub : isSubpacket data = true
    · by_cases thirtySix : data.length < 32 + 4
      · simp [sub, thirtySix]
      · simp [sub, thirtySix, Nat.not_lt.mp thirtySix,
          readWord_of_inside (Nat.not_lt.mp thirtySix)]
    · simp [sub, arrived]

/-- A complete packet is at the front of the bytes. -/
def Complete (data : List UInt8) : Prop :=
  headBytes data ≤ data.length ∧ declaredLen data ≠ 0 ∧
    declaredLen data ≤ data.length

theorem Complete.ne_nil
    {data : List UInt8} (complete : Complete data) : data ≠ [] := by
  rintro rfl
  have minimum := twelve_le_headBytes []
  have reached := complete.1
  simp only [List.length_nil] at reached
  omega

theorem Complete.readFront_eq
    {data : List UInt8} (complete : Complete data) :
    readFront data =
      .ok ⟨declaredLen data, declaredType data, isSubpacket data⟩ := by
  have minimum := twelve_le_headBytes data
  have reached := complete.1
  have twelve : 12 ≤ data.length := by omega
  rw [Network.readFront_eq, if_pos reached, decide_eq_true twelve,
    Bool.true_and]

theorem WellFramed.complete (framed : WellFramed lastEvent packet) :
    Complete packet := by
  have header := framed.hasHeader
  have length := framed.declaredLen_eq
  exact ⟨framed.headBytes_le, by omega, by omega⟩

/-- What the decoder knows of a packet from some bytes of the stream. -/
theorem headBytes_of_stream
    (framed : WellFramed lastEvent packet) {data back : List UInt8}
    (stream : data <+: packet ++ back) :
    (headBytes data ≤ data.length ↔ headBytes packet ≤ data.length) ∧
      (headBytes packet ≤ data.length →
        declaredLen data = packet.length ∧
          isSubpacket data = isSubpacket packet) := by
  have header := framed.hasHeader
  by_cases twelve : 12 ≤ data.length
  · have lengthWord : wordAt data 8 = wordAt packet 8 := by
      rw [wordAt_of_isPrefix stream (by omega),
        wordAt_append_left _ _ (by omega)]
    have sameFlag : isSubpacket data = isSubpacket packet := by
      rw [isSubpacket, isSubpacket, lengthWord]
    refine ⟨by rw [headBytes, headBytes, sameFlag], fun arrived => ?_⟩
    refine ⟨?_, sameFlag⟩
    rw [← framed.declaredLen_eq, declaredLen, declaredLen, sameFlag,
      lengthWord]
    cases sub : isSubpacket packet with
    | false => rfl
    | true =>
        have head := framed.hasPacketHead sub
        rw [headBytes, if_pos sub] at arrived
        rw [wordAt_of_isPrefix stream (by omega),
          wordAt_append_left _ _ (by omega)]
  · have minimum := twelve_le_headBytes data
    have minimumPacket := twelve_le_headBytes packet
    exact ⟨iff_of_false (by omega) (by omega), fun arrived => by omega⟩

/-- The message type is that of the packet, or zero before it has arrived. -/
theorem declaredType_of_stream
    (framed : WellFramed lastEvent packet) {data back : List UInt8}
    (stream : data <+: packet ++ back) :
    declaredType data = 0 ∨ declaredType data = wordAt packet 12 := by
  have header := framed.hasHeader
  by_cases short : data.length < 16
  · exact .inl (if_pos short)
  · right
    rw [declaredType, if_neg short, wordAt_of_isPrefix stream (by omega),
      wordAt_append_left _ _ header]

/-- Once its length members have arrived, the decoder knows a packet's
length. -/
theorem readFront_of_headBytes
    (framed : WellFramed lastEvent packet) {data back : List UInt8}
    (stream : data <+: packet ++ back)
    (arrived : headBytes packet ≤ data.length) :
    ∃ msgtype, readFront data =
        .ok ⟨packet.length, msgtype, isSubpacket packet⟩ ∧
      (msgtype = 0 ∨ msgtype = wordAt packet 12) := by
  obtain ⟨sameReach, known⟩ := headBytes_of_stream framed stream
  obtain ⟨length, flag⟩ := known arrived
  have minimum := twelve_le_headBytes packet
  have twelve : 12 ≤ data.length := by omega
  refine ⟨declaredType data, ?_, declaredType_of_stream framed stream⟩
  rw [readFront_eq, if_pos (sameReach.mpr arrived), length, flag,
    decide_eq_true twelve, Bool.true_and]

/-- Before its length members have arrived, a packet's length is unknown. -/
theorem readFront_of_short
    (framed : WellFramed lastEvent packet) {data back : List UInt8}
    (stream : data <+: packet ++ back)
    (short : data.length < headBytes packet) :
    ∃ msgtype issubpacket, readFront data = .ok ⟨0, msgtype, issubpacket⟩ ∧
      (msgtype = 0 ∨ msgtype = wordAt packet 12) := by
  have sameReach := (headBytes_of_stream framed stream).1
  have unknown : ¬headBytes data ≤ data.length := by omega
  refine ⟨declaredType data, 12 ≤ data.length && isSubpacket data, ?_,
    declaredType_of_stream framed stream⟩
  rw [readFront_eq, if_neg unknown]

/-! ## The half-packet buffer and the next chunk -/

/-- A header member is read correctly across the buffer and the chunk when the
chunk reaches that far, and otherwise read past the end of the chunk. -/
theorem readAcross_eq (half chunk : List UInt8) (member : Nat) :
    readAcross half chunk member =
      if member + 4 ≤ half.length + chunk.length then
        .ok (wordAt (half ++ chunk) member)
      else .error .readPastEnd := by
  simp only [readAcross, memberSizeByte]
  by_cases inChunk : half.length ≤ member
  · rw [if_pos inChunk]
    have shifted :=
      wordAt_append_right half chunk (member - half.length)
    rw [Nat.add_sub_of_le inChunk] at shifted
    by_cases inside : member + 4 ≤ half.length + chunk.length
    · rw [if_pos inside, readWord_of_inside (by omega), shifted]
    · rw [if_neg inside, readWord_of_outside (by omega)]
  · rw [if_neg inChunk]
    by_cases across : half.length < member + 4
    · rw [if_pos across, read_of_inside (by omega)]
      have front : (half.drop member).take (half.length - member) =
          half.drop member :=
        List.take_of_length_le (by rw [List.length_drop])
      by_cases inside : member + 4 ≤ half.length + chunk.length
      · rw [if_pos inside]
        simp only [bind, Except.bind, pure, Except.pure,
          read_of_inside (show 0 + (member + 4 - half.length) ≤ chunk.length
            by omega), front, List.drop_zero]
        have whole : (half.drop member).take 4 = half.drop member :=
          List.take_of_length_le (by rw [List.length_drop]; omega)
        have missing : 4 - (half.length - member) =
            member + 4 - half.length := by omega
        rw [wordAt, List.drop_append_of_le_length (by omega),
          List.take_append, List.length_drop, whole, missing]
      · rw [if_neg inside]
        simp only [bind, Except.bind, read_of_outside
          (show chunk.length < 0 + (member + 4 - half.length) by omega)]
    · rw [if_neg across, if_pos (by omega), readWord_of_inside (by omega),
        wordAt_append_left _ _ (by omega)]

/-- The length of a packet that began in an earlier chunk is read if its
length members have arrived with this chunk, and otherwise read past the end of
the chunk. -/
theorem readHalfLength_eq (half chunk : List UInt8) :
    readHalfLength half chunk =
      if headBytes (half ++ chunk) ≤ half.length + chunk.length then
        .ok (declaredLen (half ++ chunk), isSubpacket (half ++ chunk))
      else .error .readPastEnd := by
  have minimum := twelve_le_headBytes (half ++ chunk)
  simp only [readHalfLength, readAcross_eq, Field.msgLength,
    Field.subpacketLen]
  by_cases twelve : 8 + 4 ≤ half.length + chunk.length
  · simp only [if_pos twelve, ok_bind, packetEnable,
      land_packetEnable_eq_zero_iff, headBytes, declaredLen]
    by_cases sub : isSubpacket (half ++ chunk) = true
    · by_cases thirtySix : 32 + 4 ≤ half.length + chunk.length
      · simp [sub, thirtySix]
      · simp [sub, thirtySix]
    · simp [sub, twelve]
  · have unread : ¬headBytes (half ++ chunk) ≤ half.length + chunk.length := by
      omega
    rw [if_neg twelve, if_neg unread, error_bind]

end Network
end Pilot2Cloud
