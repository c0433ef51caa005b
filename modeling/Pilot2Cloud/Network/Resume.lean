import Pilot2Cloud.Network.Framing

/-!
# A packet that began in an earlier chunk

The bytes in the half-packet buffer and the next chunk are decoded as one
string of bytes: its front tells the length of the packet, which is given up if
it is too long, kept if it is still incomplete, and handled otherwise.
-/

namespace Pilot2Cloud
namespace Network

open Foundation Words Memory

variable {σ : Type} {decoder : Decoder σ} {state : DecodeState σ}
  {half : HalfPack} {chunk : List UInt8}

/-- A buffer into which a packet of some length goes, when room has been made
for it. -/
def HalfPack.GrowsTo (half : HalfPack) (packetLen : Nat) : Prop :=
  ∃ grown, half.grow packetLen = .ok grown ∧ grown.bytes = half.bytes ∧
    grown.size = packetLen

/-- A chunk that falls short of the packet's length members is overread. -/
theorem resume_of_short_head
    (short : (half.bytes ++ chunk).length < headBytes (half.bytes ++ chunk)) :
    resume decoder state half chunk = .error .readPastEnd := by
  rw [List.length_append] at short
  rw [resume, readHalfLength_eq, if_neg (by omega), error_bind]

section Reached

variable (reached :
  headBytes (half.bytes ++ chunk) ≤ (half.bytes ++ chunk).length)

include reached

theorem readHalfLength_of_reached :
    readHalfLength half.bytes chunk =
      .ok (declaredLen (half.bytes ++ chunk),
        isSubpacket (half.bytes ++ chunk)) := by
  rw [List.length_append] at reached
  rw [readHalfLength_eq, if_pos reached]

/-- A packet that is too long is given up, and the chunk scanned alone. -/
theorem resume_of_too_long
    (tooLong : singlePacketLenMax < declaredLen (half.bytes ++ chunk)) :
    resume decoder state half chunk =
      scanChunk decoder { state with halfpack := none, findMsghead := true }
        chunk := by
  rw [resume, readHalfLength_of_reached reached, ok_bind]
  exact if_pos tooLong

variable
  (lengthMax : declaredLen (half.bytes ++ chunk) ≤ singlePacketLenMax)

include lengthMax

theorem resume_of_grow_error
    {fault : Fault}
    (failed : half.grow (declaredLen (half.bytes ++ chunk)) =
      .error fault) :
    resume decoder state half chunk = .error fault := by
  rw [resume, readHalfLength_of_reached reached, ok_bind]
  simp only [if_neg (Nat.not_lt.mpr lengthMax), failed, error_bind]

variable (grows : half.GrowsTo (declaredLen (half.bytes ++ chunk)))

include grows

/-- A chunk that does not complete the packet is appended to the buffer. -/
theorem resume_of_incomplete
    (decoder : Decoder σ) (state : DecodeState σ)
    (incomplete : (half.bytes ++ chunk).length <
      declaredLen (half.bytes ++ chunk)) :
    ∃ longer, resume decoder state half chunk =
        .ok ⟨{ state with halfpack := some longer, findMsghead := false },
          [], chunk⟩ ∧
      longer.bytes = half.bytes ++ chunk ∧
      longer.size = declaredLen (half.bytes ++ chunk) := by
  obtain ⟨grown, growth, sameBytes, grownSize⟩ := grows
  have fits : (grown.bytes ++ chunk).length ≤ grown.size := by
    rw [sameBytes, grownSize]
    omega
  obtain ⟨longer, appended, bytes, size⟩ := HalfPack.append_of_fits fits
  have small : singlePacketLenMax < 2 ^ 32 := by decide
  have total : wrap (chunk.length + grown.bytes.length) <
      declaredLen (half.bytes ++ chunk) := by
    rw [List.length_append] at incomplete
    rw [sameBytes, wrap_of_lt (by omega)]
    omega
  refine ⟨longer, ?_, by rw [bytes, sameBytes], size.trans grownSize⟩
  rw [resume, readHalfLength_of_reached reached, ok_bind]
  simp only [if_neg (Nat.not_lt.mpr lengthMax), growth, ok_bind, if_pos total,
    appended, pure_eq_ok]

/-- A chunk that completes the packet has it handled, and the rest of the chunk
is scanned. -/
theorem resume_of_complete
    (decoder : Decoder σ) (state : DecodeState σ)
    (bounded : chunk.length ≤ recvBufferSize)
    (held : half.bytes.length ≤ declaredLen (half.bytes ++ chunk))
    (complete : declaredLen (half.bytes ++ chunk) ≤
      (half.bytes ++ chunk).length) :
    resume decoder state half chunk = do
      let (recv, received) ← handlePacket decoder state.recv
        (isSubpacket (half.bytes ++ chunk))
        ((half.bytes ++ chunk).take (declaredLen (half.bytes ++ chunk)))
        (declaredLen (half.bytes ++ chunk))
      let rest ← scanChunk decoder ⟨none, recv, false⟩
        ((half.bytes ++ chunk).drop (declaredLen (half.bytes ++ chunk)))
      return { rest with received := received ++ rest.received } := by
  obtain ⟨grown, growth, sameBytes, grownSize⟩ := grows
  generalize length : declaredLen (half.bytes ++ chunk) = packetLen at *
  have total : (half.bytes ++ chunk).length =
      half.bytes.length + chunk.length := List.length_append
  obtain ⟨missing, whole⟩ := Nat.exists_eq_add_of_le held
  have front : (half.bytes ++ chunk).take packetLen =
      half.bytes ++ chunk.take missing := by
    rw [whole, List.take_length_add_append]
  have back : (half.bytes ++ chunk).drop packetLen = chunk.drop missing := by
    rw [whole, List.drop_length_add_append]
  have fits : (grown.bytes ++ chunk.take missing).length ≤ grown.size := by
    rw [sameBytes, grownSize, ← front, List.length_take]
    omega
  obtain ⟨filled, appended, bytes, size⟩ := HalfPack.append_of_fits fits
  rw [sameBytes, ← front] at bytes
  have limits : singlePacketLenMax + recvBufferSize < 2 ^ 32 := by decide
  have enough : ¬wrap (chunk.length + grown.bytes.length) < packetLen := by
    rw [sameBytes, wrap_of_lt (by omega)]
    omega
  have missingLength :
      wrap (packetLen + 2 ^ 32 - grown.bytes.length) = missing := by
    rw [sameBytes, wrap]
    omega
  have missingRead : read chunk 0 missing = .ok (chunk.take missing) := by
    rw [read_of_inside (by omega), List.drop_zero]
  rw [resume, readHalfLength_of_reached reached, ok_bind, length]
  simp only [if_neg (Nat.not_lt.mpr lengthMax), growth, ok_bind,
    if_neg enough, missingLength, missingRead, appended, bytes, front, back,
    pure_eq_ok]

end Reached

end Network
end Pilot2Cloud
