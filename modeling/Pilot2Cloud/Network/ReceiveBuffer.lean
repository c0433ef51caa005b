import Pilot2Cloud.Network.Stream

/-!
# The receive buffer

A socket receives every chunk into the front of the same buffer, so behind a
chunk there is what earlier chunks have left.  A chunk that continues a packet
and falls short of its length members has the decoder read the missing bytes
there.  This does no harm as long as the length it finds is neither complete
with the chunk nor too long.
-/

namespace Pilot2Cloud
namespace Network

open Foundation Words Memory

variable {σ : Type}

/-- `PlatformSocket::buffer` of a new socket. -/
def emptyBuffer : List UInt8 :=
  List.replicate recvBufferSize 0

@[simp] theorem length_emptyBuffer : emptyBuffer.length = recvBufferSize :=
  List.length_replicate

/-- The buffer after a chunk has been received into it. -/
def refill (buffer chunk : List UInt8) : List UInt8 :=
  chunk ++ buffer.drop chunk.length

theorem length_refill {buffer chunk : List UInt8}
    (size : buffer.length = recvBufferSize)
    (bounded : chunk.length ≤ recvBufferSize) :
    (refill buffer chunk).length = recvBufferSize := by
  rw [refill, List.length_append, List.length_drop]
  omega

/-! ## The decoder -/

/-- Complete the packet in the half-packet buffer from a chunk at the front of
the receive buffer. -/
def resumeOnBuffer
    (decoder : Decoder σ) (state : DecodeState σ) (half : HalfPack)
    (buffer chunk : List UInt8) : Except Fault (CheckResult σ) := do
  let (packetLen, issubpacket) ← readHalfLength half.bytes buffer
  if singlePacketLenMax < packetLen then
    scanChunk decoder { state with halfpack := none, findMsghead := true }
      chunk
  else
    let half ← half.grow packetLen
    if wrap (chunk.length + half.bytes.length) < packetLen then
      let half ← half.append chunk
      return ⟨{ state with
        halfpack := some half, findMsghead := false }, [], chunk⟩
    else
      let missing := wrap (packetLen + 2 ^ 32 - half.bytes.length)
      let half ← half.append (← read buffer 0 missing)
      let (recv, received) ←
        handlePacket decoder state.recv issubpacket half.bytes packetLen
      let rest ← scanChunk decoder ⟨none, recv, false⟩ (chunk.drop missing)
      return { rest with received := received ++ rest.received }

/-- `CheckPacket` on a chunk at the front of the receive buffer. -/
def checkPacketOnBuffer
    (decoder : Decoder σ) (state : DecodeState σ)
    (buffer chunk : List UInt8) : Except Fault (CheckResult σ) :=
  match state.halfpack with
  | some half => resumeOnBuffer decoder state half buffer chunk
  | none => scanChunk decoder state chunk

/-- The chunks of one connection are received one after the other. -/
def checkPacketsOnBuffer (decoder : Decoder σ) :
    List UInt8 → DecodeState σ → List (List UInt8) →
      Except Fault (DecodeState σ × List Block)
  | _, state, [] => .ok (state, [])
  | buffer, state, chunk :: chunks => do
      let buffer := refill buffer chunk
      let result ← checkPacketOnBuffer decoder state buffer chunk
      let (final, received) ←
        checkPacketsOnBuffer decoder buffer result.state chunks
      return (final, result.received ++ received)

/-! ## A packet that began in an earlier chunk -/

section Half

variable {decoder : Decoder σ} {state : DecodeState σ} {half grown : HalfPack}
  {chunk : List UInt8} {packetLen : Nat}

theorem HalfPack.bytes_grow (grows : half.grow packetLen = .ok grown) :
    grown.bytes = half.bytes := by
  rw [grow, start] at grows
  split at grows
  · split at grows
    · cases grows
      rfl
    · cases grows
  · cases grows
    rfl

/-- What follows the length members does not change what they say. -/
theorem declaredLen_of_isPrefix {front data : List UInt8}
    (isPrefix : front <+: data) (reached : headBytes front ≤ front.length) :
    headBytes data = headBytes front ∧
      declaredLen data = declaredLen front ∧
      isSubpacket data = isSubpacket front := by
  have minimum := twelve_le_headBytes front
  have sameFlag := isSubpacket_of_isPrefix isPrefix (by omega)
  have sameWord :=
    wordAt_of_isPrefix isPrefix (show 8 + 4 ≤ front.length by omega)
  rw [headBytes, declaredLen, headBytes, declaredLen, ← sameFlag, ← sameWord]
  cases sub : isSubpacket front with
  | false => exact ⟨rfl, rfl, rfl⟩
  | true =>
      rw [headBytes, if_pos sub] at reached
      rw [← wordAt_of_isPrefix isPrefix (show 32 + 4 ≤ front.length from reached)]
      exact ⟨rfl, rfl, rfl⟩

/-- The length members are read in the chunk as soon as they have arrived. -/
theorem readHalfLength_append (behind : List UInt8)
    (reached : headBytes (half.bytes ++ chunk) ≤
      (half.bytes ++ chunk).length) :
    readHalfLength half.bytes (chunk ++ behind) =
      readHalfLength half.bytes chunk := by
  have isPrefix : half.bytes ++ chunk <+: half.bytes ++ (chunk ++ behind) := by
    rw [← List.append_assoc]
    exact List.prefix_append _ _
  obtain ⟨sameHead, sameLen, sameFlag⟩ :=
    declaredLen_of_isPrefix isPrefix reached
  have further := isPrefix.length_le
  have enough := reached.trans further
  rw [List.length_append] at reached enough
  rw [readHalfLength_eq, readHalfLength_eq, sameHead, sameLen, sameFlag,
    if_pos reached, if_pos enough]

/-- A chunk that reaches the length members is decoded as if nothing were behind
it. -/
theorem resumeOnBuffer_of_reached (decoder : Decoder σ) (state : DecodeState σ)
    (behind : List UInt8)
    (reached : headBytes (half.bytes ++ chunk) ≤
      (half.bytes ++ chunk).length)
    (held : half.bytes.length ≤ declaredLen (half.bytes ++ chunk))
    (bounded : chunk.length ≤ recvBufferSize) :
    resumeOnBuffer decoder state half (chunk ++ behind) chunk =
      resume decoder state half chunk := by
  have sameRead : ∀ packetLen missing,
      half.bytes.length ≤ packetLen → packetLen ≤ singlePacketLenMax →
      ¬wrap (chunk.length + half.bytes.length) < packetLen →
      missing = wrap (packetLen + 2 ^ 32 - half.bytes.length) →
      read (chunk ++ behind) 0 missing = read chunk 0 missing := by
    intro packetLen missing held lengthMax whole isMissing
    have limits : singlePacketLenMax + recvBufferSize < 2 ^ 32 := by decide
    rw [wrap_of_lt (by omega)] at whole
    apply read_append_left
    rw [isMissing, wrap]
    omega
  rw [resumeOnBuffer, resume, readHalfLength_append behind reached,
    readHalfLength_of_reached reached, ok_bind, ok_bind]
  generalize declaredLen (half.bytes ++ chunk) = packetLen at held
  dsimp only
  split
  · rfl
  · next lengthMax =>
    cases grows : half.grow packetLen with
    | error fault => rw [error_bind, error_bind]
    | ok grown =>
        rw [ok_bind, ok_bind, HalfPack.bytes_grow grows]
        split
        · rfl
        · next whole =>
          rw [sameRead packetLen _ held (Nat.not_lt.mp lengthMax) whole rfl]

/-- The buffer has room for all length members. -/
theorem headBytes_le_buffer {buffer : List UInt8}
    (size : buffer.length = recvBufferSize) (bytes : List UInt8) :
    headBytes (bytes ++ buffer) ≤ bytes.length + buffer.length := by
  have enough : 36 ≤ recvBufferSize := by decide
  unfold headBytes
  split <;> omega

/-- A length that is found among old bytes and is too long loses the packet. -/
theorem resumeOnBuffer_of_too_long {buffer : List UInt8}
    (decoder : Decoder σ) (state : DecodeState σ)
    (size : buffer.length = recvBufferSize)
    (tooLong : singlePacketLenMax < declaredLen (half.bytes ++ buffer)) :
    resumeOnBuffer decoder state half buffer chunk =
      scanChunk decoder { state with halfpack := none, findMsghead := true }
        chunk := by
  rw [resumeOnBuffer, readHalfLength_eq, if_pos (headBytes_le_buffer size _),
    ok_bind]
  exact if_pos tooLong

/-- A length that is found among old bytes leaves the chunk in the half-packet
buffer if it is not too long and the chunk does not complete it. -/
theorem resumeOnBuffer_of_stale {buffer : List UInt8}
    (decoder : Decoder σ) (state : DecodeState σ)
    (size : buffer.length = recvBufferSize)
    (short : half.bytes.length + chunk.length < sizeofPacketHead)
    (incomplete : half.bytes.length + chunk.length <
      declaredLen (half.bytes ++ buffer))
    (lengthMax : declaredLen (half.bytes ++ buffer) ≤ singlePacketLenMax) :
    ∃ longer, resumeOnBuffer decoder state half buffer chunk =
        .ok ⟨{ state with halfpack := some longer, findMsghead := false },
          [], chunk⟩ ∧
      longer.bytes = half.bytes ++ chunk := by
  rw [resumeOnBuffer, readHalfLength_eq, if_pos (headBytes_le_buffer size _),
    ok_bind]
  generalize declaredLen (half.bytes ++ buffer) = packetLen at *
  obtain ⟨grown, growth, sameBytes, grownSize⟩ :=
    HalfPack.grow_of_fits (show half.bytes.length ≤ packetLen by omega)
      (fun long => by omega)
  have fits : (grown.bytes ++ chunk).length ≤ grown.size := by
    rw [sameBytes, grownSize, List.length_append]
    omega
  obtain ⟨longer, appended, bytes, -⟩ := HalfPack.append_of_fits fits
  have total : wrap (chunk.length + grown.bytes.length) < packetLen := by
    rw [sameBytes, wrap_of_lt (by simp only [sizeofPacketHead] at short; omega)]
    omega
  refine ⟨longer, ?_, by rw [bytes, sameBytes]⟩
  simp only [if_neg (Nat.not_lt.mpr lengthMax), growth, ok_bind, if_pos total,
    appended, pure_eq_ok]

end Half

/-! ## The stream -/

/-- A chunk reaches to the end of the length members of the packet in the middle
of which it starts, or the length that is read for that packet from the buffer
is neither complete with the chunk nor too long. -/
def HeadRead (packets : List (List UInt8)) (buffer : List UInt8)
    (chunk : Nat × List UInt8) : Prop :=
  ∀ packet ∈ segments 0 packets, packet.1 < chunk.1 →
    chunk.1 < packet.1 + packet.2.length →
    packet.1 + headBytes packet.2 ≤ chunk.1 + chunk.2.length ∨
      chunk.1 - packet.1 + chunk.2.length <
          declaredLen (packet.2.take (chunk.1 - packet.1) ++ buffer) ∧
        declaredLen (packet.2.take (chunk.1 - packet.1) ++ buffer) ≤
          singlePacketLenMax

instance (packets : List (List UInt8)) (buffer : List UInt8)
    (chunk : Nat × List UInt8) : Decidable (HeadRead packets buffer chunk) :=
  inferInstanceAs (Decidable (∀ packet ∈ segments 0 packets, _))

/-- Every chunk that starts at or behind a place of the stream does. -/
def HeadsReadFrom (packets : List (List UInt8)) :
    List UInt8 → Nat → List (List UInt8) → Prop
  | _, _, [] => True
  | buffer, start, chunk :: chunks =>
      HeadRead packets (refill buffer chunk) (start, chunk) ∧
        HeadsReadFrom packets (refill buffer chunk) (start + chunk.length)
          chunks

instance decidableHeadsReadFrom (packets : List (List UInt8)) :
    ∀ buffer start chunks,
      Decidable (HeadsReadFrom packets buffer start chunks)
  | _, _, [] => inferInstanceAs (Decidable True)
  | buffer, start, chunk :: chunks =>
      haveI := decidableHeadsReadFrom packets (refill buffer chunk)
        (start + chunk.length) chunks
      inferInstanceAs (Decidable (_ ∧ _))

/-- Every chunk of a connection does. -/
def HeadsRead (packets chunks : List (List UInt8)) : Prop :=
  HeadsReadFrom packets emptyBuffer 0 chunks

instance (packets chunks : List (List UInt8)) :
    Decidable (HeadsRead packets chunks) :=
  inferInstanceAs (Decidable (HeadsReadFrom _ _ _ _))

theorem HeadRead.of_headArrives {packets : List (List UInt8)}
    {chunk : Nat × List UInt8} (arrives : HeadArrives packets chunk)
    (buffer : List UInt8) : HeadRead packets buffer chunk :=
  fun packet member starts ends => .inl (arrives packet member starts ends)

/-- The packet in the middle of which a chunk starts is the pending one. -/
theorem HeadRead.of_pending {done packets : List (List UInt8)}
    {packet buffer chunk : List UInt8} {half : HalfPack}
    (reads : HeadRead (done ++ packet :: packets) buffer
      ((done.flatten ++ half.bytes).length, chunk))
    (isPrefix : half.bytes <+: packet)
    (short : half.bytes.length < packet.length) :
    headBytes packet ≤ half.bytes.length + chunk.length ∨
      half.bytes.length + chunk.length < declaredLen (half.bytes ++ buffer) ∧
        declaredLen (half.bytes ++ buffer) ≤ singlePacketLenMax := by
  have nonempty : 0 < half.bytes.length := List.length_pos_iff.mpr half.pending
  have here := reads (done.flatten.length, packet)
    (by simp [segments_append, segments])
    (by simp only [List.length_append]; omega)
    (by simp only [List.length_append]; omega)
  simp only [List.length_append, Nat.add_sub_cancel_left] at here
  rw [← List.prefix_iff_eq_take.mp isPrefix] at here
  obtain arrived | stale := here
  · exact .inl (by omega)
  · exact .inr stale

section Stream

variable {decoder : Decoder σ} {packets : List (List UInt8)} {recv final : σ}
  {all received : List Block} {data buffer chunk : List UInt8}
  {state : DecodeState σ}
  (framed : ∀ packet ∈ packets, WellFramed decoder.lastEvent packet)
  (consumed : Consumed decoder recv packets data state received)
  (stream : data ++ chunk <+: packets.flatten)
  (bounded : chunk.length ≤ recvBufferSize)

include framed consumed stream bounded

/-- Such a chunk is decoded as if nothing were behind it. -/
theorem checkPacketOnBuffer_of_headArrives
    (arrives : HeadArrives packets (data.length, chunk)) :
    checkPacketOnBuffer decoder state (refill buffer chunk) chunk =
      checkPacket decoder state chunk := by
  obtain ⟨halfpack, middle, findMsghead⟩ := state
  obtain ⟨done, rest, front, rfl, rfl, pending, rfl, -⟩ := consumed
  rw [headArrives_iff pending] at arrives
  rw [List.flatten_append, List.append_assoc,
    List.prefix_append_right_inj] at stream
  cases pending with
  | none => rfl
  | @some packet packets half isPrefix short sized =>
      have framedHere := framed packet (by simp)
      have arrived := arrives half packet packets rfl rfl
      rw [← List.length_append] at arrived
      obtain ⟨sameReach, known⟩ := headBytes_of_stream framedHere stream
      have length := (known arrived).1
      exact resumeOnBuffer_of_reached decoder _ _ (sameReach.mpr arrived)
        (short.le.trans length.ge) bounded

/-- A chunk of which the length is read among old bytes is kept. -/
theorem checkPacketOnBuffer_of_stale
    (size : buffer.length = recvBufferSize)
    (reads : HeadRead packets (refill buffer chunk) (data.length, chunk))
    (fallsShort : ¬HeadArrives packets (data.length, chunk)) :
    ∃ result, checkPacketOnBuffer decoder state (refill buffer chunk) chunk =
        .ok result ∧
      Consumed decoder recv packets (data ++ chunk) result.state
        (received ++ result.received) := by
  obtain ⟨halfpack, middle, findMsghead⟩ := state
  obtain ⟨done, rest, front, rfl, rfl, pending, rfl, handledDone⟩ := consumed
  rw [headArrives_iff pending] at fallsShort
  rw [List.flatten_append, List.append_assoc,
    List.prefix_append_right_inj] at stream
  cases pending with
  | none => simp at fallsShort
  | @some packet packets half isPrefix short sized =>
      have unread : half.bytes.length + chunk.length < headBytes packet := by
        by_contra reached
        refine fallsShort ?_
        rintro _ _ _ ⟨⟩ ⟨⟩
        omega
      have framedHere := framed packet (by simp)
      have inside := framedHere.headBytes_le
      have headMax : headBytes packet ≤ 36 := by
        unfold headBytes
        split <;> omega
      obtain ⟨incomplete, lengthMax⟩ :=
        (reads.of_pending isPrefix short).resolve_left (by omega)
      have full : (refill buffer chunk).length = recvBufferSize :=
        length_refill size bounded
      obtain ⟨longer, kept, bytes⟩ := resumeOnBuffer_of_stale decoder
        ⟨some half, middle, false⟩ full
        (by simp only [sizeofPacketHead]; omega) incomplete lengthMax
      have longerPrefix : longer.bytes <+: packet := bytes ▸
        List.prefix_of_prefix_length_le stream (List.prefix_append _ _)
          (by rw [List.length_append]; omega)
      have longerShort : longer.bytes.length < headBytes packet := by
        rw [bytes, List.length_append]
        exact unread
      refine ⟨_, kept, done, packet :: packets, longer.bytes, rfl, ?_,
        .some longer longerPrefix (by omega) fun long => ?_, rfl, ?_⟩
      · rw [bytes, List.append_assoc]
      · simp only [sizeofPacketHead] at long
        omega
      · rw [List.append_nil]
        exact handledDone

variable (tcp : decoder.protocol = .tcp)
  (readsOnlyPacket : decoder.ReadsOnlyPacket)
  (handled : handlePackets decoder recv packets = .ok (final, all))

include tcp readsOnlyPacket handled

/-- A chunk for which a length is read takes the decoder to the state after
it. -/
theorem checkPacketOnBuffer_consumed
    (size : buffer.length = recvBufferSize)
    (reads : HeadRead packets (refill buffer chunk) (data.length, chunk)) :
    ∃ result, checkPacketOnBuffer decoder state (refill buffer chunk) chunk =
        .ok result ∧
      Consumed decoder recv packets (data ++ chunk) result.state
        (received ++ result.received) := by
  by_cases arrives : HeadArrives packets (data.length, chunk)
  · rw [checkPacketOnBuffer_of_headArrives framed consumed stream bounded
      arrives]
    exact checkPacket_consumed tcp readsOnlyPacket framed handled consumed
      stream bounded arrives
  · exact checkPacketOnBuffer_of_stale framed consumed stream bounded size
      reads arrives

end Stream

section Chunks

variable {decoder : Decoder σ} (tcp : decoder.protocol = .tcp)
  (readsOnlyPacket : decoder.ReadsOnlyPacket)
  {packets : List (List UInt8)} {recv final : σ} {all : List Block}
  (framed : ∀ packet ∈ packets, WellFramed decoder.lastEvent packet)
  (handled : handlePackets decoder recv packets = .ok (final, all))

include tcp readsOnlyPacket framed handled

theorem checkPacketsOnBuffer_consumed {chunks : List (List UInt8)}
    {received : List Block} {data buffer : List UInt8} {state : DecodeState σ}
    (bounded : ∀ chunk ∈ chunks, chunk.length ≤ recvBufferSize)
    (size : buffer.length = recvBufferSize)
    (consumed : Consumed decoder recv packets data state received)
    (stream : data ++ chunks.flatten = packets.flatten)
    (reads : HeadsReadFrom packets buffer data.length chunks) :
    ∃ last later,
      checkPacketsOnBuffer decoder buffer state chunks = .ok (last, later) ∧
      Consumed decoder recv packets packets.flatten last
        (received ++ later) := by
  induction chunks generalizing data buffer state received with
  | nil =>
      rw [List.flatten_nil, List.append_nil] at stream
      subst stream
      exact ⟨state, [], rfl, by rwa [List.append_nil]⟩
  | cons chunk chunks inductionHypothesis =>
      rw [List.flatten_cons, ← List.append_assoc] at stream
      obtain ⟨readsHere, readsLater⟩ := reads
      obtain ⟨boundedHere, boundedLater⟩ := List.forall_mem_cons.mp bounded
      obtain ⟨result, checked, consumedNext⟩ := checkPacketOnBuffer_consumed
        framed consumed ⟨chunks.flatten, stream⟩ boundedHere tcp
        readsOnlyPacket handled size readsHere
      rw [← List.length_append] at readsLater
      obtain ⟨last, later, checkedLater, consumedLast⟩ := inductionHypothesis
        boundedLater (length_refill size boundedHere)
        consumedNext stream readsLater
      refine ⟨last, result.received ++ later, ?_, ?_⟩
      · simp only [checkPacketsOnBuffer, checked, ok_bind, checkedLater,
          pure_eq_ok]
      · rwa [← List.append_assoc]

/-- However the stream of well-framed packets is cut into chunks, the packets
are handled as if each had come alone and nothing is pending at the end, if a
length is read for every chunk. -/
theorem checkPacketsOnBuffer_stream {chunks : List (List UInt8)}
    (bounded : ∀ chunk ∈ chunks, chunk.length ≤ recvBufferSize)
    (stream : chunks.flatten = packets.flatten)
    (reads : HeadsRead packets chunks) :
    checkPacketsOnBuffer decoder emptyBuffer ⟨none, recv, false⟩ chunks =
      .ok (⟨none, final, false⟩, all) := by
  have start : Consumed decoder recv packets [] ⟨none, recv, false⟩ [] :=
    ⟨[], packets, [], rfl, rfl, .none, rfl, rfl⟩
  obtain ⟨last, later, checked, consumed⟩ := checkPacketsOnBuffer_consumed tcp
    readsOnlyPacket framed handled bounded length_emptyBuffer start
    (by rw [List.nil_append, stream]) reads
  obtain ⟨rfl, rfl⟩ := consumed.finished framed handled
  rw [checked, List.nil_append]

end Chunks

end Network
end Pilot2Cloud
