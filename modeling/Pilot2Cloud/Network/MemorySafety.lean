import Mathlib.Logic.Relation
import Pilot2Cloud.Network.Resume
import Pilot2Cloud.Network.ServerRuns

/-!
# Which bytes a server session survives

Every bound that `CheckPacket` and `CombineSubpacket` rely on without checking
it is stated as a condition on the bytes and on the buffers they meet.  A run
of a session makes no access outside its buffers if and only if the conditions
are met, and then every chunk is accounted for.
-/

namespace Pilot2Cloud
namespace Network

open Foundation Words Memory

/-! ## Storing one fragment -/

section Fragment

variable {malloc : Nat → Bool} {message : List UInt8}

/-- A buffer always holds as many bytes as its header announces. -/
theorem ReceiveBuffer.message_ok (buffer : ReceiveBuffer) :
    ∃ block, buffer.message = .ok block := by
  have length := buffer.bodyLength
  simp only [Field.msgLength] at length
  refine ⟨_, if_pos ?_⟩
  simp only [List.length_append, List.length_map, MsgHeader.length_bytes,
    MsgHeader.ofBytes, Field.msgLength, sizeofMsgHeader, length]
  omega

/-- The payload that a fragment announces, and where it belongs. -/
def payloadLen (message : List UInt8) : Nat :=
  wordAt message Field.subpacketLen

/-- The offset of the payload that a message announces. -/
def payloadOffset (message : List UInt8) : Nat :=
  wordAt message Field.subpacketOffset

/-- A fragment's payload lies in the fragment and finds room in a buffer. -/
def PayloadFits (message : List UInt8) (room : Nat) : Prop :=
  sizeofPacketHead + payloadLen message ≤ message.length ∧
    payloadOffset message + payloadLen message ≤ room

/-- The room behind the header of a receive buffer. -/
def Recvbuf.room (recvbuf : Recvbuf) : Option Nat :=
  recvbuf.receivebuf.map fun buffer => buffer.body.length

/-- Storing a fragment in an allocated buffer succeeds when it fits. -/
theorem Recvbuf.storeSubpacket_ok_iff
    (buffer : ReceiveBuffer) (receivecount receiveID : Nat) :
    (∃ stored, Recvbuf.storeSubpacket
        ⟨some buffer, receivecount, receiveID⟩ message = .ok stored) ↔
      PayloadFits message buffer.body.length := by
  have counted : ∀ next : ReceiveBuffer, ∃ stored,
      (if wrap (receivecount + 1) = wordAt message 20 then
        (.ok (⟨some next, 0, receiveID⟩, some next) :
          Except Fault (Recvbuf × Option ReceiveBuffer))
      else .ok (⟨some next, wrap (receivecount + 1), receiveID⟩, none)) =
        .ok stored := by
    intro next
    split <;> exact ⟨_, rfl⟩
  simp only [storeSubpacket, Field.subpacketOffset, Field.subpacketLen,
    Field.subpacketTotalnum, sizeofPacketHead, PayloadFits, payloadLen,
    payloadOffset]
  by_cases inside : 40 + wordAt message 32 ≤ message.length
  · have payload : (((message.drop 40).take (wordAt message 32))).length =
        wordAt message 32 := by
      rw [List.length_take, List.length_drop]
      omega
    simp only [
      readWord_of_inside (show 28 + 4 ≤ message.length by omega),
      readWord_of_inside (show 32 + 4 ≤ message.length by omega),
      readWord_of_inside (show 20 + 4 ≤ message.length by omega),
      read_of_inside inside, ok_bind, pure_eq_ok, inside, true_and]
    by_cases room : wordAt message 28 + wordAt message 32 ≤
        buffer.body.length
    · obtain ⟨next, stores, -, -⟩ := ReceiveBuffer.store_of_inside
        (show wordAt message 28 +
          ((message.drop 40).take (wordAt message 32)).length ≤ _ by
            rw [payload]; exact room)
      rw [stores]
      exact iff_of_true (counted next) room
    · have overflow := ReceiveBuffer.store_of_outside
        (show _ < wordAt message 28 +
          ((message.drop 40).take (wordAt message 32)).length by
            rw [payload]; exact Nat.not_le.mp room)
      rw [overflow]
      exact iff_of_false (by simp) room
  · refine iff_of_false ?_ fun fits => inside fits.1
    rintro ⟨stored, success⟩
    simp only [bind_eq_ok_iff] at success
    obtain ⟨offset, -, length, lengthRead, total, -, payload, payloadRead, -⟩ :=
      success
    have reach := inside_of_read_ok payloadRead
    have word : length = wordAt message 32 := by
      unfold readWord at lengthRead
      split at lengthRead
      · exact (Except.ok.inj lengthRead).symm
      · contradiction
    omega

theorem Recvbuf.receive_ok_iff (recvbuf : Recvbuf) :
    (∃ result, recvbuf.receive message = .ok result) ↔
      ∀ room ∈ recvbuf.room, PayloadFits message room := by
  have received : (∃ result, recvbuf.receive message = .ok result) ↔
      ∃ stored, recvbuf.storeSubpacket message = .ok stored := by
    simp only [receive, bind_eq_ok_iff]
    constructor
    · rintro ⟨result, stored, success, -⟩
      exact ⟨stored, success⟩
    · rintro ⟨⟨next, complete⟩, success⟩
      cases complete with
      | none => exact ⟨_, _, success, rfl⟩
      | some buffer =>
          obtain ⟨block, whole⟩ := buffer.message_ok
          refine ⟨(Recvbuf.idle, [block]), _, success, ?_⟩
          simp only [whole, ok_bind, pure_eq_ok]
  rw [received]
  obtain ⟨receivebuf, receivecount, receiveID⟩ := recvbuf
  cases receivebuf with
  | none => exact iff_of_true ⟨_, rfl⟩ (by simp [room])
  | some buffer =>
      rw [storeSubpacket_ok_iff]
      simp [room]

/-- The room in the buffer that a fragment lands in, if there is one. -/
def ServerNetSession.roomFor
    (malloc : Nat → Bool) (recv : ClientRecv) (message : List UInt8) :
    Option Nat :=
  match recv.find (wordAt message Field.packetID) with
  | some index => (recv.get index).room
  | none =>
      if malloc (clearFlag (wordAt message Field.msgLength) + sizeofMsgHeader)
      then some (clearFlag (wordAt message Field.msgLength))
      else none

/-- A fragment whose packet id can be read and whose payload fits into the
buffer it lands in. -/
def ServerNetSession.FragmentFits
    (malloc : Nat → Bool) (recv : ClientRecv) (message : List UInt8) : Prop :=
  Field.packetID + memberSizeByte ≤ message.length ∧
    ∀ room ∈ ServerNetSession.roomFor malloc recv message,
      PayloadFits message room

/-- The buffer that a fragment lands in has that room. -/
theorem ServerNetSession.recvbufFor_room
    (malloc : Nat → Bool) (recv : ClientRecv) (hasID : 20 ≤ message.length) :
    ∃ index recvbuf, ServerNetSession.recvbufFor malloc recv message
        (wordAt message 16) = .ok (index, recvbuf) ∧
      recvbuf.room = ServerNetSession.roomFor malloc recv message := by
  have header : sizeofMsgHeader ≤ message.length := by
    simp only [sizeofMsgHeader]
    omega
  simp only [recvbufFor, roomFor, Field.packetID]
  cases recv.find (wordAt message 16) with
  | some index => exact ⟨index, recv.get index, rfl, rfl⟩
  | none =>
      simp only [Recvbuf.open, Field.msgLength,
        readWord_of_inside (show 8 + 4 ≤ message.length by omega), ok_bind,
        dif_pos header]
      by_cases memory :
          malloc (clearFlag (wordAt message 8) + sizeofMsgHeader) = true
      · rw [if_pos memory, if_pos memory]
        refine ⟨_, _, rfl, ?_⟩
        have same : wordAt (message.take 16) 8 = wordAt message 8 :=
          wordAt_take _ (by omega) header
        simp only [Recvbuf.room, ReceiveBuffer.alloc, Option.map_some,
          Block.length_alloc, Field.msgLength, sizeofMsgHeader, same]
      · rw [if_neg memory, if_neg memory]
        exact ⟨_, _, rfl, rfl⟩

theorem ServerNetSession.receiveSubpacket_ok_iff (recv : ClientRecv) :
    (∃ result, ServerNetSession.receiveSubpacket malloc recv message =
        .ok result) ↔
      ServerNetSession.FragmentFits malloc recv message := by
  rw [FragmentFits, receiveSubpacket_eq]
  by_cases hasID : Field.packetID + memberSizeByte ≤ message.length
  · obtain ⟨index, recvbuf, found, sameRoom⟩ :=
      recvbufFor_room malloc recv hasID
    rw [readWord_of_inside hasID, ok_bind, and_iff_right hasID, ← sameRoom,
      ← Recvbuf.receive_ok_iff]
    rw [show Field.packetID = 16 from rfl, found, ok_bind]
    constructor
    · rintro ⟨_, success⟩
      obtain ⟨result, received, -⟩ := bind_eq_ok_iff.mp success
      exact ⟨result, received⟩
    · rintro ⟨result, received⟩
      exact ⟨_, bind_eq_ok_iff.mpr ⟨result, received, rfl⟩⟩
  · rw [readWord_of_outside (Nat.not_le.mp hasID)]
    exact iff_of_false (by simp) fun fits => hasID fits.1

end Fragment

/-! ## The loop over a chunk -/

section Scan

variable {σ : Type} (decoder : Decoder σ) (fits : σ → List UInt8 → Prop)

/-- A round of the loop: the packet at the front is handled and skipped. -/
def Round (now next : σ × List UInt8) : Prop :=
  Complete now.2 ∧
    (∃ received, handlePacket decoder now.1 (isSubpacket now.2) now.2
      (declaredLen now.2) = .ok (next.1, received)) ∧
    next.2 = now.2.drop (declaredLen now.2)

/-- Every fragment that the loop comes to fits. -/
def ScanFits (recv : σ) (data : List UInt8) : Prop :=
  ∀ now, Relation.ReflTransGen (Round decoder) (recv, data) now →
    Complete now.2 → isSubpacket now.2 = true → fits now.1 now.2

/-- The loop gives up on what is at the front of the bytes. -/
def Discards (findMsghead : Bool) (data : List UInt8) : Prop :=
  ¬Complete data ∧ (decoder.protocol = .udp ∨
    ∃ front, readFront data = .ok front ∧
      Rejected decoder findMsghead front data)

/-- Of the bytes that the loop starts with, nothing is left, or what is left is
kept in the half-packet buffer, or the loop has given up on it.  The flag
`findMsghead` can only be set then if it was set at the start and no packet has
been handled. -/
def AccountedFrom (findMsghead : Bool) (data : List UInt8)
    (result : CheckResult σ) : Prop :=
  result.unread <:+ data ∧
    (result.unread = [] ∨
      (∃ half ∈ result.state.halfpack, result.unread <:+ half.bytes) ∨
      ∃ flag, (flag = true → findMsghead = true ∧ result.unread = data) ∧
        Discards decoder flag result.unread)

/-- Of a chunk nothing is left, or what is left is kept in the half-packet
buffer, or the loop has given up on it.  The flag `findMsghead` can only be set
then if no packet of the chunk has been handled. -/
def Accounted (chunk : List UInt8) (result : CheckResult σ) : Prop :=
  result.unread <:+ chunk ∧
    (result.unread = [] ∨
      (∃ half ∈ result.state.halfpack, result.unread <:+ half.bytes) ∨
      ∃ findMsghead, (findMsghead = true → result.unread = chunk) ∧
        Discards decoder findMsghead result.unread)

/-- A half-packet buffer holds no more than the longest packet, and it is as
large as its packet once it holds a packet head. -/
structure HalfPack.Sized (half : HalfPack) : Prop where
  lengthMax : half.bytes.length ≤ singlePacketLenMax
  sized : sizeofPacketHead ≤ half.bytes.length →
    declaredLen half.bytes ≠ 0 → half.size = declaredLen half.bytes

variable {decoder fits} {state : DecodeState σ} {recv : σ}
  {data : List UInt8}

theorem AccountedFrom.accounted {findMsghead : Bool} {result : CheckResult σ}
    (loop : AccountedFrom decoder findMsghead data result) :
    Accounted decoder data result := by
  obtain ⟨suffix, kind⟩ := loop
  refine ⟨suffix, kind.imp_right (Or.imp_right ?_)⟩
  rintro ⟨flag, isSet, discards⟩
  exact ⟨flag, fun set => (isSet set).2, discards⟩

/-- What is left after more packets was left after the first ones. -/
theorem AccountedFrom.of_suffix {whole : List UInt8} {findMsghead : Bool}
    {result : CheckResult σ}
    (rest : AccountedFrom decoder false data result) (suffix : data <:+ whole) :
    AccountedFrom decoder findMsghead whole result := by
  obtain ⟨unread, kind⟩ := rest
  refine ⟨unread.trans suffix, kind.imp_right (Or.imp_right ?_)⟩
  rintro ⟨flag, isSet, discards⟩
  exact ⟨flag, fun set => absurd (isSet set).1 Bool.false_ne_true, discards⟩

theorem readFront_of_not_complete (incomplete : ¬Complete data) :
    ∃ front, readFront data = .ok front ∧
      (front.packetLen = 0 ∨ data.length < front.packetLen) ∧
      (sizeofPacketHead ≤ data.length →
        front.packetLen = declaredLen data) := by
  refine ⟨_, Network.readFront_eq data, ?_, ?_⟩
  · by_cases reached : headBytes data ≤ data.length
    · by_contra complete
      rw [if_pos reached, not_or, Nat.not_lt] at complete
      exact incomplete ⟨reached, complete.1, complete.2⟩
    · exact .inl (if_neg reached)
  · intro whole
    have maximum : headBytes data ≤ 36 := by
      unfold headBytes
      split <;> omega
    simp only [sizeofPacketHead] at whole
    exact if_pos (by omega)

theorem scanFits_of_not_complete (incomplete : ¬Complete data) :
    ScanFits decoder fits recv data := by
  intro now reached complete
  rcases reached.cases_head with rfl | ⟨next, round, -⟩
  · exact absurd complete incomplete
  · exact absurd round.1 incomplete

theorem scanFits_iff_of_complete (complete : Complete data) :
    ScanFits decoder fits recv data ↔
      (isSubpacket data = true → fits recv data) ∧
        ∀ next received, handlePacket decoder recv (isSubpacket data) data
            (declaredLen data) = .ok (next, received) →
          ScanFits decoder fits next (data.drop (declaredLen data)) := by
  constructor
  · intro all
    refine ⟨all (recv, data) .refl complete, ?_⟩
    intro next received handled now reached
    exact all now (.head ⟨complete, ⟨received, handled⟩, rfl⟩ reached)
  · rintro ⟨here, later⟩ now reached completeNow
    rcases reached.cases_head with rfl | ⟨⟨next, rest⟩, round, reachedNext⟩
    · exact here
    · obtain ⟨-, ⟨received, handled⟩, rfl⟩ := round
      exact later next received handled now reachedNext completeNow

section Handled

variable
  (fragment : ∀ recv message,
    (∃ result, decoder.receiveSubpacket recv message = .ok result) ↔
      fits recv message)

include fragment

/-- A packet is handled unless it is a fragment that does not fit. -/
theorem handlePacket_ok_iff
    {issubpacket : Bool} {packetLen : Nat} (inside : packetLen ≤ data.length) :
    (∃ result, handlePacket decoder recv issubpacket data packetLen =
        .ok result) ↔
      (issubpacket = true → fits recv data) := by
  cases issubpacket with
  | true =>
      rw [← fragment recv data]
      simp [handlePacket]
  | false =>
      have whole : read data 0 packetLen = .ok (data.take packetLen) := by
        rw [read_of_inside (by omega), List.drop_zero]
      refine iff_of_true ⟨(recv, [(data.take packetLen).map some]), ?_⟩
        (by simp)
      simp [handlePacket, whole]

/-- A packet is handled, and then what follows it, when both fit. -/
theorem handled_ok_iff
    {issubpacket : Bool} {packetLen : Nat} (inside : packetLen ≤ data.length)
    {follow : σ → Except Fault (CheckResult σ)} {followFits : σ → Prop}
    (sameFits : ∀ next, (∃ rest, follow next = .ok rest) ↔ followFits next) :
    (∃ result, (do
        let (next, received) ←
          handlePacket decoder recv issubpacket data packetLen
        let rest ← follow next
        return { rest with received := received ++ rest.received }) =
          .ok result) ↔
      (issubpacket = true → fits recv data) ∧
        ∀ next received,
          handlePacket decoder recv issubpacket data packetLen =
            .ok (next, received) → followFits next := by
  rw [← handlePacket_ok_iff fragment inside]
  constructor
  · rintro ⟨result, success⟩
    obtain ⟨⟨next, received⟩, handled, remaining⟩ :=
      bind_eq_ok_iff.mp success
    refine ⟨⟨_, handled⟩, ?_⟩
    intro other otherReceived sameHandled
    rw [handled] at sameHandled
    obtain ⟨rfl, -⟩ := Prod.mk.inj (Except.ok.inj sameHandled)
    obtain ⟨rest, followed, -⟩ := bind_eq_ok_iff.mp remaining
    exact (sameFits next).mp ⟨rest, followed⟩
  · rintro ⟨⟨⟨next, received⟩, handled⟩, later⟩
    obtain ⟨rest, followed⟩ :=
      (sameFits next).mpr (later next received handled)
    refine ⟨{ rest with received := received ++ rest.received }, ?_⟩
    simp only [handled, ok_bind, followed, pure_eq_ok]

/-- The loop ends without a fault exactly when the fragments it comes to
fit. -/
theorem scan_ok_iff
    {fuel : Nat} (state : DecodeState σ) (enough : data.length < fuel) :
    (∃ result, scan decoder fuel state data = .ok result) ↔
      ScanFits decoder fits state.recv data := by
  induction fuel generalizing state data with
  | zero => omega
  | succ fuel inductionHypothesis =>
      by_cases complete : Complete data
      · have shorter : (data.drop (declaredLen data)).length < fuel := by
          have nonzero := complete.2.1
          have inside := complete.2.2
          rw [List.length_drop]
          omega
        rw [scan_complete complete.ne_nil complete.readFront_eq complete.2.1
          complete.2.2, scanFits_iff_of_complete complete]
        exact handled_ok_iff fragment complete.2.2
          fun next => inductionHypothesis
            { state with recv := next, findMsghead := false } shorter
      · refine iff_of_true ?_ (scanFits_of_not_complete complete)
        by_cases pending : data = []
        · subst pending
          exact ⟨_, scan_nil⟩
        · obtain ⟨front, frontRead, incomplete, -⟩ :=
            readFront_of_not_complete complete
          obtain ⟨_, scanned⟩ := scan_incomplete decoder fuel state pending
            frontRead incomplete
          exact ⟨_, scanned⟩

end Handled

/-- A part of a chunk that is kept gets a buffer of the right size. -/
theorem halfPackSize_sized
    {front : PacketFront} (pending : data ≠ [])
    (lengthMax : data.length ≤ singlePacketLenMax)
    (known : sizeofPacketHead ≤ data.length →
      front.packetLen = declaredLen data)
    (fits : data.length ≤ halfPackSize front data) :
    HalfPack.Sized ⟨halfPackSize front data, data, pending, fits⟩ where
  lengthMax := lengthMax
  sized := by
    intro whole nonzero
    change halfPackSize front data = declaredLen data
    change declaredLen data ≠ 0 at nonzero
    rw [halfPackSize, known whole, if_neg nonzero]

/-- When the loop ends, the chunk is accounted for. -/
theorem scan_accounted
    {fuel : Nat} {result : CheckResult σ}
    (scanned : scan decoder fuel state data = .ok result)
    (lengthMax : data.length ≤ singlePacketLenMax)
    (sized : ∀ half ∈ state.halfpack, half.Sized) :
    AccountedFrom decoder state.findMsghead data result ∧
      ∀ half ∈ result.state.halfpack, half.Sized := by
  induction fuel generalizing state data result with
  | zero => simp [scan] at scanned
  | succ fuel inductionHypothesis =>
      by_cases complete : Complete data
      · rw [scan_complete complete.ne_nil complete.readFront_eq complete.2.1
          complete.2.2] at scanned
        obtain ⟨⟨next, received⟩, -, remaining⟩ := bind_eq_ok_iff.mp scanned
        obtain ⟨rest, scannedRest, final⟩ := bind_eq_ok_iff.mp remaining
        have shorter : (data.drop (declaredLen data)).length ≤
            singlePacketLenMax := by
          rw [List.length_drop]
          omega
        obtain ⟨accounted, sizedRest⟩ :=
          inductionHypothesis scannedRest shorter sized
        obtain rfl := Except.ok.inj final
        exact ⟨accounted.of_suffix (List.drop_suffix _ _), sizedRest⟩
      · by_cases pending : data = []
        · subst pending
          rw [scan_nil] at scanned
          obtain rfl := Except.ok.inj scanned
          exact ⟨⟨List.suffix_rfl, .inl rfl⟩, sized⟩
        · obtain ⟨front, frontRead, incomplete, known⟩ :=
            readFront_of_not_complete complete
          obtain ⟨fitsHere, stopped⟩ := scan_incomplete decoder fuel state
            pending frontRead incomplete
          rw [stopped] at scanned
          obtain rfl := Except.ok.inj scanned
          by_cases udp : decoder.protocol = .udp
          · rw [if_pos udp]
            exact ⟨⟨List.suffix_rfl,
              .inr (.inr ⟨false, fun set => absurd set Bool.false_ne_true,
                complete, .inl udp⟩)⟩, sized⟩
          · rw [if_neg udp]
            by_cases rejected : Rejected decoder state.findMsghead front data
            · rw [if_pos rejected]
              exact ⟨⟨List.suffix_rfl, .inr (.inr ⟨state.findMsghead,
                fun set => ⟨set, rfl⟩, complete,
                .inr ⟨front, frontRead, rejected⟩⟩)⟩, sized⟩
            · rw [if_neg rejected]
              refine ⟨⟨List.suffix_rfl, .inr (.inl ⟨_, rfl,
                List.suffix_rfl⟩)⟩, ?_⟩
              rintro half ⟨⟩
              exact halfPackSize_sized pending lengthMax known fitsHere

end Scan

/-! ## A packet that began in an earlier chunk -/

section Resume

variable {σ : Type} (decoder : Decoder σ) (fits : σ → List UInt8 → Prop)

/-- The packet at the front of the bytes fits, and then what follows it. -/
def PacketFits (recv : σ) (data : List UInt8) : Prop :=
  (isSubpacket data = true → fits recv (data.take (declaredLen data))) ∧
    ∀ next received, handlePacket decoder recv (isSubpacket data)
        (data.take (declaredLen data)) (declaredLen data) =
          .ok (next, received) →
      ScanFits decoder fits next (data.drop (declaredLen data))

/-- The buffered bytes and the chunk reach the length members of their packet.
A packet that is too long is given up for the chunk; another one is no shorter
than what has been buffered of it, and fits once it is complete. -/
def ResumeFits (recv : σ) (half : HalfPack) (chunk : List UInt8) : Prop :=
  headBytes (half.bytes ++ chunk) ≤ (half.bytes ++ chunk).length ∧
    if singlePacketLenMax < declaredLen (half.bytes ++ chunk) then
      ScanFits decoder fits recv chunk
    else half.bytes.length ≤ declaredLen (half.bytes ++ chunk) ∧
      (declaredLen (half.bytes ++ chunk) ≤ (half.bytes ++ chunk).length →
        PacketFits decoder fits recv (half.bytes ++ chunk))

/-- A chunk that the decoder survives. -/
def ChunkFits (state : DecodeState σ) (chunk : List UInt8) : Prop :=
  match state.halfpack with
  | none => ScanFits decoder fits state.recv chunk
  | some half => ResumeFits decoder fits state.recv half chunk

variable {decoder fits} {state : DecodeState σ} {half : HalfPack}
  {chunk : List UInt8}

theorem declaredLen_of_append (bytes : List UInt8) (whole : 36 ≤ bytes.length)
    (back : List UInt8) :
    declaredLen (bytes ++ back) = declaredLen bytes := by
  have flag : isSubpacket (bytes ++ back) = isSubpacket bytes := by
    rw [isSubpacket, isSubpacket, wordAt_append_left _ _ (by omega)]
  rw [declaredLen, declaredLen, flag, wordAt_append_left _ _ (by omega),
    wordAt_append_left _ _ (by omega)]

/-- The buffer gets room for a packet that is no shorter than what it holds. -/
theorem HalfPack.Sized.growsTo
    (sized : half.Sized)
    (held : half.bytes.length ≤ declaredLen (half.bytes ++ chunk)) :
    half.GrowsTo (declaredLen (half.bytes ++ chunk)) := by
  refine HalfPack.grow_of_fits held ?_
  intro whole
  have pending := List.length_pos_iff.mpr half.pending
  simp only [sizeofPacketHead] at whole
  rw [declaredLen_of_append half.bytes (by omega)] at held ⊢
  exact sized.sized whole (by omega)

/-- A packet that is shorter than what has been buffered of it is copied past
the end of its buffer, or read past the end of the chunk. -/
theorem resume_of_short_packet
    (decoder : Decoder σ) (state : DecodeState σ) (sized : half.Sized)
    (bounded : chunk.length ≤ recvBufferSize)
    (reached : headBytes (half.bytes ++ chunk) ≤
      (half.bytes ++ chunk).length)
    (lengthMax : declaredLen (half.bytes ++ chunk) ≤ singlePacketLenMax)
    (short : declaredLen (half.bytes ++ chunk) < half.bytes.length) :
    ∃ fault, resume decoder state half chunk = .error fault := by
  by_cases copied : half.bytes.length < sizeofPacketHead
  · have overflow : half.grow (declaredLen (half.bytes ++ chunk)) =
        .error .writePastEnd := by
      rw [HalfPack.grow, if_pos copied]
      exact dif_neg (Nat.not_le.mpr short)
    exact ⟨_, resume_of_grow_error reached lengthMax overflow⟩
  · have whole := Nat.not_lt.mp copied
    have same : declaredLen (half.bytes ++ chunk) = declaredLen half.bytes :=
      declaredLen_of_append half.bytes
        (by simp only [sizeofPacketHead] at whole; omega) chunk
    have zero : declaredLen (half.bytes ++ chunk) = 0 := by
      by_contra nonzero
      have size := sized.sized whole (by rwa [same] at nonzero)
      have held := half.fits
      rw [size, ← same] at held
      omega
    have limits : singlePacketLenMax + recvBufferSize < 2 ^ 32 := by decide
    have held := sized.lengthMax
    have missing : wrap (0 + 2 ^ 32 - half.bytes.length) =
        2 ^ 32 - half.bytes.length := by
      rw [wrap]
      omega
    have overread : read chunk 0 (2 ^ 32 - half.bytes.length) =
        .error .readPastEnd :=
      read_of_outside (by omega)
    refine ⟨.readPastEnd, ?_⟩
    rw [resume, readHalfLength_of_reached reached, ok_bind, zero]
    simp only [HalfPack.grow, if_neg copied, pure_eq_ok, ok_bind,
      Nat.not_lt_zero, if_false, missing, overread, error_bind]

variable
  (fragment : ∀ recv message,
    (∃ result, decoder.receiveSubpacket recv message = .ok result) ↔
      fits recv message)
  (bounded : chunk.length ≤ recvBufferSize)

include fragment bounded

/-- A packet that began in an earlier chunk is decoded without a fault exactly
when it fits and what follows it does. -/
theorem resume_ok_iff (sized : half.Sized) :
    (∃ result, resume decoder state half chunk = .ok result) ↔
      ResumeFits decoder fits state.recv half chunk := by
  by_cases reached :
      headBytes (half.bytes ++ chunk) ≤ (half.bytes ++ chunk).length
  · rw [ResumeFits, and_iff_right reached]
    by_cases tooLong :
        singlePacketLenMax < declaredLen (half.bytes ++ chunk)
    · rw [resume_of_too_long reached tooLong, if_pos tooLong]
      exact scan_ok_iff fragment _ (Nat.lt_succ_self _)
    · rw [if_neg tooLong]
      have lengthMax := Nat.not_lt.mp tooLong
      by_cases held :
          half.bytes.length ≤ declaredLen (half.bytes ++ chunk)
      · rw [and_iff_right held]
        have grows := sized.growsTo held
        by_cases complete : declaredLen (half.bytes ++ chunk) ≤
            (half.bytes ++ chunk).length
        · rw [resume_of_complete reached lengthMax grows _ _ bounded
            held complete, PacketFits, forall_prop_of_true complete]
          have inside : declaredLen (half.bytes ++ chunk) ≤
              ((half.bytes ++ chunk).take
                (declaredLen (half.bytes ++ chunk))).length := by
            rw [List.length_take]
            omega
          have follow : ∀ next, (∃ rest, scanChunk decoder
              ⟨none, next, false⟩ ((half.bytes ++ chunk).drop
                (declaredLen (half.bytes ++ chunk))) = .ok rest) ↔
              ScanFits decoder fits next ((half.bytes ++ chunk).drop
                (declaredLen (half.bytes ++ chunk))) :=
            fun next => scan_ok_iff fragment _ (Nat.lt_succ_self _)
          exact handled_ok_iff fragment inside follow
        · obtain ⟨longer, resumed, -⟩ := resume_of_incomplete
            reached lengthMax grows decoder state
            (Nat.not_le.mp complete)
          exact iff_of_true ⟨_, resumed⟩
            fun whole => absurd whole complete
      · obtain ⟨fault, failed⟩ := resume_of_short_packet
          decoder state sized bounded reached lengthMax (Nat.not_le.mp held)
        rw [failed]
        exact iff_of_false (by simp) fun both => held both.1
  · rw [resume_of_short_head (Nat.not_le.mp reached)]
    exact iff_of_false (by simp) fun fitsHere => reached fitsHere.1

/-- A chunk is decoded without a fault exactly when it fits. -/
theorem checkPacket_ok_iff
    (sized : ∀ half ∈ state.halfpack, half.Sized) :
    (∃ result, checkPacket decoder state chunk = .ok result) ↔
      ChunkFits decoder fits state chunk := by
  obtain ⟨halfpack, recv, findMsghead⟩ := state
  cases halfpack with
  | none => exact scan_ok_iff fragment _ (Nat.lt_succ_self _)
  | some half => exact resume_ok_iff fragment bounded (sized half rfl)

omit fragment

/-- The rest of a chunk after a packet that it completes is accounted for. -/
theorem resumed_accounted
    {recv : σ} {issubpacket : Bool} {packet : List UInt8} {packetLen : Nat}
    {result : CheckResult σ} (held : half.bytes.length ≤ packetLen)
    (checked : (do
        let (next, received) ←
          handlePacket decoder recv issubpacket packet packetLen
        let rest ← scanChunk decoder ⟨none, next, false⟩
          ((half.bytes ++ chunk).drop packetLen)
        return { rest with received := received ++ rest.received }) =
          .ok result) :
    Accounted decoder chunk result ∧
      ∀ half ∈ result.state.halfpack, half.Sized := by
  have limits : recvBufferSize ≤ singlePacketLenMax := by decide
  obtain ⟨missing, rfl⟩ := Nat.exists_eq_add_of_le held
  rw [List.drop_length_add_append] at checked
  obtain ⟨⟨next, received⟩, -, remaining⟩ := bind_eq_ok_iff.mp checked
  obtain ⟨rest, scanned, final⟩ := bind_eq_ok_iff.mp remaining
  have shorter : (chunk.drop missing).length ≤ singlePacketLenMax := by
    rw [List.length_drop]
    omega
  obtain ⟨accounted, sizedRest⟩ := scan_accounted scanned shorter (by simp)
  obtain rfl := Except.ok.inj final
  have whole : AccountedFrom decoder false chunk rest :=
    accounted.of_suffix (List.drop_suffix _ _)
  exact ⟨whole.accounted, sizedRest⟩

/-- After a chunk that is decoded without a fault, all of it is accounted
for. -/
theorem checkPacket_accounted
    (sized : ∀ half ∈ state.halfpack, half.Sized) {result : CheckResult σ}
    (checked : checkPacket decoder state chunk = .ok result) :
    Accounted decoder chunk result ∧
      ∀ half ∈ result.state.halfpack, half.Sized := by
  have limits : recvBufferSize ≤ singlePacketLenMax := by decide
  obtain ⟨halfpack, recv, findMsghead⟩ := state
  cases halfpack with
  | none =>
      exact (scan_accounted checked (by omega) sized).imp_left
        AccountedFrom.accounted
  | some half =>
      have sizedHere := sized half rfl
      change resume decoder _ half chunk = _ at checked
      by_cases reached :
          headBytes (half.bytes ++ chunk) ≤ (half.bytes ++ chunk).length
      · by_cases tooLong :
            singlePacketLenMax < declaredLen (half.bytes ++ chunk)
        · rw [resume_of_too_long reached tooLong] at checked
          exact (scan_accounted checked (by omega) (by simp)).imp_left
            AccountedFrom.accounted
        · have lengthMax := Nat.not_lt.mp tooLong
          by_cases held :
              half.bytes.length ≤ declaredLen (half.bytes ++ chunk)
          · have grows := sizedHere.growsTo held
            by_cases complete : declaredLen (half.bytes ++ chunk) ≤
                (half.bytes ++ chunk).length
            · rw [resume_of_complete reached lengthMax grows _ _ bounded
                held complete] at checked
              exact resumed_accounted bounded held checked
            · obtain ⟨longer, resumed, bytes, size⟩ := resume_of_incomplete
                reached lengthMax grows decoder
                ⟨some half, recv, findMsghead⟩ (Nat.not_le.mp complete)
              rw [resumed] at checked
              obtain rfl := Except.ok.inj checked
              refine ⟨⟨List.suffix_rfl, .inr (.inl ⟨longer, rfl, ?_⟩)⟩, ?_⟩
              · exact ⟨half.bytes, bytes.symm⟩
              · rintro _ ⟨⟩
                exact ⟨by rw [bytes]; omega, fun _ _ => by rw [size, bytes]⟩
          · obtain ⟨fault, failed⟩ := resume_of_short_packet
              decoder ⟨some half, recv, findMsghead⟩ sizedHere bounded reached
              lengthMax (Nat.not_le.mp held)
            rw [failed] at checked
            simp at checked
      · rw [resume_of_short_head (Nat.not_le.mp reached)] at checked
        simp at checked

end Resume

/-! ## Runs of a session -/

section Session

variable (protocol : NetProtocol) (lastEvent : Nat)

/-- The bytes that an event brings fit the state kept for their peer. -/
def ServerNetSession.EventFits (server : ServerState) : SessionEvent → Prop
  | .onAccept _ => True
  | .onRecv peer message malloc =>
      server.Admits peer →
        ChunkFits (ServerNetSession.decoder protocol lastEvent malloc)
          (ServerNetSession.FragmentFits malloc) (server.decodeStateOf peer)
          message.bytes
  | .onClose _ => True

/-- An event is handled without a fault, and the bytes that it brings are
accounted for when the decoder returns. -/
def ServerNetSession.EventSafe
    (server : ServerState) (event : SessionEvent) : Prop :=
  (∃ next, ServerNetSession.Step protocol lastEvent server event next) ∧
    ∀ peer message malloc result, event = .onRecv peer message malloc →
      server.Admits peer →
      Network.checkPacket
        (ServerNetSession.decoder protocol lastEvent malloc)
        (server.decodeStateOf peer) message.bytes = .ok result →
      Accounted (ServerNetSession.decoder protocol lastEvent malloc)
        message.bytes result

/-- The half-packet buffers of all peers have the right sizes. -/
def ServerState.Sized (server : ServerState) : Prop :=
  ∀ peer, ∀ half ∈ (server.decodeStateOf peer).halfpack, half.Sized

variable {protocol lastEvent} {server next : ServerState}
  {event : SessionEvent}

theorem ServerState.initial_sized : ServerState.initial.Sized := by
  intro peer half member
  simp [decodeStateOf, decodeState, initial, ClientInfo.fresh] at member

/-- Every event keeps the buffers' sizes right. -/
theorem ServerNetSession.Step.sized
    (sized : server.Sized)
    (step : ServerNetSession.Step protocol lastEvent server event next) :
    next.Sized := by
  intro peer half member
  rcases step.decodeStateOf peer with
    ⟨-, noHalf, -⟩ | ⟨sameHalf, -⟩ |
    ⟨message, malloc, result, -, checked, same⟩
  · simp [noHalf] at member
  · rw [sameHalf] at member
    exact sized peer half member
  · rw [same] at member
    exact (checkPacket_accounted message.bounded (sized peer) checked).2
      half member

/-- The bytes of a peer are decoded without a fault exactly when they fit. -/
theorem ServerNetSession.decodes_iff
    (sized : server.Sized) (peer : PeerAddress) (message : Received)
    (malloc : Nat → Bool) :
    (∃ result, Network.checkPacket
        (ServerNetSession.decoder protocol lastEvent malloc)
        (server.decodeStateOf peer) message.bytes = .ok result) ↔
      ChunkFits (ServerNetSession.decoder protocol lastEvent malloc)
        (ServerNetSession.FragmentFits malloc) (server.decodeStateOf peer)
        message.bytes :=
  checkPacket_ok_iff (fun recv _ => receiveSubpacket_ok_iff recv)
    message.bounded (sized peer)

/-- The bytes of an event that is handled fit. -/
theorem ServerNetSession.Step.eventFits (sized : server.Sized)
    (step : ServerNetSession.Step protocol lastEvent server event next) :
    ServerNetSession.EventFits protocol lastEvent server event := by
  cases event with
  | onAccept peer => trivial
  | onClose peer => trivial
  | onRecv peer message malloc =>
      intro admitted
      rw [← decodes_iff sized]
      obtain ⟨delivered, handled⟩ := step
      obtain ⟨update, run, -⟩ := checkPacket_of_room
        (ServerNetSession.decoder protocol lastEvent malloc) server peer
        message.bytes admitted
      obtain ⟨_, checked, -⟩ := bind_eq_ok_iff.mp handled
      rw [run] at checked
      obtain ⟨result, success, -⟩ := bind_eq_ok_iff.mp checked
      exact ⟨result, success⟩

/-- One event is safe exactly when its bytes fit. -/
theorem ServerNetSession.eventSafe_iff (sized : server.Sized) :
    ServerNetSession.EventSafe protocol lastEvent server event ↔
      ServerNetSession.EventFits protocol lastEvent server event := by
  constructor
  · rintro ⟨⟨next, step⟩, -⟩
    exact step.eventFits sized
  · intro fits
    cases event with
    | onAccept peer => exact ⟨⟨_, _, rfl⟩, by simp⟩
    | onClose peer => exact ⟨⟨_, _, rfl⟩, by simp⟩
    | onRecv peer message malloc =>
        by_cases admitted : server.Admits peer
        · obtain ⟨result, success⟩ :=
            (decodes_iff sized peer message malloc).mpr (fits admitted)
          obtain ⟨next, handled, -⟩ := handle_recv message admitted success
          refine ⟨⟨next, _, handled⟩, ?_⟩
          rintro _ _ _ other ⟨⟩ - checked
          exact (checkPacket_accounted message.bounded (sized peer)
            checked).1
        · refine ⟨⟨server, [], ?_⟩, ?_⟩
          · rw [handleEvent, checkPacket_of_not_admits admitted]
            rfl
          · rintro _ _ _ _ ⟨⟩ admits
            exact absurd admits admitted

end Session

/-- However many peers send whatever bytes: a run of a session stays inside its
buffers and accounts for every chunk if and only if, at every event, each chunk
reaches the length members of the packet it continues, no packet is shorter
than what has been buffered of it, and the payload of every complete fragment
lies in the fragment and finds room in the buffer it lands in. -/
theorem ServerNetSession.memorySafe_iff
    (protocol : NetProtocol) (lastEvent : Nat) (events : List SessionEvent) :
    Along (ServerNetSession.Step protocol lastEvent)
        (ServerNetSession.EventSafe protocol lastEvent) ServerState.initial
        events ↔
      Along (ServerNetSession.Step protocol lastEvent)
        (ServerNetSession.EventFits protocol lastEvent) ServerState.initial
        events :=
  Along.congr (fun _ _ _ sized step => step.sized sized)
    (fun _ _ sized => ServerNetSession.eventSafe_iff sized)
    ServerState.initial_sized

/-- A fragment of one payload byte, of a message that has no room for it. -/
def overflowingFragment : Received where
  bytes := List.replicate 8 0 ++ [0, 0, 0, 0x80] ++ List.replicate 4 0 ++
    [1, 0, 0, 0] ++ [1, 0, 0, 0] ++ [1, 0, 0, 0] ++ List.replicate 4 0 ++
    [1, 0, 0, 0] ++ List.replicate 4 0 ++ [0xff]
  bounded := by decide

/-- It is written behind the end of the allocated buffer. -/
theorem ServerNetSession.not_memorySafe_of_overflowingFragment :
    ¬Along (ServerNetSession.Step .tcp 1) (ServerNetSession.EventSafe .tcp 1)
      ServerState.initial
      [.onRecv ⟨"10.0.0.2", 40000⟩ overflowingFragment fun _ => true] := by
  rintro ⟨⟨⟨next, delivered, handled⟩, -⟩, -⟩
  have overflow : ServerNetSession.handleEvent .tcp 1 ServerState.initial
      (.onRecv ⟨"10.0.0.2", 40000⟩ overflowingFragment fun _ => true) =
        .error .writePastEnd := by
    rfl
  rw [overflow] at handled
  contradiction

end Network
end Pilot2Cloud
