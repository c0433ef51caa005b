import Pilot2Cloud.Foundation.Collector
import Pilot2Cloud.Network.Fragments
import Pilot2Cloud.Network.Stream

/-!
# Receive buffers that hold one message

A receive buffer that was allocated for a message and has only been given
fragments of that message holds the right byte in every cell that has been
written.  Once as many different fragments as there are have been stored, the
message is complete, and what is delivered is the message.
-/

namespace Pilot2Cloud
namespace Network

open Foundation Words Memory

/-! ## Only the fragment is read -/

section ReadsOnlyPacket

variable {lastEvent : Nat} {packet : List UInt8}

theorem Recvbuf.open_append
    (malloc : Nat → Bool) (hasHead : 40 ≤ packet.length)
    (back : List UInt8) (packetID : Nat) :
    Recvbuf.open malloc (packet ++ back) packetID =
      Recvbuf.open malloc packet packetID := by
  have header : sizeofMsgHeader ≤ packet.length := by
    simp only [sizeofMsgHeader]
    omega
  have total : sizeofMsgHeader ≤ (packet ++ back).length := by
    rw [List.length_append]
    omega
  have sameHeader : (packet ++ back).take sizeofMsgHeader =
      packet.take sizeofMsgHeader :=
    List.take_append_of_le_length header
  simp only [Recvbuf.open, Field.msgLength,
    readWord_append_left packet back (show 8 + 4 ≤ packet.length by omega),
    dif_pos header, dif_pos total, sameHeader]

theorem Recvbuf.receive_append
    (recvbuf : Recvbuf) (hasHead : 40 ≤ packet.length)
    (length : packet.length = wordAt packet 32 + 40) (back : List UInt8) :
    recvbuf.receive (packet ++ back) = recvbuf.receive packet := by
  have payload : read (packet ++ back) 40 (wordAt packet 32) =
      read packet 40 (wordAt packet 32) :=
    read_append_left packet back (by omega)
  simp only [Recvbuf.receive, Recvbuf.storeSubpacket, Field.subpacketOffset,
    Field.subpacketLen, Field.subpacketTotalnum, sizeofPacketHead,
    readWord_append_left packet back (show 28 + 4 ≤ packet.length by omega),
    readWord_append_left packet back (show 32 + 4 ≤ packet.length by omega),
    readWord_append_left packet back (show 20 + 4 ≤ packet.length by omega),
    readWord_of_inside (show 32 + 4 ≤ packet.length by omega), ok_bind,
    payload]

theorem ClientNetSession.decoder_readsOnlyPacket
    (protocol : NetProtocol) (lastEvent : Nat) (malloc : Nat → Bool) :
    (ClientNetSession.decoder protocol lastEvent malloc).ReadsOnlyPacket := by
  intro recv packet back framed sub
  have head := framed.hasPacketHead sub
  simp only [ClientNetSession.decoder, ClientNetSession.receiveSubpacket_eq,
    ClientNetSession.recvbufFor, Recvbuf.open_append malloc head,
    Recvbuf.receive_append _ head (framed.subpacket sub), Field.packetID,
    readWord_append_left packet back (show 16 + 4 ≤ packet.length by omega)]

theorem ServerNetSession.decoder_readsOnlyPacket
    (protocol : NetProtocol) (lastEvent : Nat) (malloc : Nat → Bool) :
    (ServerNetSession.decoder protocol lastEvent malloc).ReadsOnlyPacket := by
  intro recv packet back framed sub
  have head := framed.hasPacketHead sub
  simp only [ServerNetSession.decoder, ServerNetSession.receiveSubpacket_eq,
    ServerNetSession.recvbufFor, Recvbuf.open_append malloc head,
    Recvbuf.receive_append _ head (framed.subpacket sub), Field.packetID,
    readWord_append_left packet back (show 16 + 4 ≤ packet.length by omega)]

end ReadsOnlyPacket

/-! ## The contents of a receive buffer -/

/-- A receive buffer was allocated for the message of a call and holds the
payloads of the fragments `stored`. -/
structure Holds
    (call : LargeSend lastEvent) (stored : List Nat) (buffer : ReceiveBuffer) :
    Prop where
  header : buffer.header = call.header.bytes
  cells : ∀ position, position / call.step ∈ stored →
    buffer.body[position]? = (call.message.drop 16)[position]?.map some

variable {lastEvent : Nat} {call : LargeSend lastEvent} {index : Nat}
  {stored : List Nat} {buffer : ReceiveBuffer}

theorem Holds.length_body (holds : Holds call stored buffer) :
    buffer.body.length = call.message.length - 16 := by
  have header : wordAt call.header.bytes 8 = call.header.msgLength :=
    congrArg MsgHeader.msgLength call.ofBytes_header
  rw [buffer.bodyLength, holds.header, Field.msgLength, header,
    call.clearFlag_header]

/-- A buffer opened for a fragment is allocated for its message. -/
theorem Recvbuf.open_fragment
    (call : LargeSend lastEvent) (malloc : Nat → Bool) (index : Nat) :
    ∃ buffer, Holds call [] buffer ∧
      Recvbuf.open malloc (call.fragment index) call.sendID =
        .ok (if malloc call.message.length then
          ⟨some buffer, 0, call.sendID⟩ else Recvbuf.idle) := by
  have large := call.large
  have word := call.wordAt_msgLength index []
  have header := call.take_header_fragment index []
  rw [List.append_nil] at word header
  have size : clearFlag (wordAt (call.fragment index) 8) + 16 =
      call.message.length := by
    have hasHeader := call.isMessage.hasHeader
    simp only [sizeofMsgHeader] at hasHeader
    rw [word, call.clearFlag_header]
    omega
  have hasHeader : sizeofMsgHeader ≤ (call.fragment index).length := by
    rw [call.length_fragment, sizeofMsgHeader]
    omega
  refine ⟨ReceiveBuffer.alloc ((call.fragment index).take sizeofMsgHeader)
    (by rw [List.length_take, Nat.min_eq_left hasHeader]),
    ⟨header, by simp⟩, ?_⟩
  have lengthRead : readWord (call.fragment index) 8 =
      .ok (wordAt (call.fragment index) 8) :=
    readWord_of_inside (by rw [call.length_fragment]; omega)
  simp only [Recvbuf.open, Field.msgLength, lengthRead, ok_bind, size,
    dif_pos hasHeader]
  cases malloc call.message.length with
  | true => rfl
  | false => rfl

/-- Storing a fragment fills its cells and leaves the others alone. -/
theorem Holds.store
    (holds : Holds call stored buffer) (bound : index < call.count) :
    ∃ next, buffer.store (index * call.step) (call.payload index) =
        .ok next ∧ Holds call (index :: stored) next := by
  have start := call.start_lt bound
  have length := call.length_payload index
  have inside : index * call.step + (call.payload index).length ≤
      buffer.body.length := by
    rw [holds.length_body]
    omega
  obtain ⟨next, success, header, cells⟩ := ReceiveBuffer.store_of_inside inside
  refine ⟨next, success, header.trans holds.header, ?_⟩
  intro position member
  have quotient := Nat.div_add_mod position call.step
  have remainder := Nat.mod_lt position call.step_positive
  rw [Nat.mul_comm] at quotient
  rw [cells]
  by_cases within : index * call.step ≤ position ∧
      position < index * call.step + (call.payload index).length
  · rw [if_pos within, call.getElem?_payload (by omega),
      Nat.add_sub_cancel' within.1]
  · rw [if_neg within]
    rcases List.mem_cons.mp member with here | earlier
    · -- Behind the end of the message there is nothing on either side.
      rw [here] at quotient
      have behind : call.message.length - 16 ≤ position := by omega
      rw [List.getElem?_eq_none (by rw [holds.length_body]; exact behind),
        List.getElem?_eq_none (by rw [List.length_drop]; exact behind)]
      rfl
    · exact holds.cells position earlier

/-- Once all fragments are stored, what is delivered is the message. -/
theorem Holds.message_eq
    (holds : Holds call stored buffer)
    (complete : ∀ index < call.count, index ∈ stored) :
    buffer.message = .ok (call.message.map some) := by
  have hasHeader := call.isMessage.hasHeader
  have msgLength := call.isMessage.msgLength
  simp only [sizeofMsgHeader, Field.msgLength] at hasHeader msgLength
  have body : buffer.body = (call.message.drop 16).map some := by
    apply List.ext_getElem?
    intro position
    rw [List.getElem?_map]
    by_cases inside : position < call.message.length - 16
    · exact holds.cells position
        (complete _ (call.position_div_step_lt inside))
    · rw [List.getElem?_eq_none (by rw [holds.length_body]; omega),
        List.getElem?_eq_none (by rw [List.length_drop]; omega)]
      rfl
  have whole : call.message.take 16 ++ call.message.drop 16 = call.message :=
    List.take_append_drop 16 call.message
  have size : call.message.length - 16 + 16 = call.message.length := by omega
  simp only [ReceiveBuffer.message, holds.header, call.ofBytes_header,
    call.clearFlag_header, call.cleared_header_bytes, body, ← List.map_append,
    whole, sizeofMsgHeader, size]
  rw [Block.slice, if_pos (by rw [List.length_map]), List.take_of_length_le
    (by rw [List.length_map])]

/-! ## A receive buffer and one more fragment -/

/-- A receive buffer in use for a call, with the fragments `stored`, which are
fewer than there are. -/
structure Collecting
    (call : LargeSend lastEvent) (stored : List Nat) (recvbuf : Recvbuf) :
    Prop where
  holds : ∃ buffer, recvbuf =
    ⟨some buffer, stored.length, call.sendID⟩ ∧ Holds call stored buffer
  nodup : stored.Nodup
  bounded : ∀ index ∈ stored, index < call.count
  unfinished : stored.length < call.count

theorem Collecting.receiveID_eq
    {recvbuf : Recvbuf} (collecting : Collecting call stored recvbuf) :
    recvbuf.receiveID = call.sendID := by
  obtain ⟨buffer, rfl, -⟩ := collecting.holds
  rfl

/-- What is read from a fragment when it is stored. -/
theorem Recvbuf.storeSubpacket_fragment
    (bound : index < call.count) (buffer : ReceiveBuffer)
    (receivecount receiveID : Nat) :
    Recvbuf.storeSubpacket ⟨some buffer, receivecount, receiveID⟩
        (call.fragment index) =
      (do
        let next ← buffer.store (index * call.step) (call.payload index)
        if wrap (receivecount + 1) = call.count then
          return (⟨some next, 0, receiveID⟩, some next)
        else
          return (⟨some next, wrap (receivecount + 1), receiveID⟩, none)) := by
  have length := call.length_fragment index
  have offset := call.wordAt_packetOffset bound []
  have packetLen := call.wordAt_packetLen index []
  have total := call.wordAt_totalPacketNum index []
  have payload := call.drop_head_fragment index []
  simp only [List.append_nil] at offset packetLen total payload
  have payloadRead : read (call.fragment index) 40
      (call.payload index).length = .ok (call.payload index) := by
    rw [read_of_inside (by omega), payload,
      List.take_of_length_le (Nat.le_refl _)]
  simp only [storeSubpacket, Field.subpacketOffset, Field.subpacketLen,
    Field.subpacketTotalnum, sizeofPacketHead,
    readWord_of_inside (show 28 + 4 ≤ (call.fragment index).length by omega),
    readWord_of_inside (show 32 + 4 ≤ (call.fragment index).length by omega),
    readWord_of_inside (show 20 + 4 ≤ (call.fragment index).length by omega),
    ok_bind, offset, packetLen, total, payloadRead]

/-- A fragment that is not yet stored either completes the message, which is
delivered, or is stored. -/
theorem Collecting.receive
    {recvbuf : Recvbuf} (collecting : Collecting call stored recvbuf)
    (bound : index < call.count) (isNew : index ∉ stored) :
    (stored.length + 1 = call.count ∧
      recvbuf.receive (call.fragment index) =
        .ok (Recvbuf.idle, [call.message.map some])) ∨
    (∃ next, recvbuf.receive (call.fragment index) = .ok (next, []) ∧
      Collecting call (index :: stored) next) := by
  obtain ⟨buffer, rfl, holds⟩ := collecting.holds
  obtain ⟨next, stores, holdsNext⟩ := holds.store bound
  have nodup : (index :: stored).Nodup :=
    List.nodup_cons.mpr ⟨isNew, collecting.nodup⟩
  have bounded : ∀ part ∈ index :: stored, part < call.count :=
    List.forall_mem_cons.mpr ⟨bound, collecting.bounded⟩
  have unfinished := collecting.unfinished
  have countFits := call.count_lt
  have counted : wrap (stored.length + 1) = stored.length + 1 :=
    wrap_of_lt (by omega)
  by_cases last : stored.length + 1 = call.count
  · refine .inl ⟨last, ?_⟩
    have delivered := holdsNext.message_eq
      (mem_of_nodup_of_length nodup bounded last)
    simp only [Recvbuf.receive, Recvbuf.storeSubpacket_fragment bound, stores,
      ok_bind, counted, if_pos last, pure_eq_ok, delivered]
  · refine .inr ⟨⟨some next, stored.length + 1, call.sendID⟩, ?_,
      ⟨next, rfl, holdsNext⟩, nodup, bounded, ?_⟩
    · simp only [Recvbuf.receive, Recvbuf.storeSubpacket_fragment bound,
        stores, ok_bind, counted, if_neg last, pure_eq_ok]
    · rw [List.length_cons]
      omega

/-- A buffer opened for a fragment stores it, if there is memory for it. -/
theorem Recvbuf.open_receive
    (malloc : Nat → Bool) (call : LargeSend lastEvent) {index : Nat}
    (bound : index < call.count) :
    ∃ next, (do
        let current ← Recvbuf.open malloc (call.fragment index) call.sendID
        current.receive (call.fragment index)) =
          .ok (if malloc call.message.length then next else Recvbuf.idle, []) ∧
      Collecting call [index] next := by
  obtain ⟨buffer, holds, opened⟩ := Recvbuf.open_fragment call malloc index
  have several := call.two_le_count
  have collecting : Collecting call [] ⟨some buffer, 0, call.sendID⟩ :=
    ⟨⟨buffer, rfl, holds⟩, List.nodup_nil, by simp, by simp; omega⟩
  rcases collecting.receive bound List.not_mem_nil with
    ⟨complete, _⟩ | ⟨next, received, collectingNext⟩
  · simp only [List.length_nil] at complete
    omega
  · refine ⟨next, ?_, collectingNext⟩
    rw [opened, ok_bind]
    cases malloc call.message.length with
    | true => exact received
    | false => exact Recvbuf.receive_idle _

end Network
end Pilot2Cloud
