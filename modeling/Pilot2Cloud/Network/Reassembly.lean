import Pilot2Cloud.Foundation.Outcome
import Pilot2Cloud.Network.Layout

/-!
# Reassembling a message from its fragments

`CombineSubpacket` of the two ends of a session.  The client keeps one receive
buffer; the server keeps two for each client and gives up the one with the
smaller packet id, or the second one, when a third message starts.
-/

namespace Pilot2Cloud
namespace Network

open Foundation Words Memory

/-- An allocated `pu8receivebuf`: the message header copied into it when it was
allocated, and as many cells behind it as that header asks for. -/
structure ReceiveBuffer where
  header : List UInt8
  body : Block
  headerLength : header.length = sizeofMsgHeader
  bodyLength : body.length = clearFlag (wordAt header Field.msgLength)
  deriving DecidableEq

/-- `stRecvbuf`, and the members of the same names of a client session. -/
structure Recvbuf where
  receivebuf : Option ReceiveBuffer
  receivecount : Nat
  receiveID : Nat
  deriving DecidableEq

/-- A receive buffer that is not in use. -/
def Recvbuf.idle : Recvbuf := ⟨none, 0, 0⟩

/-- The allocation for the message that `header` announces. -/
def ReceiveBuffer.alloc
    (header : List UInt8) (headerLength : header.length = sizeofMsgHeader) :
    ReceiveBuffer where
  header := header
  body := Block.alloc (clearFlag (wordAt header Field.msgLength))
  headerLength := headerLength
  bodyLength := Block.length_alloc _

/-- Copy a fragment's payload to its place behind the message header. -/
def ReceiveBuffer.store
    (buffer : ReceiveBuffer) (packetOffset : Nat) (payload : List UInt8) :
    Except Fault ReceiveBuffer :=
  match stored : Block.write buffer.body packetOffset payload with
  | .error fault => .error fault
  | .ok body => .ok
      { buffer with
        body := body
        bodyLength :=
          (Block.length_of_write_ok stored).trans buffer.bodyLength }

section Store

variable {buffer : ReceiveBuffer} {packetOffset : Nat} {payload : List UInt8}

/-- A payload that fits into the buffer changes the cells it is copied to. -/
theorem ReceiveBuffer.store_of_inside
    (inside : packetOffset + payload.length ≤ buffer.body.length) :
    ∃ next, buffer.store packetOffset payload = .ok next ∧
      next.header = buffer.header ∧
      ∀ position, next.body[position]? =
        if packetOffset ≤ position ∧
            position < packetOffset + payload.length then
          (payload[position - packetOffset]?).map some
        else buffer.body[position]? := by
  unfold store
  split
  next fault failed =>
    rw [Block.write_of_inside inside] at failed
    contradiction
  next body stored =>
    exact ⟨_, rfl, rfl, Block.getElem?_of_write_ok stored⟩

theorem ReceiveBuffer.store_of_outside
    (outside : buffer.body.length < packetOffset + payload.length) :
    buffer.store packetOffset payload = .error .writePastEnd := by
  unfold store
  split
  next fault failed =>
    rw [Block.write_of_outside outside] at failed
    injection failed with same
    rw [same]
  next body stored =>
    rw [Block.write_of_outside outside] at stored
    contradiction

end Store

/-- Start the reassembly of the message `message` is a fragment of, when no
buffer is in use for its packet id. -/
def Recvbuf.open
    (malloc : Nat → Bool) (message : List UInt8) (packetID : Nat) :
    Except Fault Recvbuf := do
  let packetLen ← readWord message Field.msgLength
  if malloc (clearFlag packetLen + sizeofMsgHeader) then
    if hasHeader : sizeofMsgHeader ≤ message.length then
      let buffer := ReceiveBuffer.alloc (message.take sizeofMsgHeader)
        (by rw [List.length_take, Nat.min_eq_left hasHeader])
      return ⟨some buffer, 0, packetID⟩
    else
      .error .readPastEnd
  else
    return Recvbuf.idle

/-- Store one fragment.  The buffer is returned as well when as many fragments
have been counted as the packet head announces. -/
def Recvbuf.storeSubpacket (recvbuf : Recvbuf) (message : List UInt8) :
    Except Fault (Recvbuf × Option ReceiveBuffer) :=
  match recvbuf.receivebuf with
  | none => return (recvbuf, none)
  | some buffer => do
      let packetOffset ← readWord message Field.subpacketOffset
      let packetLen ← readWord message Field.subpacketLen
      let packetNum ← readWord message Field.subpacketTotalnum
      let payload ← read message sizeofPacketHead packetLen
      let buffer ← buffer.store packetOffset payload
      let receivecount := wrap (recvbuf.receivecount + 1)
      if receivecount = packetNum then
        return ({ recvbuf with
          receivebuf := some buffer, receivecount := 0 }, some buffer)
      else
        return ({ recvbuf with
          receivebuf := some buffer, receivecount := receivecount }, none)

/-- What `receive_func_call` is given once a message is complete: the header
without `PACKET_ENABLE`, and as many bytes as it then announces. -/
def ReceiveBuffer.message (buffer : ReceiveBuffer) : Except Fault Block :=
  let header := MsgHeader.ofBytes buffer.header
  let header := { header with msgLength := clearFlag header.msgLength }
  Block.slice (header.bytes.map some ++ buffer.body)
    (header.msgLength + sizeofMsgHeader)

/-- Store one fragment and deliver the message that it completes. -/
def Recvbuf.receive (recvbuf : Recvbuf) (message : List UInt8) :
    Except Fault (Recvbuf × List Block) := do
  match ← recvbuf.storeSubpacket message with
  | (_, some buffer) => return (Recvbuf.idle, [← buffer.message])
  | (recvbuf, none) => return (recvbuf, [])

/-- A buffer that could not be allocated takes no fragments. -/
@[simp] theorem Recvbuf.receive_idle (message : List UInt8) :
    Recvbuf.idle.receive message = .ok (Recvbuf.idle, []) :=
  rfl

/-! ## The client's buffer -/

/-- The buffer for a packet id: the one in use if it has that id. -/
def ClientNetSession.recvbufFor
    (malloc : Nat → Bool) (recvbuf : Recvbuf) (message : List UInt8)
    (packetID : Nat) : Except Fault Recvbuf :=
  if recvbuf.receiveID = packetID then return recvbuf
  else Recvbuf.open malloc message packetID

/-- `ClientNetSession::CombineSubpacket`. -/
def ClientNetSession.combineSubpacket
    (malloc : Nat → Bool) (recvbuf : Recvbuf) (message : List UInt8) :
    Except Fault (Recvbuf × Option ReceiveBuffer) := do
  let packetID ← readWord message Field.packetID
  let recvbuf ←
    ClientNetSession.recvbufFor malloc recvbuf message packetID
  recvbuf.storeSubpacket message

/-- `CombineSubpacket` in `ClientNetSession::CheckPacket`, and the delivery of
the message it completes. -/
def ClientNetSession.receiveSubpacket
    (malloc : Nat → Bool) (recvbuf : Recvbuf) (message : List UInt8) :
    Except Fault (Recvbuf × List Block) := do
  match ← ClientNetSession.combineSubpacket malloc recvbuf message with
  | (_, some buffer) => return (Recvbuf.idle, [← buffer.message])
  | (recvbuf, none) => return (recvbuf, [])

/-- The client stores a fragment in the buffer for its packet id. -/
theorem ClientNetSession.receiveSubpacket_eq
    (malloc : Nat → Bool) (recvbuf : Recvbuf) (message : List UInt8) :
    ClientNetSession.receiveSubpacket malloc recvbuf message =
      (do
        let packetID ← readWord message Field.packetID
        let recvbuf ←
          ClientNetSession.recvbufFor malloc recvbuf message packetID
        recvbuf.receive message) := by
  simp only [receiveSubpacket, combineSubpacket, Recvbuf.receive, bind_assoc]

/-! ## The server's buffers -/

/-- Index into `astClientRecv`. -/
inductive RecvIndex
  | first
  | second
  deriving DecidableEq, Repr

/-- `astClientRecv`. -/
structure ClientRecv where
  first : Recvbuf
  second : Recvbuf
  deriving DecidableEq

/-- Both buffers of a client before its first fragment. -/
def ClientRecv.idle : ClientRecv := ⟨Recvbuf.idle, Recvbuf.idle⟩

/-- The buffer with an index. -/
def ClientRecv.get (recv : ClientRecv) : RecvIndex → Recvbuf
  | .first => recv.first
  | .second => recv.second

/-- The client with another buffer at an index. -/
def ClientRecv.set
    (recv : ClientRecv) (index : RecvIndex) (recvbuf : Recvbuf) : ClientRecv :=
  match index with
  | .first => { recv with first := recvbuf }
  | .second => { recv with second := recvbuf }

/-- The buffer in use for a packet id. -/
def ClientRecv.find (recv : ClientRecv) (packetID : Nat) : Option RecvIndex :=
  if recv.first.receiveID = packetID then some .first
  else if recv.second.receiveID = packetID then some .second
  else none

/-- The buffer that is given up for a new message. -/
def ClientRecv.victim (recv : ClientRecv) : RecvIndex :=
  if recv.first.receiveID < recv.second.receiveID then .first else .second

/-- The buffer for a packet id: one in use for it, or else the one given
up. -/
def ServerNetSession.recvbufFor
    (malloc : Nat → Bool) (recv : ClientRecv) (message : List UInt8)
    (packetID : Nat) : Except Fault (RecvIndex × Recvbuf) :=
  match recv.find packetID with
  | some index => return (index, recv.get index)
  | none => do
      let recvbuf ← Recvbuf.open malloc message packetID
      return (recv.victim, recvbuf)

/-- `ServerNetSession::CombineSubpacket`; the index is `*recv_index`. -/
def ServerNetSession.combineSubpacket
    (malloc : Nat → Bool) (recv : ClientRecv) (message : List UInt8) :
    Except Fault (ClientRecv × Option (RecvIndex × ReceiveBuffer)) := do
  let packetID ← readWord message Field.packetID
  let (index, recvbuf) ←
    ServerNetSession.recvbufFor malloc recv message packetID
  let (recvbuf, complete) ← recvbuf.storeSubpacket message
  return (recv.set index recvbuf, complete.map (index, ·))

/-- `CombineSubpacket` in `ServerNetSession::CheckPacket`, and the delivery of
the message it completes. -/
def ServerNetSession.receiveSubpacket
    (malloc : Nat → Bool) (recv : ClientRecv) (message : List UInt8) :
    Except Fault (ClientRecv × List Block) := do
  match ← ServerNetSession.combineSubpacket malloc recv message with
  | (recv, some (index, buffer)) =>
      return (recv.set index Recvbuf.idle, [← buffer.message])
  | (recv, none) => return (recv, [])

@[simp] theorem ClientRecv.set_set
    (recv : ClientRecv) (index : RecvIndex) (earlier later : Recvbuf) :
    (recv.set index earlier).set index later = recv.set index later := by
  cases index <;> rfl

theorem ClientRecv.get_set
    (recv : ClientRecv) (index other : RecvIndex) (recvbuf : Recvbuf) :
    (recv.set index recvbuf).get other =
      if other = index then recvbuf else recv.get other := by
  cases index <;> cases other <;> rfl

/-- The buffer that is found has the packet id. -/
theorem ClientRecv.receiveID_of_find
    {recv : ClientRecv} {packetID : Nat} {index : RecvIndex}
    (found : recv.find packetID = some index) :
    (recv.get index).receiveID = packetID := by
  unfold find at found
  split at found
  · next same =>
      obtain rfl := Option.some.inj found
      exact same
  · split at found
    · next same =>
        obtain rfl := Option.some.inj found
        exact same
    · contradiction

/-- The server stores a fragment in the buffer for its packet id. -/
theorem ServerNetSession.receiveSubpacket_eq
    (malloc : Nat → Bool) (recv : ClientRecv) (message : List UInt8) :
    ServerNetSession.receiveSubpacket malloc recv message =
      (do
        let packetID ← readWord message Field.packetID
        let (index, recvbuf) ←
          ServerNetSession.recvbufFor malloc recv message packetID
        let (recvbuf, received) ← recvbuf.receive message
        return (recv.set index recvbuf, received)) := by
  simp only [receiveSubpacket, combineSubpacket, Recvbuf.receive, bind_assoc]
  congr 1
  funext packetID
  congr 1
  funext ⟨index, recvbuf⟩
  congr 1
  funext ⟨stored, complete⟩
  cases complete with
  | none => simp
  | some buffer => simp

end Network
end Pilot2Cloud
