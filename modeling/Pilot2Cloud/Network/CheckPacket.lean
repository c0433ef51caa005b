import Pilot2Cloud.Foundation.Outcome
import Pilot2Cloud.Network.Reassembly

/-!
# Cutting received chunks into packets

`CheckPacket` of the two ends of a session.  A chunk is scanned for complete
packets; what is left of a packet at its end is kept in the half-packet buffer
and completed from the next chunk.  The two ends differ only in how they
reassemble fragments, so the scan is stated once over a decoder.
-/

namespace Pilot2Cloud
namespace Network

open Foundation Words Memory

/-- What a session fixes for its decoder; `receiveSubpacket` takes a fragment
and returns the messages that it completes. -/
structure Decoder (σ : Type) where
  protocol : NetProtocol
  lastEvent : Nat
  receiveSubpacket :
    σ → List UInt8 → Except Fault (σ × List Block)

/-- `pu8halfpackbuf`: its allocated size, and the `u32halfpacklen` bytes that
have been copied into it. -/
structure HalfPack where
  size : Nat
  bytes : List UInt8
  pending : bytes ≠ []
  fits : bytes.length ≤ size
  deriving DecidableEq

/-- Allocate a half-packet buffer and copy bytes to its start. -/
def HalfPack.start
    (size : Nat) (bytes : List UInt8) (pending : bytes ≠ []) :
    Except Fault HalfPack :=
  if fits : bytes.length ≤ size then .ok ⟨size, bytes, pending, fits⟩
  else .error .writePastEnd

theorem HalfPack.start_of_fits
    {size : Nat} {bytes : List UInt8} (pending : bytes ≠ [])
    (fits : bytes.length ≤ size) :
    HalfPack.start size bytes pending = .ok ⟨size, bytes, pending, fits⟩ :=
  dif_pos fits

/-- Copy bytes behind those already in the half-packet buffer. -/
def HalfPack.append (half : HalfPack) (bytes : List UInt8) :
    Except Fault HalfPack :=
  if fits : (half.bytes ++ bytes).length ≤ half.size then
    .ok ⟨half.size, half.bytes ++ bytes,
      fun empty => half.pending (List.append_eq_nil_iff.mp empty).1, fits⟩
  else .error .writePastEnd

theorem HalfPack.append_of_fits
    {half : HalfPack} {bytes : List UInt8}
    (fits : (half.bytes ++ bytes).length ≤ half.size) :
    ∃ longer, half.append bytes = .ok longer ∧
      longer.bytes = half.bytes ++ bytes ∧ longer.size = half.size :=
  ⟨_, dif_pos fits, rfl, rfl⟩

/-- The decoding state of one connection. -/
structure DecodeState (σ : Type) where
  halfpack : Option HalfPack
  recv : σ
  findMsghead : Bool
  deriving DecidableEq

/-- Outcome of a call: the new state, the messages handed to
`receive_func_call`, and what `pu8data` still points to when it returns. -/
structure CheckResult (σ : Type) where
  state : DecodeState σ
  received : List Block
  unread : List UInt8
  deriving DecidableEq

/-- `packet_len`, `u32msgtype` and `issubpacket` as the loop sets them. -/
structure PacketFront where
  packetLen : Nat
  msgtype : Nat
  issubpacket : Bool
  deriving DecidableEq, Repr

/-- `u32msgtype`, which is zero until the member has arrived. -/
def readMsgtype (data : List UInt8) : Except Fault Nat :=
  if data.length < Field.msgType + memberSizeByte then return 0
  else readWord data Field.msgType

/-- Read the front of the bytes not yet scanned.  A length of zero stands for a
length that cannot be read yet. -/
def readFront (data : List UInt8) : Except Fault PacketFront :=
  if data.length < Field.msgLength + memberSizeByte then
    return ⟨0, 0, false⟩
  else do
    let packetLen ← readWord data Field.msgLength
    let msgtype ← readMsgtype data
    if packetLen &&& packetEnable = 0 then
      return ⟨wrap (packetLen + sizeofMsgHeader), msgtype, false⟩
    else if data.length < Field.subpacketLen + memberSizeByte then
      return ⟨0, msgtype, true⟩
    else do
      let packetLen ← readWord data Field.subpacketLen
      return ⟨wrap (packetLen + sizeofPacketHead), msgtype, true⟩

/-- Hand a complete packet at the front of `data` on. -/
def handlePacket
    (decoder : Decoder σ) (recv : σ) (issubpacket : Bool)
    (data : List UInt8) (packetLen : Nat) :
    Except Fault (σ × List Block) :=
  if issubpacket then decoder.receiveSubpacket recv data
  else do
    let message ← read data 0 packetLen
    return (recv, [message.map some])

/-- Size of the buffer for an incomplete packet. -/
def halfPackSize (front : PacketFront) (data : List UInt8) : Nat :=
  if front.packetLen = 0 then data.length else front.packetLen

/-- The `while(1)` loop over the bytes of a chunk not yet scanned. -/
def scan (decoder : Decoder σ) :
    Nat → DecodeState σ → List UInt8 → Except Fault (CheckResult σ)
  | 0, _, _ => .error .loopBound
  | fuel + 1, state, data =>
      if pending : data = [] then return ⟨state, [], data⟩
      else do
        let front ← readFront data
        if front.packetLen = 0 ∨ data.length < front.packetLen then
          if decoder.protocol = .udp then
            return ⟨state, [], data⟩
          else if singlePacketLenMax < front.packetLen ∨
              decoder.lastEvent ≤ front.msgtype ∨
              (state.findMsghead ∧
                data.length < Field.msgType + memberSizeByte) then
            return ⟨{ state with findMsghead := true }, [], data⟩
          else
            let half ←
              HalfPack.start (halfPackSize front data) data pending
            return ⟨{ state with
              halfpack := some half, findMsghead := false }, [], data⟩
        else
          let (recv, received) ← handlePacket decoder state.recv
            front.issubpacket data front.packetLen
          let rest ← scan decoder fuel
            { state with recv := recv, findMsghead := false }
            (data.drop front.packetLen)
          return { rest with received := received ++ rest.received }

section ScanRound

variable {decoder : Decoder σ} {fuel : Nat} {state : DecodeState σ}
  {data : List UInt8} {front : PacketFront}

@[simp] theorem scan_nil :
    scan decoder (fuel + 1) state [] = .ok ⟨state, [], []⟩ := by
  simp [scan]

/-- A complete packet at the front of the data is handled and skipped. -/
theorem scan_complete
    (pending : data ≠ []) (frontRead : readFront data = .ok front)
    (nonzero : front.packetLen ≠ 0)
    (complete : front.packetLen ≤ data.length) :
    scan decoder (fuel + 1) state data = do
      let (recv, received) ← handlePacket decoder state.recv
        front.issubpacket data front.packetLen
      let rest ← scan decoder fuel
        { state with recv := recv, findMsghead := false }
        (data.drop front.packetLen)
      return { rest with received := received ++ rest.received } := by
  have whole : ¬(front.packetLen = 0 ∨ data.length < front.packetLen) := by
    omega
  rw [scan, dif_neg pending, frontRead, ok_bind, if_neg whole]

/-- The loop gives up on an incomplete packet that is too long or of an unknown
type, and on a few bytes while it searches for a message head. -/
def Rejected
    (decoder : Decoder σ) (findMsghead : Bool) (front : PacketFront)
    (data : List UInt8) : Prop :=
  singlePacketLenMax < front.packetLen ∨
    decoder.lastEvent ≤ front.msgtype ∨
    (findMsghead ∧ data.length < Field.msgType + memberSizeByte)

instance : Decidable (Rejected decoder findMsghead front data) :=
  inferInstanceAs (Decidable (_ ∨ _ ∨ _))

/-- An incomplete packet is dropped, rejected or kept in a half-packet
buffer that is large enough. -/
theorem scan_incomplete
    (decoder : Decoder σ) (fuel : Nat) (state : DecodeState σ)
    (pending : data ≠ []) (frontRead : readFront data = .ok front)
    (incomplete : front.packetLen = 0 ∨ data.length < front.packetLen) :
    ∃ fits : data.length ≤ halfPackSize front data,
      scan decoder (fuel + 1) state data =
        .ok (if decoder.protocol = .udp then ⟨state, [], data⟩
          else if Rejected decoder state.findMsghead front data then
            ⟨{ state with findMsghead := true }, [], data⟩
          else ⟨{ state with
            halfpack :=
              some ⟨halfPackSize front data, data, pending, fits⟩
            findMsghead := false }, [], data⟩) := by
  have fits : data.length ≤ halfPackSize front data := by
    unfold halfPackSize
    split <;> omega
  refine ⟨fits, ?_⟩
  rw [scan, dif_neg pending, frontRead, ok_bind, if_pos incomplete]
  by_cases udp : decoder.protocol = .udp
  · rw [if_pos udp, if_pos udp, pure_eq_ok]
  · rw [if_neg udp, if_neg udp]
    by_cases rejected : Rejected decoder state.findMsghead front data
    · rw [if_pos rejected]
      exact if_pos rejected
    · rw [if_neg rejected]
      refine (if_neg rejected).trans ?_
      rw [HalfPack.start_of_fits pending fits, ok_bind, pure_eq_ok]

end ScanRound

/-- Run the loop over a whole chunk; it cannot take more rounds than bytes. -/
def scanChunk
    (decoder : Decoder σ) (state : DecodeState σ) (chunk : List UInt8) :
    Except Fault (CheckResult σ) :=
  scan decoder (chunk.length + 1) state chunk

/-- Read a header member of which the first bytes may be in the half-packet
buffer and the others at the front of the chunk. -/
def readAcross (half chunk : List UInt8) (member : Nat) :
    Except Fault Nat :=
  if half.length ≤ member then
    readWord chunk (member - half.length)
  else if half.length < member + memberSizeByte then do
    let front ← read half member (half.length - member)
    let back ← read chunk 0 (member + memberSizeByte - half.length)
    return littleEndian (front ++ back)
  else
    readWord half member

/-- `packet_len` and `issubpacket` of a packet that began in an earlier
chunk. -/
def readHalfLength (half chunk : List UInt8) :
    Except Fault (Nat × Bool) := do
  let packetLen ← readAcross half chunk Field.msgLength
  if packetLen &&& packetEnable = 0 then
    return (wrap (packetLen + sizeofMsgHeader), false)
  else do
    let packetLen ← readAcross half chunk Field.subpacketLen
    return (wrap (packetLen + sizeofPacketHead), true)

/-- Make room for a whole packet, unless the buffer holds a packet head and
so was allocated for the packet's length. -/
def HalfPack.grow (half : HalfPack) (packetLen : Nat) :
    Except Fault HalfPack :=
  if half.bytes.length < sizeofPacketHead then
    HalfPack.start packetLen half.bytes half.pending
  else return half

/-- A buffer that has room for its packet, or is about to get it. -/
theorem HalfPack.grow_of_fits
    {half : HalfPack} {packetLen : Nat}
    (fits : half.bytes.length ≤ packetLen)
    (sized : sizeofPacketHead ≤ half.bytes.length → half.size = packetLen) :
    ∃ grown, half.grow packetLen = .ok grown ∧
      grown.bytes = half.bytes ∧ grown.size = packetLen := by
  by_cases short : half.bytes.length < sizeofPacketHead
  · refine ⟨⟨packetLen, half.bytes, half.pending, fits⟩, ?_, rfl, rfl⟩
    rw [grow, if_pos short, start_of_fits half.pending fits]
  · exact ⟨half, if_neg short, rfl, sized (Nat.not_lt.mp short)⟩

/-- Complete the packet in the half-packet buffer from a chunk. -/
def resume
    (decoder : Decoder σ) (state : DecodeState σ) (half : HalfPack)
    (chunk : List UInt8) : Except Fault (CheckResult σ) := do
  let (packetLen, issubpacket) ← readHalfLength half.bytes chunk
  if singlePacketLenMax < packetLen then
    scanChunk decoder { state with halfpack := none, findMsghead := true }
      chunk
  else
    let half ← half.grow packetLen
    if wrap (chunk.length + half.bytes.length) < packetLen then
      let half ← half.append chunk
      return ⟨{ state with
        halfpack := some half, findMsghead := false }, [], chunk⟩
    else
      let missing := wrap (packetLen + 2 ^ 32 - half.bytes.length)
      let half ← half.append (← read chunk 0 missing)
      let (recv, received) ←
        handlePacket decoder state.recv issubpacket half.bytes packetLen
      let rest ← scanChunk decoder ⟨none, recv, false⟩ (chunk.drop missing)
      return { rest with received := received ++ rest.received }

/-- `CheckPacket` on the decoding state of one connection. -/
def checkPacket
    (decoder : Decoder σ) (state : DecodeState σ) (chunk : List UInt8) :
    Except Fault (CheckResult σ) :=
  match state.halfpack with
  | some half => resume decoder state half chunk
  | none => scanChunk decoder state chunk

/-- The chunks of one connection, one after the other. -/
def checkPackets (decoder : Decoder σ) :
    DecodeState σ → List (List UInt8) →
      Except Fault (DecodeState σ × List Block)
  | state, [] => .ok (state, [])
  | state, chunk :: chunks => do
      let result ← checkPacket decoder state chunk
      let (final, received) ← checkPackets decoder result.state chunks
      return (final, result.received ++ received)

/-! ## The two ends -/

/-- A client session's decoder. -/
def ClientNetSession.decoder
    (protocol : NetProtocol) (lastEvent : Nat) (malloc : Nat → Bool) :
    Decoder Recvbuf :=
  ⟨protocol, lastEvent, ClientNetSession.receiveSubpacket malloc⟩

/-- A client session before it has received anything. -/
def ClientNetSession.initial : DecodeState Recvbuf :=
  ⟨none, Recvbuf.idle, false⟩

/-- A server session's decoder for one of its clients. -/
def ServerNetSession.decoder
    (protocol : NetProtocol) (lastEvent : Nat) (malloc : Nat → Bool) :
    Decoder ClientRecv :=
  ⟨protocol, lastEvent, ServerNetSession.receiveSubpacket malloc⟩

end Network
end Pilot2Cloud
