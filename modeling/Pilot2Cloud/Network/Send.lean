import Pilot2Cloud.Network.Layout

/-!
# Sending a message in packets

`ClientNetSession::Send` and `ServerNetSession::Send` write a message whole
when it fits in `packet_max_len` and otherwise cut its payload into fragments.
From the second fragment on, the packet head is stored into the caller's own
buffer, over bytes that have already been written to the connection.
-/

namespace Pilot2Cloud
namespace Network

open Foundation Words Memory

/-- The members of a session that `Send` reads and updates. -/
structure SendSession where
  sessionmode : SessionMode
  sendID : Nat
  deriving DecidableEq, Repr

/-- What a `Send` call put on the connection, and the result it returned. -/
structure SendOutcome where
  written : List (List UInt8)
  result : Bool
  deriving DecidableEq, Repr

/-- The services a session uses while sending: whether `pf_malloc` can serve a
size, and whether `SendData` accepts a packet. -/
structure SendEnvironment where
  malloc : Nat → Bool
  sendData : List UInt8 → Bool

/-- The next value of `u32sendID`. -/
def nextSendID (sendID : Nat) : Nat :=
  if sendID < 0xFFFFFFF0 then sendID + 1 else 1

/-- Hand one packet to the connection. -/
def sendPacket (environment : SendEnvironment) (packet : List UInt8) :
    SendOutcome :=
  if environment.sendData packet then ⟨[packet], true⟩ else ⟨[], false⟩

/-- `packetIndex++` and `packetOffset += packetLen`, for the next fragment. -/
def PacketHead.advance (head : PacketHead) : PacketHead :=
  { head with
    packetIndex := wrap (head.packetIndex + 1)
    packetOffset := wrap (head.packetOffset + head.packetLen) }

/-- The last fragment of a message of `size` bytes carries what is left. -/
def PacketHead.closing (head : PacketHead) (size : Nat) : PacketHead :=
  { head with packetLen := size - head.packetOffset - sizeofMsgHeader }

/-- The loop that sends every fragment but the first.  `data` is the caller's
buffer and `pdata` the position in it where the next packet head goes. -/
def sendLoop
    (environment : SendEnvironment) (size packetMaxLen : Nat) :
    Nat → PacketHead → List UInt8 → Nat → Except Fault SendOutcome
  | 0, _, _, _ => .error .loopBound
  | fuel + 1, last, data, pdata => do
      let head := last.advance
      if head.packetIndex = head.totalPacketNum then
        let head := head.closing size
        let data ← overwrite data pdata head.bytes
        let packet ← read data pdata (head.packetLen + sizeofPacketHead)
        return sendPacket environment packet
      else
        let data ← overwrite data pdata head.bytes
        let packet ← read data pdata packetMaxLen
        if environment.sendData packet then
          let rest ← sendLoop environment size packetMaxLen fuel head data
            (pdata + head.packetLen)
          return ⟨packet :: rest.written, rest.result⟩
        else
          return ⟨[], false⟩

/-- The head of the first fragment; `padding` is never assigned. -/
def firstPacketHead
    (data : List UInt8) (packetMaxLen sendID padding : Nat) : PacketHead :=
  let header := MsgHeader.ofBytes data
  let packetLen := packetMaxLen - sizeofPacketHead
  { msgHead := { header with msgLength := setFlag header.msgLength }
    packetID := sendID
    totalPacketNum :=
      wrap ((data.length - sizeofMsgHeader + packetLen - 1) / packetLen)
    packetIndex := 1
    packetOffset := 0
    packetLen := packetLen
    padding := padding }

/-- Send a message that does not fit in one packet, under a fresh id. -/
def sendFragmented
    (environment : SendEnvironment)
    (data : List UInt8) (packetMaxLen sendID padding : Nat) :
    Except Fault SendOutcome := do
  let head := firstPacketHead data packetMaxLen sendID padding
  if environment.malloc packetMaxLen then
    let payload ← read data sizeofMsgHeader head.packetLen
    let packet := head.bytes ++ payload
    if environment.sendData packet then
      if sizeofMsgHeader + head.packetLen < sizeofPacketHead then
        -- `pdata` lies before `data`, and the next head is stored there.
        .error .writeBeforeStart
      else
        let rest ← sendLoop environment data.length packetMaxLen
          head.totalPacketNum head data
          (sizeofMsgHeader + head.packetLen - sizeofPacketHead)
        return ⟨packet :: rest.written, rest.result⟩
    else
      return ⟨[], false⟩
  else
    return ⟨[], false⟩

/-- The body that the `Send` members with a `packet_max_len` share. -/
def sendMessage
    (environment : SendEnvironment)
    (session : SendSession) (data : List UInt8) (packetMaxLen padding : Nat) :
    Except Fault (SendSession × SendOutcome) :=
  if session.sessionmode ≠ .packetHead then
    return (session, ⟨[], false⟩)
  else if packetMaxLen < data.length then
    if packetMaxLen ≤ sizeofPacketHead then
      return (session, ⟨[], false⟩)
    else do
      let sendID := nextSendID session.sendID
      let outcome ←
        sendFragmented environment data packetMaxLen sendID padding
      return ({ session with sendID := sendID }, outcome)
  else
    return (session, sendPacket environment data)

/-- `ClientNetSession::Send(data, size, packet_max_len)`. -/
def ClientNetSession.send := sendMessage

/-- `ServerNetSession::Send(conn, data, size, packet_max_len)`. -/
def ServerNetSession.send := sendMessage

/-- `ServerNetSession::Send(data, size, sessionData, packet_max_len)`. -/
def ServerNetSession.sendUdp := sendMessage

/-! ## The packets of a message -/

/-- Number of fragments of a message whose payload is cut every `step` bytes. -/
def fragmentCount (size step : Nat) : Nat :=
  (size - 16 + step - 1) / step

/-- Head of the fragment at position `index`, counted from zero. -/
def fragmentHead
    (message : List UInt8) (packetMaxLen sendID padding index : Nat) :
    PacketHead :=
  let step := packetMaxLen - 40
  { firstPacketHead message packetMaxLen sendID padding with
    packetIndex := index + 1
    packetOffset := index * step
    packetLen := min step (message.length - 16 - index * step) }

/-- Payload of the fragment at position `index`. -/
def fragmentPayload
    (message : List UInt8) (packetMaxLen index : Nat) : List UInt8 :=
  (message.drop (16 + index * (packetMaxLen - 40))).take (packetMaxLen - 40)

/-- The fragment at position `index`. -/
def fragment
    (message : List UInt8) (packetMaxLen sendID padding index : Nat) :
    List UInt8 :=
  (fragmentHead message packetMaxLen sendID padding index).bytes ++
    fragmentPayload message packetMaxLen index

/-- All fragments of a message, in order. -/
def fragments
    (message : List UInt8) (packetMaxLen sendID padding : Nat) :
    List (List UInt8) :=
  (List.range (fragmentCount message.length (packetMaxLen - 40))).map
    (fragment message packetMaxLen sendID padding)

/-- The packets a message travels in. -/
def packetsOf
    (message : List UInt8) (packetMaxLen sendID padding : Nat) :
    List (List UInt8) :=
  if packetMaxLen < message.length then
    fragments message packetMaxLen sendID padding
  else [message]

end Network
end Pilot2Cloud
