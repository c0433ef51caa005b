import Pilot2Cloud.Foundation.Memory

/-!
# Message and packet headers

The layout shared by the two ends of a network session: `stMsgHeader` in front
of every application message, `PacketHead` in front of every fragment of a
message that is too large for one packet, the offsets of their members, and
the limits of `pl.h` and `net_define.h`.
-/

namespace Pilot2Cloud
namespace Network

open Foundation Words

/-- `sizeof(stMsgHeader)`. -/
@[simp] abbrev sizeofMsgHeader : Nat := 16

/-- `sizeof(PacketHead)`. -/
@[simp] abbrev sizeofPacketHead : Nat := 40

namespace Field

/-- `MSG_LENGTH`. -/
@[simp] abbrev msgLength : Nat := 8
/-- `MSG_TYPE`. -/
@[simp] abbrev msgType : Nat := 12
/-- `PACKET_ID`. -/
@[simp] abbrev packetID : Nat := 16
/-- `SUBPACKET_TOTALNUM`. -/
@[simp] abbrev subpacketTotalnum : Nat := 20
/-- `SUBPACKET_OFFSET`. -/
@[simp] abbrev subpacketOffset : Nat := 28
/-- `SUBPACKET_LEN`. -/
@[simp] abbrev subpacketLen : Nat := 32

end Field

/-- `MEMBER_SIZE_BYTE`. -/
@[simp] abbrev memberSizeByte : Nat := 4

/-- `PACKET_ENABLE`, the bit of `ulMsgLength` that marks a fragment. -/
@[simp] abbrev packetEnable : Nat := flagBit

/-- `SINGLE_PACKET_LEN_MAX`. -/
def singlePacketLenMax : Nat := 1048576

/-- Size of the buffer that a socket receives into, the largest chunk. -/
def recvBufferSize : Nat := 65536

/-- `NetProtocol`. -/
inductive NetProtocol
  | invalid
  | udp
  | tcp
  | sctp
  | rawip
  | asfpmal
  deriving DecidableEq, Repr

/-- `SessionMode`. -/
inductive SessionMode
  | packetHead
  | passThrough
  deriving DecidableEq, Repr

/-- `stMsgHeader`. -/
structure MsgHeader where
  sendSubSysId : Nat
  rcvdSubSysId : Nat
  msgLength : Nat
  msgType : Nat
  deriving DecidableEq, Repr

/-- The header at the front of a message. -/
def MsgHeader.ofBytes (data : List UInt8) : MsgHeader where
  sendSubSysId := wordAt data 0
  rcvdSubSysId := wordAt data 4
  msgLength := wordAt data Field.msgLength
  msgType := wordAt data Field.msgType

/-- Memory image of a message header. -/
def MsgHeader.bytes (header : MsgHeader) : List UInt8 :=
  wordBytes header.sendSubSysId ++ wordBytes header.rcvdSubSysId ++
    wordBytes header.msgLength ++ wordBytes header.msgType

@[simp] theorem MsgHeader.length_bytes (header : MsgHeader) :
    header.bytes.length = 16 := by
  simp [MsgHeader.bytes]

/-- Reading a header and storing it again reproduces the sixteen bytes. -/
theorem MsgHeader.bytes_ofBytes
    {data : List UInt8} (hasHeader : 16 ≤ data.length) :
    (MsgHeader.ofBytes data).bytes = data.take 16 := by
  simp only [MsgHeader.bytes, MsgHeader.ofBytes, Field.msgLength,
    Field.msgType]
  rw [wordBytes_wordAt data (by omega), wordBytes_wordAt data (by omega),
    wordBytes_wordAt data (by omega), wordBytes_wordAt data (by omega),
    List.drop_zero, ← List.take_add, ← List.take_add, ← List.take_add]

/-- `PacketHead`. -/
structure PacketHead where
  msgHead : MsgHeader
  packetID : Nat
  totalPacketNum : Nat
  packetIndex : Nat
  packetOffset : Nat
  packetLen : Nat
  padding : Nat
  deriving DecidableEq, Repr

/-- Memory image of a packet head. -/
def PacketHead.bytes (head : PacketHead) : List UInt8 :=
  head.msgHead.bytes ++ wordBytes head.packetID ++
    wordBytes head.totalPacketNum ++ wordBytes head.packetIndex ++
    wordBytes head.packetOffset ++ wordBytes head.packetLen ++
    wordBytes head.padding

@[simp] theorem PacketHead.length_bytes (head : PacketHead) :
    head.bytes.length = 40 := by
  simp [PacketHead.bytes]

/-- What follows the front words of a packet head is read as the next word. -/
theorem wordAt_of_front
    (front back : List UInt8) {value offset : Nat}
    (here : front.length = offset) (fits : value < 2 ^ 32) :
    wordAt (front ++ (wordBytes value ++ back)) offset = value := by
  subst offset
  have shifted := wordAt_append_right front (wordBytes value ++ back) 0
  rw [Nat.add_zero] at shifted
  rw [shifted, wordAt_wordBytes_append value back fits]

/-- Reading back a stored header whose members are words. -/
theorem MsgHeader.ofBytes_bytes
    {header : MsgHeader}
    (sendSubSysId : header.sendSubSysId < 2 ^ 32)
    (rcvdSubSysId : header.rcvdSubSysId < 2 ^ 32)
    (msgLength : header.msgLength < 2 ^ 32)
    (msgType : header.msgType < 2 ^ 32) :
    MsgHeader.ofBytes header.bytes = header := by
  have first : wordAt header.bytes 0 = header.sendSubSysId := by
    simp only [MsgHeader.bytes, List.append_assoc]
    exact wordAt_wordBytes_append _ _ sendSubSysId
  have second : wordAt header.bytes 4 = header.rcvdSubSysId := by
    simp only [MsgHeader.bytes, List.append_assoc]
    exact wordAt_of_front _ _ (by simp) rcvdSubSysId
  have third : wordAt header.bytes 8 = header.msgLength := by
    rw [MsgHeader.bytes, List.append_assoc]
    exact wordAt_of_front _ _ (by simp) msgLength
  have fourth : wordAt header.bytes 12 = header.msgType := by
    rw [MsgHeader.bytes, ← List.append_nil (wordBytes header.msgType)]
    exact wordAt_of_front _ _ (by simp) msgType
  simp only [MsgHeader.ofBytes, Field.msgLength, Field.msgType, first, second,
    third, fourth]

section PacketHeadWords

variable (head : PacketHead) (payload : List UInt8)

/-- The message length member of a packet head. -/
theorem PacketHead.wordAt_msgLength
    (fits : head.msgHead.msgLength < 2 ^ 32) :
    wordAt (head.bytes ++ payload) 8 = head.msgHead.msgLength := by
  simp only [PacketHead.bytes, MsgHeader.bytes, List.append_assoc]
  rw [← List.append_assoc (wordBytes _) (wordBytes _)]
  exact wordAt_of_front _ _ (by simp) fits

/-- The message type member of a packet head. -/
theorem PacketHead.wordAt_msgType
    (fits : head.msgHead.msgType < 2 ^ 32) :
    wordAt (head.bytes ++ payload) 12 = head.msgHead.msgType := by
  simp only [PacketHead.bytes, MsgHeader.bytes, List.append_assoc]
  rw [← List.append_assoc (wordBytes _) (wordBytes _),
    ← List.append_assoc (_ ++ _) (wordBytes _)]
  exact wordAt_of_front _ _ (by simp) fits

theorem PacketHead.wordAt_packetID
    (fits : head.packetID < 2 ^ 32) :
    wordAt (head.bytes ++ payload) 16 = head.packetID := by
  simp only [PacketHead.bytes, List.append_assoc]
  exact wordAt_of_front _ _ (by simp) fits

theorem PacketHead.wordAt_totalPacketNum
    (fits : head.totalPacketNum < 2 ^ 32) :
    wordAt (head.bytes ++ payload) 20 = head.totalPacketNum := by
  simp only [PacketHead.bytes, List.append_assoc]
  rw [← List.append_assoc head.msgHead.bytes]
  exact wordAt_of_front _ _ (by simp) fits

theorem PacketHead.wordAt_packetOffset
    (fits : head.packetOffset < 2 ^ 32) :
    wordAt (head.bytes ++ payload) 28 = head.packetOffset := by
  simp only [PacketHead.bytes, List.append_assoc]
  rw [← List.append_assoc head.msgHead.bytes,
    ← List.append_assoc (_ ++ _) (wordBytes _),
    ← List.append_assoc (_ ++ _) (wordBytes _)]
  exact wordAt_of_front _ _ (by simp) fits

theorem PacketHead.wordAt_packetLen
    (fits : head.packetLen < 2 ^ 32) :
    wordAt (head.bytes ++ payload) 32 = head.packetLen := by
  simp only [PacketHead.bytes, List.append_assoc]
  rw [← List.append_assoc head.msgHead.bytes,
    ← List.append_assoc (_ ++ _) (wordBytes _),
    ← List.append_assoc (_ ++ _) (wordBytes _),
    ← List.append_assoc (_ ++ _) (wordBytes _)]
  exact wordAt_of_front _ _ (by simp) fits

end PacketHeadWords

end Network
end Pilot2Cloud
