import Pilot2Cloud.Network.SendCorrect
import Pilot2Cloud.Network.Framing

/-!
# The fragments of one message

What the receiving end reads in the fragments that one `Send` call produces,
and that both they and unfragmented messages are well-framed packets.
-/

namespace Pilot2Cloud
namespace Network

open Foundation Words Memory

/-- An application message as `Send` expects it. -/
structure AppMessage (lastEvent : Nat) (message : List UInt8) : Prop where
  hasHeader : sizeofMsgHeader ≤ message.length
  msgLength : wordAt message Field.msgLength =
    message.length - sizeofMsgHeader
  notEnabled : wordAt message Field.msgLength &&& packetEnable = 0
  msgtype : wordAt message Field.msgType < lastEvent

/-- The length of a message without `PACKET_ENABLE` is below it. -/
theorem AppMessage.payload_lt
    (isMessage : AppMessage lastEvent message) :
    message.length - 16 < flagBit := by
  have bound := (land_flagBit_eq_zero_iff (wordAt_lt message 8)).mp
    isMessage.notEnabled
  rwa [isMessage.msgLength] at bound

theorem AppMessage.length_lt
    (isMessage : AppMessage lastEvent message) :
    message.length < 2 ^ 32 := by
  have bound := isMessage.payload_lt
  unfold flagBit at bound
  omega

theorem AppMessage.mono
    {lastEvent later : Nat} (isMessage : AppMessage lastEvent message)
    (below : lastEvent ≤ later) : AppMessage later message :=
  { isMessage with msgtype := Nat.lt_of_lt_of_le isMessage.msgtype below }

/-- A `Send` call with a message that is too large for one packet. -/
structure LargeSend (lastEvent : Nat) where
  message : List UInt8
  packetMaxLen : Nat
  sendID : Nat
  padding : Nat
  isMessage : AppMessage lastEvent message
  stepPositive : sizeofPacketHead < packetMaxLen
  large : packetMaxLen < message.length
  sendIDPositive : 0 < sendID
  sendIDFits : sendID < 2 ^ 32

namespace LargeSend

variable {lastEvent : Nat} (call : LargeSend lastEvent) (index : Nat)

/-- Payload bytes in every fragment but the last. -/
def step : Nat := call.packetMaxLen - 40

/-- The number of fragments. -/
def count : Nat := fragmentCount call.message.length call.step

/-- The fragment at a position. -/
def fragment (index : Nat) : List UInt8 :=
  Network.fragment call.message call.packetMaxLen call.sendID call.padding
    index

/-- The payload of the fragment at a position. -/
def payload (index : Nat) : List UInt8 :=
  fragmentPayload call.message call.packetMaxLen index

/-- The message header that every fragment carries. -/
def header : MsgHeader :=
  { MsgHeader.ofBytes call.message with
    msgLength := setFlag (call.message.length - 16) }

theorem step_positive : 0 < call.step := by
  have positive := call.stepPositive
  simp only [step, sizeofPacketHead] at positive ⊢
  omega

theorem step_large : 16 + call.step < call.message.length := by
  have positive := call.stepPositive
  have large := call.large
  simp only [step, sizeofPacketHead] at positive ⊢
  omega

theorem two_le_count : 2 ≤ call.count :=
  two_le_fragmentCount _ _ call.step_positive call.step_large

theorem count_lt : call.count < 2 ^ 32 := by
  have bound : call.count ≤ call.message.length - 16 :=
    fragmentCount_le _ _ call.step_positive
  have fits := call.isMessage.length_lt
  omega

variable {index} in
theorem start_lt (bound : index < call.count) :
    index * call.step < call.message.length - 16 :=
  fragment_start_lt _ _ call.step_positive call.step_large bound

/-- A payload position lies in a fragment that exists. -/
theorem position_div_step_lt
    {position : Nat} (inside : position < call.message.length - 16) :
    position / call.step < call.count := by
  rw [Nat.div_lt_iff_lt_mul call.step_positive]
  have covered : call.message.length - 16 ≤ call.count * call.step :=
    le_fragmentCount_mul _ _ call.step_positive
  omega

theorem length_payload :
    (call.payload index).length =
      min call.step (call.message.length - 16 - index * call.step) := by
  rw [payload, fragmentPayload, List.length_take, List.length_drop, step]
  omega

variable {index} in
/-- The bytes of a fragment's payload are those of the message at its
offset. -/
theorem getElem?_payload
    {offset : Nat} (inside : offset < (call.payload index).length) :
    (call.payload index)[offset]? =
      (call.message.drop 16)[index * call.step + offset]? := by
  have bound : offset < call.packetMaxLen - 40 := by
    rw [length_payload, step] at inside
    omega
  rw [payload, fragmentPayload, List.getElem?_take_of_lt bound,
    List.getElem?_drop, List.getElem?_drop, step, Nat.add_assoc]

/-- A fragment's head as its five words and its header. -/
theorem fragment_eq :
    call.fragment index =
      (PacketHead.bytes
        { msgHead := call.header
          packetID := call.sendID
          totalPacketNum := call.count
          packetIndex := index + 1
          packetOffset := index * call.step
          packetLen := (call.payload index).length
          padding := call.padding }) ++ call.payload index := by
  have headerLength := call.isMessage.msgLength
  have total : wrap call.count = call.count := wrap_of_lt call.count_lt
  simp only [Field.msgLength, sizeofMsgHeader] at headerLength
  simp only [count, fragmentCount, step] at total
  simp only [fragment, Network.fragment, fragmentHead, firstPacketHead,
    sizeofMsgHeader, sizeofPacketHead, total, length_payload]
  simp only [header, count, fragmentCount, step, payload, MsgHeader.ofBytes,
    Field.msgLength, headerLength]

section Words

variable (bound : index < call.count) (back : List UInt8)

theorem header_msgLength_lt : call.header.msgLength < 2 ^ 32 := by
  have clear := call.isMessage.payload_lt
  change setFlag (call.message.length - 16) < 2 ^ 32
  rw [setFlag_eq_add clear]
  unfold flagBit at *
  omega

@[simp]
theorem ofBytes_header : MsgHeader.ofBytes call.header.bytes = call.header :=
  MsgHeader.ofBytes_bytes (wordAt_lt _ _) (wordAt_lt _ _)
    call.header_msgLength_lt (wordAt_lt _ _)

@[simp] theorem clearFlag_header :
    clearFlag call.header.msgLength = call.message.length - 16 :=
  clearFlag_setFlag call.isMessage.payload_lt

/-- Without `PACKET_ENABLE` the header is that of the message. -/
theorem cleared_header_bytes :
    MsgHeader.bytes { call.header with
      msgLength := call.message.length - 16 } =
      call.message.take 16 := by
  have msgLength := call.isMessage.msgLength
  have same : { call.header with msgLength := call.message.length - 16 } =
      MsgHeader.ofBytes call.message := by
    rw [← msgLength]
    rfl
  rw [same, MsgHeader.bytes_ofBytes call.isMessage.hasHeader]

@[simp] theorem wordAt_msgLength :
    wordAt (call.fragment index ++ back) 8 = call.header.msgLength := by
  rw [fragment_eq, List.append_assoc]
  exact PacketHead.wordAt_msgLength _ _ call.header_msgLength_lt

@[simp] theorem wordAt_msgType :
    wordAt (call.fragment index ++ back) 12 =
      wordAt call.message 12 := by
  rw [fragment_eq, List.append_assoc]
  exact PacketHead.wordAt_msgType _ _ (wordAt_lt _ _)

@[simp] theorem wordAt_packetID :
    wordAt (call.fragment index ++ back) 16 = call.sendID := by
  rw [fragment_eq, List.append_assoc]
  exact PacketHead.wordAt_packetID _ _ call.sendIDFits

@[simp] theorem wordAt_totalPacketNum :
    wordAt (call.fragment index ++ back) 20 = call.count := by
  rw [fragment_eq, List.append_assoc]
  exact PacketHead.wordAt_totalPacketNum _ _ call.count_lt

variable {index} in
include bound in
@[simp] theorem wordAt_packetOffset :
    wordAt (call.fragment index ++ back) 28 = index * call.step := by
  have start := call.start_lt bound
  have fits := call.isMessage.length_lt
  rw [fragment_eq, List.append_assoc]
  exact PacketHead.wordAt_packetOffset _ _ (by simp only; omega)

@[simp] theorem wordAt_packetLen :
    wordAt (call.fragment index ++ back) 32 =
      (call.payload index).length := by
  have length := call.length_payload index
  have fits := call.isMessage.length_lt
  rw [fragment_eq, List.append_assoc]
  exact PacketHead.wordAt_packetLen _ _ (by simp only; omega)

end Words

@[simp] theorem length_fragment :
    (call.fragment index).length = 40 + (call.payload index).length := by
  rw [fragment_eq, List.length_append, PacketHead.length_bytes]

@[simp] theorem take_header_fragment (back : List UInt8) :
    (call.fragment index ++ back).take 16 = call.header.bytes := by
  rw [fragment_eq, PacketHead.bytes]
  simp only [List.append_assoc]
  exact List.take_left' (MsgHeader.length_bytes _)

@[simp] theorem drop_head_fragment (back : List UInt8) :
    (call.fragment index ++ back).drop 40 = call.payload index ++ back := by
  rw [fragment_eq, List.append_assoc]
  exact List.drop_left' (PacketHead.length_bytes _)

@[simp]
theorem isSubpacket_fragment : isSubpacket (call.fragment index) = true := by
  have word := call.wordAt_msgLength index []
  have clear := call.isMessage.payload_lt
  rw [List.append_nil] at word
  rw [isSubpacket, word, header, setFlag_eq_add clear, decide_eq_true_iff]
  exact Nat.le_add_right _ _

/-- A fragment within the decoder's length limit is well framed. -/
theorem wellFramed_fragment
    (lengthMax : (call.fragment index).length ≤ singlePacketLenMax) :
    WellFramed lastEvent (call.fragment index) := by
  have msgType := call.wordAt_msgType index []
  have packetLen := call.wordAt_packetLen index []
  rw [List.append_nil] at msgType packetLen
  have length := call.length_fragment index
  refine
    { hasHeader := by omega
      lengthMax := lengthMax
      msgtype := ?_
      whole := fun notSub => ?_
      hasPacketHead := fun _ => by omega
      subpacket := fun _ => by omega }
  · rw [msgType]
    exact call.isMessage.msgtype
  · simp [isSubpacket_fragment] at notSub

end LargeSend

/-! ## Messages sent whole -/

theorem AppMessage.isSubpacket_eq_false
    (isMessage : AppMessage lastEvent message) :
    isSubpacket message = false :=
  (land_packetEnable_eq_zero_iff message).mp isMessage.notEnabled

/-- A message within the decoder's length limit is well framed. -/
theorem AppMessage.wellFramed
    (isMessage : AppMessage lastEvent message)
    (lengthMax : message.length ≤ singlePacketLenMax) :
    WellFramed lastEvent message := by
  have header := isMessage.hasHeader
  have msgLength := isMessage.msgLength
  have whole := isMessage.isSubpacket_eq_false
  simp only [sizeofMsgHeader, Field.msgLength] at header msgLength
  refine
    { hasHeader := header
      lengthMax := lengthMax
      msgtype := isMessage.msgtype
      whole := fun _ => by omega
      hasPacketHead := fun sub => ?_
      subpacket := fun sub => ?_ }
  · simp [whole] at sub
  · simp [whole] at sub

end Network
end Pilot2Cloud
