import Pilot2Cloud.Foundation.Contents
import Pilot2Cloud.Foundation.FrameStream

/-!
# Messages between processes

A message is sent to another process as its `stMboxMessage` structure with the
payload behind it.  The receiver copies every message that it has to the
mailbox of its module.
-/

namespace Pilot2Cloud
namespace InterMsg

open Foundation Words Memory

/-- A message on the wire.  The receiver does not use the members of the
structure from `pucData` on. -/
structure Message where
  srcModuleId : UInt32
  dstModuleId : UInt32
  msgId : UInt32
  unused : List UInt8
  payload : List UInt8
  unusedSize : unused.length = 112
  /-- The length has a 32-bit field. -/
  payloadSize : payload.length < 2 ^ 32

/-- `sizeof(stMboxMessage)`. -/
def mboxLen : Nat := 128

/-- The arguments with which a message is copied. -/
structure CopiedMsg where
  srcModuleId : Nat
  msgId : Nat
  dstModuleId : Nat
  data : List UInt8
  deriving DecidableEq

namespace Message

/-- The bytes of a message on a connection. -/
def frame (message : Message) : List UInt8 :=
  wordBytes message.srcModuleId.toNat ++
    (wordBytes message.dstModuleId.toNat ++
      (wordBytes message.payload.length ++
        (wordBytes message.msgId.toNat ++
          (message.unused ++ message.payload))))

theorem length_frame (message : Message) :
    message.frame.length = mboxLen + message.payload.length := by
  simp only [frame, List.length_append, length_wordBytes,
    message.unusedSize, mboxLen]
  omega

theorem exists_header (message : Message) :
    ∃ header : List UInt8, header.length = mboxLen ∧
      message.frame = header ++ message.payload := by
  refine ⟨wordBytes message.srcModuleId.toNat ++
    (wordBytes message.dstModuleId.toNat ++
      (wordBytes message.payload.length ++
        (wordBytes message.msgId.toNat ++ message.unused))), ?_, ?_⟩
  · simp only [List.length_append, length_wordBytes, message.unusedSize,
      mboxLen]
  · simp only [frame, List.append_assoc]

/-- What is copied of a message that is complete. -/
def copied (message : Message) : CopiedMsg where
  srcModuleId := message.srcModuleId.toNat
  msgId := message.msgId.toNat
  dstModuleId := message.dstModuleId.toNat
  data := message.payload

end Message

/-! ## The receiver -/

/-- A member of the structure at an offset. -/
def member (pcBuf : Block) (offset : Nat) : Except Fault Nat := do
  return littleEndian (← pcBuf.readAt offset 4)

/-- The message at an offset, as it is handed to `pf_copy_msg`. -/
def copyMsg (pcBuf : Block) (offset length : Nat) :
    Except Fault CopiedMsg := do
  let srcModuleId ← member pcBuf offset
  let msgId ← member pcBuf (offset + 12)
  let dstModuleId ← member pcBuf (offset + 4)
  let data ← pcBuf.readAt (offset + mboxLen) length
  return {
    srcModuleId := srcModuleId
    msgId := msgId
    dstModuleId := dstModuleId
    data := data }

/-- The loop of `unsocket_copy_msg`: the offset behind the last message that was
copied, and the messages. -/
def copyMsgs (pcBuf : Block) (readNum : Nat) :
    Nat → Nat → Except Fault (Nat × List CopiedMsg)
  | 0, _ => .error .loopBound
  | fuel + 1, msgLen =>
      if msgLen < readNum then do
        let length ← member pcBuf (msgLen + 8)
        if wrap (msgLen + mboxLen + length) ≤ readNum then do
          let copied ← copyMsg pcBuf msgLen length
          let (last, others) ←
            copyMsgs pcBuf readNum fuel (wrap (msgLen + mboxLen + length))
          return (last, copied :: others)
        else return (msgLen, [])
      else return (msgLen, [])

/-- The first message is looked at whether or not there are any bytes. -/
def unsocketCopyMsg (pcBuf : Block) (readNum : Nat) :
    Except Fault (Nat × List CopiedMsg) := do
  let length ← member pcBuf 8
  if wrap (mboxLen + length) ≤ readNum then do
    let copied ← copyMsg pcBuf 0 length
    let (last, others) ←
      copyMsgs pcBuf readNum readNum (wrap (mboxLen + length))
    return (last, copied :: others)
  else return (0, [])

end InterMsg
end Pilot2Cloud
