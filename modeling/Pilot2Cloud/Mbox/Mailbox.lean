import Pilot2Cloud.Foundation.StoredRing
import Pilot2Cloud.Foundation.Transitions

/-!
# The mailbox

Messages go to either end of a ring of message structures.  A short payload is
copied into the structure itself, and a long one into memory of its own.  A
message that is got is a copy of the structure, whose pointer is then set to the
payload in the copy, except when `pf_try_get_message` got it.
-/

namespace Pilot2Cloud
namespace Mbox

open Foundation

/-- `SHORT_PACK_SIZE`. -/
def SHORT_PACK_SIZE : ℕ := 100

/-- Where `pucData` points to. -/
inductive Pointer
  /-- `shortpayload` of a structure of the array. -/
  | slot (index : ℕ)
  /-- `shortpayload` of the structure that has the pointer. -/
  | own
  /-- Memory from `pf_malloc`. -/
  | heap (address : ℕ)
  deriving DecidableEq

/-- What a sender says about a message. -/
structure Header where
  ulSrcModuleId : UInt32
  ulMsgId : UInt32
  ulDstModuleId : UInt32
  ulTick : UInt32
  deriving DecidableEq

/-- `stMboxMessage`. -/
structure MboxMessage where
  header : Header
  ulLength : ℕ
  pucData : Pointer
  shortpayload : List UInt8
  deriving DecidableEq

namespace MboxMessage

/-- `restore`. -/
def restore (message : MboxMessage) : MboxMessage :=
  if message.ulLength ≠ 0 ∧ message.ulLength ≤ SHORT_PACK_SIZE then
    { message with pucData := .own }
  else message

end MboxMessage

/-- `pf_memcpy` of bytes to an offset. -/
def copyTo (target : List UInt8) (offset : ℕ) (bytes : List UInt8) :
    List UInt8 :=
  target.take offset ++ bytes ++ target.drop (offset + bytes.length)

/-! ## Putting messages -/

/-- The fields of a message, which may depend on where it is stored and what is
there. -/
abbrev Fill := ℕ → MboxMessage → MboxMessage

/-- The message has the pointer that it is given. -/
def fillPointer (header : Header) (pData : Pointer) (ulLength : ℕ) : Fill :=
  fun _ old => ⟨header, ulLength, pData, old.shortpayload⟩

/-- The payload is copied into the message. -/
def fillCopy (header : Header) (data : List UInt8) : Fill :=
  fun index old =>
    ⟨header, data.length, .slot index, copyTo old.shortpayload 0 data⟩

/-- Two parts of a payload are copied into the message. -/
def fillCopy2 (header : Header) (data data2 : List UInt8) : Fill :=
  fun index old =>
    ⟨header, data.length + data2.length, .slot index,
      copyTo (copyTo old.shortpayload 0 data) data.length data2⟩

/-- The array and the indices of `pf_mbox`. -/
abbrev MboxQueue := StoredRing MboxMessage

namespace MboxQueue

/-- The message goes to the tail. -/
def putTail (fill : Fill) (queue : MboxQueue) : MboxQueue :=
  let index := queue.ring.tail
  StoredRing.put queue (fill index (queue.stored index))

/-- The message goes before the head. -/
def putHead (fill : Fill) (queue : MboxQueue) : MboxQueue :=
  let index := queue.ring.pushFront.head
  StoredRing.putFront queue (fill index (queue.stored index))

instance (queue : MboxQueue) : Decidable queue.ring.Full :=
  inferInstanceAs (Decidable (_ = _))

/-- What a put returns, or nothing if it waits. -/
abbrev PutResult := Option (Bool × MboxQueue)

/-- A put that waits for room. -/
def waiting (place : MboxQueue → MboxQueue) (queue : MboxQueue) : PutResult :=
  if queue.ring.Full then none else some (true, place queue)

/-- A put that fails if there is no room. -/
def trying (place : MboxQueue → MboxQueue) (queue : MboxQueue) : PutResult :=
  if queue.ring.Full then some (false, queue) else some (true, place queue)

/-- A put that fails also if another thread has `qlock`. -/
def tryingLock (locked : Bool) (place : MboxQueue → MboxQueue)
    (queue : MboxQueue) : PutResult :=
  if locked then some (false, queue) else trying place queue

variable (queue : MboxQueue) (header : Header) (pData : Pointer) (ulLength : ℕ)
  (data data2 : List UInt8) (locked : Bool)

/-- `pf_mbox_put`, which waits for a place. -/
def put : PutResult :=
  waiting (putTail (fillPointer header pData ulLength)) queue

/-- `pf_mbox_try_put`. -/
def tryPut : PutResult :=
  trying (putTail (fillPointer header pData ulLength)) queue

/-- `pf_mbox_put_copy_data`. -/
def putCopyData : PutResult :=
  waiting (putTail (fillCopy header data)) queue

/-- `pf_mbox_put_copy_data2`. -/
def putCopyData2 : PutResult :=
  waiting (putTail (fillCopy2 header data data2)) queue

/-- `pf_mbox_try_put_copy_data`. -/
def tryPutCopyData : PutResult :=
  trying (putTail (fillCopy header data)) queue

/-- `pf_mbox_put_head`. -/
def putHeadPointer : PutResult :=
  waiting (putHead (fillPointer header pData ulLength)) queue

/-- `pf_mbox_put_head_copy_data`. -/
def putHeadCopyData : PutResult :=
  waiting (putHead (fillCopy header data)) queue

/-- `pf_mbox_try_put_head`. -/
def tryPutHead : PutResult :=
  tryingLock locked (putHead (fillPointer header pData ulLength)) queue

/-- `pf_mbox_try_put_head_copy_data`. -/
def tryPutHeadCopyData : PutResult :=
  tryingLock locked (putHead (fillCopy header data)) queue

/-- `size`. -/
def size : ℕ := queue.ring.length

/-! ## Getting messages -/

/-- `get`, or nothing if it waits. -/
def get : Option (MboxMessage × MboxQueue) :=
  if queue.ring.tail = queue.ring.head then none
  else some (queue.first, queue.rest)

/-- `try_get`, where nothing is got if the return value is false. -/
def tryGet : Option MboxMessage × MboxQueue :=
  if queue.ring.tail = queue.ring.head then (none, queue)
  else (some queue.first, queue.rest)

end MboxQueue

/-! ## The interface -/

/-- The queue of a module, the memory from `pf_malloc`, and the messages that
were got and have not been freed. -/
structure MboxState where
  queue : MboxQueue
  memory : ℕ → Option (List UInt8)
  held : List MboxMessage

/-- What a function of the interface returns. -/
inductive MboxReply (α : Type)
  | sent (success : Bool)
  | got (message : Option α)
  | freed
  deriving DecidableEq

/-- A call of the interface, with what `pf_malloc` returns to it and whether
another thread has `qlock`. -/
inductive MboxCall
  | pfCopyMsg (header : Header) (data : List UInt8) (mdata : Option ℕ)
  | pfCopyMsg2 (header : Header) (data data2 : List UInt8) (mdata : Option ℕ)
  | pfCopyTryMsg (header : Header) (data : List UInt8) (mdata : Option ℕ)
  | pfCopyUrgentMsg (header : Header) (data : List UInt8) (mdata : Option ℕ)
  | pfCopyTryUrgentMsg (header : Header) (data : List UInt8)
      (mdata : Option ℕ) (locked : Bool)
  | pfGetMessage
  | pfTryGetMessage
  | free (message : MboxMessage)
  deriving DecidableEq

namespace MboxState

variable (state : MboxState)

/-- The mailbox of `pf_mbox_create`, in memory that has not been set. -/
def initial (m_size : ℕ) (positive : 0 < m_size)
    (uninitialized : ℕ → MboxMessage) : MboxState :=
  ⟨⟨.empty m_size positive, uninitialized⟩, fun _ => none, []⟩

/-- The payload that is read through `pucData`. -/
def payload (message : MboxMessage) : Option (List UInt8) :=
  match message.pucData with
  | .slot index =>
      some ((state.queue.stored index).shortpayload.take message.ulLength)
  | .own => some (message.shortpayload.take message.ulLength)
  | .heap address => (state.memory address).map (List.take message.ulLength)

/-- What the copying functions share: a long payload is copied to memory from
`pf_malloc`, which is freed if the message is not put. -/
def copyMessage (data : List UInt8) (mdata : Option ℕ)
    (putLong : Pointer → ℕ → MboxQueue.PutResult)
    (putShort : MboxQueue.PutResult) : Option (Bool × MboxState) :=
  if SHORT_PACK_SIZE < data.length then
    match mdata with
    | none => some (false, state)
    | some address =>
        (putLong (.heap address) data.length).map fun result =>
          (result.1, { state with
            queue := result.2
            memory :=
              if result.1 then Function.update state.memory address (some data)
              else state.memory })
  else putShort.map fun result => (result.1, { state with queue := result.2 })

/-- `pf_copy_msg`. -/
def pfCopyMsg (header : Header) (data : List UInt8) (mdata : Option ℕ) :
    Option (Bool × MboxState) :=
  state.copyMessage data mdata (state.queue.put header)
    (state.queue.putCopyData header data)

/-- `pf_copy_msg2`. -/
def pfCopyMsg2 (header : Header) (data data2 : List UInt8)
    (mdata : Option ℕ) : Option (Bool × MboxState) :=
  state.copyMessage (data ++ data2) mdata (state.queue.put header)
    (state.queue.putCopyData2 header data data2)

/-- `pf_copy_try_msg`. -/
def pfCopyTryMsg (header : Header) (data : List UInt8) (mdata : Option ℕ) :
    Option (Bool × MboxState) :=
  state.copyMessage data mdata (state.queue.tryPut header)
    (state.queue.tryPutCopyData header data)

/-- `pf_copy_urgent_msg`. -/
def pfCopyUrgentMsg (header : Header) (data : List UInt8)
    (mdata : Option ℕ) : Option (Bool × MboxState) :=
  state.copyMessage data mdata (state.queue.putHeadPointer header)
    (state.queue.putHeadCopyData header data)

/-- `pf_copy_try_urgent_msg`. -/
def pfCopyTryUrgentMsg (header : Header) (data : List UInt8)
    (mdata : Option ℕ) (locked : Bool) : Option (Bool × MboxState) :=
  state.copyMessage data mdata
    (fun pData ulLength => state.queue.tryPutHead header pData ulLength locked)
    (state.queue.tryPutHeadCopyData header data locked)

/-- `pf_get_message`. -/
def pfGetMessage : Option (MboxMessage × MboxState) :=
  state.queue.get.map fun result =>
    (result.1.restore,
      { state with
        queue := result.2
        held := result.1.restore :: state.held })

/-- `pf_try_get_message`. -/
def pfTryGetMessage : Option MboxMessage × MboxState :=
  let result := state.queue.tryGet
  (result.1, { state with
    queue := result.2
    held := result.1.toList ++ state.held })

/-- `free` of a message. -/
def free (message : MboxMessage) : MboxState :=
  { state with
    held := state.held.erase message
    memory :=
      match message.pucData with
      | .heap address =>
          if SHORT_PACK_SIZE < message.ulLength then
            Function.update state.memory address none
          else state.memory
      | _ => state.memory }

/-- The reply of a function that sends. -/
def sent (result : Option (Bool × MboxState)) :
    Option (MboxReply MboxMessage × MboxState) :=
  result.map fun result => (.sent result.1, result.2)

/-- A call, or nothing if it waits. -/
def perform : MboxCall → Option (MboxReply MboxMessage × MboxState)
  | .pfCopyMsg header data mdata => sent (state.pfCopyMsg header data mdata)
  | .pfCopyMsg2 header data data2 mdata =>
      sent (state.pfCopyMsg2 header data data2 mdata)
  | .pfCopyTryMsg header data mdata =>
      sent (state.pfCopyTryMsg header data mdata)
  | .pfCopyUrgentMsg header data mdata =>
      sent (state.pfCopyUrgentMsg header data mdata)
  | .pfCopyTryUrgentMsg header data mdata locked =>
      sent (state.pfCopyTryUrgentMsg header data mdata locked)
  | .pfGetMessage => state.pfGetMessage.map fun result =>
      (.got (some result.1), result.2)
  | .pfTryGetMessage =>
      let result := state.pfTryGetMessage
      some (.got result.1, result.2)
  | .free message => some (.freed, state.free message)

end MboxState

namespace MboxCall

/-- What `pf_malloc` returns. -/
def mdata : MboxCall → Option ℕ
  | pfCopyMsg _ _ mdata | pfCopyMsg2 _ _ _ mdata | pfCopyTryMsg _ _ mdata
  | pfCopyUrgentMsg _ _ mdata | pfCopyTryUrgentMsg _ _ mdata _ => mdata
  | pfGetMessage | pfTryGetMessage | free _ => none

/-- `pf_malloc` returns memory that is not in use, and a receiver frees messages
that it has got. -/
structure Allowed (call : MboxCall) (state : MboxState) : Prop where
  fresh : ∀ address, call.mdata = some address → state.memory address = none
  holds : ∀ message, call = .free message → message ∈ state.held

end MboxCall

/-- A call and its reply. -/
def MboxTransition (before : MboxState)
    (label : MboxCall × MboxReply MboxMessage) (after : MboxState) : Prop :=
  label.1.Allowed before ∧ before.perform label.1 = some (label.2, after)

end Mbox
end Pilot2Cloud
