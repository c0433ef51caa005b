import Pilot2Cloud.Foundation.Transitions
import Pilot2Cloud.SendBuffer.SctpRecords

/-!
# When the send buffer of SCTP is a queue of messages

The buffer loses the messages that it holds when it grows after some were
released, because the growth copies the array from its start.
-/

namespace Pilot2Cloud
namespace SendBuffer

open Foundation Words Memory

/-- A payload with its stream. -/
structure SctpMessage where
  streamID : UInt16
  payload : List UInt8

namespace SctpMessage

/-- A message in the buffer. -/
def record (message : SctpMessage) : List UInt8 :=
  RecordBuffer.sctpRecord message.streamID message.payload

/-- What is read of the first record. -/
structure ReadFrom (message : SctpMessage) (buffer : RecordBuffer) : Prop where
  length : buffer.getSctpLength = .ok message.payload.length
  streamID : buffer.getStreamID = .ok message.streamID.toNat
  payload :
    buffer.buf.readAt buffer.getSctpBuffer message.payload.length =
      .ok message.payload

variable {message : SctpMessage} {buffer : RecordBuffer} {rest : List UInt8}

@[simp] theorem length_record (message : SctpMessage) :
    message.record.length = message.payload.length + 4 + 2 :=
  RecordBuffer.length_sctpRecord

/-- The first record is read back. -/
theorem readFrom_of_stores (stores : buffer.Stores (message.record ++ rest)) :
    message.ReadFrom buffer := by
  have length := stores.length
  have end_lt := stores.endMark_lt
  have linear := stores.linear
  have has := stores.has
  have streamID := message.streamID.toNat_lt
  rw [List.length_append, length_record] at length
  have nonempty : 0 < buffer.length := by omega
  have small : message.payload.length < 256 ^ 4 := by omega
  simp only [record, RecordBuffer.sctpRecord, RecordBuffer.recordBytes,
    RecordBuffer.parts, List.flatten_cons, List.cons_append,
    List.nil_append, List.flatten_nil, List.append_nil, List.append_assoc,
    Block.has_append, length_wordBytes, length_littleEndianBytes] at has
  obtain ⟨first, second, third, -⟩ := has
  exact ⟨RecordBuffer.field_of_has 0 nonempty first small,
    RecordBuffer.field_of_has 0 nonempty second streamID, third.readAt rfl⟩

end SctpMessage

/-- A message is to be sent, or the first one has been sent. -/
inductive SctpRequest
  | add (message : SctpMessage)
  | release

/-- A buffer with the messages that were accepted and not yet released. -/
structure SctpSession where
  buffer : RecordBuffer
  waiting : List SctpMessage

namespace SctpSession

/-- Nothing has been added. -/
def initial (capacity : Nat) : SctpSession :=
  ⟨.new capacity, []⟩

/-- Nothing is released from a buffer without any records. -/
def perform (session : SctpSession) :
    SctpRequest → Except Fault SctpSession
  | .add message => do
      let (buffer, isAccepted) ←
        session.buffer.addSctpBuffer message.streamID message.payload
      return {
        buffer := buffer
        waiting :=
          if isAccepted then session.waiting ++ [message]
          else session.waiting }
  | .release =>
      if session.buffer.isEmpty then return session
      else do
        let size ← session.buffer.getSctpLength
        return {
          buffer := session.buffer.releaseSctpBuffer size
          waiting := session.waiting.tail }

/-- A request leads to a state. -/
def Step (session : SctpSession) (request : SctpRequest)
    (after : SctpSession) : Prop :=
  session.perform request = .ok after

/-- The buffer stores the messages that wait, one behind the other, and the
first of them is read from it. -/
structure Queue (session : SctpSession) : Prop where
  stores : session.buffer.Stores (session.waiting.flatMap SctpMessage.record)
  isEmpty : session.buffer.isEmpty = session.waiting.isEmpty
  reads : ∀ first ∈ session.waiting.head?, first.ReadFrom session.buffer

/-- A message is refused, or it is added to the ones that are stored. -/
def Keeps (session : SctpSession) : SctpRequest → Prop
  | .add message =>
      RecordBuffer.GivesUp session.buffer.capacity
          (wrap (session.buffer.length + wrap message.record.length)) ∨
        session.buffer.KeepsSctp message.record.length
  | .release => True

variable {session after : SctpSession} {request : SctpRequest}
  {capacity : Nat}

/-- Everything follows from the bytes that are stored. -/
theorem Queue.of_stores
    (stores : session.buffer.Stores
      (session.waiting.flatMap SctpMessage.record)) :
    session.Queue where
  stores := stores
  isEmpty := by
    apply stores.isEmpty_eq
    intro message
    rw [SctpMessage.length_record]
    omega
  reads := by
    intro first isFirst
    cases waits : session.waiting with
    | nil =>
        rw [waits] at isFirst
        contradiction
    | cons head rest =>
        rw [waits] at isFirst stores
        obtain rfl := Option.some_inj.mp isFirst
        exact SctpMessage.readFrom_of_stores stores

theorem Queue.initial (positive : 0 < capacity)
    (bounded : capacity ≤ maxCapacity) : (initial capacity).Queue :=
  .of_stores (.new positive bounded)

theorem flatMap_concat (waiting : List SctpMessage) (message : SctpMessage) :
    (waiting ++ [message]).flatMap SctpMessage.record =
      waiting.flatMap SctpMessage.record ++
        RecordBuffer.sctpRecord message.streamID message.payload := by
  rw [List.flatMap_append, List.flatMap_cons, List.flatMap_nil,
    List.append_nil]
  rfl

/-- A request that keeps the records keeps the queue. -/
theorem Queue.exists_step (queue : session.Queue)
    (keeps : session.Keeps request) :
    ∃ next, session.Step request next ∧ next.Queue := by
  cases request with
  | add message =>
      obtain ⟨-, refused⟩ | ⟨accepts, ⟨-, -, lost⟩ | ⟨next, added, kept⟩⟩ :=
        @queue.stores.addSctpBuffer _ _ message.payload message.streamID _ rfl
      · refine ⟨session, ?_, queue⟩
        rw [Step, perform, refused]
        rfl
      · exact absurd (keeps.resolve_left accepts) lost
      · refine ⟨⟨next, session.waiting ++ [message]⟩, ?_, .of_stores ?_⟩
        · rw [Step, perform, added]
          rfl
        · rw [flatMap_concat]
          exact kept.mpr (keeps.resolve_left accepts)
  | release =>
      cases waits : session.waiting with
      | nil =>
          refine ⟨session, ?_, queue⟩
          rw [Step, perform, queue.isEmpty, waits]
          rfl
      | cons first rest =>
          have stores := queue.stores
          have reads := queue.reads first (by rw [waits]; rfl)
          rw [waits, List.flatMap_cons] at stores
          refine ⟨⟨session.buffer.releaseSctpBuffer first.payload.length,
            rest⟩, ?_, .of_stores stores.releaseSctpBuffer⟩
          rw [Step, perform, queue.isEmpty, waits, reads.length]
          rfl

/-- A step to a state with a queue has kept the records. -/
theorem Queue.keeps_of_step (queue : session.Queue)
    (step : session.Step request after) (kept : after.Queue) :
    session.Keeps request := by
  cases request with
  | add message =>
      rw [Step, perform] at step
      obtain ⟨refuses, -⟩ | ⟨-, ⟨fault, failed, -⟩ | ⟨next, added, iff⟩⟩ :=
        @queue.stores.addSctpBuffer _ _ message.payload message.streamID _ rfl
      · exact .inl refuses
      · rw [failed] at step
        contradiction
      · rw [added] at step
        obtain rfl := Except.ok.inj step
        have stores := kept.stores
        rw [if_pos rfl, flatMap_concat] at stores
        exact .inr (iff.mp stores)
  | release => trivial

/-- The buffer is a queue of messages all along exactly when every message that
is added and not refused keeps the ones that are stored. -/
theorem keeps_iff_queue {requests : List SctpRequest}
    (positive : 0 < capacity) (bounded : capacity ≤ maxCapacity) :
    Along Step Keeps (initial capacity) requests ↔
      (∃ session, Run Step (initial capacity) requests session) ∧
        ∀ session, Reached Step (initial capacity) requests session →
          session.Queue := by
  apply Along.iff_exists_run Queue
  · intro session request next other first second
    exact Except.ok.inj (first.symm.trans second)
  · intro session request queue keeps
    exact queue.exists_step keeps
  · intro session request next queue step kept
    exact queue.keeps_of_step step kept
  · intro session queue
    exact queue
  · exact .initial positive bounded

/-- The buffer is a queue when it grows with nothing released. -/
theorem keeps_iff_queue_growth :
    0 < 8 ∧ 8 ≤ maxCapacity ∧
      (Along Step Keeps (initial 8) [.add ⟨1, [1]⟩, .add ⟨2, [2, 3]⟩] ↔
        (∃ session, Run Step (initial 8)
            [.add ⟨1, [1]⟩, .add ⟨2, [2, 3]⟩] session) ∧
          ∀ session, Reached Step (initial 8)
              [.add ⟨1, [1]⟩, .add ⟨2, [2, 3]⟩] session →
            session.Queue) :=
  ⟨by decide, by decide, keeps_iff_queue (by decide) (by decide)⟩

/-- The message that was released comes back, in place of one that waits, when
the buffer grows. -/
theorem not_queue_of_growth :
    ∃ session, Run Step (initial 16)
        [.add ⟨1, [1]⟩, .add ⟨2, [2]⟩, .release, .add ⟨3, [3, 3, 3, 3]⟩]
        session ∧
      ¬session.Queue := by
  refine ⟨_, .cons rfl (.cons rfl (.cons rfl (.cons rfl (.nil _)))), ?_⟩
  intro queue
  have read := (queue.reads ⟨2, [2]⟩ rfl).streamID
  contradiction

end SctpSession
end SendBuffer
end Pilot2Cloud
