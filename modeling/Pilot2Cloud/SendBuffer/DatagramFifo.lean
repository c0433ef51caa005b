import Pilot2Cloud.Foundation.Transitions
import Pilot2Cloud.SendBuffer.RecordQueue

/-!
# The send buffers of datagrams are queues of records

The first record of the buffer is always the oldest datagram that was accepted
and not yet released, as long as the sizes that are added up fit in 32 bits.  A
datagram for which they do not is written past the end of the array.
-/

namespace Pilot2Cloud
namespace SendBuffer

open Foundation Words Memory

/-- The sockets whose buffers keep datagrams. -/
inductive Transport
  | udp
  | rawIp

/-- Raw IP has no port. -/
structure Datagram where
  payload : List UInt8
  address : UInt32
  port : UInt16

namespace Transport

/-- The fields of the header behind the size. -/
def header : Transport → Datagram → List (List UInt8)
  | .udp, datagram =>
      [wordBytes datagram.address.toNat,
        littleEndianBytes 2 datagram.port.toNat]
  | .rawIp, datagram => [wordBytes datagram.address.toNat]

/-- A datagram in the buffer. -/
def record (transport : Transport) (datagram : Datagram) : List UInt8 :=
  RecordBuffer.recordBytes (transport.header datagram) datagram.payload

/-- A datagram is added to the buffer of its transport. -/
def add : Transport → RecordBuffer → Datagram →
    Except Fault (RecordBuffer × Bool)
  | .udp, buffer, datagram =>
      buffer.addUdpBuffer datagram.payload datagram.address datagram.port
  | .rawIp, buffer, datagram =>
      buffer.addRawIpBuffer datagram.address datagram.payload

/-- The whole first record is released. -/
def release : Transport → RecordBuffer → Except Fault RecordBuffer
  | .udp, buffer => do
      let size ← buffer.getUdpLength
      buffer.releaseUdpBuffer size
  | .rawIp, buffer => do
      let size ← buffer.getRawIpLength
      buffer.releaseRawIpBuffer size

/-- What is read of the first record. -/
def Reads : Transport → RecordBuffer → Datagram → Prop
  | .udp, buffer, datagram =>
      buffer.getUdpLength = .ok datagram.payload.length ∧
        buffer.getUdpAddr = .ok datagram.address.toNat ∧
        buffer.getUdpPort = .ok datagram.port.toNat ∧
        buffer.buf.readAt buffer.getUdpBuffer datagram.payload.length =
          .ok datagram.payload
  | .rawIp, buffer, datagram =>
      buffer.getRawIpLength = .ok datagram.payload.length ∧
        buffer.getDstAddr = .ok datagram.address.toNat ∧
        buffer.buf.readAt buffer.getRawIpBuffer datagram.payload.length =
          .ok datagram.payload

variable {transport : Transport} {buffer : RecordBuffer}
  {datagram : Datagram} {rest : List UInt8}

theorem add_eq_addRecord :
    transport.add buffer datagram =
      buffer.addRecord (transport.header datagram) datagram.payload := by
  cases transport with
  | udp => rfl
  | rawIp => rfl

theorem nonempty_of_holds
    (holds : buffer.Holds (transport.record datagram ++ rest)) :
    0 < buffer.length ∧ datagram.payload.length < 2 ^ 32 := by
  have length := holds.length
  have small := holds.small
  have inside := holds.endMark_le
  have linear := holds.linear
  rw [List.length_append, record, RecordBuffer.length_recordBytes] at length
  omega

/-- The first record is read back. -/
theorem reads_of_holds
    (holds : buffer.Holds (transport.record datagram ++ rest)) :
    transport.Reads buffer datagram := by
  obtain ⟨nonempty, small⟩ := nonempty_of_holds holds
  have address := datagram.address.toNat_lt
  have port := datagram.port.toNat_lt
  have has := holds.has
  cases transport with
  | udp =>
      simp only [record, header, RecordBuffer.recordBytes, RecordBuffer.parts,
        List.flatten_cons, List.cons_append, List.nil_append,
        List.flatten_nil, List.append_nil, List.append_assoc,
        Block.has_append, length_wordBytes, length_littleEndianBytes] at has
      obtain ⟨first, second, third, fourth, -⟩ := has
      refine ⟨?_, ?_, ?_, fourth.readAt rfl⟩
      · exact RecordBuffer.field_of_has 0 nonempty first small
      · exact RecordBuffer.field_of_has 0 nonempty second address
      · rw [Nat.add_assoc] at third
        exact RecordBuffer.field_of_has 0xFFFF nonempty third port
  | rawIp =>
      simp only [record, header, RecordBuffer.recordBytes, RecordBuffer.parts,
        List.flatten_cons, List.cons_append, List.nil_append,
        List.flatten_nil, List.append_nil, List.append_assoc,
        Block.has_append, length_wordBytes] at has
      obtain ⟨first, second, third, -⟩ := has
      refine ⟨?_, ?_, third.readAt rfl⟩
      · exact RecordBuffer.field_of_has 0 nonempty first small
      · exact RecordBuffer.field_of_has 0 nonempty second address

/-- The whole first record is released. -/
theorem exists_release
    (stores : buffer.Stores (transport.record datagram ++ rest)) :
    ∃ next, transport.release buffer = .ok next ∧ next.Stores rest := by
  obtain ⟨next, released, nextStores⟩ := stores.releaseRecord
  have reads := reads_of_holds stores.holds
  refine ⟨next, ?_, nextStores⟩
  cases transport with
  | udp =>
      rw [release, reads.1]
      exact released
  | rawIp =>
      rw [release, reads.1]
      exact released

end Transport

/-- A datagram is to be sent, or the first one has been sent. -/
inductive DatagramRequest
  | add (datagram : Datagram)
  | release

/-- A buffer with the datagrams that were accepted and not yet released. -/
structure DatagramSession where
  buffer : RecordBuffer
  waiting : List Datagram

namespace DatagramSession

/-- Nothing has been added. -/
def initial (capacity : Nat) : DatagramSession :=
  ⟨.new capacity, []⟩

/-- Nothing is released from a buffer without any records. -/
def perform (transport : Transport) (session : DatagramSession) :
    DatagramRequest → Except Fault DatagramSession
  | .add datagram => do
      let (buffer, isAccepted) ← transport.add session.buffer datagram
      return {
        buffer := buffer
        waiting :=
          if isAccepted then session.waiting ++ [datagram]
          else session.waiting }
  | .release =>
      if session.buffer.isEmpty then return session
      else do
        let buffer ← transport.release session.buffer
        return {
          buffer := buffer
          waiting := session.waiting.tail }

/-- A request leads to a state. -/
def Step (transport : Transport) (session : DatagramSession)
    (request : DatagramRequest) (after : DatagramSession) : Prop :=
  session.perform transport request = .ok after

/-- The buffer stores the datagrams that wait, one behind the other, and the
first of them is read from it. -/
structure Queue (transport : Transport) (session : DatagramSession) :
    Prop where
  stores : session.buffer.Stores (session.waiting.flatMap transport.record)
  isEmpty : session.buffer.isEmpty = session.waiting.isEmpty
  reads : ∀ first ∈ session.waiting.head?,
    transport.Reads session.buffer first

/-- A datagram is refused, or the sizes that are added up for it fit in 32
bits. -/
def Fits (transport : Transport) (session : DatagramSession) :
    DatagramRequest → Prop
  | .add datagram =>
      session.buffer.Refuses (wrap (transport.record datagram).length) ∨
        session.buffer.length + (transport.record datagram).length < 2 ^ 32
  | .release => True

variable {transport : Transport} {session after : DatagramSession}
  {request : DatagramRequest} {capacity : Nat}

/-- Everything follows from the bytes that are stored. -/
theorem Queue.of_stores
    (stores : session.buffer.Stores
      (session.waiting.flatMap transport.record)) :
    session.Queue transport where
  stores := stores
  isEmpty := by
    apply stores.isEmpty_eq
    intro datagram
    rw [Transport.record, RecordBuffer.length_recordBytes]
    omega
  reads := by
    intro first isFirst
    cases waits : session.waiting with
    | nil =>
        rw [waits] at isFirst
        contradiction
    | cons head rest =>
        rw [waits] at isFirst stores
        obtain rfl := Option.some_inj.mp isFirst
        exact Transport.reads_of_holds stores.holds

theorem Queue.initial (positive : 0 < capacity)
    (bounded : capacity ≤ maxCapacity) :
    (initial capacity).Queue transport :=
  .of_stores (.new positive bounded)

/-- A request that fits keeps the queue. -/
theorem Queue.exists_step (queue : session.Queue transport)
    (fits : session.Fits transport request) :
    ∃ next, session.Step transport request next ∧ next.Queue transport := by
  unfold Step perform
  cases request with
  | add datagram =>
      simp only [Transport.add_eq_addRecord]
      obtain ⟨-, refused⟩ | ⟨-, -, buffer, accepted, stores⟩ |
          ⟨accepts, wraps, -⟩ := queue.stores.addRecord
        (transport.header datagram) datagram.payload
      · exact ⟨session, by rw [refused]; rfl, queue⟩
      · refine ⟨⟨buffer, session.waiting ++ [datagram]⟩, ?_, .of_stores ?_⟩
        · rw [accepted]
          rfl
        · simp only [List.flatMap_append, List.flatMap_cons,
            List.flatMap_nil, List.append_nil]
          exact stores
      · obtain refuses | small := fits
        · exact absurd refuses accepts
        · exact absurd small wraps
  | release =>
      cases waits : session.waiting with
      | nil =>
          refine ⟨session, ?_, queue⟩
          simp only [queue.isEmpty, waits, List.isEmpty_nil, if_true]
          rfl
      | cons first rest =>
          have stores := queue.stores
          rw [waits, List.flatMap_cons] at stores
          obtain ⟨buffer, released, stored⟩ :=
            Transport.exists_release stores
          refine ⟨⟨buffer, rest⟩, ?_, .of_stores stored⟩
          simp only [queue.isEmpty, waits, List.isEmpty_cons, released]
          rfl

/-- A request that does not fit writes past the end of the array. -/
theorem Queue.perform_of_not_fits (queue : session.Queue transport)
    (tooLarge : ¬session.Fits transport request) :
    session.perform transport request = .error .writePastEnd := by
  cases request with
  | add datagram =>
      obtain ⟨accepts, wraps⟩ := not_or.mp tooLarge
      rw [perform, Transport.add_eq_addRecord]
      obtain ⟨refuses, -⟩ | ⟨-, fits, -⟩ | ⟨-, -, failed⟩ :=
        queue.stores.addRecord (transport.header datagram) datagram.payload
      · exact absurd refuses accepts
      · exact absurd fits wraps
      · rw [failed]
        rfl
  | release => exact absurd trivial tooLarge

theorem Queue.fits_of_step (queue : session.Queue transport)
    (step : session.Step transport request after) :
    session.Fits transport request := by
  by_contra tooLarge
  have failed := queue.perform_of_not_fits tooLarge
  rw [Step, failed] at step
  contradiction

/-- A record whose size is 0 in 32 bits is not refused and does not fit. -/
theorem Queue.not_fits_of_wrapped (queue : session.Queue transport)
    {datagram : Datagram}
    (wrapped : (transport.record datagram).length = 2 ^ 32) :
    ¬session.Fits transport (.add datagram) := by
  have inside := queue.stores.endMark_le
  have noSize : wrap (2 ^ 32) = 0 := by decide
  rw [Fits, RecordBuffer.Refuses, wrapped, noSize]
  omega

/-- The buffer is a queue of datagrams all along exactly when no datagram is
accepted for which the sizes do not fit in 32 bits. -/
theorem fits_iff_queue {requests : List DatagramRequest}
    (positive : 0 < capacity) (bounded : capacity ≤ maxCapacity) :
    Along (Step transport) (fun session request =>
        session.Fits transport request) (initial capacity) requests ↔
      (∃ session, Run (Step transport) (initial capacity) requests session) ∧
        ∀ session,
          Reached (Step transport) (initial capacity) requests session →
          session.Queue transport := by
  apply Along.iff_exists_run (Queue transport)
  · intro session request next other first second
    exact Except.ok.inj (first.symm.trans second)
  · intro session request queue fits
    exact queue.exists_step fits
  · intro session request next queue step _
    exact queue.fits_of_step step
  · intro session queue
    exact queue
  · exact .initial positive bounded

/-- The buffer is a queue when it grows for the second of two datagrams. -/
theorem fits_iff_queue_growth :
    0 < 8 ∧ 8 ≤ maxCapacity ∧
      (Along (Step .udp) (fun session request => session.Fits .udp request)
          (initial 8) [.add ⟨[1], 2, 3⟩, .add ⟨[4, 5], 6, 7⟩, .release] ↔
        (∃ session, Run (Step .udp) (initial 8)
            [.add ⟨[1], 2, 3⟩, .add ⟨[4, 5], 6, 7⟩, .release] session) ∧
          ∀ session, Reached (Step .udp) (initial 8)
              [.add ⟨[1], 2, 3⟩, .add ⟨[4, 5], 6, 7⟩, .release] session →
            session.Queue .udp) :=
  ⟨by decide, by decide, fits_iff_queue (by decide) (by decide)⟩

theorem not_run_of_length_eq {payload : List UInt8}
    (wraps : payload.length = 2 ^ 32 - 10) :
    ¬∃ session, Run (Step .udp) (initial (1024 * 1024))
      [.add ⟨[1], 2, 3⟩, .add ⟨payload, 2, 3⟩] session := by
  rintro ⟨session, _ | ⟨first, _ | ⟨second, -⟩⟩⟩
  have start : (initial (1024 * 1024)).Queue .udp :=
    .initial (by decide) (by decide)
  obtain ⟨middle, added, queue⟩ := @start.exists_step _ _
    (.add ⟨[1], 2, 3⟩) (.inr (by decide))
  obtain rfl := Except.ok.inj (first.symm.trans added)
  have headerSize :
      (Transport.udp.header ⟨payload, 2, 3⟩).flatten.length = 6 := rfl
  apply queue.not_fits_of_wrapped ?_ (queue.fits_of_step second)
  rw [Transport.record, RecordBuffer.length_recordBytes, headerSize, wraps]
  omega

/-- A second datagram whose size with its header is 0 in 32 bits is written past
the end of the array. -/
theorem not_run_of_wrapped_size :
    ¬∃ session, Run (Step .udp) (initial (1024 * 1024))
      [.add ⟨[1], 2, 3⟩, .add ⟨List.replicate (2 ^ 32 - 10) 0, 2, 3⟩]
      session :=
  not_run_of_length_eq List.length_replicate

end DatagramSession
end SendBuffer
end Pilot2Cloud
