import Pilot2Cloud.Foundation.Transitions
import Pilot2Cloud.SendBuffer.TcpBuffer

/-!
# The send buffer of a stream is a queue of bytes

What the socket takes out of the buffer are the bytes that were added, in their
order.  The socket stops sending when the buffer offers nothing.  It does so
while bytes are left when they were added to a buffer that had been drained
exactly at the end of its array.
-/

namespace Pilot2Cloud
namespace SendBuffer

open Foundation Memory

namespace TcpBuffer

variable {buffer : TcpBuffer} {bytes : List UInt8}

theorem Holds.getTcpLength_le (holds : buffer.Holds bytes) :
    buffer.getTcpLength ≤ bytes.length ∧
      buffer.read + buffer.getTcpLength ≤ buffer.capacity := by
  have length := holds.length
  have readInside := holds.readInside
  have writeInside := holds.writeInside
  have write := holds.write
  unfold getTcpLength
  split
  case isTrue linear =>
    rw [if_pos linear] at write
    omega
  case isFalse wrapped =>
    rw [if_neg wrapped] at write
    omega

/-- The buffer offers its first bytes. -/
theorem Holds.exposed (holds : buffer.Holds bytes) :
    buffer.exposed = .ok ((bytes.take buffer.getTcpLength).map some) := by
  obtain ⟨count, inside⟩ := holds.getTcpLength_le
  have size := holds.size
  unfold TcpBuffer.exposed Block.sliceAt
  rw [if_pos (by omega)]
  congr 1
  apply List.ext_getElem?
  intro index
  rw [List.getElem?_take, List.getElem?_map, List.getElem?_take]
  split
  case isTrue offered =>
    have place : buffer.position index = buffer.read + index := if_pos (by omega)
    rw [List.getElem?_drop, ← place, holds.cells index (by omega)]
  case isFalse =>
    rfl

/-- What the socket has taken is released. -/
theorem Holds.release (holds : buffer.Holds bytes) {count : Nat}
    (offered : count ≤ buffer.getTcpLength) :
    (buffer.releaseTcpBuffer count).Holds (bytes.drop count) := by
  have lengths := holds.getTcpLength_le
  have length := holds.length
  have readInside := holds.readInside
  have writeInside := holds.writeInside
  have write := holds.write
  have notFull := holds.notFull
  -- the bytes that are left stay where they are
  have later : ∀ read : Nat,
      (∀ index, index < bytes.length - count →
        TcpBuffer.position { buffer with read := read } index =
          buffer.position (count + index)) →
      ∀ index < (bytes.drop count).length,
        buffer.buf[TcpBuffer.position { buffer with read := read } index]? =
          ((bytes.drop count)[index]?).map some := by
    intro read same index bound
    rw [List.length_drop] at bound
    rw [same index bound, holds.cells _ (by omega), List.getElem?_drop]
  have enough : ¬buffer.length < count := by omega
  unfold getTcpLength at offered
  unfold releaseTcpBuffer
  rw [if_neg enough]
  by_cases linear : buffer.read ≤ buffer.write
  · rw [if_pos linear] at offered write ⊢
    refine ⟨holds.size, ?_, ?_, writeInside, ?_, ?_, later _ ?_⟩
    · rw [List.length_drop]
      exact congrArg (· - count) length
    · change buffer.read + count ≤ buffer.capacity
      omega
    · exact (if_pos (by simp only; omega)).mpr (by simp only; omega)
    · change buffer.length - count < buffer.capacity ∨ buffer.capacity = 0
      omega
    · intro index bound
      unfold position
      rw [Nat.add_assoc]
  · rw [if_neg linear] at offered write ⊢
    by_cases inside : count < buffer.capacity - buffer.read
    · simp only [if_pos inside]
      refine ⟨holds.size, ?_, ?_, writeInside, ?_, ?_, later _ ?_⟩
      · rw [List.length_drop]
        exact congrArg (· - count) length
      · change buffer.read + count ≤ buffer.capacity
        omega
      · exact (if_neg (by simp only; omega)).mpr (by simp only; omega)
      · change buffer.length - count < buffer.capacity ∨ buffer.capacity = 0
        omega
      · intro index bound
        unfold position
        rw [Nat.add_assoc]
    · -- the bytes that are left begin at the start of the array
      simp only [if_neg inside]
      refine ⟨holds.size, ?_, ?_, writeInside, ?_, ?_, later _ ?_⟩
      · rw [List.length_drop]
        exact congrArg (· - count) length
      · change count - (buffer.capacity - buffer.read) ≤ buffer.capacity
        omega
      · exact (if_pos (by simp only; omega)).mpr (by simp only; omega)
      · change buffer.length - count < buffer.capacity ∨ buffer.capacity = 0
        omega
      · intro index bound
        unfold position
        simp only
        split <;> split <;> omega

theorem length_releaseTcpBuffer {size : Nat}
    (enough : size ≤ buffer.length) :
    (buffer.releaseTcpBuffer size).length = buffer.length - size := by
  unfold releaseTcpBuffer
  rw [if_neg (Nat.not_lt.mpr enough)]
  split
  · rfl
  · simp only
    split <;> rfl

end TcpBuffer

/-- A caller adds bytes, or the socket has taken some. -/
inductive TcpRequest
  | add (bytes : List UInt8)
  | release (count : Nat)

/-- A buffer with all bytes that it has accepted and all cells that were taken
out of it. -/
structure TcpSession where
  buffer : TcpBuffer
  accepted : List UInt8
  released : Block

namespace TcpSession

/-- Nothing has been added. -/
def initial (capacity : Nat) : TcpSession :=
  ⟨.new capacity, [], []⟩

/-- What a request does to the buffer, with the bytes it accepts or releases. -/
def perform (session : TcpSession) : TcpRequest → Except Fault TcpSession
  | .add bytes => do
      let (buffer, isAccepted) ← session.buffer.addTcpBuffer bytes
      return { session with
        buffer := buffer
        accepted :=
          if isAccepted then session.accepted ++ bytes else session.accepted }
  | .release count => do
      let offered ← session.buffer.exposed
      return { session with
        buffer := session.buffer.releaseTcpBuffer count
        released := session.released ++ offered.take count }

/-- The socket takes no more than the buffer offers. -/
def Allowed (session : TcpSession) : TcpRequest → Prop
  | .add _ => True
  | .release count => count ≤ session.buffer.getTcpLength

/-- An allowed request leads to a state. -/
def Step (session : TcpSession) (request : TcpRequest) (after : TcpSession) :
    Prop :=
  session.Allowed request ∧ session.perform request = .ok after

/-- The bytes that were accepted have been taken out, in their order, or are
left. -/
structure Queue (session : TcpSession) (left : List UInt8) : Prop where
  order : session.accepted.map some = session.released ++ left.map some
  length : session.buffer.length = left.length
  /-- The first bytes that are left are offered. -/
  exposed : session.buffer.exposed =
    .ok ((left.take session.buffer.getTcpLength).map some)
  readInside : session.buffer.read ≤ session.buffer.capacity
  writeInside : session.buffer.write ≤ session.buffer.capacity
  /-- Adding bytes leaves the memory outside of the array alone; bytes that are
  refused change nothing. -/
  add : ∀ bytes,
    session.buffer.addTcpBuffer bytes = .ok (session.buffer, false) ∨
      ∃ buffer, session.buffer.addTcpBuffer bytes = .ok (buffer, true)

variable {session after : TcpSession} {left : List UInt8} {capacity : Nat}

/-- The buffer holds the bytes that are left. -/
structure Holds (session : TcpSession) (capacity : Nat) (left : List UInt8) :
    Prop where
  bytes : session.buffer.Holds left
  capacity : session.buffer.capacity = capacity
  order : session.accepted.map some = session.released ++ left.map some

theorem Holds.initial (capacity : Nat) : (initial capacity).Holds capacity [] :=
  ⟨.new capacity, rfl, rfl⟩

theorem Holds.queue (holds : session.Holds capacity left) :
    session.Queue left where
  order := holds.order
  length := holds.bytes.length
  exposed := holds.bytes.exposed
  readInside := holds.bytes.readInside
  writeInside := holds.bytes.writeInside
  add := by
    intro bytes
    obtain ⟨-, refused⟩ | ⟨-, buf, write, accepted, -⟩ := holds.bytes.add bytes
    · exact .inl refused
    · exact .inr ⟨_, accepted⟩

theorem Holds.step {request : TcpRequest} (holds : session.Holds capacity left)
    (step : session.Step request after) :
    ∃ rest, after.Holds capacity rest := by
  obtain ⟨allowed, performed⟩ := step
  cases request with
  | add bytes =>
      rw [perform] at performed
      obtain ⟨-, refused⟩ | ⟨-, buf, write, accepted, next⟩ :=
        holds.bytes.add bytes
      · rw [refused] at performed
        obtain rfl := Except.ok.inj performed
        exact ⟨left, holds.bytes, holds.capacity, holds.order⟩
      · rw [accepted] at performed
        obtain rfl := Except.ok.inj performed
        refine ⟨left ++ bytes, next, holds.capacity, ?_⟩
        change (session.accepted ++ bytes).map some = _
        rw [List.map_append, holds.order, List.map_append, List.append_assoc]
  | release count =>
      rw [perform, holds.bytes.exposed] at performed
      obtain rfl := Except.ok.inj performed
      have bound : count ≤ session.buffer.getTcpLength := allowed
      have sameCapacity : (session.buffer.releaseTcpBuffer count).capacity =
          session.buffer.capacity := by
        unfold TcpBuffer.releaseTcpBuffer
        split
        · rfl
        split
        · rfl
        · simp only
          split <;> rfl
      refine ⟨left.drop count, holds.bytes.release bound,
        sameCapacity.trans holds.capacity, ?_⟩
      simp only
      rw [holds.order, List.append_assoc, ← List.map_take, List.take_take,
        Nat.min_eq_left bound, ← List.map_append, List.take_append_drop]

theorem exists_holds_of_run {requests : List TcpRequest}
    (run : Run Step (initial capacity) requests session) :
    ∃ left, session.Holds capacity left := by
  have kept : ∀ state request next,
      (∃ left, Holds state capacity left) → Step state request next →
        ∃ left, Holds next capacity left := by
    rintro state request next ⟨left, holds⟩ step
    exact holds.step step
  obtain ⟨left, holds⟩ := run.preserves kept ⟨[], .initial capacity⟩
  exact ⟨left, holds⟩

/-- The buffer is a queue of bytes, whatever its capacity. -/
theorem exists_queue_of_run {requests : List TcpRequest}
    (run : Run Step (initial capacity) requests session) :
    ∃ left, session.Queue left := by
  obtain ⟨left, holds⟩ := exists_holds_of_run run
  exact ⟨left, holds.queue⟩

/-- The buffer is a queue of bytes when some are refused and others lie beyond
the end of the array. -/
theorem exists_queue_of_run_wrapped :
    ∃ session, Run Step (initial 4)
        [.add [1, 2, 3], .add [4, 5], .release 2, .add [4, 5], .release 2]
        session ∧
      ∃ left, session.Queue left := by
  have possible : ∃ session, Run Step (initial 4)
      [.add [1, 2, 3], .add [4, 5], .release 2, .add [4, 5], .release 2]
      session :=
    ⟨_, .cons ⟨trivial, rfl⟩ (.cons ⟨trivial, rfl⟩
      (.cons ⟨by unfold Allowed; decide, rfl⟩ (.cons ⟨trivial, rfl⟩
        (.cons ⟨by unfold Allowed; decide, rfl⟩ (.nil _)))))⟩
  obtain ⟨session, run⟩ := possible
  exact ⟨session, run, exists_queue_of_run run⟩

/-! ## Stalls -/

/-- The buffer offers some bytes when it holds any. -/
def Flows (session : TcpSession) : Prop :=
  0 < session.buffer.length → 0 < session.buffer.getTcpLength

/-- Some bytes are accepted although the read position is at the end of the
array. -/
def Stalls (session : TcpSession) : TcpRequest → Prop
  | .add bytes =>
      bytes ≠ [] ∧ bytes.length < session.buffer.capacity ∧
        session.buffer.read = session.buffer.capacity
  | .release _ => False

/-- A buffer that holds some bytes offers none of them exactly when its read
position is at the end of the array. -/
theorem Holds.flows_iff (holds : session.Holds capacity left) :
    session.Flows ↔
      (session.buffer.length ≠ 0 →
        session.buffer.read ≠ session.buffer.capacity) := by
  have readInside := holds.bytes.readInside
  have writeInside := holds.bytes.writeInside
  have write := holds.bytes.write
  unfold Flows TcpBuffer.getTcpLength
  by_cases linear : session.buffer.read ≤ session.buffer.write
  · rw [if_pos linear] at write ⊢
    omega
  · rw [if_neg linear] at write ⊢
    omega

/-- Bytes stop flowing exactly when a request stalls. -/
theorem Holds.not_stalls_iff {request : TcpRequest}
    (holds : session.Holds capacity left) (flows : session.Flows)
    (step : session.Step request after) :
    ¬session.Stalls request ↔ after.Flows := by
  have isAfter := step.2
  obtain ⟨rest, next⟩ := holds.step step
  rw [next.flows_iff]
  have readInside := holds.bytes.readInside
  have writeInside := holds.bytes.writeInside
  have write := holds.bytes.write
  rw [holds.flows_iff] at flows
  cases request with
  | add bytes =>
      have positive : bytes ≠ [] ↔ bytes.length ≠ 0 :=
        List.length_eq_zero_iff.symm.not
      rw [Stalls, positive]
      rw [perform] at isAfter
      obtain ⟨full, refused⟩ | ⟨room, buf, position, accepted, -⟩ :=
        holds.bytes.add bytes
      · rw [refused] at isAfter
        obtain rfl := Except.ok.inj isAfter
        rw [TcpBuffer.maxSize] at full
        simp only
        by_cases linear : session.buffer.read ≤ session.buffer.write
        · rw [if_pos linear] at full write
          omega
        · rw [if_neg linear] at full write
          omega
      · rw [accepted] at isAfter
        obtain rfl := Except.ok.inj isAfter
        have length : (session.buffer.advance buf position
            bytes.length).length = session.buffer.length + bytes.length := rfl
        have read : (session.buffer.advance buf position
            bytes.length).read = session.buffer.read := rfl
        have sameCapacity : (session.buffer.advance buf position
            bytes.length).capacity = session.buffer.capacity := rfl
        rw [TcpBuffer.maxSize] at room
        simp only [length, read, sameCapacity]
        by_cases linear : session.buffer.read ≤ session.buffer.write
        · rw [if_pos linear] at room write
          omega
        · rw [if_neg linear] at room write
          omega
  | release count =>
      rw [perform, holds.bytes.exposed] at isAfter
      obtain rfl := Except.ok.inj isAfter
      have offered : count ≤ session.buffer.getTcpLength := step.1
      have enough : ¬session.buffer.length < count := by
        have lengths := holds.bytes.getTcpLength_le
        have length := holds.bytes.length
        omega
      refine iff_of_true id ?_
      unfold TcpBuffer.getTcpLength at offered
      unfold TcpBuffer.releaseTcpBuffer
      rw [if_neg enough]
      by_cases linear : session.buffer.read ≤ session.buffer.write
      · rw [if_pos linear] at offered write ⊢
        simp only
        omega
      · rw [if_neg linear] at offered write ⊢
        by_cases inside :
            count < session.buffer.capacity - session.buffer.read
        · simp only [if_pos inside]
          omega
        · simp only [if_neg inside]
          omega

/-- All bytes flow in every state of a run exactly when no request of it adds
bytes while the read position is at the end of the array. -/
theorem flows_iff_not_stalls {requests : List TcpRequest}
    (run : Run Step (initial capacity) requests session) :
    Along Step (fun session request => ¬session.Stalls request)
        (initial capacity) requests ↔
      ∀ session, Reached Step (initial capacity) requests session →
        session.Flows := by
  apply Along.iff_reached (fun session => ∃ left, session.Holds capacity left)
    _ _ _ ⟨[], .initial capacity⟩ _ run
  · intro session request next other first second
    exact Except.ok.inj (first.2.symm.trans second.2)
  · rintro session request next ⟨left, holds⟩ step
    exact holds.step step
  · rintro session request next ⟨left, holds⟩ flows step
    exact holds.not_stalls_iff flows step
  · intro positive
    contradiction

/-- Bytes flow when two bytes go through the buffer. -/
theorem flows_iff_not_stalls_two :
    ∃ session, Run Step (initial 3) [.add [1], .release 1, .add [2]] session ∧
      (Along Step (fun session request => ¬session.Stalls request)
          (initial 3) [.add [1], .release 1, .add [2]] ↔
        ∀ session, Reached Step (initial 3)
            [.add [1], .release 1, .add [2]] session →
          session.Flows) := by
  have possible : ∃ session, Run Step (initial 3)
      [.add [1], .release 1, .add [2]] session :=
    ⟨_, .cons ⟨trivial, rfl⟩ (.cons ⟨Nat.le_of_ble_eq_true rfl, rfl⟩
      (.cons ⟨trivial, rfl⟩ (.nil _)))⟩
  obtain ⟨session, run⟩ := possible
  exact ⟨session, run, flows_iff_not_stalls run⟩

/-- A byte that is added after the buffer was drained at the end of its array is
not offered. -/
theorem not_flows_of_drained_at_end :
    ∃ session, Run Step (initial 2)
        [.add [1], .release 1, .add [2], .release 1, .add [3]] session ∧
      ¬session.Flows := by
  refine ⟨_, .cons ⟨trivial, rfl⟩ (.cons ⟨Nat.le_of_ble_eq_true rfl, rfl⟩
    (.cons ⟨trivial, rfl⟩ (.cons ⟨Nat.le_of_ble_eq_true rfl, rfl⟩
      (.cons ⟨trivial, rfl⟩ (.nil _))))), ?_⟩
  intro flows
  have offered := flows (Nat.le_of_ble_eq_true rfl)
  contradiction

end TcpSession
end SendBuffer
end Pilot2Cloud
