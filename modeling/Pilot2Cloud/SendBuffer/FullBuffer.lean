import Pilot2Cloud.SendBuffer.PartialRelease

/-!
# When a datagram is refused

A datagram goes behind the others or into a larger array.  The space that
releases have left at the front is not used, so that a buffer which cannot grow
any more refuses datagrams for which it has room.
-/

namespace Pilot2Cloud
namespace SendBuffer

open Foundation Words Memory

namespace Transport

variable {transport : Transport} {buffer : RecordBuffer}
  {datagram : Datagram} {waiting : List Datagram}

/-- A datagram is refused only if it would take the buffer over its largest
capacity; otherwise the buffer comes to a capacity that holds it, and no size
wraps on the way. -/
def AddsUntilFull (transport : Transport) (buffer : RecordBuffer)
    (datagram : Datagram) : Prop :=
  wrap (buffer.length + wrap (transport.record datagram).length) =
      buffer.length + (transport.record datagram).length ∧
    ∃ next isAccepted,
      transport.add buffer datagram = .ok (next, isAccepted) ∧
      (isAccepted = false →
        maxCapacity < buffer.length + (transport.record datagram).length) ∧
      (isAccepted = true →
        buffer.length + (transport.record datagram).length ≤ next.capacity)

/-- The size with the record fits in 32 bits, and the record fits behind the
end mark or the buffer may still grow for it. -/
def HasRoomToGrow (transport : Transport) (buffer : RecordBuffer)
    (datagram : Datagram) : Prop :=
  buffer.length + (transport.record datagram).length < 2 ^ 32 ∧
    (buffer.endMark + (transport.record datagram).length ≤ buffer.capacity ∨
      (0 < buffer.capacity ∧
        (buffer.capacity < maxCapacity ∨
          maxCapacity <
            buffer.length + (transport.record datagram).length)))

/-- What becomes of a datagram whose size fits in 32 bits. -/
theorem Waits.add_cases (waits : transport.Waits buffer waiting)
    (positive : 0 < buffer.capacity)
    (fits : buffer.length + (transport.record datagram).length < 2 ^ 32) :
    (buffer.Refuses (transport.record datagram).length ∧
      transport.add buffer datagram = .ok (buffer, false)) ∨
    (¬buffer.Refuses (transport.record datagram).length ∧
      ∃ next, transport.add buffer datagram = .ok (next, true) ∧
        buffer.length + (transport.record datagram).length ≤
          next.capacity) := by
  rw [add_eq_addRecord]
  unfold record at fits ⊢
  obtain ⟨refuses, refused⟩ | ⟨accepts, -, next, added, holds, -⟩ |
      ⟨-, tooLarge, -⟩ :=
    RecordBuffer.Holds.addRecord waits positive (transport.header datagram)
      datagram.payload
  · rw [wrap_of_lt (by omega)] at refuses
    exact .inl ⟨refuses, refused⟩
  · rw [wrap_of_lt (by omega)] at accepts
    have inside := holds.endMark_le
    have linear := holds.linear
    have length := holds.length
    rw [List.length_append, ← RecordBuffer.Holds.length waits] at length
    exact .inr ⟨accepts, next, added, by omega⟩
  · exact absurd fits tooLarge

theorem Waits.addsUntilFull_iff_room
    (waits : transport.Waits buffer waiting) :
    transport.AddsUntilFull buffer datagram ↔
      transport.HasRoomToGrow buffer datagram := by
  have inside := waits.endMark_le
  have linear := waits.linear
  have nonempty : 0 < (transport.record datagram).length := by
    rw [record, RecordBuffer.length_recordBytes]
    omega
  constructor
  · rintro ⟨exact, next, isAccepted, added, refusedFull, -⟩
    have fits : buffer.length + (transport.record datagram).length <
        2 ^ 32 := by
      rw [← exact]
      exact wrap_lt _
    refine ⟨fits, ?_⟩
    obtain room | noRoom := Nat.lt_or_ge buffer.capacity
      (buffer.endMark + (transport.record datagram).length)
    swap
    · exact .inl noRoom
    obtain noCapacity | positive := Nat.eq_zero_or_pos buffer.capacity
    · obtain ⟨fault, failed⟩ := add_error waits noCapacity datagram
      rw [failed] at added
      contradiction
    refine .inr ⟨positive, ?_⟩
    obtain mayGrow | largest := Nat.lt_or_ge buffer.capacity maxCapacity
    · exact .inl mayGrow
    · obtain ⟨-, refused⟩ | ⟨accepts, -⟩ := waits.add_cases positive fits
      · rw [refused] at added
        obtain ⟨rfl, rfl⟩ := Prod.mk.inj (Except.ok.inj added)
        exact .inr (refusedFull rfl)
      · exact absurd ⟨room, .inl largest⟩ accepts
  · rintro ⟨fits, hasRoom⟩
    have positive : 0 < buffer.capacity := by omega
    have noWrap : wrap (transport.record datagram).length =
        (transport.record datagram).length := wrap_of_lt (by omega)
    refine ⟨by rw [noWrap, wrap_of_lt fits], ?_⟩
    obtain ⟨refuses, refused⟩ | ⟨-, next, added, enough⟩ :=
      waits.add_cases positive fits
    · refine ⟨buffer, false, refused, fun _ => ?_,
        fun no => absurd no (by decide)⟩
      unfold RecordBuffer.Refuses at refuses
      rw [wrap_of_lt fits] at refuses
      omega
    · exact ⟨next, true, added, fun no => absurd no (by decide),
        fun _ => enough⟩

/-- After any requests to a buffer of any capacity, a datagram is handled as it
should exactly when it fits behind the end mark or the buffer may grow. -/
theorem addsUntilFull_iff {capacity : UInt32}
    {requests : List BufferRequest}
    (run : Run transport.Step (.new capacity.toNat) requests buffer)
    (datagram : Datagram) :
    transport.AddsUntilFull buffer datagram ↔
      transport.HasRoomToGrow buffer datagram := by
  obtain ⟨waiting, waits⟩ := exists_waits_of_run run
  exact waits.addsUntilFull_iff_room

/-- A buffer with one datagram in it. -/
theorem addsUntilFull_iff_twelveBytes :
    ∃ buffer, Run (Step .udp) (.new 32) [.add twelveBytes] buffer ∧
      (AddsUntilFull .udp buffer twelveBytes ↔
        HasRoomToGrow .udp buffer twelveBytes) := by
  have start : Waits .udp (.new 32) [] := .new (by decide)
  obtain ⟨buffer, step, -⟩ :=
    @Waits.exists_add .udp _ twelveBytes _ start (by decide)
      (by unfold RecordBuffer.Refuses; decide) (by decide)
  have run := Run.cons step (.nil buffer)
  exact ⟨buffer, run, @addsUntilFull_iff .udp buffer 32 _ run twelveBytes⟩

/-- Two records of half the largest capacity fill the buffer, and one of them is
released. -/
theorem exists_halfFull {payload : List UInt8}
    (length : payload.length = 2 ^ 24 - 10) :
    ∃ buffer, Run (Step .udp) (.new (1024 * 1024))
        [.add ⟨payload, 2, 3⟩, .add ⟨payload, 2, 3⟩,
          .release (.ofNat (2 ^ 24 - 10))] buffer ∧
      Waits .udp buffer [⟨payload, 2, 3⟩] ∧
      buffer.endMark = maxCapacity ∧ buffer.capacity = maxCapacity := by
  have record : (udp.record ⟨payload, 2, 3⟩).length = 2 ^ 24 := by
    rw [Transport.record, RecordBuffer.length_recordBytes, length_header,
      headerSize, length]
    rfl
  have start : Waits .udp (.new (1024 * 1024)) [] := .new (by decide)
  have sizes : (RecordBuffer.new (1024 * 1024)).start = 0 ∧
      (RecordBuffer.new (1024 * 1024)).length = 0 ∧
      (RecordBuffer.new (1024 * 1024)).capacity = 2 ^ 20 := by decide
  obtain ⟨one, first, oneWaits, oneGrows⟩ :=
    @Waits.exists_add .udp _ ⟨payload, 2, 3⟩ _ start (by decide)
      (by
        unfold RecordBuffer.Refuses maxCapacity
        rw [record, wrap_of_lt (by omega)]
        omega)
      (by omega)
  have oneLength := oneWaits.length
  have oneLinear := oneWaits.linear
  have oneInside := oneWaits.endMark_le
  rw [List.nil_append, List.flatMap_singleton, record] at oneLength
  unfold RecordBuffer.MayGrowTo at oneGrows
  obtain ⟨two, second, twoWaits, twoGrows⟩ :=
    @Waits.exists_add .udp _ ⟨payload, 2, 3⟩ _ oneWaits (by omega)
      (by
        unfold RecordBuffer.Refuses
        rw [record, wrap_of_lt (by omega)]
        unfold maxCapacity at oneGrows ⊢
        omega)
      (by omega)
  have twoLength := twoWaits.length
  have twoLinear := twoWaits.linear
  have twoInside := twoWaits.endMark_le
  have twoHolds : two.Holds (RecordBuffer.recordBytes
      (udp.header ⟨payload, 2, 3⟩) payload ++ udp.record ⟨payload, 2, 3⟩) := by
    have both := twoWaits
    rw [Waits, List.nil_append, List.flatMap_append, List.flatMap_singleton]
      at both
    exact both
  rw [List.nil_append, List.flatMap_append, List.flatMap_singleton,
    List.length_append, record] at twoLength
  unfold RecordBuffer.MayGrowTo maxCapacity at twoGrows
  unfold maxCapacity at oneGrows
  have front : (RecordBuffer.recordBytes (udp.header ⟨payload, 2, 3⟩)
      payload).length = 2 ^ 24 := record
  have released := twoHolds.releaseRecord_eq (Nat.le_refl payload.length) (by
    rw [← RecordBuffer.length_recordBytes, front, wrap_of_lt (by omega)]
    omega)
  rw [if_neg (by omega)] at released
  obtain ⟨skipped, sameEnd⟩ := twoHolds.skip (by
    rw [← List.length_pos_iff, record]
    omega)
  refine ⟨two.skip (RecordBuffer.recordBytes (udp.header ⟨payload, 2, 3⟩)
      payload).length, .cons first (.cons second (.cons ?_ (.nil _))), ?_, ?_,
    ?_⟩
  · have size : (UInt32.ofNat (2 ^ 24 - 10)).toNat = payload.length := by
      rw [length]
      decide
    rw [Step, perform, size, releaseBytes_eq udp two ⟨payload, 2, 3⟩]
    exact released
  · rw [Waits, List.flatMap_singleton]
    exact skipped
  · rw [sameEnd]
    unfold maxCapacity
    omega
  · rw [RecordBuffer.capacity_skip]
    unfold maxCapacity
    omega

theorem exists_refused {payload : List UInt8}
    (length : payload.length = 2 ^ 24 - 10) :
    ∃ buffer, Run (Step .udp) (.new (1024 * 1024))
        [.add ⟨payload, 2, 3⟩, .add ⟨payload, 2, 3⟩,
          .release (.ofNat (2 ^ 24 - 10))] buffer ∧
      ¬AddsUntilFull .udp buffer ⟨[1], 2, 3⟩ := by
  obtain ⟨buffer, run, waits, atEnd, largest⟩ := exists_halfFull length
  refine ⟨buffer, run, ?_⟩
  rw [waits.addsUntilFull_iff_room]
  rintro ⟨-, room⟩
  have one : (udp.record ⟨[1], 2, 3⟩).length = 11 := rfl
  have held := waits.length
  rw [List.flatMap_singleton, Transport.record,
    RecordBuffer.length_recordBytes, length_header, headerSize, length]
    at held
  rw [one, atEnd, largest] at room
  unfold maxCapacity at room
  omega

/-- A buffer that is half full refuses a datagram of one byte, because the space
is at the front. -/
theorem not_addsUntilFull_freedFront :
    ∃ buffer, Run (Step .udp) (.new (1024 * 1024))
        [.add ⟨List.replicate (2 ^ 24 - 10) 0, 2, 3⟩,
          .add ⟨List.replicate (2 ^ 24 - 10) 0, 2, 3⟩,
          .release (.ofNat (2 ^ 24 - 10))] buffer ∧
      ¬AddsUntilFull .udp buffer ⟨[1], 2, 3⟩ :=
  exists_refused List.length_replicate

end Transport
end SendBuffer
end Pilot2Cloud
