import Mathlib.Tactic.Ring
import Pilot2Cloud.SendBuffer.RecordBuffer

/-!
# The bytes of the records in a send buffer

The records are one behind the other between the start and the end mark; the
end mark never moves in front of the start.  A record that is added follows
them, and the buffer without its first record has the others.
-/

namespace Pilot2Cloud
namespace SendBuffer
namespace RecordBuffer

open Foundation Words Memory

variable {buffer : RecordBuffer} {bytes rest : List UInt8}
  {header : List (List UInt8)} {payload : List UInt8} {newSize : Nat}

/-- The buffer holds some bytes, however large it is. -/
structure Holds (buffer : RecordBuffer) (bytes : List UInt8) : Prop where
  small : buffer.capacity < 2 ^ 32
  size : buffer.buf.length = buffer.capacity
  length : buffer.length = bytes.length
  linear : buffer.endMark = buffer.start + buffer.length
  has : buffer.buf.Has buffer.start bytes

/-- The buffer stores some bytes. -/
structure Stores (buffer : RecordBuffer) (bytes : List UInt8) : Prop where
  positive : 0 < buffer.capacity
  bounded : buffer.capacity ≤ maxCapacity
  size : buffer.buf.length = buffer.capacity
  length : buffer.length = bytes.length
  linear : buffer.endMark = buffer.start + buffer.length
  has : buffer.buf.Has buffer.start bytes

/-- A buffer stores what it holds when its capacity is one that it can grow
to. -/
theorem stores_iff :
    buffer.Stores bytes ↔
      buffer.Holds bytes ∧ 0 < buffer.capacity ∧
        buffer.capacity ≤ maxCapacity := by
  constructor
  · intro stores
    have bounded := stores.bounded
    unfold maxCapacity at bounded
    exact ⟨⟨by omega, stores.size, stores.length, stores.linear, stores.has⟩,
      stores.positive, stores.bounded⟩
  · rintro ⟨holds, positive, bounded⟩
    exact ⟨positive, bounded, holds.size, holds.length, holds.linear,
      holds.has⟩

theorem Stores.holds (stores : buffer.Stores bytes) : buffer.Holds bytes :=
  (stores_iff.mp stores).1

theorem Holds.new {capacity : Nat} (small : capacity < 2 ^ 32) :
    (new capacity).Holds [] where
  small := small
  size := Block.length_alloc capacity
  length := rfl
  linear := rfl
  has := Block.has_nil (Nat.zero_le _)

theorem Stores.new {capacity : Nat} (positive : 0 < capacity)
    (bounded : capacity ≤ maxCapacity) : (new capacity).Stores [] := by
  apply stores_iff.mpr
  refine ⟨.new ?_, positive, bounded⟩
  unfold maxCapacity at bounded
  omega

theorem Holds.endMark_le (holds : buffer.Holds bytes) :
    buffer.endMark ≤ buffer.capacity := by
  have inside := holds.has.inside
  rw [holds.size, ← holds.length, ← holds.linear] at inside
  exact inside

theorem Stores.endMark_le (stores : buffer.Stores bytes) :
    buffer.endMark ≤ buffer.capacity :=
  stores.holds.endMark_le

/-- Positions in the buffer do not wrap. -/
theorem Stores.endMark_lt (stores : buffer.Stores bytes) :
    buffer.endMark < 2 ^ 32 :=
  stores.endMark_le.trans_lt stores.holds.small

theorem Holds.needsExpansion_iff (holds : buffer.Holds bytes) :
    buffer.NeedsExpansion newSize ↔
      buffer.capacity < buffer.endMark + newSize := by
  have inside := holds.endMark_le
  have small := holds.small
  have linear := holds.linear
  unfold NeedsExpansion
  rw [wrap_of_lt (by omega), ← linear, if_neg (Nat.lt_irrefl _),
    wrapSub_of_le small inside]
  omega

/-! ## Growth -/

/-- The loop finds a larger capacity with room, unless there is none. -/
theorem expandedCapacity_cases {needed fuel copy : Nat}
    (enough : maxCapacity ≤ copy * 2 ^ fuel) :
    ((maxCapacity ≤ copy ∨ maxCapacity < needed) ∧
      expandedCapacity needed (fuel + 1) copy = .ok none) ∨
    (¬(maxCapacity ≤ copy ∨ maxCapacity < needed) ∧
      ∃ capacity, expandedCapacity needed (fuel + 1) copy =
          .ok (some capacity) ∧
        copy < capacity ∧ capacity ≤ maxCapacity ∧ needed ≤ capacity) := by
  induction fuel generalizing copy with
  | zero =>
      rw [Nat.pow_zero, Nat.mul_one] at enough
      exact .inl ⟨.inl enough, if_pos enough⟩
  | succ fuel inductionHypothesis =>
      by_cases largest : maxCapacity ≤ copy
      · exact .inl ⟨.inl largest, if_pos largest⟩
      have positive : 0 < copy := by
        apply Nat.pos_of_ne_zero
        rintro rfl
        rw [Nat.zero_mul] at enough
        contradiction
      have noWrap : wrap (copy * 2) = copy * 2 := by
        apply wrap_of_lt
        unfold maxCapacity at largest
        omega
      rw [expandedCapacity, if_neg largest, noWrap]
      simp only
      generalize isGrown :
        (if maxCapacity < copy * 2 then maxCapacity else copy * 2) = grown
      have larger : copy < grown := by
        rw [← isGrown]
        split <;> omega
      have inside : grown ≤ maxCapacity := by
        rw [← isGrown]
        split <;> omega
      by_cases room : needed ≤ grown
      · rw [if_pos room]
        exact .inr ⟨by omega, grown, rfl, larger, inside, room⟩
      · rw [if_neg room]
        have enoughLater : maxCapacity ≤ grown * 2 ^ fuel := by
          rw [← isGrown]
          split
          · exact Nat.le_mul_of_pos_right _ (Nat.two_pow_pos fuel)
          · calc
              maxCapacity ≤ copy * 2 ^ (fuel + 1) := enough
              _ = copy * 2 * 2 ^ fuel := by ring
        obtain ⟨refused, ended⟩ | ⟨accepted, capacity, ended, bounds⟩ :=
          inductionHypothesis enoughLater
        · exact .inl ⟨.inr (by omega), ended⟩
        · exact .inr ⟨by omega, capacity, ended, by omega, bounds.2⟩

/-- From no capacity at all the loop does not come to any other. -/
theorem expandedCapacity_zero {needed : Nat} (positive : 0 < needed)
    (fuel : Nat) : expandedCapacity needed fuel 0 = .error .loopBound := by
  induction fuel with
  | zero => rfl
  | succ fuel inductionHypothesis =>
      have noGrowth : wrap (0 * 2) = 0 := by decide
      rw [expandedCapacity, if_neg (by decide), noGrowth]
      simp only
      rw [if_neg (Nat.not_lt_zero maxCapacity), if_neg (by omega),
        inductionHypothesis]

theorem Holds.expand (holds : buffer.Holds bytes) {capacity : Nat}
    (larger : buffer.capacity < capacity)
    (bounded : capacity ≤ maxCapacity) :
    ∃ next, buffer.expand capacity = .ok next ∧ next.Holds bytes ∧
      next.capacity = capacity ∧ next.start = 0 := by
  have small := holds.small
  have inside := holds.endMark_le
  have linear := holds.linear
  have size := holds.size
  have length := holds.length
  obtain ⟨buf, copied, newSize, cells⟩ := @Block.exists_copyCells
    (Block.alloc capacity) buffer.buf buffer.start 0 buffer.length
    (by omega) (by rw [Block.length_alloc]; omega)
  rw [Block.length_alloc] at newSize
  refine ⟨⟨0, buffer.length, capacity, buffer.length, buf⟩, ?_, ?_, rfl, rfl⟩
  · rw [RecordBuffer.expand, wrap_of_lt (by omega),
      if_pos (by rw [linear]), copied]
    rfl
  · refine ⟨?_, newSize, length, (Nat.zero_add _).symm, ?_⟩
    · unfold maxCapacity at bounded
      simp only
      omega
    · apply holds.has.congr
      · simp only
        omega
      · intro index bound
        simp only
        rw [cells, if_pos (by omega), Nat.zero_add, Nat.sub_zero]

/-- A record is refused when the buffer has to grow for it and cannot. -/
def Refuses (buffer : RecordBuffer) (newSize : Nat) : Prop :=
  buffer.capacity < buffer.endMark + newSize ∧
    (maxCapacity ≤ buffer.capacity ∨
      maxCapacity < wrap (buffer.length + newSize))

/-- A buffer that has a capacity has room for a record in the end, unless the
record is refused. -/
theorem Holds.resizeBuffer (holds : buffer.Holds bytes)
    (positive : 0 < buffer.capacity) (newSize : Nat) :
    (buffer.Refuses newSize ∧ buffer.resizeBuffer newSize = .ok none) ∨
    (¬buffer.Refuses newSize ∧
      ∃ next, buffer.resizeBuffer newSize = .ok (some next) ∧
        next.Holds bytes ∧
        (next = buffer ∨ next.start = 0 ∧
          buffer.capacity < next.capacity ∧ next.capacity ≤ maxCapacity) ∧
        (next = buffer ∨ buffer.length + newSize < 2 ^ 32 →
          next.endMark + newSize ≤ next.capacity)) := by
  unfold RecordBuffer.resizeBuffer Refuses
  by_cases expands : buffer.NeedsExpansion newSize
  · have noRoom := holds.needsExpansion_iff.mp expands
    have enough : maxCapacity ≤ buffer.capacity * 2 ^ 25 :=
      Nat.le_mul_of_pos_left _ positive
    rw [if_pos expands]
    obtain ⟨refused, ended⟩ | ⟨accepted, capacity, ended, larger, bounded,
        room⟩ := @expandedCapacity_cases (wrap (buffer.length + newSize)) 25
      buffer.capacity enough
    · refine .inl ⟨⟨noRoom, refused⟩, ?_⟩
      rw [expansionRounds, ended]
      rfl
    · obtain ⟨next, expanded, nextHolds, sameCapacity, atStart⟩ :=
        holds.expand larger bounded
      have sameLength := nextHolds.length.trans holds.length.symm
      have nextLinear := nextHolds.linear
      refine .inr ⟨fun refuses => accepted refuses.2, next, ?_, nextHolds,
        .inr (by omega), ?_⟩
      · rw [expansionRounds, ended]
        simp only [ok_bind, expanded]
        rfl
      · rintro (rfl | noWrap)
        · omega
        · rw [wrap_of_lt noWrap] at room
          omega
  · rw [if_neg expands]
    have room := holds.needsExpansion_iff.not.mp expands
    exact .inr ⟨fun refuses => room refuses.1, buffer, rfl, holds, .inl rfl,
      fun _ => Nat.not_lt.mp room⟩

/-! ## Adding a record -/

@[simp] theorem length_recordBytes :
    (recordBytes header payload).length =
      payload.length + 4 + header.flatten.length := by
  simp only [recordBytes, parts, List.flatten_cons, List.flatten_append,
    List.flatten_nil, List.append_nil, List.length_append, length_wordBytes]
  omega

/-- A record for which there is room goes behind the others. -/
theorem Holds.placeRecord (holds : buffer.Holds bytes)
    (isSize : (recordBytes header payload).length = newSize)
    (room : buffer.endMark + newSize ≤ buffer.capacity) :
    ∃ next, buffer.placeRecord header payload newSize = .ok next ∧
      next.Holds (bytes ++ recordBytes header payload) ∧
      next.start = buffer.start ∧ next.capacity = buffer.capacity := by
  have small := holds.small
  have linear := holds.linear
  have size := holds.size
  have length := holds.length
  obtain ⟨buf, written⟩ : ∃ buf, buffer.buf.write buffer.endMark
      (recordBytes header payload) = .ok buf :=
    ⟨_, Block.write_of_inside (by omega)⟩
  refine ⟨⟨buffer.start, buffer.endMark + newSize, buffer.capacity,
    buffer.length + newSize, buf⟩, ?_, ?_, rfl, rfl⟩
  · rw [RecordBuffer.placeRecord, wrap_of_lt (by omega), if_pos]
    · rw [parts, Block.writeAll_eq_write, ← parts, ← recordBytes, written,
        isSize, wrap_of_lt (by omega), wrap_of_lt (by omega)]
      rfl
    · rw [wrapSub_of_le (by omega) (by omega)]
      omega
  · refine ⟨small, (Block.length_of_write_ok written).trans size, ?_, ?_, ?_⟩
    · rw [List.length_append, ← length, isSize]
    · simp only
      omega
    · apply Block.has_append.mpr ⟨?_, ?_⟩
      · exact holds.has.write written (.inl (by omega))
      · simp only [← length, ← linear]
        exact Block.has_of_write_ok written

/-- A record that is larger than the array is written past its end. -/
theorem Holds.placeRecord_error (holds : buffer.Holds bytes)
    (large : buffer.capacity < (recordBytes header payload).length) :
    buffer.placeRecord header payload newSize = .error .writePastEnd := by
  have past : ∀ offset, buffer.buf.writeAll offset (parts header payload) =
      .error .writePastEnd := by
    intro offset
    rw [parts, Block.writeAll_eq_write, ← parts, ← recordBytes]
    apply Block.write_of_outside
    rw [holds.size]
    omega
  unfold RecordBuffer.placeRecord
  split
  · rw [past]
    rfl
  · simp only [past]
    rfl

/-- The size of the buffer with a record fits in 32 bits. -/
def Fits (buffer : RecordBuffer) (header : List (List UInt8))
    (payload : List UInt8) : Prop :=
  buffer.length + (recordBytes header payload).length < 2 ^ 32

/-- The buffer stays where it is, or it has grown to a capacity that is
allowed. -/
def MayGrowTo (buffer next : RecordBuffer) : Prop :=
  (next.start = buffer.start ∧ next.capacity = buffer.capacity) ∨
    (next.start = 0 ∧ buffer.capacity < next.capacity ∧
      next.capacity ≤ maxCapacity)

/-- A record is refused, follows the others, or is so large that it is written
past the end of the array. -/
theorem Holds.addRecord (holds : buffer.Holds bytes)
    (positive : 0 < buffer.capacity) (header : List (List UInt8))
    (payload : List UInt8) :
    (buffer.Refuses (wrap (recordBytes header payload).length) ∧
      buffer.addRecord header payload = .ok (buffer, false)) ∨
    (¬buffer.Refuses (wrap (recordBytes header payload).length) ∧
      buffer.Fits header payload ∧
      ∃ next, buffer.addRecord header payload = .ok (next, true) ∧
        next.Holds (bytes ++ recordBytes header payload) ∧
        buffer.MayGrowTo next) ∨
    (¬buffer.Refuses (wrap (recordBytes header payload).length) ∧
      ¬buffer.Fits header payload ∧
      buffer.addRecord header payload = .error .writePastEnd) := by
  unfold RecordBuffer.addRecord
  rw [← length_recordBytes]
  obtain ⟨refuses, resized⟩ | ⟨accepts, resizedBuffer, resized, nextHolds,
      grows, room⟩ := holds.resizeBuffer positive
        (wrap (recordBytes header payload).length)
  · refine .inl ⟨refuses, ?_⟩
    simp only [resized, ok_bind]
    rfl
  refine .inr ?_
  simp only [resized, ok_bind]
  by_cases fits : buffer.Fits header payload
  · have noWrap : wrap (recordBytes header payload).length =
        (recordBytes header payload).length := by
      apply wrap_of_lt
      unfold Fits at fits
      omega
    rw [noWrap] at room
    rw [noWrap] at accepts ⊢
    obtain ⟨next, placed, stored, sameStart, sameCapacity⟩ :=
      nextHolds.placeRecord rfl (room (.inr fits))
    refine .inl ⟨accepts, fits, next, ?_, stored, ?_⟩
    · rw [placed]
      rfl
    · rw [MayGrowTo, sameStart, sameCapacity]
      apply grows.imp_left
      rintro rfl
      exact ⟨rfl, rfl⟩
  · refine .inr ⟨accepts, fits, ?_⟩
    have small := holds.small
    have inside := holds.endMark_le
    have linear := holds.linear
    unfold Fits at fits
    rw [nextHolds.placeRecord_error ?_]
    · rfl
    · obtain rfl | larger := grows
      · by_contra notLarge
        have enough := room (.inl rfl)
        rw [wrap_of_lt (by omega)] at enough
        omega
      · unfold maxCapacity at larger
        omega

/-- A buffer of a capacity that it can grow to stays one. -/
theorem Stores.addRecord (stores : buffer.Stores bytes)
    (header : List (List UInt8)) (payload : List UInt8) :
    (buffer.Refuses (wrap (recordBytes header payload).length) ∧
      buffer.addRecord header payload = .ok (buffer, false)) ∨
    (¬buffer.Refuses (wrap (recordBytes header payload).length) ∧
      buffer.Fits header payload ∧
      ∃ next, buffer.addRecord header payload = .ok (next, true) ∧
        next.Stores (bytes ++ recordBytes header payload)) ∨
    (¬buffer.Refuses (wrap (recordBytes header payload).length) ∧
      ¬buffer.Fits header payload ∧
      buffer.addRecord header payload = .error .writePastEnd) := by
  obtain refused | ⟨accepts, fits, next, added, holds, grows⟩ | failed :=
    stores.holds.addRecord stores.positive header payload
  · exact .inl refused
  · refine .inr (.inl ⟨accepts, fits, next, added, stores_iff.mpr ⟨holds, ?_⟩⟩)
    have positive := stores.positive
    have bounded := stores.bounded
    unfold MayGrowTo at grows
    omega
  · exact .inr (.inr failed)

/-! ## Reading and releasing the first record -/

/-- The buffer is empty when no records are stored. -/
theorem Stores.isEmpty_eq {α : Type} {record : α → List UInt8}
    {waiting : List α} (stores : buffer.Stores (waiting.flatMap record))
    (nonempty : ∀ item, 0 < (record item).length) :
    buffer.isEmpty = waiting.isEmpty := by
  have length := stores.length
  unfold isEmpty
  cases waiting with
  | nil =>
      rw [length]
      rfl
  | cons first rest =>
      have positive := nonempty first
      rw [List.flatMap_cons, List.length_append] at length
      rw [length]
      apply beq_eq_false_iff_ne.mpr
      omega

/-- A number in the first record is read. -/
theorem field_of_has {offset count value : Nat} (absent : Nat)
    (nonempty : 0 < buffer.length)
    (has : buffer.buf.Has (buffer.start + offset)
      (littleEndianBytes count value))
    (small : value < 256 ^ count) :
    buffer.field offset count absent = .ok value := by
  rw [field, if_pos nonempty, has.readAt (length_littleEndianBytes _ _),
    ok_bind, littleEndian_littleEndianBytes count value small]
  rfl

theorem Holds.reset (holds : buffer.Holds bytes) : buffer.reset.Holds [] where
  small := holds.small
  size := holds.size
  length := rfl
  linear := rfl
  has := Block.has_nil (Nat.zero_le _)

/-- The bytes behind some at the front stay where they are. -/
theorem Holds.skip {front : List UInt8}
    (holds : buffer.Holds (front ++ rest)) (isSome : rest ≠ []) :
    (buffer.skip front.length).Holds rest ∧
      (buffer.skip front.length).endMark = buffer.endMark := by
  have small := holds.small
  have inside := holds.endMark_le
  have linear := holds.linear
  have length := holds.length
  have later := List.length_pos_iff.mpr isSome
  rw [List.length_append] at length
  unfold RecordBuffer.skip
  simp only
  rw [wrap_of_lt (by omega), if_neg (by omega), if_neg (by omega)]
  refine ⟨⟨small, holds.size, ?_, ?_, (Block.has_append.mp holds.has).2⟩, rfl⟩
  · simp only
    omega
  · simp only
    omega

/-- The end of `releaseRecord`. -/
theorem Holds.dropFront {front : List UInt8}
    (holds : buffer.Holds (front ++ rest)) :
    (if buffer.length ≤ front.length then buffer.reset
      else buffer.skip front.length).Holds rest := by
  have length := holds.length
  rw [List.length_append] at length
  by_cases last : buffer.length ≤ front.length
  · have isEmpty : rest = [] := List.length_eq_zero_iff.mp (by omega)
    rw [if_pos last, isEmpty]
    exact holds.reset
  · rw [if_neg last]
    apply (holds.skip _).1
    rintro rfl
    rw [List.length_nil] at length
    omega

@[simp] theorem capacity_skip (newSize : Nat) :
    (buffer.skip newSize).capacity = buffer.capacity := by
  unfold skip
  simp only
  split_ifs <;> rfl

/-- The size of the first payload is read. -/
theorem Holds.exists_readAt
    (holds : buffer.Holds (recordBytes header payload ++ rest)) :
    ∃ word, buffer.buf.readAt buffer.start 4 = .ok word ∧
      littleEndian word = payload.length := by
  have small := holds.small
  have inside := holds.endMark_le
  have linear := holds.linear
  have length := holds.length
  have isSize := @length_recordBytes header payload
  rw [List.length_append] at length
  have front := (Block.has_append.mp holds.has).1
  unfold recordBytes parts at front
  rw [List.flatten_cons] at front
  exact ⟨_, (Block.has_append.mp front).1.readAt (length_wordBytes _),
    littleEndian_littleEndianBytes 4 _ (by omega)⟩

/-- The record that is released is taken off the front. -/
theorem Holds.releaseRecord_eq
    (holds : buffer.Holds (recordBytes header payload ++ rest)) {size : Nat}
    (atLeast : payload.length ≤ size)
    (more : wrap (size + 4 + header.flatten.length) < buffer.length) :
    buffer.releaseRecord header.flatten.length size =
      .ok (if buffer.length ≤ (recordBytes header payload).length then
        buffer.reset
      else buffer.skip (recordBytes header payload).length) := by
  have small := holds.small
  have inside := holds.endMark_le
  have linear := holds.linear
  have length := holds.length
  have isSize := @length_recordBytes header payload
  rw [List.length_append] at length
  have noWrap : wrap ((recordBytes header payload).length) =
      (recordBytes header payload).length := wrap_of_lt (by omega)
  obtain ⟨word, read, packetlen⟩ := holds.exists_readAt
  rw [RecordBuffer.releaseRecord]
  simp only
  rw [if_neg (Nat.not_le.mpr more), read, ok_bind, packetlen,
    if_neg (by omega)]
  obtain larger | rfl := Nat.lt_or_eq_of_le atLeast
  · rw [if_pos larger, pure_eq_ok, ok_bind, ← isSize, noWrap]
    rfl
  · rw [if_neg (Nat.lt_irrefl _), pure_eq_ok, ok_bind, ← isSize, noWrap]
    rfl

/-- The buffer whose first record is released has the others.  A size that is
too large can release all of them. -/
theorem Holds.releaseRecord
    (holds : buffer.Holds (recordBytes header payload ++ rest)) {size : Nat}
    (atLeast : payload.length ≤ size) :
    ∃ next, buffer.releaseRecord header.flatten.length size = .ok next ∧
      (next.Holds rest ∨ payload.length < size ∧ next.Holds []) ∧
      next.capacity = buffer.capacity := by
  by_cases early : buffer.length ≤ wrap (size + 4 + header.flatten.length)
  · refine ⟨buffer.reset, if_pos early, ?_, rfl⟩
    obtain larger | rfl := Nat.lt_or_eq_of_le atLeast
    · exact .inr ⟨larger, holds.reset⟩
    · have small := holds.small
      have inside := holds.endMark_le
      have linear := holds.linear
      have length := holds.length
      have isSize := @length_recordBytes header payload
      have dropped := holds.dropFront
      rw [List.length_append] at length
      rw [← isSize, wrap_of_lt (by omega)] at early
      rw [if_pos early] at dropped
      exact .inl dropped
  · refine ⟨_, holds.releaseRecord_eq atLeast (Nat.not_le.mp early),
      .inl holds.dropFront, ?_⟩
    split
    · rfl
    · exact capacity_skip _

/-- The buffer whose first record is released has the others. -/
theorem Stores.releaseRecord
    (stores : buffer.Stores (recordBytes header payload ++ rest)) :
    ∃ next, buffer.releaseRecord header.flatten.length payload.length =
        .ok next ∧
      next.Stores rest := by
  obtain ⟨next, released, holds | ⟨larger, -⟩, sameCapacity⟩ :=
    stores.holds.releaseRecord (Nat.le_refl payload.length)
  · refine ⟨next, released, stores_iff.mpr ⟨holds, ?_⟩⟩
    rw [sameCapacity]
    exact ⟨stores.positive, stores.bounded⟩
  · exact absurd larger (Nat.lt_irrefl _)

end RecordBuffer
end SendBuffer
end Pilot2Cloud
