import Pilot2Cloud.SendBuffer.RecordQueue
import Pilot2Cloud.SendBuffer.SctpBuffer

/-!
# The bytes of the records in an SCTP send buffer

A message that is added follows the others, except in two cases: the buffer
grows while its records are not at the start of the array, or its records are
moved to the start of the array over themselves.
-/

namespace Pilot2Cloud
namespace SendBuffer
namespace RecordBuffer

open Foundation Words Memory

variable {buffer : RecordBuffer} {bytes rest payload : List UInt8}
  {streamID : UInt16} {newSize : Nat}

/-! ## Growth -/

/-- No doubling of a capacity below the largest one has room. -/
def GivesUp (copy needed : Nat) : Prop :=
  copy < needed ∧
    ∀ rounds, copy * 2 ^ rounds < maxCapacity → copy * 2 ^ rounds < needed

theorem givesUp_double {copy needed : Nat} (short : copy < needed)
    (below : copy * 2 < maxCapacity) :
    GivesUp (copy * 2) needed ↔ GivesUp copy needed := by
  have shift : ∀ rounds, copy * 2 * 2 ^ rounds = copy * 2 ^ (rounds + 1) := by
    intro rounds
    ring
  constructor
  · rintro ⟨-, later⟩
    refine ⟨short, fun rounds => ?_⟩
    cases rounds with
    | zero =>
        intro _
        rw [Nat.pow_zero, Nat.mul_one]
        exact short
    | succ rounds =>
        rw [← shift]
        exact later rounds
  · rintro ⟨-, every⟩
    refine ⟨every 1 below, fun rounds => ?_⟩
    rw [shift]
    exact every (rounds + 1)

/-- The loop gives up, keeps the capacity or finds a larger one with room. -/
theorem sctpCapacity_cases {needed fuel copy : Nat} {expand : Bool}
    (enough : maxCapacity ≤ copy * 2 ^ fuel) (bounded : copy ≤ maxCapacity) :
    (GivesUp copy needed ∧
      sctpCapacity needed (fuel + 1) copy expand = .ok none) ∨
    (needed ≤ copy ∧
      sctpCapacity needed (fuel + 1) copy expand =
        .ok (some (copy, expand))) ∨
    (copy < needed ∧ ¬GivesUp copy needed ∧
      ∃ capacity, sctpCapacity needed (fuel + 1) copy expand =
          .ok (some (capacity, true)) ∧
        copy < capacity ∧ capacity ≤ maxCapacity ∧ needed ≤ capacity) := by
  induction fuel generalizing copy expand with
  | zero =>
      rw [Nat.pow_zero, Nat.mul_one] at enough
      have noWrap : wrap (copy * 2) = copy * 2 := by
        apply wrap_of_lt
        unfold maxCapacity at bounded
        omega
      by_cases short : copy < needed
      · refine .inl ⟨⟨short, fun rounds below => ?_⟩, ?_⟩
        · have larger : copy ≤ copy * 2 ^ rounds :=
            Nat.le_mul_of_pos_right _ (Nat.two_pow_pos rounds)
          omega
        · rw [sctpCapacity, if_pos short, noWrap]
          exact if_pos (by omega)
      · exact .inr (.inl ⟨Nat.not_lt.mp short, if_neg short⟩)
  | succ fuel inductionHypothesis =>
      by_cases short : copy < needed
      · have noWrap : wrap (copy * 2) = copy * 2 := by
          apply wrap_of_lt
          unfold maxCapacity at bounded
          omega
        have positive : 0 < copy := by
          apply Nat.pos_of_ne_zero
          rintro rfl
          rw [Nat.zero_mul] at enough
          contradiction
        rw [sctpCapacity, if_pos short, noWrap]
        by_cases largest : maxCapacity ≤ copy * 2
        · refine .inl ⟨⟨short, fun rounds below => ?_⟩, if_pos largest⟩
          cases rounds with
          | zero =>
              rw [Nat.pow_zero, Nat.mul_one]
              exact short
          | succ rounds =>
              have larger : copy * 2 ≤ copy * 2 ^ (rounds + 1) := by
                apply Nat.mul_le_mul_left
                exact Nat.le_self_pow rounds.succ_ne_zero 2
              omega
        · have below := Nat.not_le.mp largest
          have enoughLater : maxCapacity ≤ copy * 2 * 2 ^ fuel :=
            calc
              maxCapacity ≤ copy * 2 ^ (fuel + 1) := enough
              _ = copy * 2 * 2 ^ fuel := by ring
          simp only [if_neg largest]
          obtain ⟨givesUp, ended⟩ | ⟨room, ended⟩ |
              ⟨-, found, capacity, ended, larger, inside, room⟩ :=
            @inductionHypothesis (copy * 2) true enoughLater below.le
          · exact .inl ⟨(givesUp_double short below).mp givesUp, ended⟩
          · refine .inr (.inr ⟨short, fun givesUp => ?_, copy * 2, ended,
              by omega, below.le, room⟩)
            have tooSmall := ((givesUp_double short below).mpr givesUp).1
            omega
          · refine .inr (.inr ⟨short, ?_, capacity, ended, by omega, inside,
              room⟩)
            exact (givesUp_double short below).not.mp found
      · exact .inr (.inl ⟨Nat.not_lt.mp short, if_neg short⟩)

/-! ## Layout -/

/-- The positions of a buffer, whatever is in it. -/
structure Sound (buffer : RecordBuffer) : Prop where
  positive : 0 < buffer.capacity
  bounded : buffer.capacity ≤ maxCapacity
  size : buffer.buf.length = buffer.capacity
  linear : buffer.endMark = buffer.start + buffer.length
  inside : buffer.endMark ≤ buffer.capacity

theorem Stores.sound (stores : buffer.Stores bytes) : buffer.Sound where
  positive := stores.positive
  bounded := stores.bounded
  size := stores.size
  linear := stores.linear
  inside := stores.endMark_le

theorem Sound.stores_iff (sound : buffer.Sound)
    (length : buffer.length = bytes.length) :
    buffer.Stores bytes ↔ buffer.buf.Has buffer.start bytes := by
  constructor
  · intro stores
    exact stores.has
  · intro has
    exact ⟨sound.positive, sound.bounded, sound.size, length, sound.linear,
      has⟩

/-- A record in an SCTP buffer. -/
def sctpRecord (streamID : UInt16) (payload : List UInt8) : List UInt8 :=
  recordBytes [littleEndianBytes 2 streamID.toNat] payload

@[simp] theorem length_sctpRecord :
    (sctpRecord streamID payload).length = payload.length + 4 + 2 := by
  rw [sctpRecord, length_recordBytes, List.flatten_cons, List.flatten_nil,
    List.append_nil, length_littleEndianBytes]

theorem Sound.placeSctp (sound : buffer.Sound)
    (isSize : (sctpRecord streamID payload).length = newSize)
    (room : buffer.endMark + newSize ≤ buffer.capacity)
    (length : buffer.length = bytes.length) :
    ∃ next, buffer.placeSctp streamID payload newSize = .ok next ∧
      (next.Stores (bytes ++ sctpRecord streamID payload) ↔
        buffer.buf.Has buffer.start bytes) := by
  have bounded := sound.bounded
  have linear := sound.linear
  have size := sound.size
  unfold maxCapacity at bounded
  obtain ⟨buf, written⟩ : ∃ buf, buffer.buf.write buffer.endMark
      (sctpRecord streamID payload) = .ok buf :=
    ⟨_, Block.write_of_inside (by omega)⟩
  have nextSound : Sound ⟨buffer.start, buffer.endMark + newSize,
      buffer.capacity, buffer.length + newSize, buf⟩ := by
    refine ⟨sound.positive, sound.bounded,
      (Block.length_of_write_ok written).trans size, ?_, room⟩
    simp only
    omega
  refine ⟨⟨buffer.start, buffer.endMark + newSize, buffer.capacity,
    buffer.length + newSize, buf⟩, ?_, ?_⟩
  · rw [RecordBuffer.placeSctp, ← sctpRecord, isSize, parts,
      Block.writeAll_eq_write, ← parts, ← recordBytes, ← sctpRecord, written,
      wrap_of_lt (by omega), wrap_of_lt (by omega)]
    rfl
  · rw [nextSound.stores_iff (by rw [List.length_append, ← length, isSize]),
      Block.has_append]
    have placed : buf.Has (buffer.start + bytes.length)
        (sctpRecord streamID payload) := by
      rw [← length, ← linear]
      exact Block.has_of_write_ok written
    rw [and_iff_left placed]
    constructor
    · intro has
      apply has.congr (by omega)
      intro index bound
      simp only
      rw [Block.getElem?_of_write_ok written, if_neg (by omega)]
    · intro has
      exact has.write written (.inl (by omega))

/-- A record for which there is no room is written past the end. -/
theorem Sound.placeSctp_error (sound : buffer.Sound)
    (noRoom : buffer.capacity <
      buffer.endMark + (sctpRecord streamID payload).length) :
    buffer.placeSctp streamID payload newSize = .error .writePastEnd := by
  have failed : buffer.buf.write buffer.endMark
      (sctpRecord streamID payload) = .error .writePastEnd := by
    apply Block.write_of_outside
    rw [sound.size]
    exact noRoom
  rw [RecordBuffer.placeSctp, parts, Block.writeAll_eq_write, ← parts,
    ← recordBytes, ← sctpRecord, failed]
  rfl

theorem Sound.growSctp (sound : buffer.Sound) {capacity : Nat}
    (larger : buffer.capacity < capacity)
    (bounded : capacity ≤ maxCapacity) :
    ∃ next, buffer.growSctp capacity = .ok next ∧ next.Sound ∧
      next.start = 0 ∧ next.length = buffer.length ∧
      next.capacity = capacity ∧
      ∀ bytes, buffer.length = bytes.length →
        (next.buf.Has 0 bytes ↔ buffer.buf.Has 0 bytes) := by
  have inside := sound.inside
  have linear := sound.linear
  have size := sound.size
  obtain ⟨buf, copied, newSize, cells⟩ := @Block.exists_copyCells
    (Block.alloc capacity) buffer.buf 0 0 buffer.length
    (by omega) (by rw [Block.length_alloc]; omega)
  rw [Block.length_alloc] at newSize
  refine ⟨⟨0, buffer.length, capacity, buffer.length, buf⟩, ?_,
    ⟨by simp only; omega, bounded, newSize, (Nat.zero_add _).symm,
      by simp only; omega⟩, rfl, rfl, rfl, ?_⟩
  · rw [RecordBuffer.growSctp]
    simp only [copied]
    rfl
  · intro bytes length
    have same : ∀ index < bytes.length,
        buf[0 + index]? = buffer.buf[0 + index]? := by
      intro index bound
      rw [cells, if_pos (by omega), Nat.sub_zero, Nat.zero_add]
    constructor
    · intro has
      apply has.congr (by omega)
      intro index bound
      exact (same index bound).symm
    · intro has
      apply has.congr (by omega) same

theorem Stores.compactSctp (stores : buffer.Stores bytes)
    (apart : buffer.start = 0 ∨ buffer.length ≤ buffer.start) :
    ∃ next, buffer.compactSctp = .ok next ∧ next.Stores bytes ∧
      next.start = 0 ∧ next.capacity = buffer.capacity := by
  have inside := stores.endMark_le
  have linear := stores.linear
  have size := stores.size
  have length := stores.length
  obtain ⟨buf, copied, newSize, cells⟩ := @Block.exists_copyCells
    buffer.buf buffer.buf buffer.start 0 buffer.length (by omega) (by omega)
  refine ⟨⟨0, buffer.length, buffer.capacity, buffer.length, buf⟩, ?_,
    ⟨stores.positive, stores.bounded, newSize.trans size, length,
      (Nat.zero_add _).symm, ?_⟩, rfl, rfl⟩
  · rw [RecordBuffer.compactSctp, Block.copyWithin, if_pos (by omega), copied]
    rfl
  · apply stores.has.congr
    · simp only
      omega
    · intro index bound
      simp only
      rw [cells, if_pos (by omega), Nat.zero_add, Nat.sub_zero]

/-! ## Adding a message -/

/-- What it takes to keep the records when one of a given size is added: the
sizes fit in 32 bits, the buffer grows only while the array starts with the
bytes that are stored, and they are moved only to where they do not overlap. -/
structure KeepsSctp (buffer : RecordBuffer) (size : Nat) : Prop where
  fits : buffer.length + size < 2 ^ 32
  grows : buffer.capacity < buffer.length + size →
    buffer.buf.take buffer.length =
      (buffer.buf.drop buffer.start).take buffer.length
  moves : buffer.length + size ≤ buffer.capacity →
    buffer.capacity < buffer.endMark + size → buffer.length ≤ buffer.start

theorem Stores.has_zero_iff (stores : buffer.Stores bytes) :
    buffer.buf.Has 0 bytes ↔
      buffer.buf.take buffer.length =
        (buffer.buf.drop buffer.start).take buffer.length := by
  have inside := stores.endMark_le
  have linear := stores.linear
  have size := stores.size
  have length := stores.length
  rw [Block.has_iff, List.drop_zero, length,
    (Block.has_iff.mp stores.has).2, and_iff_right]
  omega

/-- Where there is room behind the end mark, nothing moves. -/
theorem Sound.storeSctp (sound : buffer.Sound)
    (behind : buffer.endMark + newSize ≤ buffer.capacity) :
    buffer.storeSctp streamID payload newSize =
      buffer.placeSctp streamID payload newSize := by
  have inside := sound.inside
  have bounded := sound.bounded
  unfold maxCapacity at bounded
  rw [RecordBuffer.storeSctp, wrapSub_of_le (by omega) inside,
    if_neg (by omega), ok_bind]

/-- A message is stored in a buffer that is large enough unless that ends in a
fault. -/
theorem Stores.storeSctp (stores : buffer.Stores bytes)
    (isSize : newSize = wrap (sctpRecord streamID payload).length)
    (room : wrap (buffer.length + newSize) ≤ buffer.capacity) :
    (∃ fault, buffer.storeSctp streamID payload newSize = .error fault ∧
        ¬buffer.KeepsSctp (sctpRecord streamID payload).length) ∨
      ∃ next, buffer.storeSctp streamID payload newSize = .ok next ∧
        (next.Stores (bytes ++ sctpRecord streamID payload) ↔
          buffer.KeepsSctp (sctpRecord streamID payload).length) := by
  have inside := stores.endMark_le
  have linear := stores.linear
  have length := stores.length
  have bounded := stores.bounded
  unfold maxCapacity at bounded
  have sizeLt : newSize < 2 ^ 32 := by
    rw [isSize]
    exact wrap_lt _
  by_cases behind : buffer.endMark + newSize ≤ buffer.capacity
  · rw [stores.sound.storeSctp behind]
    by_cases small : (sctpRecord streamID payload).length < 2 ^ 32
    · rw [wrap_of_lt small] at isSize
      obtain ⟨next, placed, stored⟩ :=
        stores.sound.placeSctp isSize.symm behind length
      refine .inr ⟨next, placed, ?_⟩
      rw [stored]
      exact iff_of_true stores.has ⟨by omega, by omega, by omega⟩
    · refine .inl ⟨.writePastEnd, ?_, fun keeps => small ?_⟩
      · exact stores.sound.placeSctp_error (by omega)
      · have fits := keeps.fits
        omega
  · rw [RecordBuffer.storeSctp, wrapSub_of_le (by omega) inside,
      if_pos (by omega)]
    by_cases apart : buffer.start = 0 ∨ buffer.length ≤ buffer.start
    · obtain ⟨next, moved, nextStores, atStart, sameCapacity⟩ :=
        stores.compactSctp apart
      have sameLength := nextStores.length
      have nextLinear := nextStores.linear
      rw [moved, ok_bind]
      by_cases fits :
          buffer.length + (sctpRecord streamID payload).length < 2 ^ 32
      · rw [wrap_of_lt (by omega)] at isSize
        rw [wrap_of_lt (by omega)] at room
        obtain ⟨last, placed, stored⟩ := nextStores.sound.placeSctp
          isSize.symm (by omega) nextStores.length
        refine .inr ⟨last, placed, ?_⟩
        rw [stored]
        exact iff_of_true nextStores.has ⟨fits, by omega, by omega⟩
      · refine .inl ⟨.writePastEnd, ?_, fun keeps => fits keeps.fits⟩
        exact nextStores.sound.placeSctp_error (by omega)
    · refine .inl ⟨.overlappingCopy, ?_, fun keeps => ?_⟩
      · rw [RecordBuffer.compactSctp, Block.copyWithin, if_neg (by omega)]
        rfl
      · have fits := keeps.fits
        have moves := keeps.moves
        rw [wrap_of_lt (by omega)] at isSize
        rw [wrap_of_lt (by omega)] at room
        omega

/-- A message is stored in a buffer that has grown for it unless that ends in a
fault. -/
theorem Stores.growSctp (stores : buffer.Stores bytes) {capacity : Nat}
    (isSize : newSize = wrap (sctpRecord streamID payload).length)
    (larger : buffer.capacity < capacity) (bounded : capacity ≤ maxCapacity)
    (short : buffer.capacity < wrap (buffer.length + newSize))
    (room : wrap (buffer.length + newSize) ≤ capacity) :
    ∃ grown, buffer.growSctp capacity = .ok grown ∧
      ((∃ fault, grown.storeSctp streamID payload newSize = .error fault ∧
          ¬buffer.KeepsSctp (sctpRecord streamID payload).length) ∨
        ∃ next, grown.storeSctp streamID payload newSize = .ok next ∧
          (next.Stores (bytes ++ sctpRecord streamID payload) ↔
            buffer.KeepsSctp (sctpRecord streamID payload).length)) := by
  have inside := stores.endMark_le
  have linear := stores.linear
  have length := stores.length
  have below := stores.bounded
  unfold maxCapacity at below
  have sizeLt : newSize < 2 ^ 32 := by
    rw [isSize]
    exact wrap_lt _
  have noWrap : buffer.length + newSize < 2 ^ 32 := by
    unfold wrap at short
    omega
  rw [wrap_of_lt noWrap] at room short
  obtain ⟨grown, grew, sound, atStart, sameLength, newCapacity, same⟩ :=
    stores.sound.growSctp larger bounded
  have nextLinear := sound.linear
  refine ⟨grown, grew, ?_⟩
  rw [sound.storeSctp (by omega)]
  by_cases small : (sctpRecord streamID payload).length < 2 ^ 32
  · rw [wrap_of_lt small] at isSize
    obtain ⟨last, placed, stored⟩ := sound.placeSctp isSize.symm
      (by omega) (sameLength.trans length)
    refine .inr ⟨last, placed, ?_⟩
    rw [stored, atStart, same bytes length, stores.has_zero_iff]
    constructor
    · intro unmoved
      exact ⟨by omega, fun _ => unmoved, by omega⟩
    · intro keeps
      exact keeps.grows (by omega)
  · unfold maxCapacity at bounded
    refine .inl ⟨.writePastEnd, ?_, fun keeps => small ?_⟩
    · exact sound.placeSctp_error (by omega)
    · have fits := keeps.fits
      omega

/-- Once the loop has found a capacity, the buffer takes it and the message. -/
theorem addSctpRecord_of_capacity {capacity : Nat} {expand : Bool}
    (found : sctpCapacity (wrap (buffer.length + newSize)) expansionRounds
      buffer.capacity false = .ok (some (capacity, expand))) :
    buffer.addSctpRecord streamID payload newSize = (do
      let resized ← buffer.resizeSctp capacity expand
      let next ← resized.storeSctp streamID payload newSize
      .ok (next, true)) := by
  rw [addSctpRecord, found]
  rfl

/-- A message is refused, ends in a fault or is added. -/
theorem Stores.addSctpBuffer (stores : buffer.Stores bytes)
    (isSize : newSize = wrap (sctpRecord streamID payload).length) :
    (GivesUp buffer.capacity (wrap (buffer.length + newSize)) ∧
      buffer.addSctpBuffer streamID payload = .ok (buffer, false)) ∨
    (¬GivesUp buffer.capacity (wrap (buffer.length + newSize)) ∧
      ((∃ fault, buffer.addSctpBuffer streamID payload = .error fault ∧
          ¬buffer.KeepsSctp (sctpRecord streamID payload).length) ∨
        ∃ next, buffer.addSctpBuffer streamID payload = .ok (next, true) ∧
          (next.Stores (bytes ++ sctpRecord streamID payload) ↔
            buffer.KeepsSctp (sctpRecord streamID payload).length))) := by
  have enough : maxCapacity ≤ buffer.capacity * 2 ^ 25 :=
    Nat.le_mul_of_pos_left _ stores.positive
  rw [RecordBuffer.addSctpBuffer, ← @length_sctpRecord payload streamID,
    ← isSize]
  obtain ⟨givesUp, ended⟩ | ⟨room, ended⟩ |
      ⟨short, found, capacity, ended, larger, bounded, room⟩ :=
    @sctpCapacity_cases (wrap (buffer.length + newSize)) 25 buffer.capacity
      false enough stores.bounded
  · refine .inl ⟨givesUp, ?_⟩
    rw [addSctpRecord, expansionRounds, ended]
    rfl
  · refine .inr ⟨fun givesUp => absurd givesUp.1 (Nat.not_lt.mpr room), ?_⟩
    have same : buffer.resizeSctp buffer.capacity false = .ok buffer := rfl
    rw [addSctpRecord_of_capacity ended, same, ok_bind]
    obtain ⟨fault, failed, lost⟩ | ⟨next, stored, kept⟩ :=
      stores.storeSctp isSize room
    · exact .inl ⟨fault, by rw [failed, error_bind], lost⟩
    · exact .inr ⟨next, by rw [stored, ok_bind], kept⟩
  · refine .inr ⟨found, ?_⟩
    obtain ⟨grown, grew, outcome⟩ :=
      stores.growSctp isSize larger bounded short room
    have expands : buffer.resizeSctp capacity true = .ok grown := grew
    rw [addSctpRecord_of_capacity ended, expands, ok_bind]
    obtain ⟨fault, failed, lost⟩ | ⟨next, stored, kept⟩ := outcome
    · refine .inl ⟨fault, ?_, lost⟩
      rw [failed, error_bind]
    · refine .inr ⟨next, ?_, kept⟩
      rw [stored, ok_bind]

/-! ## Reading and releasing the first message -/

/-- The buffer whose first message is released has the others. -/
theorem Stores.releaseSctpBuffer
    (stores : buffer.Stores (sctpRecord streamID payload ++ rest)) :
    (buffer.releaseSctpBuffer payload.length).Stores rest := by
  have small := stores.endMark_lt
  have linear := stores.linear
  have length := stores.length
  have isSize := @length_sctpRecord payload streamID
  have both := Block.has_append.mp stores.has
  rw [List.length_append] at length
  unfold RecordBuffer.releaseSctpBuffer
  rw [← isSize, wrap_of_lt (by omega)]
  by_cases last : buffer.length ≤ (sctpRecord streamID payload).length
  · have isEmpty : rest = [] := List.length_eq_zero_iff.mp (by omega)
    subst isEmpty
    simp only [if_pos last]
    exact ⟨stores.positive, stores.bounded, stores.size, rfl, rfl,
      Block.has_nil (Nat.zero_le _)⟩
  · simp only [if_neg last]
    rw [wrap_of_lt (by omega)]
    refine ⟨stores.positive, stores.bounded, stores.size, ?_, ?_, both.2⟩
    · simp only
      omega
    · simp only
      omega

end RecordBuffer
end SendBuffer
end Pilot2Cloud
