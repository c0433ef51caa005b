import Mathlib.Data.List.Basic
import Pilot2Cloud.Foundation.Memory
import Pilot2Cloud.Foundation.Outcome

/-!
# The contents of a block

Bytes are in a block at an offset when the cells from the offset on hold them.
They get there by a write or by a copy of cells, and stay there as long as the
cells are not overwritten.  A cell that has not been written cannot be read.
-/

namespace Foundation
namespace Memory
namespace Block

variable {block next source : Block} {offset other count : Nat}
  {bytes front back : List UInt8}

/-- Some bytes are at an offset of a block. -/
structure Has (block : Block) (offset : Nat) (bytes : List UInt8) : Prop where
  inside : offset + bytes.length ≤ block.length
  cells : ∀ index < bytes.length,
    block[offset + index]? = (bytes[index]?).map some

/-- No bytes are at every place. -/
theorem has_nil (inside : offset ≤ block.length) : block.Has offset [] where
  inside := inside
  cells := by
    intro index bound
    contradiction

/-- Bytes at a place, in two parts. -/
theorem has_append :
    block.Has offset (front ++ back) ↔
      block.Has offset front ∧ block.Has (offset + front.length) back := by
  constructor
  · intro has
    have inside := has.inside
    rw [List.length_append] at inside
    refine ⟨⟨by omega, ?_⟩, ⟨by omega, ?_⟩⟩
    · intro index bound
      rw [has.cells index (by rw [List.length_append]; omega),
        List.getElem?_append_left bound]
    · intro index bound
      rw [Nat.add_assoc, has.cells _ (by rw [List.length_append]; omega),
        List.getElem?_append_right (by omega), Nat.add_sub_cancel_left]
  · intro both
    have frontInside := both.1.inside
    have backInside := both.2.inside
    refine ⟨by rw [List.length_append]; omega, ?_⟩
    intro index bound
    rw [List.length_append] at bound
    by_cases inFront : index < front.length
    · rw [both.1.cells index inFront, List.getElem?_append_left inFront]
    · obtain ⟨later, rfl⟩ := Nat.exists_eq_add_of_le (Nat.not_lt.mp inFront)
      rw [← Nat.add_assoc, both.2.cells later (by omega),
        List.getElem?_append_right (by omega), Nat.add_sub_cancel_left]

/-- Bytes are there when the cells are those of the bytes. -/
theorem has_iff :
    block.Has offset bytes ↔
      offset + bytes.length ≤ block.length ∧
        (block.drop offset).take bytes.length = bytes.map some := by
  constructor
  · intro has
    refine ⟨has.inside, ?_⟩
    apply List.ext_getElem?
    intro index
    rw [List.getElem?_take, List.getElem?_drop, List.getElem?_map]
    split
    case isTrue bound => exact has.cells index bound
    case isFalse beyond =>
      rw [List.getElem?_eq_none (Nat.not_lt.mp beyond)]
      rfl
  · rintro ⟨inside, same⟩
    refine ⟨inside, ?_⟩
    intro index bound
    rw [← List.getElem?_map, ← same, List.getElem?_take_of_lt bound,
      List.getElem?_drop]

/-- A block has the same bytes wherever it has the same cells. -/
theorem Has.congr (has : block.Has offset bytes)
    (inside : other + bytes.length ≤ next.length)
    (same : ∀ index < bytes.length,
      next[other + index]? = block[offset + index]?) :
    next.Has other bytes where
  inside := inside
  cells := by
    intro index bound
    rw [same index bound, has.cells index bound]

/-! ## Writing -/

/-- What was written is there. -/
theorem has_of_write_ok (written : block.write offset bytes = .ok next) :
    next.Has offset bytes where
  inside := by
    rw [length_of_write_ok written]
    exact inside_of_write_ok written
  cells := by
    intro index bound
    rw [getElem?_of_write_ok written, if_pos (by omega),
      Nat.add_sub_cancel_left]

/-- Bytes stay where nothing is written. -/
theorem Has.write (has : block.Has offset bytes)
    (written : block.write other front = .ok next)
    (apart : offset + bytes.length ≤ other ∨
      other + front.length ≤ offset) :
    next.Has offset bytes := by
  apply has.congr
  · rw [length_of_write_ok written]
    exact has.inside
  · intro index bound
    rw [getElem?_of_write_ok written, if_neg (by omega)]

/-- Write byte strings one after another. -/
def writeAll : Block → Nat → List (List UInt8) → Except Fault Block
  | block, _, [] => .ok block
  | block, offset, part :: parts => do
      let block ← block.write offset part
      block.writeAll (offset + part.length) parts

/-- Bytes are written in two parts. -/
theorem write_append :
    block.write offset (front ++ back) =
      (do
        let next ← block.write offset front
        next.write (offset + front.length) back) := by
  by_cases first : offset + front.length ≤ block.length
  · obtain ⟨next, written⟩ : ∃ next, block.write offset front = .ok next :=
      ⟨_, write_of_inside first⟩
    have length := length_of_write_ok written
    rw [written, ok_bind]
    by_cases inside : offset + (front ++ back).length ≤ block.length
    · have second : offset + front.length + back.length ≤ next.length := by
        rw [List.length_append] at inside
        omega
      obtain ⟨both, writtenBoth⟩ :
          ∃ both, block.write offset (front ++ back) = .ok both :=
        ⟨_, write_of_inside inside⟩
      obtain ⟨last, writtenLast⟩ :
          ∃ last, next.write (offset + front.length) back = .ok last :=
        ⟨_, write_of_inside second⟩
      rw [writtenBoth, writtenLast]
      congr 1
      apply List.ext_getElem?
      intro position
      rw [getElem?_of_write_ok writtenBoth, getElem?_of_write_ok writtenLast,
        getElem?_of_write_ok written, List.length_append]
      split
      case isTrue within =>
        by_cases inFront : position < offset + front.length
        · rw [if_neg (by omega), if_pos (by omega),
            List.getElem?_append_left (by omega)]
        · rw [if_pos (by omega), List.getElem?_append_right (by omega)]
          congr 2
          omega
      case isFalse without =>
        rw [if_neg (by omega), if_neg (by omega)]
    · rw [write_of_outside (Nat.not_le.mp inside), write_of_outside]
      rw [List.length_append] at inside
      omega
  · rw [@write_of_outside block offset front (by omega),
      write_of_outside (by rw [List.length_append]; omega)]
    rfl

/-- Writing one after another is writing all at once. -/
theorem writeAll_eq_write {part : List UInt8} {parts : List (List UInt8)} :
    block.writeAll offset (part :: parts) =
      block.write offset (part :: parts).flatten := by
  induction parts generalizing block offset part with
  | nil =>
      rw [writeAll, List.flatten_cons, List.flatten_nil, List.append_nil]
      cases block.write offset part with
      | error fault => rfl
      | ok next => rfl
  | cons second parts inductionHypothesis =>
      rw [writeAll, List.flatten_cons, write_append]
      congr 1
      funext next
      exact inductionHypothesis

/-! ## Copying cells -/

/-- Copy cells of one block into another, written or not. -/
def copyCells (target : Block) (targetOffset : Nat) (source : Block)
    (sourceOffset count : Nat) : Except Fault Block :=
  if sourceOffset + count ≤ source.length then
    if targetOffset + count ≤ target.length then
      .ok (target.take targetOffset ++
        (source.drop sourceOffset).take count ++
          target.drop (targetOffset + count))
    else .error .writePastEnd
  else .error .readPastEnd

/-- Copy cells inside of a block.  A copy onto itself changes nothing; the
result of any other copy between regions that overlap is undefined. -/
def copyWithin (block : Block) (targetOffset sourceOffset count : Nat) :
    Except Fault Block :=
  if targetOffset = sourceOffset ∨ targetOffset + count ≤ sourceOffset ∨
      sourceOffset + count ≤ targetOffset then
    block.copyCells targetOffset block sourceOffset count
  else .error .overlappingCopy

/-- A copy inside of both blocks changes the cells that are copied to. -/
theorem exists_copyCells
    (readable : offset + count ≤ source.length)
    (writable : other + count ≤ block.length) :
    ∃ next, block.copyCells other source offset count = .ok next ∧
      next.length = block.length ∧
      ∀ position, next[position]? =
        if other ≤ position ∧ position < other + count then
          source[offset + (position - other)]?
        else block[position]? := by
  refine ⟨_, (if_pos readable).trans (if_pos writable), ?_, ?_⟩
  · simp only [List.length_append, List.length_take, List.length_drop]
    omega
  · intro position
    by_cases before : position < other
    · rw [if_neg (by omega), List.append_assoc,
        List.getElem?_append_left (by rw [List.length_take]; omega),
        List.getElem?_take_of_lt before]
    · by_cases within : position < other + count
      · rw [if_pos ⟨by omega, within⟩, List.append_assoc,
          List.getElem?_append_right (by rw [List.length_take]; omega),
          List.getElem?_append_left (by
            simp only [List.length_take, List.length_drop]; omega),
          List.length_take, Nat.min_eq_left (by omega),
          List.getElem?_take_of_lt (by omega), List.getElem?_drop]
      · rw [if_neg (by omega),
          List.getElem?_append_right (by
            simp only [List.length_append, List.length_take,
              List.length_drop]
            omega),
          List.getElem?_drop]
        congr 1
        simp only [List.length_append, List.length_take, List.length_drop]
        omega

/-! ## Reading -/

/-- The bytes of cells that have all been written. -/
def written : Block → Option (List UInt8)
  | [] => some []
  | none :: _ => none
  | some byte :: cells => (written cells).map (byte :: ·)

/-- Cells that were all written. -/
theorem written_eq_some_iff {cells : Block} :
    written cells = some bytes ↔ cells = bytes.map some := by
  induction cells generalizing bytes with
  | nil => cases bytes <;> simp [written]
  | cons cell cells inductionHypothesis =>
      cases cell with
      | none => cases bytes <;> simp [written]
      | some byte =>
          cases bytes with
          | nil => simp [written]
          | cons first bytes =>
              simp [written, inductionHypothesis, and_comm]

/-- Read bytes of a block. -/
def readAt (block : Block) (offset count : Nat) :
    Except Fault (List UInt8) :=
  if offset + count ≤ block.length then
    match written ((block.drop offset).take count) with
    | some bytes => .ok bytes
    | none => .error .unwritten
  else .error .readPastEnd

/-- What is read of a block is what it has. -/
theorem readAt_eq_ok_iff :
    block.readAt offset bytes.length = .ok bytes ↔
      block.Has offset bytes := by
  rw [has_iff, ← written_eq_some_iff, readAt]
  by_cases inside : offset + bytes.length ≤ block.length
  · rw [if_pos inside]
    cases written ((block.drop offset).take bytes.length) with
    | none => simp
    | some read => simp [inside]
  · rw [if_neg inside]
    simp [inside]

/-- What is there is read. -/
theorem Has.readAt (has : block.Has offset bytes)
    (length : bytes.length = count) :
    block.readAt offset count = .ok bytes := by
  rw [← length]
  exact readAt_eq_ok_iff.mpr has

end Block
end Memory
end Foundation
