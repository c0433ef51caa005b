import Pilot2Cloud.Foundation.Words

/-!
# Bounds-checked memory

Reads from a byte string and writes to an allocated block either stay inside
their region or end in a fault.  A block remembers its allocated size and which
of its cells have been written, so that a copy out of a block shows the cells
that still hold whatever the allocator left there.
-/

namespace Foundation

/-- Ways in which a memory access leaves the behaviour of the program
undefined, and the exhaustion of a loop bound. -/
inductive Fault
  | readPastEnd
  | writePastEnd
  | writeBeforeStart
  | overlappingCopy
  | unwritten
  | loopBound
  deriving DecidableEq, Repr

namespace Memory

open Words

/-- Copy `count` bytes out of a region. -/
def read (source : List UInt8) (offset count : Nat) :
    Except Fault (List UInt8) :=
  if offset + count ≤ source.length then
    .ok ((source.drop offset).take count)
  else .error .readPastEnd

/-- Copy a 32-bit word out of a region. -/
def readWord (source : List UInt8) (offset : Nat) : Except Fault Nat :=
  if offset + 4 ≤ source.length then .ok (wordAt source offset)
  else .error .readPastEnd

theorem read_of_inside
    {source : List UInt8} {offset count : Nat}
    (inside : offset + count ≤ source.length) :
    read source offset count = .ok ((source.drop offset).take count) :=
  if_pos inside

theorem read_of_outside
    {source : List UInt8} {offset count : Nat}
    (outside : source.length < offset + count) :
    read source offset count = .error .readPastEnd :=
  if_neg (Nat.not_le.mpr outside)

theorem readWord_of_inside
    {source : List UInt8} {offset : Nat}
    (inside : offset + 4 ≤ source.length) :
    readWord source offset = .ok (wordAt source offset) :=
  if_pos inside

theorem readWord_of_outside
    {source : List UInt8} {offset : Nat}
    (outside : source.length < offset + 4) :
    readWord source offset = .error .readPastEnd :=
  if_neg (Nat.not_le.mpr outside)

/-- A successful read shows that its range was inside the region. -/
theorem inside_of_read_ok
    {source bytes : List UInt8} {offset count : Nat}
    (success : read source offset count = .ok bytes) :
    offset + count ≤ source.length := by
  by_contra outside
  rw [read_of_outside (Nat.not_le.mp outside)] at success
  contradiction

/-- A read inside a prefix does not see what follows the prefix. -/
theorem read_append_left
    (front back : List UInt8) {offset count : Nat}
    (inside : offset + count ≤ front.length) :
    read (front ++ back) offset count = read front offset count := by
  have total : offset + count ≤ (front ++ back).length := by
    rw [List.length_append]
    omega
  rw [read_of_inside inside, read_of_inside total,
    List.drop_append_of_le_length (by omega),
    List.take_append_of_le_length (by rw [List.length_drop]; omega)]

/-- Reading a word inside the front does not see the back. -/
theorem readWord_append_left
    (front back : List UInt8) {offset : Nat}
    (inside : offset + 4 ≤ front.length) :
    readWord (front ++ back) offset = readWord front offset := by
  have total : offset + 4 ≤ (front ++ back).length := by
    rw [List.length_append]
    omega
  rw [readWord_of_inside inside, readWord_of_inside total,
    wordAt_append_left front back inside]

/-- Copy bytes over part of a region all of whose bytes are known. -/
def overwrite (target : List UInt8) (offset : Nat) (bytes : List UInt8) :
    Except Fault (List UInt8) :=
  if offset + bytes.length ≤ target.length then
    .ok (target.take offset ++ bytes ++ target.drop (offset + bytes.length))
  else .error .writePastEnd

theorem overwrite_of_inside
    {target bytes : List UInt8} {offset : Nat}
    (inside : offset + bytes.length ≤ target.length) :
    overwrite target offset bytes =
      .ok (target.take offset ++ bytes ++
        target.drop (offset + bytes.length)) :=
  if_pos inside

/-! ## Allocated blocks -/

/-- An allocated block: one cell for each byte, `none` while unwritten. -/
abbrev Block := List (Option UInt8)

namespace Block

/-- A freshly allocated block. -/
def alloc (size : Nat) : Block := List.replicate size none

@[simp] theorem length_alloc (size : Nat) : (alloc size).length = size :=
  List.length_replicate

/-- Copy bytes into a block. -/
def write (block : Block) (offset : Nat) (bytes : List UInt8) :
    Except Fault Block :=
  if offset + bytes.length ≤ block.length then
    .ok (block.take offset ++ bytes.map some ++
      block.drop (offset + bytes.length))
  else .error .writePastEnd

/-- Copy the first `count` cells out of a block, written or not. -/
def slice (block : Block) (count : Nat) : Except Fault Block :=
  if count ≤ block.length then .ok (block.take count)
  else .error .readPastEnd

/-- Copy cells from the middle of a block. -/
def sliceAt (block : Block) (offset count : Nat) : Except Fault Block :=
  if offset + count ≤ block.length then .ok ((block.drop offset).take count)
  else .error .readPastEnd

theorem write_of_inside
    {block : Block} {offset : Nat} {bytes : List UInt8}
    (inside : offset + bytes.length ≤ block.length) :
    write block offset bytes =
      .ok (block.take offset ++ bytes.map some ++
        block.drop (offset + bytes.length)) :=
  if_pos inside

theorem write_of_outside
    {block : Block} {offset : Nat} {bytes : List UInt8}
    (outside : block.length < offset + bytes.length) :
    write block offset bytes = .error .writePastEnd :=
  if_neg (Nat.not_le.mpr outside)

/-- A write that succeeds lies inside the block. -/
theorem inside_of_write_ok
    {block next : Block} {offset : Nat} {bytes : List UInt8}
    (success : write block offset bytes = .ok next) :
    offset + bytes.length ≤ block.length := by
  by_contra outside
  rw [write_of_outside (Nat.not_le.mp outside)] at success
  contradiction

/-- Writing never changes the size of a block. -/
theorem length_of_write_ok
    {block next : Block} {offset : Nat} {bytes : List UInt8}
    (success : write block offset bytes = .ok next) :
    next.length = block.length := by
  have inside := inside_of_write_ok success
  rw [write_of_inside inside] at success
  injection success with equal
  subst next
  simp only [List.length_append, List.length_take, List.length_map,
    List.length_drop]
  omega

/-- The cells of a block after a write: the written bytes in their range, the
old cells everywhere else. -/
theorem getElem?_of_write_ok
    {block next : Block} {offset : Nat} {bytes : List UInt8}
    (success : write block offset bytes = .ok next) (position : Nat) :
    next[position]? =
      if offset ≤ position ∧ position < offset + bytes.length then
        (bytes[position - offset]?).map some
      else block[position]? := by
  have inside := inside_of_write_ok success
  rw [write_of_inside inside] at success
  injection success with equal
  subst next
  have offsetInside : offset ≤ block.length := by omega
  by_cases before : position < offset
  · rw [if_neg (by omega), List.append_assoc,
      List.getElem?_append_left (by rw [List.length_take]; omega),
      List.getElem?_take_of_lt before]
  · by_cases within : position < offset + bytes.length
    · rw [if_pos ⟨by omega, within⟩, List.append_assoc,
        List.getElem?_append_right (by rw [List.length_take]; omega),
        List.getElem?_append_left (by
          rw [List.length_take, List.length_map]; omega),
        List.length_take, Nat.min_eq_left offsetInside, List.getElem?_map]
    · rw [if_neg (by omega),
        List.getElem?_append_right (by
          rw [List.length_append, List.length_take, List.length_map]; omega),
        List.getElem?_drop, List.length_append, List.length_take,
        List.length_map, Nat.min_eq_left offsetInside]
      congr 1
      omega

end Block
end Memory
end Foundation
