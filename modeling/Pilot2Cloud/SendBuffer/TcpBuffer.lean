import Pilot2Cloud.Platform.Memcpy

/-!
# The send buffer of a stream

The bytes that wait to be sent over TCP are kept in a ring.  They start at the
read position and end at the write position; both positions may also be the end
of the array, and only the bytes up to the end of the array are offered to the
socket at a time.
-/

namespace Pilot2Cloud
namespace SendBuffer

open Foundation Memory Platform

/-- `CBuffer`, as far as TCP uses it.  Positions are relative to `m_head`, and
`m_tail` is at the capacity. -/
structure TcpBuffer where
  capacity : Nat
  write : Nat
  read : Nat
  length : Nat
  buf : Block

namespace TcpBuffer

/-- `CBuffer::CBuffer`. -/
def new (capacity : Nat) : TcpBuffer where
  capacity := capacity
  write := 0
  read := 0
  length := 0
  buf := Block.alloc capacity

/-- `nMaxSize`. -/
def maxSize (buffer : TcpBuffer) : Nat :=
  if buffer.read ≤ buffer.write then
    buffer.capacity - (buffer.write - buffer.read)
  else buffer.read - buffer.write

/-- Bytes have been copied up to a position. -/
def advance (buffer : TcpBuffer) (buf : Block) (write size : Nat) :
    TcpBuffer :=
  { buffer with
    buf := buf
    write := write
    length := buffer.length + size }

/-- The buffer after bytes are added, and whether they were accepted. -/
def addTcpBuffer (buffer : TcpBuffer) (bytes : List UInt8) :
    Except Fault (TcpBuffer × Bool) :=
  let size := bytes.length
  if buffer.maxSize ≤ size then .ok (buffer, false)
  else if buffer.read ≤ buffer.write then
    if size ≤ buffer.capacity - buffer.write then do
      let buf ← pfMemcpy buffer.buf buffer.write (some bytes) size
      return (buffer.advance buf (buffer.write + size) size, true)
    else do
      let copySize := buffer.capacity - buffer.write
      let buf ← pfMemcpy buffer.buf buffer.write (some bytes) copySize
      let buf ← pfMemcpy buf 0 (some (bytes.drop copySize)) (size - copySize)
      return (buffer.advance buf (size - copySize) size, true)
  else do
    let buf ← pfMemcpy buffer.buf buffer.write (some bytes) size
    return (buffer.advance buf (buffer.write + size) size, true)

/-- `ReleaseTcpBuffer`. -/
def releaseTcpBuffer (buffer : TcpBuffer) (size : Nat) : TcpBuffer :=
  if buffer.length < size then buffer
  else if buffer.read ≤ buffer.write then
    { buffer with
      read := buffer.read + size
      length := buffer.length - size }
  else
    let tailSize := buffer.capacity - buffer.read
    if size < tailSize then
      { buffer with
        read := buffer.read + size
        length := buffer.length - size }
    else
      { buffer with
        read := size - tailSize
        length := buffer.length - size }

/-- `GetTcpLength`: the bytes up to the end of the array. -/
def getTcpLength (buffer : TcpBuffer) : Nat :=
  if buffer.read ≤ buffer.write then buffer.length
  else buffer.capacity - buffer.read

/-- The bytes that `GetTcpBuffer` and `GetTcpLength` offer. -/
def exposed (buffer : TcpBuffer) : Except Fault Block :=
  buffer.buf.sliceAt buffer.read buffer.getTcpLength

/-! ## The bytes in the ring -/

/-- The position of a byte, counted from the first. -/
def position (buffer : TcpBuffer) (index : Nat) : Nat :=
  if buffer.read + index < buffer.capacity then buffer.read + index
  else buffer.read + index - buffer.capacity

/-- The buffer holds some bytes. -/
structure Holds (buffer : TcpBuffer) (bytes : List UInt8) : Prop where
  size : buffer.buf.length = buffer.capacity
  length : buffer.length = bytes.length
  readInside : buffer.read ≤ buffer.capacity
  writeInside : buffer.write ≤ buffer.capacity
  /-- The bytes end at the write position. -/
  write : if buffer.read ≤ buffer.write then
      buffer.write = buffer.read + buffer.length
    else buffer.write + buffer.capacity = buffer.read + buffer.length
  /-- One byte of the array always stays free. -/
  notFull : buffer.length < buffer.capacity ∨ buffer.capacity = 0
  cells : ∀ index < bytes.length,
    buffer.buf[buffer.position index]? = (bytes[index]?).map some

variable {buffer : TcpBuffer} {bytes added : List UInt8}

theorem Holds.new (capacity : Nat) : (new capacity).Holds [] where
  size := Block.length_alloc capacity
  length := rfl
  readInside := Nat.zero_le _
  writeInside := Nat.zero_le _
  write := rfl
  notFull := by
    have start : (TcpBuffer.new capacity).length = 0 := rfl
    have same : (TcpBuffer.new capacity).capacity = capacity := rfl
    omega
  cells := by
    intro index bound
    contradiction

/-- Copying to the end of the bytes adds to them. -/
theorem Holds.advance {buf : Block} {write : Nat}
    (holds : buffer.Holds bytes)
    (size : buf.length = buffer.buf.length)
    (writeInside : write ≤ buffer.capacity)
    (isWrite : if buffer.read ≤ write then
        write = buffer.read + buffer.length + added.length
      else write + buffer.capacity =
        buffer.read + buffer.length + added.length)
    (notFull : buffer.length + added.length < buffer.capacity)
    (old : ∀ index < bytes.length, buf[buffer.position index]? =
      buffer.buf[buffer.position index]?)
    (new : ∀ index < added.length,
      buf[buffer.position (bytes.length + index)]? =
        (added[index]?).map some) :
    (buffer.advance buf write added.length).Holds (bytes ++ added) where
  size := size.trans holds.size
  length := by
    rw [List.length_append, ← holds.length]
    rfl
  readInside := holds.readInside
  writeInside := writeInside
  write := by
    rw [TcpBuffer.advance, ← Nat.add_assoc]
    exact isWrite
  notFull := .inl notFull
  cells := by
    intro index bound
    have same : (buffer.advance buf write added.length).position index =
        buffer.position index := rfl
    rw [same, TcpBuffer.advance]
    by_cases isOld : index < bytes.length
    · rw [old index isOld, holds.cells index isOld,
        List.getElem?_append_left isOld]
    · obtain ⟨later, rfl⟩ := Nat.exists_eq_add_of_le (Nat.not_lt.mp isOld)
      rw [List.length_append] at bound
      rw [new later (by omega), List.getElem?_append_right (by omega)]
      congr 2
      omega

/-- The bytes that are added follow those that were there, unless the buffer
refuses them. -/
theorem Holds.add (holds : buffer.Holds bytes) (added : List UInt8) :
    (buffer.maxSize ≤ added.length ∧
      buffer.addTcpBuffer added = .ok (buffer, false)) ∨
    (added.length < buffer.maxSize ∧
      ∃ buf write, buffer.addTcpBuffer added =
          .ok (buffer.advance buf write added.length, true) ∧
        (buffer.advance buf write added.length).Holds (bytes ++ added)) := by
  have size := holds.size
  have length := holds.length
  have readInside := holds.readInside
  have writeInside := holds.writeInside
  have write := holds.write
  by_cases refused : buffer.maxSize ≤ added.length
  · exact .inl ⟨refused, if_pos refused⟩
  refine .inr ⟨Nat.not_le.mp refused, ?_⟩
  have room := refused
  rw [maxSize] at room
  rw [addTcpBuffer, if_neg refused]
  by_cases linear : buffer.read ≤ buffer.write
  · rw [if_pos linear] at room write
    by_cases fits : added.length ≤ buffer.capacity - buffer.write
    · -- the bytes stay in front of the end of the array
      obtain ⟨buf, copied, sameSize, cells⟩ := @exists_pfMemcpy
        buffer.buf buffer.write added.length added le_rfl (by omega)
      refine ⟨buf, buffer.write + added.length, ?_, ?_⟩
      · rw [if_pos linear, if_pos fits, copied]
        rfl
      apply holds.advance sameSize (by omega)
      · split <;> omega
      · omega
      · intro index bound
        rw [cells, if_neg (by unfold position; split <;> omega)]
      · intro index bound
        have place : buffer.position (bytes.length + index) =
            buffer.write + index := by
          unfold position
          split <;> omega
        rw [cells, place, if_pos (by omega), Nat.add_sub_cancel_left]
    · -- the bytes go on at the start of the array
      obtain ⟨front, copiedFront, frontSize, frontCells⟩ := @exists_pfMemcpy
        buffer.buf buffer.write (buffer.capacity - buffer.write) added
        (by omega) (by omega)
      obtain ⟨buf, copied, sameSize, cells⟩ := @exists_pfMemcpy
        front 0 (added.length - (buffer.capacity - buffer.write))
        (added.drop (buffer.capacity - buffer.write))
        (by rw [List.length_drop]) (by omega)
      refine ⟨buf, added.length - (buffer.capacity - buffer.write), ?_, ?_⟩
      · simp only [if_pos linear, if_neg fits, copiedFront, ok_bind, copied]
        rfl
      apply holds.advance (sameSize.trans frontSize) (by omega)
      · split <;> omega
      · omega
      · intro index bound
        rw [cells, if_neg (by unfold position; split <;> omega), frontCells,
          if_neg (by unfold position; split <;> omega)]
      · intro index bound
        by_cases inFront : index < buffer.capacity - buffer.write
        · have place : buffer.position (bytes.length + index) =
              buffer.write + index := by
            unfold position
            split <;> omega
          rw [cells, place, if_neg (by omega), frontCells, if_pos (by omega),
            Nat.add_sub_cancel_left]
        · have place : buffer.position (bytes.length + index) =
              index - (buffer.capacity - buffer.write) := by
            unfold position
            split <;> omega
          rw [cells, place, if_pos (by omega), List.getElem?_drop]
          congr 2
          omega
  · -- the bytes stay in front of the read position
    rw [if_neg linear] at room write
    obtain ⟨buf, copied, sameSize, cells⟩ := @exists_pfMemcpy
      buffer.buf buffer.write added.length added le_rfl (by omega)
    refine ⟨buf, buffer.write + added.length, ?_, ?_⟩
    · rw [if_neg linear, copied]
      rfl
    apply holds.advance sameSize (by omega)
    · split <;> omega
    · omega
    · intro index bound
      rw [cells, if_neg (by unfold position; split <;> omega)]
    · intro index bound
      have place : buffer.position (bytes.length + index) =
          buffer.write + index := by
        unfold position
        split <;> omega
      rw [cells, place, if_pos (by omega), Nat.add_sub_cancel_left]

end TcpBuffer
end SendBuffer
end Pilot2Cloud
