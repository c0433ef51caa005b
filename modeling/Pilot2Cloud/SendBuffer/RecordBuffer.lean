import Pilot2Cloud.Foundation.Contents

/-!
# The send buffer of datagrams

The datagrams that wait to be sent over UDP or raw IP are kept as records: the
size of the payload, the destination and the payload, one behind the other.  A
record goes behind the end mark or into the space that was freed at the front,
and the buffer grows when there is no room for it.
-/

namespace Pilot2Cloud
namespace SendBuffer

open Foundation Words Memory

/-- `MAX_CAPACITY`. -/
def maxCapacity : Nat := 1024 * 1024 * 32

/-- `CBuffer`, as far as UDP, raw IP and SCTP use it.  Positions are relative to
`m_pBuf`. -/
structure RecordBuffer where
  start : Nat
  endMark : Nat
  capacity : Nat
  length : Nat
  buf : Block

namespace RecordBuffer

/-- `CBuffer::CBuffer`. -/
def new (size : Nat) : RecordBuffer where
  start := 0
  endMark := 0
  capacity := size
  length := 0
  buf := Block.alloc size

/-- `CBuffer::IsEmpty`. -/
def isEmpty (buffer : RecordBuffer) : Bool :=
  buffer.length == 0

/-! ## Growth -/

/-- `bExpand`. -/
def NeedsExpansion (buffer : RecordBuffer) (newSize : Nat) : Prop :=
  if buffer.endMark < wrap (buffer.start + buffer.length) then
    wrapSub buffer.endMark buffer.length < newSize
  else wrapSub buffer.capacity buffer.endMark < newSize

instance (buffer : RecordBuffer) (newSize : Nat) :
    Decidable (buffer.NeedsExpansion newSize) :=
  inferInstanceAs (Decidable (ite _ _ _))

/-- The capacity after which the loop of `ResizeBuffer` ends, or nothing when
the largest capacity is too small. -/
def expandedCapacity (needed : Nat) : Nat → Nat → Except Fault (Option Nat)
  | 0, _ => .error .loopBound
  | fuel + 1, copy =>
      if maxCapacity ≤ copy then .ok none
      else
        let copy := wrap (copy * 2)
        let copy := if maxCapacity < copy then maxCapacity else copy
        if needed ≤ copy then .ok (some copy)
        else expandedCapacity needed fuel copy

/-- A positive capacity comes to the largest one in fewer rounds. -/
def expansionRounds : Nat := 26

/-- The records move to the start of a larger array. -/
def expand (buffer : RecordBuffer) (capacity : Nat) :
    Except Fault RecordBuffer := do
  let newbuf := Block.alloc capacity
  let buf ←
    if wrap (buffer.start + buffer.length) ≤ buffer.endMark then
      newbuf.copyCells 0 buffer.buf buffer.start buffer.length
    else do
      let front := wrapSub buffer.endMark buffer.start
      let newbuf ← newbuf.copyCells 0 buffer.buf buffer.start front
      newbuf.copyCells front buffer.buf 0 (wrapSub buffer.length front)
  return {
    start := 0
    endMark := buffer.length
    capacity := capacity
    length := buffer.length
    buf := buf }

/-- The buffer with room for a record, or nothing when there cannot be. -/
def resizeBuffer (buffer : RecordBuffer) (newSize : Nat) :
    Except Fault (Option RecordBuffer) :=
  if buffer.NeedsExpansion newSize then do
    match ← expandedCapacity (wrap (buffer.length + newSize)) expansionRounds
      buffer.capacity with
    | none => return none
    | some capacity => return some (← buffer.expand capacity)
  else return some buffer

/-! ## Adding a record -/

/-- The pieces of a record, in the order in which they are written. -/
def parts (header : List (List UInt8)) (payload : List UInt8) :
    List (List UInt8) :=
  wordBytes payload.length :: (header ++ [payload])

/-- A record in the buffer. -/
def recordBytes (header : List (List UInt8)) (payload : List UInt8) :
    List UInt8 :=
  (parts header payload).flatten

/-- Write a record behind the end mark, or into the space at the front. -/
def placeRecord (buffer : RecordBuffer) (header : List (List UInt8))
    (payload : List UInt8) (newSize : Nat) : Except Fault RecordBuffer :=
  if wrap (buffer.start + buffer.length) = buffer.endMark ∧
      newSize ≤ wrapSub buffer.capacity buffer.endMark then do
    let buf ← buffer.buf.writeAll buffer.endMark (parts header payload)
    return { buffer with
      buf := buf
      endMark := wrap (buffer.endMark + (recordBytes header payload).length)
      length := wrap (buffer.length + newSize) }
  else do
    let index := wrapSub (wrap (buffer.start + buffer.length)) buffer.endMark
    let buf ← buffer.buf.writeAll index (parts header payload)
    return { buffer with
      buf := buf
      length := wrap (buffer.length + newSize) }

/-- The buffer after a record is added, and whether it was accepted. -/
def addRecord (buffer : RecordBuffer) (header : List (List UInt8))
    (payload : List UInt8) : Except Fault (RecordBuffer × Bool) := do
  let newSize := wrap (payload.length + 4 + header.flatten.length)
  match ← buffer.resizeBuffer newSize with
  | none => return (buffer, false)
  | some buffer =>
      return (← buffer.placeRecord header payload newSize, true)

/-- `AddUdpBuffer`. -/
def addUdpBuffer (buffer : RecordBuffer) (payload : List UInt8)
    (dstaddr : UInt32) (dstport : UInt16) :
    Except Fault (RecordBuffer × Bool) :=
  buffer.addRecord
    [wordBytes dstaddr.toNat, littleEndianBytes 2 dstport.toNat] payload

/-- `AddRawIpBuffer`. -/
def addRawIpBuffer (buffer : RecordBuffer) (dstAddr : UInt32)
    (payload : List UInt8) : Except Fault (RecordBuffer × Bool) :=
  buffer.addRecord [wordBytes dstAddr.toNat] payload

/-! ## Releasing a record -/

/-- The buffer without any records. -/
def reset (buffer : RecordBuffer) : RecordBuffer :=
  { buffer with
    start := 0
    endMark := 0
    length := 0 }

/-- Some bytes at the front are taken away. -/
def skip (buffer : RecordBuffer) (newSize : Nat) : RecordBuffer :=
  let start := wrap (buffer.start + newSize)
  let length := buffer.length - newSize
  if buffer.endMark < start then
    { buffer with
      start := start - buffer.endMark
      endMark := wrap (start - buffer.endMark + length)
      length := length }
  else if start = buffer.endMark then
    { buffer with
      start := 0
      endMark := length
      length := length }
  else
    { buffer with
      start := start
      length := length }

/-- Part of the payload of the first record is taken away, and its header is
written again in front of the rest. -/
def cutRecord (buffer : RecordBuffer) (headerSize packetlen size : Nat) :
    Except Fault RecordBuffer := do
  let front := buffer.start + size
  let buf ← buffer.buf.write front (wordBytes (packetlen - size))
  let buf ← buf.copyWithin (front + 4) (buffer.start + 4) headerSize
  return { buffer with buf := buf }

/-- The buffer after some bytes of the first payload were sent. -/
def releaseRecord (buffer : RecordBuffer) (headerSize size : Nat) :
    Except Fault RecordBuffer := do
  let newSize := wrap (size + 4 + headerSize)
  if buffer.length ≤ newSize then return buffer.reset
  else
    let packetlen := littleEndian (← buffer.buf.readAt buffer.start 4)
    let (buffer, newSize) ←
      if size < packetlen then do
        pure (← buffer.cutRecord headerSize packetlen size, size)
      else if packetlen < size then
        pure (buffer, wrap (packetlen + 4 + headerSize))
      else pure (buffer, newSize)
    return if buffer.length ≤ newSize then buffer.reset
      else buffer.skip newSize

/-- `ReleaseUdpBuffer`. -/
def releaseUdpBuffer (buffer : RecordBuffer) (size : Nat) :
    Except Fault RecordBuffer :=
  buffer.releaseRecord 6 size

/-- `ReleaseRawIpBuffer`. -/
def releaseRawIpBuffer (buffer : RecordBuffer) (size : Nat) :
    Except Fault RecordBuffer :=
  buffer.releaseRecord 4 size

/-! ## Reading the first record -/

/-- A number in the first record, or what is returned when there is none. -/
def field (buffer : RecordBuffer) (offset count absent : Nat) :
    Except Fault Nat :=
  if 0 < buffer.length then do
    return littleEndian (← buffer.buf.readAt (buffer.start + offset) count)
  else return absent

/-- `GetUdpLength`. -/
def getUdpLength (buffer : RecordBuffer) : Except Fault Nat :=
  buffer.field 0 4 0

/-- `GetUdpAddr`. -/
def getUdpAddr (buffer : RecordBuffer) : Except Fault Nat :=
  buffer.field 4 4 0

/-- `GetUdpPort`. -/
def getUdpPort (buffer : RecordBuffer) : Except Fault Nat :=
  buffer.field 8 2 0xFFFF

/-- The position of `GetUdpBuffer`. -/
def getUdpBuffer (buffer : RecordBuffer) : Nat :=
  buffer.start + 4 + 4 + 2

/-- `GetRawIpLength`. -/
def getRawIpLength (buffer : RecordBuffer) : Except Fault Nat :=
  buffer.field 0 4 0

/-- `GetDstAddr`. -/
def getDstAddr (buffer : RecordBuffer) : Except Fault Nat :=
  buffer.field 4 4 0

/-- The position of `GetRawIpBuffer`. -/
def getRawIpBuffer (buffer : RecordBuffer) : Nat :=
  buffer.start + 4 + 4

end RecordBuffer
end SendBuffer
end Pilot2Cloud
