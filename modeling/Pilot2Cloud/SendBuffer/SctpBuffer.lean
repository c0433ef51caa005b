import Pilot2Cloud.SendBuffer.RecordBuffer

/-!
# The send buffer of SCTP

The messages that wait to be sent over SCTP are kept as records, too, but the
buffer has its own way to grow, and it moves the records to the start of the
array when there is no room behind them.
-/

namespace Pilot2Cloud
namespace SendBuffer
namespace RecordBuffer

open Foundation Words Memory

/-- The capacity after the loop of `AddSctpBuffer` and `bExpand`, or nothing when
the loop gives up. -/
def sctpCapacity (needed : Nat) :
    Nat → Nat → Bool → Except Fault (Option (Nat × Bool))
  | 0, _, _ => .error .loopBound
  | fuel + 1, copy, expand =>
      if copy < needed then
        let copy := wrap (copy * 2)
        if maxCapacity ≤ copy then .ok none
        else sctpCapacity needed fuel copy true
      else .ok (some (copy, expand))

/-- The bytes from the start of the array move to a larger array. -/
def growSctp (buffer : RecordBuffer) (capacity : Nat) :
    Except Fault RecordBuffer := do
  let newbuf := Block.alloc capacity
  let buf ← newbuf.copyCells 0 buffer.buf 0 buffer.length
  return {
    start := 0
    endMark := buffer.length
    capacity := capacity
    length := buffer.length
    buf := buf }

/-- The records move to the start of the array. -/
def compactSctp (buffer : RecordBuffer) : Except Fault RecordBuffer := do
  let buf ← buffer.buf.copyWithin 0 buffer.start buffer.length
  return { buffer with
    start := 0
    endMark := buffer.length
    buf := buf }

/-- Write a record behind the end mark. -/
def placeSctp (buffer : RecordBuffer) (streamID : UInt16)
    (payload : List UInt8) (newSize : Nat) : Except Fault RecordBuffer := do
  let header := [littleEndianBytes 2 streamID.toNat]
  let buf ← buffer.buf.writeAll buffer.endMark (parts header payload)
  return { buffer with
    buf := buf
    endMark := wrap (buffer.endMark + (recordBytes header payload).length)
    length := wrap (buffer.length + newSize) }

/-- Write a record behind the others, which make room for it if they must. -/
def storeSctp (buffer : RecordBuffer) (streamID : UInt16)
    (payload : List UInt8) (newSize : Nat) : Except Fault RecordBuffer := do
  let left := wrapSub buffer.capacity buffer.endMark
  let buffer ← (if left < newSize then buffer.compactSctp else .ok buffer)
  buffer.placeSctp streamID payload newSize

/-- The buffer with the capacity that the loop has found. -/
def resizeSctp (buffer : RecordBuffer) (capacity : Nat) (expand : Bool) :
    Except Fault RecordBuffer :=
  if expand then buffer.growSctp capacity else .ok buffer

/-- Add a record of a given size, `nNewSize`. -/
def addSctpRecord (buffer : RecordBuffer) (streamID : UInt16)
    (payload : List UInt8) (newSize : Nat) :
    Except Fault (RecordBuffer × Bool) := do
  match ← sctpCapacity (wrap (buffer.length + newSize)) expansionRounds
    buffer.capacity false with
  | none => return (buffer, false)
  | some (capacity, expand) =>
      let buffer ← buffer.resizeSctp capacity expand
      return (← buffer.storeSctp streamID payload newSize, true)

/-- The buffer after a message is added, and whether it was accepted. -/
def addSctpBuffer (buffer : RecordBuffer) (streamID : UInt16)
    (payload : List UInt8) : Except Fault (RecordBuffer × Bool) :=
  buffer.addSctpRecord streamID payload (wrap (payload.length + 4 + 2))

/-- `ReleaseSctpBuffer`. -/
def releaseSctpBuffer (buffer : RecordBuffer) (size : Nat) : RecordBuffer :=
  let newSize := wrap (size + 4 + 2)
  if buffer.length ≤ newSize then buffer.reset
  else
    { buffer with
      length := buffer.length - newSize
      start := wrap (buffer.start + newSize) }

/-- `GetSctpLength`. -/
def getSctpLength (buffer : RecordBuffer) : Except Fault Nat :=
  buffer.field 0 4 0

/-- `GetStreamID`. -/
def getStreamID (buffer : RecordBuffer) : Except Fault Nat :=
  buffer.field 4 2 0

/-- The position of `GetSctpBuffer`. -/
def getSctpBuffer (buffer : RecordBuffer) : Nat :=
  buffer.start + 4 + 2

end RecordBuffer
end SendBuffer
end Pilot2Cloud
