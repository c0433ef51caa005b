import Pilot2Cloud.Foundation.CStrings
import Pilot2Cloud.Foundation.Transitions
import Pilot2Cloud.Foundation.Words

/-!
# The log space of a thread

A thread writes its log messages one after the other into an area of its own,
and starts again at the front when the log thread has left room there.  When
there is no room it writes into memory from the heap.  The log thread reads the
messages in the same order.
-/

namespace Pilot2Cloud
namespace Log

open Foundation Words

/-- `LOG_STACK_MAX_SIZE`. -/
def LOG_STACK_MAX_SIZE : Nat := 2097152

/-- `REMAINING_SPACE_SIZE`. -/
def REMAINING_SPACE_SIZE : Nat := 2148

/-- `MODULE_TASK_MAX`. -/
def MODULE_TASK_MAX : Nat := 94

/-- `SYMBOL_SET_USE_LOG_SPACE`, one more than `SYMBOL_USE_LOG_SPACE`. -/
def SYMBOL_SET_USE_LOG_SPACE : UInt8 := 0xFF

/-- The entry of `gThreadMon` for a thread.  The write and read addresses are
the start of the area with these offsets. -/
structure ThreadMon where
  ulLogAvaiMaxOffset : Nat
  ulLogWriteOffset : Nat
  ulLogReadOffset : Nat

/-- `pf_thread_mon_get_log_info`: where a message can be written and how many
bytes there are, or `none` for memory from the heap. -/
def getLogInfo (mon : ThreadMon) : Option (Nat × Nat) × ThreadMon :=
  let mon :=
    if mon.ulLogReadOffset > mon.ulLogWriteOffset then { mon with
      ulLogAvaiMaxOffset :=
        wrapSub (wrapSub mon.ulLogReadOffset mon.ulLogWriteOffset) 2 }
    else mon
  if mon.ulLogAvaiMaxOffset ≤ REMAINING_SPACE_SIZE then
    if wrap (mon.ulLogWriteOffset + REMAINING_SPACE_SIZE) ≥
          LOG_STACK_MAX_SIZE ∧
        mon.ulLogReadOffset > REMAINING_SPACE_SIZE then
      (none, { mon with
        ulLogAvaiMaxOffset := mon.ulLogReadOffset
        ulLogWriteOffset := 0 })
    else (none, mon)
  else (some (mon.ulLogWriteOffset, mon.ulLogAvaiMaxOffset), mon)

/-- `pf_thread_mon_update_read_section`. -/
def updateReadSection (mon : ThreadMon) (ulLenStatistics : Nat) : ThreadMon :=
  let mon := { mon with
    ulLogReadOffset := wrap (mon.ulLogReadOffset + ulLenStatistics) }
  if wrap (REMAINING_SPACE_SIZE + mon.ulLogReadOffset) ≥
      LOG_STACK_MAX_SIZE then { mon with
    ulLogReadOffset := 0
    ulLogAvaiMaxOffset := wrapSub LOG_STACK_MAX_SIZE mon.ulLogWriteOffset }
  else mon

/-- `pf_thread_mon_update_write_section`. -/
def updateWriteSection (mon : ThreadMon) (totaloffset : Nat) : ThreadMon :=
  { mon with
    ulLogAvaiMaxOffset := wrapSub mon.ulLogAvaiMaxOffset totaloffset
    ulLogWriteOffset := wrap (mon.ulLogWriteOffset + totaloffset) }

/-- The memory after `sprintf` has printed the header behind the two bytes of
the tag, and `vsnprintf` as much of the message as there is room for. -/
def printLog (memory : FlatMemory) (pulogWriteAddr ulAvaiMaxOffset : Nat)
    (header body : List UInt8) : FlatMemory :=
  let memory := storeBytes memory (pulogWriteAddr + 2) (header ++ [0])
  let ulSpLen := header.length
  let ulMaxLen := wrapSub (wrapSub ulAvaiMaxOffset ulSpLen) 6
  if ulMaxLen = 0 then memory
  else storeBytes memory (pulogWriteAddr + 2 + ulSpLen)
    (body.take (ulMaxLen - 1) ++ [0])

/-- What `pf_log` writes to the memory of a message, and its total length. -/
def pfLogText (memory : FlatMemory) (pulogWriteAddr ulAvaiMaxOffset : Nat)
    (header body : List UInt8) : Nat × FlatMemory :=
  let memory := printLog memory pulogWriteAddr ulAvaiMaxOffset header body
  let ulMaxLen := strlen memory LOG_STACK_MAX_SIZE pulogWriteAddr
  let memory := storeBytes memory (pulogWriteAddr + ulMaxLen) [13, 10, 0]
  let memory :=
    Function.update memory pulogWriteAddr (memory pulogWriteAddr - 1)
  (ulMaxLen + 3, memory)

/-- A message that was written into the area, from its tag to its zero. -/
structure LogMessage where
  offset : Nat
  bytes : List UInt8

/-- The part of the area that a message takes. -/
def LogMessage.region (message : LogMessage) : Region :=
  ⟨message.offset, message.bytes.length⟩

/-- How far a call of `pf_log` has come: it has space in the area, it has memory
from the heap, or it has written its message into the area. -/
inductive LogPhase where
  | idle
  | handed (offset avail : Nat)
  | heap
  | written (totaloffset : Nat)

/-- The area of a thread, its call of `pf_log`, and the messages of the area
that were written and not yet output. -/
structure LogSpace where
  mon : ThreadMon
  memory : FlatMemory
  phase : LogPhase
  unread : List LogMessage

/-- The parts of a call of `pf_log`, and the output of a message. -/
inductive LogCall where
  | getLogInfo
  | write (header body : List UInt8)
  | updateWriteSection
  | read

namespace LogSpace

variable (ulMid : Nat) (space : LogSpace)

/-- The area is empty. -/
def start (memory : FlatMemory) : LogSpace :=
  ⟨⟨LOG_STACK_MAX_SIZE, 0, 0⟩, memory, .idle, []⟩

/-- `pf_thread_mon_get_log_info`, and the two bytes that it writes. -/
def getLogInfo : LogSpace :=
  if ulMid < MODULE_TASK_MAX then
    match Log.getLogInfo space.mon with
    | (none, mon) => { space with mon, phase := .heap }
    | (some (offset, avail), mon) => { space with
        mon
        memory := storeBytes space.memory offset
          [SYMBOL_SET_USE_LOG_SPACE, UInt8.ofNat ulMid]
        phase := .handed offset avail }
  else { space with phase := .heap }

/-- `pf_log` writes a message. -/
def write (offset avail : Nat) (header body : List UInt8) : LogSpace :=
  let (totaloffset, memory) :=
    pfLogText space.memory offset avail header body
  { space with
    memory
    phase := .written totaloffset
    unread := space.unread ++ [⟨offset, bytesAt memory offset totaloffset⟩] }

/-- The log thread charges the module that the message names. -/
def read (message : LogMessage) (rest : List LogMessage) : LogSpace :=
  let mid := (space.memory (message.offset + 1)).toNat
  let ulLenStatistics :=
    strlen space.memory LOG_STACK_MAX_SIZE message.offset + 1
  { space with
    mon :=
      if mid = ulMid then updateReadSection space.mon ulLenStatistics
      else space.mon
    unread := rest }

/-- A call of the thread goes on, or the log thread outputs the oldest
message. -/
inductive Step : LogSpace → LogCall → LogSpace → Prop
  | getLogInfo {space : LogSpace} (isIdle : space.phase = .idle) :
      Step space .getLogInfo (space.getLogInfo ulMid)
  | write {space : LogSpace} {offset avail : Nat} {header body : List UInt8}
      (isHanded : space.phase = .handed offset avail) :
      Step space (.write header body) (space.write offset avail header body)
  | writeHeap {space : LogSpace} {header body : List UInt8}
      (isHeap : space.phase = .heap) :
      Step space (.write header body) { space with phase := .idle }
  | updateWriteSection {space : LogSpace} {totaloffset : Nat}
      (isWritten : space.phase = .written totaloffset) :
      Step space .updateWriteSection { space with
        mon := Log.updateWriteSection space.mon totaloffset
        phase := .idle }
  | read {space : LogSpace} {message : LogMessage} {rest : List LogMessage}
      (isOldest : space.unread = message :: rest) :
      Step space .read (space.read ulMid message rest)

/-- The space that is handed out lies in the area and apart from the messages
that are not yet output, which are as they were written, and the reader stands
at the oldest of them. -/
structure Safe : Prop where
  inside : ∀ offset avail, space.phase = .handed offset avail →
    offset + avail ≤ LOG_STACK_MAX_SIZE
  apart : ∀ offset avail, space.phase = .handed offset avail →
    ∀ message ∈ space.unread,
      message.region.Apart ⟨offset, avail⟩
  intact : ∀ message ∈ space.unread,
    bytesAt space.memory message.offset message.bytes.length = message.bytes
  oldest : ∀ message rest, space.unread = message :: rest →
    space.mon.ulLogReadOffset = message.offset

/-- The module is not 0, whose number ends a string, and the header of a message
leaves room for its end. -/
def Fits : LogCall → Prop
  | .write header _ => ∀ offset avail, space.phase = .handed offset avail →
      ulMid ≠ 0 ∧ header.length + 6 ≤ avail
  | _ => True

end LogSpace

end Log
end Pilot2Cloud
