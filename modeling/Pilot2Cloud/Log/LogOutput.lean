import Pilot2Cloud.Foundation.Reservations
import Pilot2Cloud.Foundation.SortedMap
import Pilot2Cloud.Log.LogSpace

/-!
# The output of log messages

A thread that logs takes a number, puts the address of its message under it
into a map, prints the message and marks it as written.  The log thread takes
the map as a whole and collects the messages in the order of their numbers.  A
message that is not written yet and all later ones go into a map of their own,
with which the next run begins.
-/

namespace Pilot2Cloud
namespace Log

open Foundation

/-! ## Messages and maps -/

/-- `SYMBOL_LOG_WRITE_COMPLETE`. -/
def SYMBOL_LOG_WRITE_COMPLETE : UInt8 := 0x0E

/-- `SYMBOL_LOG_NOT_WRITTEN`. -/
def SYMBOL_LOG_NOT_WRITTEN : UInt8 := 0x0F

/-- `SYMBOL_SET_USE_APPLICATION_SPACE`. -/
def SYMBOL_SET_USE_APPLICATION_SPACE : UInt8 := 0xEF

/-- The bytes of a message. -/
abbrev LogText := List UInt8

/-- What is at the address of a message: the tag, and the text two bytes behind
it. -/
structure TaggedText where
  tag : UInt8
  text : LogText

/-- A message, which is complete unless its tag says that it is not written. -/
def TaggedText.record (message : TaggedText) (address : Nat) :
    Reservation Nat LogText :=
  if message.tag &&& 0x0F = SYMBOL_LOG_NOT_WRITTEN then
    .draft address message.text
  else .complete message.text

/-- `LogInfoList`, a map from numbers to the addresses that were pushed under
them. -/
abbrev LogInfoList := SortedMap Int (List Nat)

/-- The key for a number of type `U32`, which is converted to `int`. -/
def intKey (number : UInt32) : Int :=
  number.toInt32.toInt

/-- `map[number].push_back(address)`. -/
def LogInfoList.pushBack (map : LogInfoList) (number : UInt32)
    (address : Nat) : LogInfoList :=
  map.assign (intKey number)
    ((map.find (intKey number)).getD [] ++ [address])

/-- The values of a map, in the order of the keys. -/
def LogInfoList.values (map : LogInfoList) : List (List Nat) :=
  map.entries.map Prod.snd

/-- Where the log thread is in `pf_log_send`. -/
inductive Sender
  | idle
  /-- In the loop over a map, which is `g_stLocalLogMapInfo` at first and then
  `g_stLogMapInfo`. -/
  | traversal (isLocal : Bool) (rest : List (List Nat)) (flag : Bool)
      (strInfo : LogText)
  /-- Between the two loops. -/
  | between (flag : Bool)

namespace Sender

/-- What is left of the map. -/
def rest : Sender → List (List Nat)
  | traversal _ rest _ _ => rest
  | idle | between _ => []

/-- What was collected and is not written to the output. -/
def text : Sender → LogText
  | traversal _ _ _ strInfo => strInfo
  | idle | between _ => []

/-- All messages were complete so far. -/
def Collects : Sender → Prop
  | traversal _ _ flag _ | between flag => flag = true
  | idle => False

end Sender

/-- The counters, the two maps and the memory of the messages. -/
structure LogState where
  ulSeqNum : UInt32
  ulNewSeqNum : UInt32
  logMapInfo : LogInfoList
  localLogMapInfo : LogInfoList
  memory : Nat → TaggedText
  sender : Sender
  /-- What was written by `write_file_and_statistics`. -/
  output : LogText

/-- Nothing has been logged. -/
def LogState.initial (memory : Nat → TaggedText) : LogState where
  ulSeqNum := 0
  ulNewSeqNum := 0
  logMapInfo := .empty
  localLogMapInfo := .empty
  memory := memory
  sender := .idle
  output := []

/-! ## The log thread -/

namespace LogState

/-- Put a message into the map for the next run. -/
def keepForNextRun (state : LogState) (newTmpV : Nat) : LogState :=
  { state with
    localLogMapInfo := state.localLogMapInfo.pushBack state.ulNewSeqNum newTmpV
    ulNewSeqNum := state.ulNewSeqNum + 1 }

/-- `traversal_log_info`, with the flag and the string that it leaves. -/
def traversalLogInfo (state : LogState) (newTmpV : Nat) (flag : Bool)
    (strInformation : LogText) : LogState × Bool × LogText :=
  let message := state.memory newTmpV
  if flag then
    if message.tag &&& 0x0F = SYMBOL_LOG_NOT_WRITTEN then
      (state.keepForNextRun newTmpV, false, strInformation)
    else if message.tag &&& 0x0F = SYMBOL_LOG_WRITE_COMPLETE then
      (state, flag, strInformation ++ message.text)
    else (state, flag, strInformation)
  else (state.keepForNextRun newTmpV, flag, strInformation)

/-- One step of `pf_log_send`, undefined for a number without an address. -/
def logSend (state : LogState) : Option LogState :=
  match state.sender with
  | .idle =>
      if state.localLogMapInfo.entries = [] then
        some { state with sender := .between true }
      else
        some { state with
          localLogMapInfo := .empty
          sender := .traversal true state.localLogMapInfo.values true [] }
  | .traversal _ ([] :: _) _ _ => none
  | .traversal isLocal ((newTmpV :: _) :: rest) flag strInfo =>
      let result := state.traversalLogInfo newTmpV flag strInfo
      some { result.1 with
        sender := .traversal isLocal rest result.2.1 result.2.2 }
  | .traversal isLocal [] flag strInfo =>
      some { state with
        output := state.output ++ strInfo
        sender := if isLocal then .between flag else .idle }
  | .between flag =>
      if state.logMapInfo.entries = [] then
        some { state with sender := .idle }
      else
        some { state with
          logMapInfo := .empty
          sender := .traversal false state.logMapInfo.values flag [] }

/-! ## The threads that log -/

/-- The first part of `pf_log`: take a number for the message. -/
def reserve (state : LogState) (address : Nat) (message : TaggedText) :
    LogState :=
  { state with
    ulSeqNum := state.ulSeqNum + 1
    logMapInfo := state.logMapInfo.pushBack (state.ulSeqNum + 1) address
    memory := Function.update state.memory address message }

/-- Print something into a message. -/
def print (state : LogState) (address : Nat) (text : LogText) : LogState :=
  { state with
    memory := Function.update state.memory address
      { state.memory address with text := text } }

/-- Mark that a message has been written. -/
def markWritten (state : LogState) (address : Nat) : LogState :=
  { state with
    memory := Function.update state.memory address
      { state.memory address with tag := (state.memory address).tag - 1 } }

/-- The addresses that the log thread has not passed yet, in the order in which
it will come to them. -/
def queue (state : LogState) : List Nat :=
  state.localLogMapInfo.values.flatten ++ state.sender.rest.flatten ++
    state.logMapInfo.values.flatten

/-- The message at an address. -/
def record (state : LogState) (address : Nat) : Reservation Nat LogText :=
  (state.memory address).record address

/-- A message that its thread has not marked as written. -/
def Writing (state : LogState) (address : Nat) : Prop :=
  address ∈ state.queue ∧
    (state.memory address).tag &&& 0x0F = SYMBOL_LOG_NOT_WRITTEN

end LogState

/-- A message with the tag that `pf_thread_mon_get_log_info` sets. -/
def TaggedText.IsNew (message : TaggedText) : Prop :=
  message.tag = SYMBOL_SET_USE_LOG_SPACE ∨
    message.tag = SYMBOL_SET_USE_APPLICATION_SPACE

/-- What the threads do. -/
inductive LogLabel
  | reserve (address : Nat) (message : TaggedText)
  | print (address : Nat) (text : LogText)
  | markWritten (address : Nat)
  | send

/-- A thread gets memory that is not in use, and changes only its message. -/
inductive LogStep : LogState → LogLabel → LogState → Prop
  | reserve {state : LogState} {address : Nat} {message : TaggedText}
      (free : address ∉ state.queue) (isNew : message.IsNew) :
      LogStep state (.reserve address message) (state.reserve address message)
  | print {state : LogState} {address : Nat} (text : LogText)
      (writing : state.Writing address) :
      LogStep state (.print address text) (state.print address text)
  | markWritten {state : LogState} {address : Nat}
      (writing : state.Writing address) :
      LogStep state (.markWritten address) (state.markWritten address)
  | send {state next : LogState} (sends : state.logSend = some next) :
      LogStep state .send next

/-! ## The messages of a run -/

/-- What a label does to the messages, in the order of their reservations. -/
def LogLabel.act (records : List (Reservation Nat LogText)) :
    LogLabel → List (Reservation Nat LogText)
  | .reserve address message => records ++ [.draft address message.text]
  | .print address text => records.map (Reservation.revise address text)
  | .markWritten address => records.map (Reservation.finish address)
  | .send => records

/-- The messages that the labels have made, whatever the log thread does. -/
def messages (labels : List LogLabel) : List (Reservation Nat LogText) :=
  labels.foldl LogLabel.act []

end Log
end Pilot2Cloud
