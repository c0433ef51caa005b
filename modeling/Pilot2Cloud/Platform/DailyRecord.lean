import Mathlib.Data.Nat.Digits.Defs
import Pilot2Cloud.Foundation.Memory
import Pilot2Cloud.Foundation.Outcome
import Pilot2Cloud.Log.LocalTime

/-!
# Daily records

A record is put behind the name of its event, copied back to the message it came
in, printed to a line and appended to the file of its type.  The name and the
data are put together in a temporary buffer, and the line has 24 bytes more than
the two of them.
-/

namespace Pilot2Cloud
namespace Platform

open Foundation Memory Words Log

/-! ## What the task works on -/

/-- `PF_DAILY_RECORD_S`, with as many bytes of data as it says. -/
structure DailyRecord where
  ulType : UInt32
  ulTime : UInt32
  ulEventId : UInt32
  ulLen : UInt32
  aucData : List UInt8
  whole : aucData.length = ulLen.toNat

/-- What `pf_get_event_name` returns: a name of an event, or a text for an event
without one. -/
structure EventName where
  text : List UInt8
  noNul : (0 : UInt8) ∉ text
  notEmpty : text ≠ []
  short : text.length < 64

/-- `PF_DAILY_RECORD_IND_MAX`. -/
def PF_DAILY_RECORD_IND_MAX : Nat := 3

/-- The names of the record files. -/
def aucDRecFileName : List String :=
  ["dailyrec_ext.dat", "dailyrec_warn.dat", "dailyrec_event.dat"]

/-- The lengths of the record files. -/
def aulDRecFileLen : List Nat := [524288, 131072, 20480]

/-- The lengths of the longest records. -/
def aulDRecMaxLen : List Nat := [40960, 32, 1024]

/-- `ascPath` of a type. -/
def ascPath (ulType : Nat) : String :=
  "./log/" ++ aucDRecFileName.getD ulType ""

/-- What a call does to the files. -/
inductive FileAction
  | unlink (path : String)
  | append (path : String) (bytes : List UInt8)

/-- `ulDRecTmpSta` and `ulDRecFullSta`. -/
structure DailyStatus where
  ulDRecTmpSta : UInt32
  ulDRecFullSta : UInt32

/-- What a call finds around it: the names of the events, what is in a block
from `pf_malloc` unless there is none, the local time, and whether the file can
be opened to append the line, to append the separator and to take its length. -/
structure Surroundings where
  pfGetEventName : UInt32 → EventName
  cells : Option (Nat → UInt8)
  info : Tm
  opensForLine : Bool
  opensForEnd : Bool
  fileLength : Option Nat

/-- `pf_daily_record_set`: the message that is sent. -/
def pfDailyRecordSet (record : DailyRecord) : Option DailyRecord :=
  if PF_DAILY_RECORD_IND_MAX ≤ record.ulType.toNat ∨
      aulDRecMaxLen.getD record.ulType.toNat 0 ≤ record.ulLen.toNat then
    none
  else some record

/-! ## Texts -/

/-- The string at an offset of a region. -/
def stringAt (source : List UInt8) (offset : Nat) :
    Except Fault (List UInt8) :=
  let text := (source.drop offset).takeWhile (· ≠ 0)
  if offset + text.length < source.length then .ok text
  else .error .readPastEnd

/-- The text of a number. -/
def decimal (value : Nat) : List UInt8 :=
  if value = 0 then [48]
  else (Nat.digits 10 value).reverse.map fun digit => UInt8.ofNat (48 + digit)

/-- `%d`. -/
def printInt : Int → List UInt8
  | .ofNat value => decimal value
  | .negSucc value => 45 :: decimal (value + 1)

/-- `%04d` and `%02d` of what is not negative. -/
def printPadded (width value : Nat) : List UInt8 :=
  List.replicate (width - (decimal value).length) 48 ++ decimal value

/-- What is printed in front of the name. -/
def printHeader (info : Tm) (ulEventId ulLen : UInt32) : List UInt8 :=
  printPadded 4 (info.year + 1900) ++ printPadded 2 (info.mon + 1) ++
    printPadded 2 info.mday ++ [32] ++ printPadded 2 info.hour ++ [58] ++
    printPadded 2 info.min ++ [32] ++ printInt ulEventId.toInt32.toInt ++
    [32] ++ printInt ulLen.toInt32.toInt ++ [32]

/-- The first eight bytes of the text behind every record. -/
def separator : List UInt8 :=
  [9, 9, 13, 10, 53, 65, 65, 53]

/-! ## The task -/

/-- `pf_malloc`. -/
def allocate (cells : Option (Nat → UInt8)) (size : Nat) :
    Option (List UInt8) :=
  if size = 0 then none
  else cells.map fun cells => (List.range size).map cells

/-- The name and the data are put together in a temporary buffer, and copied to
the region of the data. -/
def joinName (block name region : List UInt8) (ulLen : Nat) :
    Except Fault (List UInt8) := do
  let pcEventNameTmp ← overwrite block 0 name
  let text ← stringAt pcEventNameTmp 0
  let pcEventNameTmp ← overwrite pcEventNameTmp text.length [10]
  let data ← read region 0 ulLen
  let pcEventNameTmp ← overwrite pcEventNameTmp (text.length + 1) data
  let joined ← read pcEventNameTmp 0 (wrap (name.length + ulLen + 1))
  overwrite region 0 joined

/-- The line is printed to a buffer of its own, and read from there. -/
def printLine (info : Tm) (ulEventId ulLen : UInt32) (ulLenTmp : Nat)
    (region : List UInt8) : Except Fault (List UInt8) := do
  let text ← stringAt region 0
  let pscData ← overwrite (List.replicate (wrap (ulLenTmp + 24)) 0) 0
    (printHeader info ulEventId ulLen ++ text ++ [0])
  stringAt pscData 0

/-- `ulDRecFullSta` has the bit of a type. -/
def IsFull (status : DailyStatus) (ulType : UInt32) : Prop :=
  (status.ulDRecFullSta >>> ulType) &&& 1 = 1

instance (status : DailyStatus) (ulType : UInt32) :
    Decidable (IsFull status ulType) :=
  inferInstanceAs (Decidable (_ = _))

/-- `pf_daily_record_full_clear` and `pf_daily_record_clear` of one type. -/
def clear (status : DailyStatus) (ulType : UInt32) :
    DailyStatus × List FileAction :=
  ({ status with
      ulDRecFullSta := status.ulDRecFullSta &&& ~~~(1 <<< ulType) },
    [.unlink (ascPath ulType.toNat)])

/-- The result of a call. -/
structure DailyResult where
  isSuccess : Bool
  status : DailyStatus
  actions : List FileAction

/-- The line and the separator are appended, and the length of the file is
looked at. -/
def writeLine (surroundings : Surroundings) (status : DailyStatus)
    (actions : List FileAction) (ulType : UInt32) (line : List UInt8) :
    DailyResult :=
  let path := ascPath ulType.toNat
  if surroundings.opensForLine = false then ⟨false, status, actions⟩ else
  let actions := actions ++ [.append path line]
  if surroundings.opensForEnd = false then ⟨false, status, actions⟩ else
  let actions := actions ++ [.append path separator]
  match surroundings.fileLength with
  | none => ⟨false, status, actions⟩
  | some ulTmpLength =>
      let ulDRecFullSta :=
        if aulDRecFileLen.getD ulType.toNat 0 < ulTmpLength then
          status.ulDRecFullSta ||| 1 <<< ulType
        else status.ulDRecFullSta
      ⟨true, ⟨status.ulDRecTmpSta ||| 1 <<< ulType, ulDRecFullSta⟩, actions⟩

/-- What is done with a record when there is a temporary buffer. -/
def recordIn (surroundings : Surroundings) (status : DailyStatus)
    (message : DailyRecord) (room block : List UInt8) :
    Except Fault DailyResult := do
  let name := (surroundings.pfGetEventName message.ulEventId).text
  let region ← joinName block name (message.aucData ++ room)
    message.ulLen.toNat
  if PF_DAILY_RECORD_IND_MAX ≤ message.ulType.toNat then
    return ⟨false, status, []⟩
  let cleared :=
    if IsFull status message.ulType then clear status message.ulType
    else (status, [])
  let line ← printLine surroundings.info message.ulEventId message.ulLen
    (wrap (name.length + message.ulLen.toNat + 1)) region
  return writeLine surroundings cleared.1 cleared.2 message.ulType line

/-- `daily_record_entry` for `PF_DAILY_RECORD_LOG_INFO`.  The message is
followed by the rest of the buffer that it is in. -/
def dailyRecordEntry (surroundings : Surroundings) (status : DailyStatus)
    (message : DailyRecord) (room : List UInt8) : Except Fault DailyResult :=
  let name := (surroundings.pfGetEventName message.ulEventId).text
  match allocate surroundings.cells
      (wrap (name.length * 2 + message.ulLen.toNat)) with
  | none => .ok ⟨false, status, []⟩
  | some block => recordIn surroundings status message room block

/-! ## What a call is for -/

/-- The bytes that are appended to a file. -/
def appendedTo (path : String) : List FileAction → List UInt8
  | [] => []
  | .unlink _ :: actions => appendedTo path actions
  | .append other bytes :: actions =>
      (if other = path then bytes else []) ++ appendedTo path actions

/-- The text of a record. -/
def recordText (surroundings : Surroundings) (message : DailyRecord) :
    List UInt8 :=
  printHeader surroundings.info message.ulEventId message.ulLen ++
    (surroundings.pfGetEventName message.ulEventId).text ++ [10] ++
    message.aucData ++ separator

/-- The text of a record is appended to the file of its type. -/
def AppendsText (surroundings : Surroundings) (message : DailyRecord)
    (result : DailyResult) : Prop :=
  appendedTo (ascPath message.ulType.toNat) result.actions =
    recordText surroundings message

/-- A call stays inside of the message and of its buffers, and appends the text
of a record whose data is a string. -/
def RecordsFaithfully (surroundings : Surroundings) (status : DailyStatus)
    (message : DailyRecord) : Prop :=
  ∃ result, dailyRecordEntry surroundings status message [] = .ok result ∧
    ((0 : UInt8) ∉ message.aucData → AppendsText surroundings message result)

variable {surroundings : Surroundings} {status : DailyStatus}
  {record message : DailyRecord} {block name region room : List UInt8}
  {ulLen : Nat}

/-! ## The message is too short -/

/-- The name, the end of its line and the data come back to the region. -/
theorem length_le_of_joinName
    (joined : joinName block name region ulLen = .ok room) :
    wrap (name.length + ulLen + 1) ≤ region.length := by
  simp only [joinName, bind_eq_ok_iff] at joined
  obtain ⟨_, -, _, -, _, -, _, -, _, -, bytes, isRead, isWritten⟩ := joined
  have inside := inside_of_read_ok isRead
  rw [read_of_inside inside] at isRead
  obtain rfl := Except.ok.inj isRead
  unfold overwrite at isWritten
  split at isWritten
  case isTrue fits =>
    rw [List.length_take, List.length_drop] at fits
    omega
  case isFalse => contradiction

/-- A record that is accepted is sent as it is, and is short. -/
theorem of_pfDailyRecordSet (accepted : pfDailyRecordSet record = some message) :
    message = record ∧ record.ulType.toNat < PF_DAILY_RECORD_IND_MAX ∧
      record.ulLen.toNat < 40960 := by
  unfold pfDailyRecordSet at accepted
  split at accepted
  case isTrue => contradiction
  case isFalse bounds =>
    rw [not_or, Nat.not_le, Nat.not_le] at bounds
    obtain ⟨isType, isShort⟩ := bounds
    refine ⟨(Option.some.inj accepted).symm, isType, isShort.trans_le ?_⟩
    unfold PF_DAILY_RECORD_IND_MAX at isType
    generalize record.ulType.toNat = ulType at isType
    interval_cases ulType <;> decide

/-- There is no room for the name behind the data. -/
theorem recordIn_error (short : message.ulLen.toNat < 40960) :
    ∃ fault, recordIn surroundings status message [] block =
      .error fault := by
  have isShort := (surroundings.pfGetEventName message.ulEventId).short
  cases joined : joinName block
      (surroundings.pfGetEventName message.ulEventId).text
      (message.aucData ++ []) message.ulLen.toNat with
  | error fault =>
      refine ⟨fault, ?_⟩
      simp only [recordIn, joined, error_bind]
  | ok next =>
      exfalso
      have fits := length_le_of_joinName joined
      rw [List.append_nil, message.whole, wrap_of_lt (by omega)] at fits
      omega

/-- Nothing is done without a temporary buffer. -/
theorem dailyRecordEntry_of_none (isNone : surroundings.cells = none) :
    dailyRecordEntry surroundings status message room =
      .ok ⟨false, status, []⟩ := by
  unfold dailyRecordEntry allocate
  rw [isNone]
  dsimp only
  split
  case h_1 => rfl
  case h_2 allocated =>
    split at allocated <;> contradiction

theorem dailyRecordEntry_of_some {cells : Nat → UInt8}
    (isCells : surroundings.cells = some cells)
    (short : message.ulLen.toNat < 40960) :
    dailyRecordEntry surroundings status message room =
      recordIn surroundings status message room
        ((List.range ((surroundings.pfGetEventName
          message.ulEventId).text.length * 2 + message.ulLen.toNat)).map
            cells) := by
  have isShort := (surroundings.pfGetEventName message.ulEventId).short
  have notEmpty := List.length_pos_iff.mpr
    (surroundings.pfGetEventName message.ulEventId).notEmpty
  unfold dailyRecordEntry allocate
  dsimp only
  rw [wrap_of_lt (by omega), if_neg (by omega), isCells]
  rfl

theorem recordText_ne_nil : recordText surroundings message ≠ [] := by
  simp [recordText, separator]

/-- A call for an accepted record stays inside of the message only when it has
no temporary buffer, and then it appends nothing. -/
theorem recordsFaithfully_iff
    (accepted : pfDailyRecordSet record = some message) :
    RecordsFaithfully surroundings status message ↔
      surroundings.cells = none ∧ (0 : UInt8) ∈ message.aucData := by
  obtain ⟨rfl, -, short⟩ := of_pfDailyRecordSet accepted
  unfold RecordsFaithfully
  cases isCells : surroundings.cells with
  | none =>
      rw [dailyRecordEntry_of_none isCells, eq_self, true_and]
      constructor
      · rintro ⟨result, isResult, appends⟩
        obtain rfl := Except.ok.inj isResult
        by_contra isText
        exact recordText_ne_nil (appends isText).symm
      · intro hasNul
        exact ⟨_, rfl, fun isText => absurd hasNul isText⟩
  | some cells =>
      rw [dailyRecordEntry_of_some isCells short]
      obtain ⟨fault, failed⟩ := @recordIn_error surroundings status message _
        short
      rw [failed]
      simp

/-- `Unknown event`. -/
def unknownEvent : EventName where
  text := [85, 110, 107, 110, 111, 119, 110, 32, 101, 118, 101, 110, 116]
  noNul := by decide
  notEmpty := by decide
  short := by decide

/-- A call at noon, when all buffers are zero and the file can be opened. -/
def atNoon : Surroundings where
  pfGetEventName := fun _ => unknownEvent
  cells := some fun _ => 0
  info := ⟨0, 0, 12, 1, 0, 125, 3, 0, 0⟩
  opensForLine := true
  opensForEnd := true
  fileLength := some 100

/-- A record of an event with one byte. -/
def oneByte : DailyRecord where
  ulType := 2
  ulTime := 0
  ulEventId := 5
  ulLen := 1
  aucData := [65]
  whole := rfl

theorem recordsFaithfully_iff_oneByte :
    pfDailyRecordSet oneByte = some oneByte ∧
      (RecordsFaithfully atNoon ⟨0, 0⟩ oneByte ↔
        atNoon.cells = none ∧ (0 : UInt8) ∈ oneByte.aucData) :=
  ⟨rfl, recordsFaithfully_iff (if_neg (by decide))⟩

/-- Fourteen bytes are written behind the one byte of the message. -/
theorem not_recordsFaithfully_oneByte :
    pfDailyRecordSet oneByte = some oneByte ∧
      ¬RecordsFaithfully atNoon ⟨0, 0⟩ oneByte := by
  refine ⟨if_neg (by decide), ?_⟩
  rw [RecordsFaithfully, dailyRecordEntry_of_some rfl (by decide)]
  obtain ⟨fault, failed⟩ := @recordIn_error atNoon ⟨0, 0⟩ oneByte _
    (by decide)
  rw [failed]
  simp

/-! ## A message with room behind it -/

section Room

variable {front old new back text rest : List UInt8}

theorem overwrite_between (same : old.length = new.length) :
    overwrite (front ++ (old ++ back)) front.length new =
      .ok (front ++ (new ++ back)) := by
  rw [overwrite_of_inside (by simp only [List.length_append]; omega),
    List.take_left, List.append_assoc, ← same, ← List.length_append,
    ← List.append_assoc front old, List.drop_left]

theorem overwrite_front (same : old.length = new.length) :
    overwrite (old ++ back) 0 new = .ok (new ++ back) :=
  @overwrite_between [] old new back same

/-- What is in front of the first zero is a string. -/
theorem stringAt_zero (noNul : (0 : UInt8) ∉ text) :
    stringAt (text ++ 0 :: rest) 0 = .ok text := by
  have isText : (text ++ 0 :: rest).takeWhile (· ≠ 0) = text := by
    rw [List.takeWhile_append_of_pos]
    · rw [List.takeWhile_cons_of_neg (by simp), List.append_nil]
    · intro byte isByte
      apply decide_eq_true
      rintro rfl
      exact noNul isByte
  unfold stringAt
  simp only [List.drop_zero, isText]
  rw [if_pos (by simp)]

/-- The name, the end of its line and the data are put together, when the
buffer had a zero behind the name. -/
theorem joinName_eq {ulLen : Nat}
    (noNul : (0 : UInt8) ∉ name) (notEmpty : name ≠ [])
    (size : block.length = name.length * 2 + ulLen)
    (endsName : block[name.length]? = some 0)
    (enough : name.length + ulLen + 1 ≤ region.length)
    (small : name.length + ulLen + 1 < 2 ^ 32) :
    joinName block name region ulLen =
      .ok (name ++ (10 :: region.take ulLen) ++
        region.drop (name.length + ulLen + 1)) := by
  have positive := List.length_pos_iff.mpr notEmpty
  -- what was in the buffer: the place of the name, the zero, and the rest
  obtain ⟨old, taken, rest, rfl, oldLength, takenLength⟩ :
      ∃ old taken rest, block = old ++ 0 :: (taken ++ rest) ∧
        old.length = name.length ∧ taken.length = ulLen := by
    obtain ⟨inside, isZero⟩ := List.getElem?_eq_some_iff.mp endsName
    refine ⟨block.take name.length, (block.drop (name.length + 1)).take ulLen,
      (block.drop (name.length + 1)).drop ulLen, ?_, ?_, ?_⟩
    · rw [List.take_append_drop, ← isZero, ← List.drop_eq_getElem_cons,
        List.take_append_drop]
    · rw [List.length_take]
      omega
    · rw [List.length_take, List.length_drop]
      omega
  have data : (region.take ulLen).length = ulLen := by
    rw [List.length_take]
    omega
  have named : overwrite (old ++ 0 :: (taken ++ rest)) 0 name =
      .ok (name ++ 0 :: (taken ++ rest)) := overwrite_front oldLength
  have ended : overwrite (name ++ 0 :: (taken ++ rest)) name.length [10] =
      .ok (name ++ 10 :: (taken ++ rest)) :=
    @overwrite_between name [0] [10] (taken ++ rest) rfl
  have filled : overwrite (name ++ 10 :: (taken ++ rest)) (name.length + 1)
      (region.take ulLen) =
      .ok (name ++ 10 :: (region.take ulLen ++ rest)) := by
    have both := @overwrite_between (name ++ [10]) taken (region.take ulLen)
      rest (takenLength.trans data.symm)
    rw [List.length_append, List.length_singleton, List.append_assoc,
      List.append_assoc] at both
    exact both
  have joined : read (name ++ 10 :: (region.take ulLen ++ rest)) 0
      (name.length + ulLen + 1) = .ok (name ++ 10 :: region.take ulLen) := by
    have isFront : (name ++ 10 :: region.take ulLen).length =
        name.length + ulLen + 1 := by
      rw [List.length_append, List.length_cons, data]
      rfl
    rw [← List.cons_append, ← List.append_assoc, ← isFront,
      read_of_inside (by simp only [List.length_append]; omega),
      List.drop_zero, List.take_left]
  have back : overwrite region 0 (name ++ 10 :: region.take ulLen) =
      .ok (name ++ 10 :: region.take ulLen ++
        region.drop (name.length + ulLen + 1)) := by
    have whole := @overwrite_front (region.take (name.length + ulLen + 1))
      (name ++ 10 :: region.take ulLen) (region.drop (name.length + ulLen + 1))
      (by
        rw [List.length_take, List.length_append, List.length_cons, data]
        omega)
    rwa [List.take_append_drop] at whole
  unfold joinName
  rw [named, ok_bind, stringAt_zero noNul, ok_bind, ended, ok_bind,
    read_of_inside (by omega), ok_bind, List.drop_zero, filled, ok_bind,
    wrap_of_lt small, joined, ok_bind, back]

/-! ## The line -/

theorem decimal_noNul (value : Nat) : (0 : UInt8) ∉ decimal value := by
  unfold decimal
  split
  · decide
  · rw [List.mem_map]
    rintro ⟨digit, isDigit, isZero⟩
    have small := Nat.digits_lt_base (by decide) (List.mem_reverse.mp isDigit)
    have same := congrArg UInt8.toNat isZero
    rw [UInt8.toNat_ofNat', UInt8.toNat_zero] at same
    omega

theorem printInt_noNul (value : Int) : (0 : UInt8) ∉ printInt value := by
  cases value with
  | ofNat value => exact decimal_noNul value
  | negSucc value =>
      rw [printInt, List.mem_cons, not_or]
      exact ⟨by decide, decimal_noNul _⟩

theorem printPadded_noNul (width value : Nat) :
    (0 : UInt8) ∉ printPadded width value := by
  rw [printPadded, List.mem_append, not_or]
  refine ⟨?_, decimal_noNul value⟩
  intro isZero
  exact absurd (List.eq_of_mem_replicate isZero) (by decide)

theorem printHeader_noNul (info : Tm) (ulEventId ulLen : UInt32) :
    (0 : UInt8) ∉ printHeader info ulEventId ulLen := by
  simp [printHeader, printPadded_noNul, printInt_noNul]

/-- The line is printed when what is in front of the name has 23 bytes at
most. -/
theorem printLine_eq {info : Tm} {ulEventId ulLen : UInt32}
    (noNul : (0 : UInt8) ∉ text) (small : text.length + 24 < 2 ^ 32) :
    printLine info ulEventId ulLen text.length (text ++ 0 :: rest) =
      if (printHeader info ulEventId ulLen).length ≤ 23 then
        .ok (printHeader info ulEventId ulLen ++ text)
      else .error .writePastEnd := by
  generalize isHeader : printHeader info ulEventId ulLen = header
  have headerNoNul : (0 : UInt8) ∉ header := by
    rw [← isHeader]
    exact printHeader_noNul info ulEventId ulLen
  unfold printLine
  rw [stringAt_zero noNul, ok_bind, wrap_of_lt small, isHeader]
  split
  case isTrue fits =>
    have size : (List.replicate (text.length + 24) (0 : UInt8)).length =
      text.length + 24 := List.length_replicate
    rw [overwrite_of_inside (by simp; omega), ok_bind, List.take_zero,
      List.nil_append, List.append_assoc _ [0], List.singleton_append]
    apply stringAt_zero
    rw [List.mem_append, not_or]
    exact ⟨headerNoNul, noNul⟩
  case isFalse long =>
    rw [overwrite, if_neg (by simp; omega)]
    rfl

end Room

/-! ## The file -/

theorem appendedTo_append (path : String) (early late : List FileAction) :
    appendedTo path (early ++ late) =
      appendedTo path early ++ appendedTo path late := by
  induction early with
  | nil => rfl
  | cons action early inductionHypothesis =>
      cases action with
      | unlink other => exact inductionHypothesis
      | append other bytes =>
          rw [List.cons_append, appendedTo, appendedTo, inductionHypothesis,
            List.append_assoc]

theorem appendedTo_writeLine {actions : List FileAction} {ulType : UInt32}
    {line : List UInt8} (opensForLine : surroundings.opensForLine = true)
    (opensForEnd : surroundings.opensForEnd = true) :
    appendedTo (ascPath ulType.toNat)
        (writeLine surroundings status actions ulType line).actions =
      appendedTo (ascPath ulType.toNat) actions ++ line ++ separator := by
  have both : appendedTo (ascPath ulType.toNat) (actions ++
      [.append (ascPath ulType.toNat) line] ++
        [.append (ascPath ulType.toNat) separator]) =
      appendedTo (ascPath ulType.toNat) actions ++ line ++ separator := by
    simp [appendedTo_append, appendedTo]
  unfold writeLine
  rw [opensForLine, opensForEnd]
  cases surroundings.fileLength with
  | none => exact both
  | some ulTmpLength => exact both

/-- In a buffer that has room for the name behind the message and a zero after
that, and with a zero in the temporary buffer behind the name, the text of a
record is appended exactly when the numbers in front of it have few digits. -/
theorem appendsText_iff {cells : Nat → UInt8}
    (accepted : pfDailyRecordSet record = some message)
    (isCells : surroundings.cells = some cells)
    (endsName : cells
      (surroundings.pfGetEventName message.ulEventId).text.length = 0)
    (endsData : room[(surroundings.pfGetEventName
      message.ulEventId).text.length + 1]? = some 0)
    (noNul : (0 : UInt8) ∉ message.aucData)
    (opensForLine : surroundings.opensForLine = true)
    (opensForEnd : surroundings.opensForEnd = true) :
    (∃ result, dailyRecordEntry surroundings status message room =
        .ok result ∧ AppendsText surroundings message result) ↔
      (printHeader surroundings.info message.ulEventId
        message.ulLen).length ≤ 23 := by
  obtain ⟨rfl, inRange, short⟩ := of_pfDailyRecordSet accepted
  have isShort := (surroundings.pfGetEventName message.ulEventId).short
  have nameNoNul := (surroundings.pfGetEventName message.ulEventId).noNul
  have notEmpty := (surroundings.pfGetEventName message.ulEventId).notEmpty
  have positive := List.length_pos_iff.mpr notEmpty
  rw [dailyRecordEntry_of_some isCells short, recordIn]
  unfold AppendsText recordText
  generalize (surroundings.pfGetEventName message.ulEventId).text = name at *
  have whole := message.whole
  obtain ⟨inRoom, isZero⟩ := List.getElem?_eq_some_iff.mp endsData
  have joined : joinName ((List.range (name.length * 2 +
      message.ulLen.toNat)).map cells) name (message.aucData ++ room)
        message.ulLen.toNat =
      .ok (name ++ 10 :: message.aucData ++
        0 :: room.drop (name.length + 2)) := by
    rw [joinName_eq nameNoNul notEmpty (by simp)
      (by
        rw [List.getElem?_map, List.getElem?_range (by omega)]
        exact congrArg some endsName)
      (by rw [List.length_append]; omega) (by omega)]
    rw [← whole, List.take_left, Nat.add_right_comm, Nat.add_comm _
      message.aucData.length, List.drop_append, List.drop_eq_nil_of_le
        (Nat.le_add_right _ _), List.nil_append, Nat.add_sub_cancel_left,
      List.drop_eq_getElem_cons inRoom, isZero]
  have textLength : (name ++ 10 :: message.aucData).length =
      name.length + message.ulLen.toNat + 1 := by
    rw [List.length_append, List.length_cons, whole]
    rfl
  have textNoNul : (0 : UInt8) ∉ name ++ 10 :: message.aucData := by
    simp [nameNoNul, noNul]
  simp only
  rw [joined, ok_bind, if_neg (by omega), wrap_of_lt (by omega),
    ← textLength, printLine_eq textNoNul (by omega)]
  by_cases few : (printHeader surroundings.info message.ulEventId
    message.ulLen).length ≤ 23
  · rw [if_pos few, ok_bind, iff_true_right few]
    refine ⟨_, rfl, ?_⟩
    rw [appendedTo_writeLine opensForLine opensForEnd]
    split <;> simp [clear, appendedTo]
  · rw [if_neg few, error_bind, iff_false_right few]
    simp

end Platform
end Pilot2Cloud
