import Mathlib.Data.List.Infix
import Pilot2Cloud.Foundation.Words

/-!
# Lines of a file

`pf_read_flush_file_in_line` looks for strings in a file and collects the lines
that start at them in an output buffer.  The lines that are collected are those
that leave room for the end of the string, unless a line fills the buffer
exactly.
-/

namespace Pilot2Cloud
namespace Platform

open Foundation Words

/-- The offset of the first place where a string occurs. -/
def strstr (needle : List UInt8) : List UInt8 → Option Nat
  | [] => if needle = [] then some 0 else none
  | byte :: bytes =>
      if needle <+: byte :: bytes then some 0
      else (strstr needle bytes).map (· + 1)

/-- The number of bytes up to the end of the line, or up to the end of the
file. -/
def lineLength : List UInt8 → Nat
  | [] => 0
  | byte :: bytes => if byte = 10 then 1 else lineLength bytes + 1

/-- The line from the place where a string is found.  The search ends with the
first zero byte of the file. -/
def matchedLine (pscData scSrcStr : List UInt8) : Option (List UInt8) :=
  (strstr scSrcStr (pscData.takeWhile (· ≠ 0))).map fun offset =>
    (pscData.drop offset).take (lineLength (pscData.drop offset))

/-- The bytes that a call has written, by their offsets from the start of the
output buffer. -/
abbrev Written := Nat → Option UInt8

/-- Write some bytes from an offset on. -/
def Written.store (scLine : Written) (start : Nat) (bytes : List UInt8) :
    Written := fun offset =>
  if start ≤ offset ∧ offset < start + bytes.length then
    bytes[offset - start]?
  else scLine offset

/-- `scLine` and the length of what has been read. -/
structure LineBuffer where
  scLine : Written
  ulTotalLen : Nat

namespace LineBuffer

/-- Take a line that was found to the output buffer. -/
def takeLine (ulLength : Nat) (buffer : LineBuffer) (line : List UInt8) :
    LineBuffer :=
  if ulLength < wrap (line.length + buffer.ulTotalLen) then buffer
  else
    { scLine := buffer.scLine.store buffer.ulTotalLen line
      ulTotalLen := wrap (buffer.ulTotalLen + line.length) }

/-- Look for one of the strings. -/
def takeMatch (pscData : List UInt8) (ulLength : Nat) (buffer : LineBuffer)
    (scSrcStr : List UInt8) : LineBuffer :=
  match matchedLine pscData scSrcStr with
  | none => buffer
  | some line => buffer.takeLine ulLength line

end LineBuffer

/-- `pf_read_flush_file_in_line` on the contents of a file that can be read:
what it writes to the output buffer, or `none` when it fails. -/
def pfReadFlushFileInLine (pscData : Option (List UInt8))
    (scSrcStr : List (List UInt8)) (ulLength : Nat) : Option Written :=
  if ulLength = 0 then none
  else
    match pscData with
    | none => none
    | some pscData =>
        let buffer := scSrcStr.foldl (LineBuffer.takeMatch pscData ulLength)
          ⟨fun _ => none, 0⟩
        some (buffer.scLine.store buffer.ulTotalLen [0])

/-! ## What is collected -/

/-- The lines that are found, in the order of the strings. -/
def matchedLines (pscData : List UInt8) (scSrcStr : List (List UInt8)) :
    List (List UInt8) :=
  scSrcStr.filterMap (matchedLine pscData)

/-- The lines that still fit behind some text, with the end of the string. -/
def collect (ulLength : Nat) : List UInt8 → List (List UInt8) → List UInt8
  | text, [] => text
  | text, line :: lines =>
      if text.length + line.length < ulLength then
        collect ulLength (text ++ line) lines
      else collect ulLength text lines

/-- Nothing is written outside of the buffer, and the buffer holds the string of
the lines that fit. -/
structure Written.Holds (scLine : Written) (ulLength : Nat)
    (text : List UInt8) : Prop where
  inside : ∀ offset, scLine offset ≠ none → offset < ulLength
  noZero : (0 : UInt8) ∉ text
  isString : ∀ offset, offset < (text ++ [0]).length →
    scLine offset = (text ++ [0])[offset]?

/-- No line fills the buffer exactly, no length passes `2 ^ 32`, and the lines
that fit have no zero byte. -/
def NeverFills (ulLength : Nat) : List UInt8 → List (List UInt8) → Prop
  | _, [] => True
  | text, line :: lines =>
      text.length + line.length ≠ ulLength ∧
        text.length + line.length < 2 ^ 32 ∧
          if text.length + line.length < ulLength then
            (0 : UInt8) ∉ line ∧ NeverFills ulLength (text ++ line) lines
          else NeverFills ulLength text lines

namespace Written

variable {scLine : Written} {start offset : Nat} {bytes : List UInt8}

theorem store_inside (inside : start ≤ offset)
    (below : offset < start + bytes.length) :
    scLine.store start bytes offset ≠ none := by
  unfold store
  rw [if_pos ⟨inside, below⟩]
  exact Option.isSome_iff_ne_none.mp (by simp; omega)

/-- What has been written stays written. -/
theorem store_ne_none (written : scLine offset ≠ none) :
    scLine.store start bytes offset ≠ none := by
  by_cases inside : start ≤ offset ∧ offset < start + bytes.length
  · exact store_inside inside.1 inside.2
  · unfold store
    rwa [if_neg inside]

/-- Writing behind a text makes the text longer. -/
theorem store_text (text : List UInt8) :
    store (fun offset => text[offset]?) text.length bytes =
      fun offset => (text ++ bytes)[offset]? := by
  funext offset
  unfold store
  split
  case isTrue inside => rw [List.getElem?_append_right inside.1]
  case isFalse outside =>
    obtain before | behind : offset < text.length ∨
        text.length + bytes.length ≤ offset := by omega
    · rw [List.getElem?_append_left before]
    · have textEnd : text[offset]? = none :=
        List.getElem?_eq_none (by omega)
      refine Eq.trans textEnd (Eq.symm ?_)
      rw [List.getElem?_eq_none (by rw [List.length_append]; exact behind)]

end Written

namespace LineBuffer

variable {ulLength : Nat} {buffer : LineBuffer} {line text : List UInt8}
  {lines : List (List UInt8)}

/-- The buffer holds a text. -/
def ofText (text : List UInt8) : LineBuffer :=
  ⟨fun offset => text[offset]?, text.length⟩

/-- The output buffer at the end of a call. -/
def finish (buffer : LineBuffer) : Written :=
  buffer.scLine.store buffer.ulTotalLen [0]

theorem finish_ofText :
    (ofText text).finish = fun offset => (text ++ [0])[offset]? :=
  Written.store_text text

theorem takeLine_of_fits (isNumber : ulLength < 2 ^ 32)
    (fits : text.length + line.length < ulLength) :
    (ofText text).takeLine ulLength line = ofText (text ++ line) := by
  unfold takeLine ofText
  dsimp only
  rw [wrap_of_lt (by omega), wrap_of_lt (by omega), if_neg (by omega),
    Written.store_text, List.length_append]

theorem takeLine_of_large (small : text.length + line.length < 2 ^ 32)
    (large : ulLength < text.length + line.length) :
    (ofText text).takeLine ulLength line = ofText text := by
  unfold takeLine ofText
  dsimp only
  rw [wrap_of_lt (by omega), if_pos (by omega)]

/-- The byte behind the buffer is written, or the end of the string will be. -/
def Spoiled (ulLength : Nat) (buffer : LineBuffer) : Prop :=
  buffer.scLine ulLength ≠ none ∨ buffer.ulTotalLen = ulLength

theorem Spoiled.takeLine (spoiled : buffer.Spoiled ulLength)
    (isNumber : ulLength < 2 ^ 32) :
    (buffer.takeLine ulLength line).Spoiled ulLength := by
  unfold LineBuffer.takeLine
  split
  · exact spoiled
  · obtain written | isFull := spoiled
    · exact .inl (Written.store_ne_none written)
    · cases line with
      | nil =>
          right
          dsimp only
          rw [isFull, List.length_nil, Nat.add_zero, wrap_of_lt isNumber]
      | cons byte line =>
          left
          apply Written.store_inside (Nat.le_of_eq isFull)
          rw [List.length_cons]
          omega

theorem Spoiled.foldl (spoiled : buffer.Spoiled ulLength)
    (isNumber : ulLength < 2 ^ 32) :
    (lines.foldl (LineBuffer.takeLine ulLength) buffer).Spoiled ulLength := by
  induction lines generalizing buffer with
  | nil => exact spoiled
  | cons line lines inductionHypothesis =>
      exact inductionHypothesis (spoiled.takeLine isNumber)

theorem Spoiled.not_holds (spoiled : buffer.Spoiled ulLength) :
    ¬buffer.finish.Holds ulLength text := by
  intro holds
  apply Nat.lt_irrefl ulLength
  apply holds.inside
  obtain written | isFull := spoiled
  · exact Written.store_ne_none written
  · exact Written.store_inside (Nat.le_of_eq isFull)
      (by rw [isFull]; exact Nat.lt_succ_self _)

/-- A line that is not skipped although it does not fit spoils the buffer. -/
theorem spoiled_takeLine (isNumber : ulLength < 2 ^ 32)
    (room : text.length < ulLength)
    (spoils : text.length + line.length = ulLength ∨
      2 ^ 32 ≤ text.length + line.length)
    (short : line.length < 2 ^ 32) :
    ((ofText text).takeLine ulLength line).Spoiled ulLength := by
  unfold takeLine ofText
  dsimp only
  obtain fills | wraps := spoils
  · rw [Nat.add_comm, fills, wrap_of_lt isNumber,
      if_neg (Nat.lt_irrefl _)]
    exact .inr rfl
  · have taken : ¬ulLength < wrap (line.length + text.length) := by
      unfold wrap
      omega
    rw [if_neg taken]
    left
    exact Written.store_inside (by omega) (by omega)

end LineBuffer

theorem isPrefix_collect {ulLength : Nat} {text : List UInt8}
    {lines : List (List UInt8)} :
    text <+: collect ulLength text lines := by
  induction lines generalizing text with
  | nil => exact List.prefix_rfl
  | cons line lines inductionHypothesis =>
      unfold collect
      split
      · exact (List.prefix_append text line).trans inductionHypothesis
      · exact inductionHypothesis

namespace LineBuffer

variable {ulLength : Nat} {text : List UInt8} {lines : List (List UInt8)}

/-- The lines leave the right string exactly when none of them spoils it. -/
theorem holds_foldl_iff (isNumber : ulLength < 2 ^ 32)
    (room : text.length < ulLength) (noZero : (0 : UInt8) ∉ text)
    (short : ∀ line ∈ lines, line.length < 2 ^ 32) :
    (lines.foldl (takeLine ulLength) (ofText text)).finish.Holds ulLength
        (collect ulLength text lines) ↔
      NeverFills ulLength text lines := by
  induction lines generalizing text with
  | nil =>
      refine iff_of_true ⟨?_, noZero, ?_⟩ trivial
      · intro offset isWritten
        rw [List.foldl_nil, finish_ofText] at isWritten
        by_contra outside
        exact isWritten (List.getElem?_eq_none (by
          rw [List.length_append, List.length_singleton]
          omega))
      · intro offset _
        rw [List.foldl_nil, finish_ofText]
        rfl
  | cons line lines inductionHypothesis =>
      obtain ⟨lineShort, linesShort⟩ := List.forall_mem_cons.mp short
      rw [List.foldl_cons]
      unfold NeverFills collect
      by_cases spoils : text.length + line.length = ulLength ∨
          2 ^ 32 ≤ text.length + line.length
      · have spoiled := @Spoiled.foldl _ _ lines
          (spoiled_takeLine isNumber room spoils lineShort) isNumber
        refine iff_of_false spoiled.not_holds ?_
        rintro ⟨notFull, small, -⟩
        omega
      · obtain ⟨notFull, small⟩ := not_or.mp spoils
        have isSmall := Nat.not_le.mp small
        split
        case isTrue fits =>
          rw [takeLine_of_fits isNumber fits]
          by_cases lineZero : (0 : UInt8) ∈ line
          · refine iff_of_false ?_ fun exact => exact.2.2.1 lineZero
            intro holds
            exact holds.noZero (isPrefix_collect.subset
              (List.mem_append_right _ lineZero))
          · have textNoZero : (0 : UInt8) ∉ text ++ line := by
              intro isMember
              obtain inText | inLine := List.mem_append.mp isMember
              · exact noZero inText
              · exact lineZero inLine
            rw [inductionHypothesis (by rwa [List.length_append]) textNoZero
              linesShort]
            exact ⟨fun never => ⟨notFull, isSmall, lineZero, never⟩,
              fun never => never.2.2.2⟩
        case isFalse large =>
          rw [takeLine_of_large isSmall (by omega),
            inductionHypothesis room noZero linesShort]
          exact ⟨fun never => ⟨notFull, isSmall, never⟩,
            fun never => never.2.2⟩

end LineBuffer

theorem LineBuffer.foldl_takeMatch {pscData : List UInt8} {ulLength : Nat}
    (buffer : LineBuffer) (scSrcStr : List (List UInt8)) :
    scSrcStr.foldl (takeMatch pscData ulLength) buffer =
      (matchedLines pscData scSrcStr).foldl (takeLine ulLength) buffer := by
  unfold matchedLines
  rw [List.foldl_filterMap]
  congr 1
  funext buffer needle
  unfold takeMatch
  cases matchedLine pscData needle with
  | none => rfl
  | some line => rfl

theorem length_le_of_mem_matchedLines {pscData line : List UInt8}
    {scSrcStr : List (List UInt8)}
    (isMatched : line ∈ matchedLines pscData scSrcStr) :
    line.length ≤ pscData.length := by
  obtain ⟨needle, -, isFound⟩ := List.mem_filterMap.mp isMatched
  obtain ⟨offset, -, rfl⟩ := Option.map_eq_some_iff.mp isFound
  rw [List.length_take, List.length_drop]
  omega

/-- For every file, every list of strings and every length of the output buffer,
the call stays inside of the buffer and leaves the string of the lines that fit
exactly when no line fills the buffer. -/
theorem pfReadFlushFileInLine_holds_iff {pscData : List UInt8}
    (scSrcStr : List (List UInt8)) {ulLength : Nat}
    (isLong : 0 < ulLength) (isNumber : ulLength < 2 ^ 32)
    (isFile : pscData.length < 2 ^ 32) :
    (∃ scLine, pfReadFlushFileInLine (some pscData) scSrcStr ulLength =
        some scLine ∧
      scLine.Holds ulLength
        (collect ulLength [] (matchedLines pscData scSrcStr))) ↔
      NeverFills ulLength [] (matchedLines pscData scSrcStr) := by
  have isFold : pfReadFlushFileInLine (some pscData) scSrcStr ulLength =
      some ((matchedLines pscData scSrcStr).foldl
        (LineBuffer.takeLine ulLength) (.ofText [])).finish := by
    unfold pfReadFlushFileInLine
    rw [if_neg (Nat.pos_iff_ne_zero.mp isLong)]
    dsimp only
    rw [LineBuffer.foldl_takeMatch]
    rfl
  rw [isFold]
  refine Iff.trans ?_ (LineBuffer.holds_foldl_iff isNumber isLong
    List.not_mem_nil ?_)
  · constructor
    · rintro ⟨scLine, isResult, holds⟩
      obtain rfl := Option.some_inj.mp isResult
      exact holds
    · intro holds
      exact ⟨_, rfl, holds⟩
  · intro line isMatched
    exact Nat.lt_of_le_of_lt (length_le_of_mem_matchedLines isMatched) isFile

/-- The line "bc" of the file "abc" fits in five bytes. -/
theorem pfReadFlushFileInLine_holds_iff_fits :
    ∃ scLine, pfReadFlushFileInLine (some [97, 98, 99, 10]) [[98]] 5 =
        some scLine ∧ scLine.Holds 5 [98, 99, 10] :=
  (@pfReadFlushFileInLine_holds_iff [97, 98, 99, 10] [[98]] 5 (by decide)
    (by decide) (by decide)).mpr
    ⟨by decide, by decide, ⟨by decide, trivial⟩⟩

/-- A line that fills the buffer exactly leaves the end of the string behind
it. -/
theorem not_holds_of_full :
    ¬∃ scLine, pfReadFlushFileInLine (some [97, 98, 99, 10]) [[97]] 4 =
        some scLine ∧
      scLine.Holds 4 (collect 4 [] (matchedLines [97, 98, 99, 10] [[97]])) := by
  rintro ⟨scLine, isResult, holds⟩
  obtain rfl := Option.some_inj.mp isResult
  have outside := holds.inside 4 (by decide)
  exact absurd outside (by decide)

end Platform
end Pilot2Cloud
