import Mathlib.Data.List.Infix
import Pilot2Cloud.Foundation.BinaryFloat
import Pilot2Cloud.Hdmap.MapBlock

/-!
# The text of a map file

A map file is read line by line.  Strings that occur in a line tell what the
line is for, and `sscanf` reads the values on it.  Areas and lists of points
take several lines, up to a closing line or the end of the file.
-/

namespace Pilot2Cloud
namespace Hdmap

/-! ## Strings and numbers -/

/-- The characters of a text, of one byte each. -/
abbrev Text := List Char

/-- `strstr` finds the string. -/
def Contains (line : Text) (string : String) : Prop :=
  string.toList <:+: line

instance (line : Text) (string : String) : Decidable (Contains line string) :=
  inferInstanceAs (Decidable (_ <:+: _))

/-- The text from the first place where `strstr` finds the string. -/
def strstr (line : Text) (string : String) : Option Text :=
  line.tails.find? fun rest => string.toList <+: rest

/-- The characters that `isspace` accepts. -/
def isSpace (character : Char) : Bool :=
  character.isWhitespace || character = '\x0b' || character = '\x0c'

/-- The text after what `sscanf` matches with the characters of a format.  A
white space in the format matches any number of them. -/
def scanLiteral : Text → Text → Option Text
  | [], text => some text
  | directive :: format, text =>
      if isSpace directive then scanLiteral format (text.dropWhile isSpace)
      else
        match text with
        | [] => none
        | character :: rest =>
            if character = directive then scanLiteral format rest else none

/-- How `sscanf` reads a number at the start of a text: its value and the text
after it. -/
structure Scanner (K : Type*) where
  double : Text → Option (K × Text)
  int : Text → Option (Int × Text)

section Values

variable {K : Type*} (scan : Scanner K)

/-- `sscanf` with a format that ends with `%d`. -/
def scanInt (format : String) (text : Text) : Option Int :=
  (scanLiteral format.toList text).bind fun text =>
    (scan.int text).map Prod.fst

/-- `sscanf` with a format that ends with `%lf`. -/
def scanDouble (format : String) (text : Text) : Option K :=
  (scanLiteral format.toList text).bind fun text =>
    (scan.double text).map Prod.fst

/-- `sscanf` with a format that goes on with `%lf\" y=\"%lf\" z=\"%lf`. -/
def scanXyz (format : String) (text : Text) : Option (MapXyz K) :=
  (scanLiteral format.toList text).bind fun text =>
    (scan.double text).bind fun x =>
      (scanLiteral "\" y=\"".toList x.2).bind fun text =>
        (scan.double text).bind fun y =>
          (scanDouble scan "\" z=\"" y.2).map fun z => ⟨x.1, y.1, z⟩

/-- `sscanf` with a format that ends with `%s`. -/
def scanString (format : String) (text : Text) : Option Text := do
  let rest ← scanLiteral format.toList text
  let word := (rest.dropWhile isSpace).takeWhile fun character =>
    !isSpace character
  if word = [] then none else some word

end Values

/-! ## Lines -/

/-- The size of the line buffer. -/
abbrev lineMax : Nat := 1024

/-- The text up to a zero byte, which ends the string. -/
def cString (line : Text) : Text :=
  line.takeWhile fun character => character ≠ '\x00'

/-- What `getline` puts into the line buffer, one line after the other. -/
def fileLines (file : Text) : List Text :=
  (file.splitOn '\n').map cString

/-- A line does not fit into the line buffer.  `getline` then fails for ever and
does not reach the end of the file. -/
def Overlong (file : Text) : Prop :=
  ∃ line ∈ file.splitOn '\n', lineMax ≤ line.length

instance (file : Text) : Decidable (Overlong file) :=
  inferInstanceAs (Decidable (∃ line ∈ _, _))

/-! ## Elements -/

/-- The two kinds of areas. -/
inductive AreaKind
  | restriction
  | ground
  deriving DecidableEq, Repr

namespace AreaKind

/-- The string that tells the first line of an area. -/
def opening : AreaKind → String
  | restriction => "<restriction_area id="
  | ground => "<ground_area id="

/-- The format of the first line. -/
def idFormat : AreaKind → String
  | restriction => " <restriction_area id=\""
  | ground => " <ground_area id=\""

/-- The string that tells the last line of an area. -/
def closing : AreaKind → String
  | restriction => "</restriction_area>"
  | ground => "</ground_area>"

end AreaKind

/-- A line of an area with its value, if the value can be read. -/
inductive Member (K : Type*)
  | name (val : Option Text)
  | type (val : Option Int)
  | heightLimit (val : Option K)
  | extraPoints (ref : Option Int)
  deriving DecidableEq

deriving instance DecidableEq for MapXyz

/-- What is found in a file. -/
inductive Element (K : Type*)
  | block (position : MapXyz K)
  /-- The position of the block cannot be read. -/
  | badBlock
  /-- The line of the block has no string ` x=`. -/
  | brokenBlock
  | points (id : Int) (nodes : List (Option (MapXyz K)))
  | area (kind : AreaKind) (members : List (Member K))
  /-- The number of an area or of a list of points cannot be read. -/
  | unreadable
  deriving DecidableEq

/-- The loop that reads the next line, with what it has read already. -/
inductive Reading (K : Type*)
  | file
  | points (id : Int) (nodes : List (Option (MapXyz K)))
  | area (kind : AreaKind) (members : List (Member K))

/-- What a line outside of the other loops is for. -/
inductive Opened (K : Type*)
  | nothing
  | whole (element : Element K)
  | start (reading : Reading K)

section Elements

variable {K : Type*} (scan : Scanner K)

/-- What `<block` begins. -/
def blockOf (line : Text) : Element K :=
  match strstr line " x=" with
  | none => .brokenBlock
  | some pstr =>
      match scanXyz scan " x=\"" pstr with
      | none => .badBlock
      | some position => .block position

/-- What `<points` begins. -/
def openPoints (line : Text) : Opened K :=
  match scanInt scan " <points id=\"" line with
  | none => .whole .unreadable
  | some id => .start (.points id [])

/-- What an area of a kind begins. -/
def openArea (kind : AreaKind) (line : Text) : Opened K :=
  match scanInt scan kind.idFormat line with
  | none => .whole .unreadable
  | some _ => .start (.area kind [])

/-- What a line outside of every element begins. -/
def openLine (line : Text) : Opened K :=
  if Contains line "<block id=" then .whole (blockOf scan line)
  else if Contains line "<points id=" then openPoints scan line
  else if Contains line (AreaKind.opening .restriction) then
    openArea scan .restriction line
  else if Contains line (AreaKind.opening .ground) then
    openArea scan .ground line
  else .nothing

/-- What a line of an area is for.  A ground area has no height limit. -/
def memberOf (kind : AreaKind) (line : Text) : Option (Member K) :=
  if Contains line "<name val=" then
    some (.name (scanString " <name val=\"" line))
  else if Contains line "<type val=" then
    some (.type (scanInt scan " <type val=\"" line))
  else if kind = .restriction ∧ Contains line "<height_limit val=" then
    some (.heightLimit (scanDouble scan " <height_limit val=\"" line))
  else if Contains line "<extra_points ref=" then
    some (.extraPoints (scanInt scan " <extra_points ref=\"" line))
  else none

/-- The elements of a file, in the order of their first lines. -/
def elements : Reading K → List Text → List (Element K)
  | .file, [] => []
  | .points id nodes, [] => [.points id nodes]
  | .area kind members, [] => [.area kind members]
  | .file, line :: lines =>
      match openLine scan line with
      | .nothing => elements .file lines
      | .whole element => element :: elements .file lines
      | .start reading => elements reading lines
  | .points id nodes, line :: lines =>
      if Contains line "<node x=" then
        elements
          (.points id (nodes ++ [scanXyz scan " <node x=\"" line])) lines
      else if Contains line "</points>" then
        .points id nodes :: elements .file lines
      else elements (.points id nodes) lines
  | .area kind members, line :: lines =>
      match memberOf scan kind line with
      | some member => elements (.area kind (members ++ [member])) lines
      | none =>
          if Contains line kind.closing then
            .area kind members :: elements .file lines
          else elements (.area kind members) lines

/-- The elements that the second pass comes to.  It is given up at a block whose
position cannot be read. -/
def upToBadBlock : List (Element K) → List (Element K)
  | [] => []
  | .badBlock :: _ => []
  | element :: rest => element :: upToBadBlock rest

end Elements

/-! ## Decimal notation -/

section Decimal

/-- The value of some digits. -/
def digitsValue (digits : Text) : Nat :=
  digits.foldl (fun value digit => 10 * value + (digit.toNat - 48)) 0

/-- A minus sign, as a factor, and the text after it. -/
def scanSign (text : Text) : Int × Text :=
  match text.dropWhile isSpace with
  | '-' :: rest => (-1, rest)
  | rest => (1, rest)

/-- `%d`. -/
def scanDecimalInt (text : Text) : Option (Int × Text) :=
  let (sign, text) := scanSign text
  let digits := text.takeWhile Char.isDigit
  if digits = [] then none
  else some (sign * digitsValue digits, text.dropWhile Char.isDigit)

/-- The digits after a point, and the text after them. -/
def scanFraction : Text → ℚ × Text
  | '.' :: text =>
      let digits := text.takeWhile Char.isDigit
      (digitsValue digits / 10 ^ digits.length, text.dropWhile Char.isDigit)
  | text => (0, text)

/-- `%lf`. -/
def scanDecimal (text : Text) : Option (ℚ × Text) :=
  let (sign, text) := scanSign text
  let digits := text.takeWhile Char.isDigit
  if digits = [] then none
  else
    let (fraction, rest) := scanFraction (text.dropWhile Char.isDigit)
    some (sign * (digitsValue digits + fraction), rest)

/-- The numbers that have a sign, digits and a point. -/
def decimalScanner : Scanner ℚ where
  double := scanDecimal
  int := scanDecimalInt

/-- `decimalScanner` with the rounding of doubles. -/
def doubleScanner : Scanner Foundation.Binary64 where
  double text :=
    (scanDecimal text).map fun scanned => (.ofExact scanned.1, scanned.2)
  int := scanDecimalInt

end Decimal

end Hdmap
end Pilot2Cloud
