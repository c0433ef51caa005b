import Mathlib.Algebra.Ring.Rat
import Mathlib.Data.Nat.Cast.Basic

/-!
# The distance between plates

Two characters that look alike cost less than one when the table of approximate
characters has them.  The Chinese characters of a plate and its letters and
digits are compared apart.
-/

namespace Pilot2Cloud
namespace Drc

/-- The arithmetic of `F32` as the sums use it: adding zero changes nothing.
Nothing else is asked of the rounding. -/
class F32 (F : Type) extends AddZeroClass F, NatCast F where
  natCast_zero : ((0 : Nat) : F) = 0

instance : F32 ℚ where
  natCast_zero := Nat.cast_zero

variable {F : Type} [F32 F]

/-- An approximate character with its value. -/
structure PairValue (F : Type) where
  sletter : List UInt8
  value : F

/-- A letter of the configuration with its approximate characters. -/
structure HanmingLetterInfo (F : Type) where
  sletter : List UInt8
  appcharacter : List (PairValue F)

/-- The table: its entries, in the order in which they were inserted. -/
abbrev hanmingValueMap (F : Type) := List ((List UInt8 × List UInt8) × F)

namespace hanmingValueMap

/-- `std::map::insert`, which keeps an old value. -/
def insert (map : hanmingValueMap F) (key : List UInt8 × List UInt8)
    (value : F) : hanmingValueMap F :=
  match map.lookup key with
  | some _ => map
  | none => map ++ [(key, value)]

/-- Both ordered pairs of a letter and an approximate character. -/
def insertPair (original_str : List UInt8) (map : hanmingValueMap F)
    (p : PairValue F) : hanmingValueMap F :=
  (map.insert (original_str, p.sletter) p.value).insert
    (p.sletter, original_str) p.value

end hanmingValueMap

/-- The static members of `InitHanmingDistanceValueMap`. -/
structure InitHanmingDistanceValueMap (F : Type) where
  hanmingPlateApproximateCharacterMap : hanmingValueMap F
  FuzzyMatchingSwitch : Bool

/-- The loops of `iniHanmingDistanceMap` from letter `i` on.  The inner loop
counts with `i` too: it starts at approximate character `i` and leaves `i` at
the number of approximate characters, if it was not beyond. -/
def iniLoop (mapData : List (HanmingLetterInfo F)) (map : hanmingValueMap F)
    (i : Nat) : hanmingValueMap F :=
  if inside : i < mapData.length then
    let L := mapData[i]
    iniLoop mapData
      ((L.appcharacter.drop i).foldl (hanmingValueMap.insertPair L.sletter) map)
      (max i L.appcharacter.length + 1)
  else map
termination_by mapData.length - i

/-- `iniHanmingDistanceMap`: the switch is turned on when the table has
entries. -/
def iniHanmingDistanceMap (state : InitHanmingDistanceValueMap F)
    (mapData : List (HanmingLetterInfo F)) : InitHanmingDistanceValueMap F :=
  let map := iniLoop mapData [] 0
  { hanmingPlateApproximateCharacterMap := map
    FuzzyMatchingSwitch :=
      if map.length > 0 then true else state.FuzzyMatchingSwitch }

/-- The bytes that `[A-Z0-9]` matches. -/
def isOther (byte : UInt8) : Bool :=
  (65 ≤ byte && byte ≤ 90) || (48 ≤ byte && byte ≤ 57)

/-- The bytes that the class from U+4E00 to U+9FA5 matches, which is read byte
by byte: `E4 B8`, the range from `80` to `E9`, and `BE A5`. -/
def isFilterChinese (byte : UInt8) : Bool :=
  byte == 0xE4 || byte == 0xB8 || (0x80 ≤ byte && byte ≤ 0xE9) ||
    byte == 0xBE || byte == 0xA5

namespace InitHanmingDistanceValueMap

variable (state : InitHanmingDistanceValueMap F)

/-- What two characters add that are not the same. -/
def cost (left right : List UInt8) : F :=
  if state.FuzzyMatchingSwitch then
    match state.hanmingPlateApproximateCharacterMap.lookup (left, right) with
    | some value => value
    | none => ((1 : Nat) : F)
  else ((1 : Nat) : F)

/-- The loop over the Chinese characters, which have three bytes each.  The parts
of a plate have no other bytes: what a text with fewer bytes at its end makes the
program read behind them is left out. -/
def chineseLoop : List UInt8 → List UInt8 → F → F
  | l0 :: l1 :: l2 :: left, r0 :: r1 :: r2 :: right, ans =>
      chineseLoop left right
        (if l0 ≠ r0 ∨ l1 ≠ r1 ∨ l2 ≠ r2 then
          ans + state.cost [l0, l1, l2] [r0, r1, r2]
        else ans)
  | _, _, ans => ans

/-- The loop over the letters and digits. -/
def otherLoop : List UInt8 → List UInt8 → F → F
  | l :: left, r :: right, ans =>
      otherLoop left right (if l ≠ r then ans + state.cost [l] [r] else ans)
  | _, _, ans => ans

/-- The difference of two lengths. -/
def lengthDiff (left right : Nat) : Nat := ((left : Int) - right).natAbs

/-- `hanmingDistanceForStr`. -/
def hanmingDistanceForStr (leftStr rightStr : List UInt8) (flag : Nat) : F :=
  let isEmpty := leftStr.isEmpty || rightStr.isEmpty
  if flag = 0 ∧ isEmpty then 0
  else if flag = 1 ∧ isEmpty then
    ((max leftStr.length rightStr.length : Nat) : F)
  else
    let tempLeftStrChinese := leftStr.filter (!isOther ·)
    let tempRightStrChinese := rightStr.filter (!isOther ·)
    let ans := (0 : F) + ((lengthDiff tempLeftStrChinese.length
      tempRightStrChinese.length / 3 : Nat) : F)
    let ans := state.chineseLoop tempLeftStrChinese tempRightStrChinese ans
    let tempLeftStr := leftStr.filter (!isFilterChinese ·)
    let tempRightStr := rightStr.filter (!isFilterChinese ·)
    if tempLeftStr.isEmpty || tempRightStr.isEmpty then ans
    else
      let ans :=
        ans + ((lengthDiff tempLeftStr.length tempRightStr.length : Nat) : F)
      state.otherLoop tempLeftStr tempRightStr ans

end InitHanmingDistanceValueMap

end Drc
end Pilot2Cloud
