import Mathlib.Order.Monotone.Basic
import Mathlib.Tactic.IntervalCases
import Mathlib.Tactic.Linarith

/-!
# The Gregorian calendar

The days of the calendar are numbered from 1970-01-01 on.  A closed formula
gives the number of a date.  The number of the first day of a year grows by the
length of the year, and within a year the numbers follow the months.
-/

namespace Foundation
namespace Calendar

/-- Every fourth year is a leap year, except for the centuries that 400 does not
divide. -/
def IsLeapYear (year : Nat) : Prop :=
  (year % 4 = 0 ∧ year % 100 ≠ 0) ∨ year % 400 = 0

instance (year : Nat) : Decidable (IsLeapYear year) :=
  inferInstanceAs (Decidable (_ ∨ _))

/-- The number of days in a year. -/
def yearLength (year : Nat) : Nat :=
  if IsLeapYear year then 366 else 365

/-- The lengths of the months. -/
def monthLengths (year : Nat) : List Nat :=
  [31, if IsLeapYear year then 29 else 28, 31, 30, 31, 30, 31, 31, 30, 31, 30,
    31]

/-- The number of a date, from the number of days since the 1st of March of a
year that 400 divides. -/
def daysFromCivil (year month day : Int) : Int :=
  let y := if month ≤ 2 then year - 1 else year
  let era := y / 400
  let yoe := y - era * 400
  let doy := (153 * (if 2 < month then month - 3 else month + 9) + 2) / 5 +
    day - 1
  let doe := yoe * 365 + yoe / 4 - yoe / 100 + doy
  era * 146097 + doe - 719468

/-- The day of the week, from Sunday on.  1970-01-01 was a Thursday. -/
def weekday (day : Int) : Int :=
  (day + 4) % 7

/-- Every year has a day. -/
theorem yearLength_pos (year : Nat) : 0 < yearLength year := by
  unfold yearLength
  split <;> decide

/-- The months make up the year. -/
@[simp] theorem sum_monthLengths (year : Nat) :
    (monthLengths year).sum = yearLength year := by
  unfold monthLengths yearLength
  split <;> rfl

/-- The days are counted from 1970 on. -/
@[simp] theorem daysFromCivil_epoch : daysFromCivil 1970 1 1 = 0 := by
  decide

/-- The number of the first day of a year, which belongs to the year before it
when years start in March. -/
theorem daysFromCivil_first (year : Int) :
    daysFromCivil year 1 1 =
      (year - 1) / 400 * 146097 + ((year - 1) % 400 * 365 +
        (year - 1) % 400 / 4 - (year - 1) % 400 / 100 + 306) - 719468 := by
  unfold daysFromCivil
  simp
  omega

/-- The number of the first day of a year grows by the length of the year. -/
theorem daysFromCivil_succ (year : Nat) :
    daysFromCivil (year + 1 : Nat) 1 1 =
      daysFromCivil year 1 1 + yearLength year := by
  rw [daysFromCivil_first, daysFromCivil_first]
  by_cases leap : IsLeapYear year
  · rw [yearLength, if_pos leap]
    unfold IsLeapYear at leap
    push_cast
    omega
  · rw [yearLength, if_neg leap]
    unfold IsLeapYear at leap
    push_cast
    omega

/-- Later years start later. -/
theorem daysFromCivil_mono {early late : Nat} (isLater : early ≤ late) :
    daysFromCivil early 1 1 ≤ daysFromCivil late 1 1 := by
  induction isLater with
  | refl => exact Int.le_refl _
  | step _ inductionHypothesis =>
      rw [daysFromCivil_succ]
      omega

/-- The number of a date from the number of the first day of its year. -/
theorem daysFromCivil_eq (year : Nat) {month : Nat} (isMonth : month < 12)
    (day : Nat) :
    daysFromCivil year (month + 1 : Nat) (day + 1 : Nat) =
      daysFromCivil year 1 1 + ((monthLengths year).take month).sum + day := by
  rw [daysFromCivil_first]
  unfold daysFromCivil monthLengths
  by_cases leap : IsLeapYear year
  · rw [if_pos leap]
    unfold IsLeapYear at leap
    interval_cases month <;> simp <;> omega
  · rw [if_neg leap]
    unfold IsLeapYear at leap
    interval_cases month <;> simp <;> omega

end Calendar
end Foundation
