import Mathlib.Algebra.Group.Nat.Defs
import Pilot2Cloud.Foundation.Calendar

/-!
# Local time

The logger converts the seconds since 1970 to the date and the time of day eight
hours east of Greenwich.  It takes off the lengths of the years and then those
of the months.  The year is counted in an `int`.
-/

namespace Pilot2Cloud
namespace Log

open Foundation Calendar

/-- `struct tm`. -/
structure Tm where
  sec : Nat
  min : Nat
  hour : Nat
  mday : Nat
  mon : Nat
  year : Nat
  wday : Nat
  yday : Nat
  isdst : Nat
  deriving DecidableEq

/-- The loop over the years, undefined when the year exceeds an `int`. -/
def yearLoop (days year : Nat) : Option (Nat × Nat) :=
  if days < yearLength year then some (year, days)
  else if year + 1 < 2 ^ 31 then
    yearLoop (days - yearLength year) (year + 1)
  else none
termination_by days
decreasing_by
  have positive := yearLength_pos year
  omega

/-- The loop over the lengths of the months from a month on, undefined when it
goes past the array. -/
def monthLoop : List Nat → Nat → Nat → Option (Nat × Nat)
  | [], _, _ => none
  | length :: mdays, days, mon =>
      if length ≤ days then monthLoop mdays (days - length) (mon + 1)
      else some (mon, days)

/-- The local time of a number of seconds, undefined when a variable exceeds its
type. -/
def pfGetLocaltimeNolocks (t : Nat) : Option Tm := do
  if 2 ^ 63 ≤ t + 28800 then none else
  let days := (t + 28800) / 86400
  let seconds := (t + 28800) % 86400
  let (year, yday) ← yearLoop days 1970
  let (mon, mday) ← monthLoop (monthLengths year) yday 0
  return {
    sec := seconds % 3600 % 60
    min := seconds % 3600 / 60
    hour := seconds / 3600
    mday := mday + 1
    mon := mon
    year := year - 1900
    wday := (days + 4) % 7
    yday := yday
    isdst := 0 }

/-- The fields are in their ranges and denote a number of seconds since 1970. -/
structure Tm.Denotes (tm : Tm) (instant : Nat) : Prop where
  mon : tm.mon < 12
  mdayPos : 0 < tm.mday
  mday : ∀ length ∈ (monthLengths (tm.year + 1900))[tm.mon]?,
    tm.mday ≤ length
  hour : tm.hour < 24
  min : tm.min < 60
  sec : tm.sec < 60
  wday : (tm.wday : Int) =
    weekday (daysFromCivil (tm.year + 1900 : Nat) (tm.mon + 1 : Nat) tm.mday)
  yday : (tm.yday : Int) =
    daysFromCivil (tm.year + 1900 : Nat) (tm.mon + 1 : Nat) tm.mday -
      daysFromCivil (tm.year + 1900 : Nat) 1 1
  instant :
    daysFromCivil (tm.year + 1900 : Nat) (tm.mon + 1 : Nat) tm.mday * 86400 +
      tm.hour * 3600 + tm.min * 60 + tm.sec = instant

/-! ## The years -/

/-- The days of the years that are taken off are those from the first day of one
year to the first day of the other. -/
theorem yearLoop_spec {days year : Nat} (fits : year < 2 ^ 31) :
    (∃ last yday, yearLoop days year = some (last, yday) ∧ year ≤ last ∧
      last < 2 ^ 31 ∧ yday < yearLength last ∧
      daysFromCivil last 1 1 + yday = daysFromCivil year 1 1 + days) ∨
    (yearLoop days year = none ∧
      daysFromCivil (2 ^ 31 : Nat) 1 1 ≤ daysFromCivil year 1 1 + days) := by
  fun_induction yearLoop days year with
  | case1 days year inside =>
      exact .inl ⟨year, days, rfl, Nat.le_refl _, fits, inside, rfl⟩
  | case2 days year beyond next inductionHypothesis =>
      have grows := daysFromCivil_succ year
      obtain ⟨last, yday, found, later, small, inside, same⟩ |
          ⟨failed, large⟩ := inductionHypothesis next
      · exact .inl ⟨last, yday, found, by omega, small, inside, by omega⟩
      · exact .inr ⟨failed, by omega⟩
  | case3 days year beyond large =>
      have grows := daysFromCivil_succ year
      have isLast : year + 1 = 2 ^ 31 := by omega
      rw [isLast] at grows
      exact .inr ⟨rfl, by omega⟩

/-! ## The months -/

/-- The days of the months that are taken off come before the month. -/
theorem monthLoop_spec {mdays : List Nat} {days mon : Nat}
    (inside : days < mdays.sum) :
    ∃ steps mday, monthLoop mdays days mon = some (mon + steps, mday) ∧
      (∃ length, mdays[steps]? = some length ∧ mday < length) ∧
      (mdays.take steps).sum + mday = days := by
  induction mdays generalizing days mon with
  | nil =>
      rw [List.sum_nil] at inside
      omega
  | cons length mdays inductionHypothesis =>
      rw [monthLoop]
      split
      case isTrue enough =>
        rw [List.sum_cons] at inside
        obtain ⟨steps, mday, found, isLength, same⟩ :=
          @inductionHypothesis (days - length) (mon + 1) (by omega)
        refine ⟨steps + 1, mday, ?_, isLength, ?_⟩
        · rw [found]
          congr 2
          omega
        · rw [List.take_succ_cons, List.sum_cons]
          omega
      case isFalse short =>
        exact ⟨0, days, rfl, ⟨length, rfl, Nat.not_le.mp short⟩,
          Nat.zero_add days⟩

/-! ## The conversion -/

/-- The first second, in local time, of the first year that does not fit. -/
def endOfYears : Int :=
  daysFromCivil (2 ^ 31 : Nat) 1 1 * 86400

/-- Every time before the year `2 ^ 31` is converted to the fields that denote it
in the calendar. -/
theorem exists_denotes {t : Nat} (early : t + 28800 < endOfYears) :
    ∃ tm, pfGetLocaltimeNolocks t = some tm ∧ tm.Denotes (t + 28800) := by
  have inRange : ¬2 ^ 63 ≤ t + 28800 := by
    have bound : endOfYears < 2 ^ 63 := by decide
    omega
  unfold endOfYears at early
  have epoch := daysFromCivil_epoch
  obtain ⟨year, yday, found, later, -, inside, same⟩ | ⟨-, large⟩ :=
    @yearLoop_spec ((t + 28800) / 86400) 1970 (by decide)
  swap
  · rw [Nat.cast_ofNat, epoch] at large
    omega
  rw [Nat.cast_ofNat, epoch] at same
  rw [← sum_monthLengths] at inside
  obtain ⟨mon, mday, isMonth, ⟨length, isLength, short⟩, sum⟩ :=
    @monthLoop_spec _ _ 0 inside
  rw [Nat.zero_add] at isMonth
  have isMon : mon < 12 := (List.getElem?_eq_some_iff.mp isLength).1
  have date := daysFromCivil_eq year isMon mday
  have sameYear : year - 1900 + 1900 = year := by omega
  refine ⟨{
    sec := (t + 28800) % 86400 % 3600 % 60
    min := (t + 28800) % 86400 % 3600 / 60
    hour := (t + 28800) % 86400 / 3600
    mday := mday + 1
    mon := mon
    year := year - 1900
    wday := ((t + 28800) / 86400 + 4) % 7
    yday := yday
    isdst := 0 }, ?_, ?_⟩
  · unfold pfGetLocaltimeNolocks
    rw [if_neg inRange]
    simp only [found, isMonth, Option.bind_eq_bind, Option.bind_some,
      Option.pure_def]
  · exact {
      mon := isMon
      mdayPos := Nat.succ_pos mday
      mday := by
        intro other isOther
        simp only [sameYear] at isOther
        rw [isLength] at isOther
        obtain rfl := Option.some_inj.mp isOther
        exact short
      hour := by
        simp only
        omega
      min := by
        simp only
        omega
      sec := by
        simp only
        omega
      wday := by
        simp only [sameYear, date, weekday]
        omega
      yday := by
        simp only [sameYear, date]
        omega
      instant := by
        simp only [sameYear, date]
        omega }

/-- The last second of a leap year. -/
theorem exists_denotes_leapYear :
    ((978278399 : Nat) : Int) + 28800 < endOfYears ∧
      ∃ tm, pfGetLocaltimeNolocks 978278399 = some tm ∧
        tm.Denotes (978278399 + 28800) :=
  ⟨by decide, exists_denotes (by decide)⟩

/-- A later time is not converted. -/
theorem pfGetLocaltimeNolocks_of_le {t : Nat}
    (late : endOfYears ≤ t + 28800) : pfGetLocaltimeNolocks t = none := by
  have epoch := daysFromCivil_epoch
  unfold pfGetLocaltimeNolocks
  split
  · rfl
  unfold endOfYears at late
  obtain ⟨year, yday, -, -, small, inside, same⟩ | ⟨failed, -⟩ :=
    @yearLoop_spec ((t + 28800) / 86400) 1970 (by decide)
  · have grows := daysFromCivil_succ year
    have bound := daysFromCivil_mono (Nat.succ_le_of_lt small)
    rw [Nat.cast_ofNat, epoch] at same
    simp only [Nat.succ_eq_add_one] at bound
    omega
  · simp only [failed, Option.bind_eq_bind, Option.bind_none]

/-- The first second that is not converted. -/
theorem pfGetLocaltimeNolocks_eq_none :
    67767976233504000 < 2 ^ 63 ∧
      pfGetLocaltimeNolocks 67767976233504000 = none :=
  ⟨by decide, pfGetLocaltimeNolocks_of_le (by decide)⟩

end Log
end Pilot2Cloud
