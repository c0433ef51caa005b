import Pilot2Cloud.Foundation.Truncation

/-!
# Binary floating-point numbers

A number of a format has a digit and those of a fraction over an exponent that is
at least that of the lowest place.  A result is rounded to a multiple of the last
place that its own size allows, and to an even one between two; this is a nearest
number of the format.  What is too large becomes infinite.
-/

namespace Foundation

section Integers

variable {value : ℚ} {bound : Int}

/-- The nearest integer, an even one between two. -/
def roundHalfEven (value : ℚ) : Int :=
  if value - ⌊value⌋ < 1 / 2 then ⌊value⌋
  else if 1 / 2 < value - ⌊value⌋ then ⌊value⌋ + 1
  else if ⌊value⌋ % 2 = 0 then ⌊value⌋
  else ⌊value⌋ + 1

/-- Rounding does not go below the floor. -/
theorem floor_le_roundHalfEven : ⌊value⌋ ≤ roundHalfEven value := by
  unfold roundHalfEven
  split_ifs <;> omega

/-- Rounding does not go above the next whole number. -/
theorem roundHalfEven_le_floor_add_one : roundHalfEven value ≤ ⌊value⌋ + 1 := by
  unfold roundHalfEven
  split_ifs <;> omega

/-- Rounding does not go below a whole number. -/
theorem le_roundHalfEven (isBound : (bound : ℚ) ≤ value) :
    bound ≤ roundHalfEven value :=
  (Int.le_floor.mpr isBound).trans floor_le_roundHalfEven

@[simp] theorem roundHalfEven_intCast : roundHalfEven (bound : ℚ) = bound := by
  unfold roundHalfEven
  rw [Int.floor_intCast, sub_self, if_pos (by norm_num)]

/-- Rounding does not go above a whole number. -/
theorem roundHalfEven_le (isBound : value ≤ bound) :
    roundHalfEven value ≤ bound := by
  obtain rfl | isLess := eq_or_lt_of_le isBound
  · rw [roundHalfEven_intCast]
  · exact roundHalfEven_le_floor_add_one.trans
      (Int.add_one_le_iff.mpr (Int.floor_lt.mpr isLess))

/-- Rounding changes a value by a half at most. -/
theorem abs_roundHalfEven_sub_le_half (value : ℚ) :
    |(roundHalfEven value : ℚ) - value| ≤ 1 / 2 := by
  have below := Int.floor_le value
  have above := Int.lt_floor_add_one value
  unfold roundHalfEven
  rw [abs_le]
  split_ifs <;> push_cast <;> constructor <;> linarith

/-- No integer is nearer. -/
theorem abs_roundHalfEven_sub_le (other : Int) :
    |(roundHalfEven value : ℚ) - value| ≤ |(other : ℚ) - value| := by
  by_cases isSame : other = roundHalfEven value
  · rw [isSame]
  · have apart : (1 : ℚ) ≤ |(other : ℚ) - roundHalfEven value| := by
      have isNonzero : other - roundHalfEven value ≠ 0 := sub_ne_zero.mpr isSame
      exact_mod_cast Int.one_le_abs isNonzero
    have near := abs_roundHalfEven_sub_le_half value
    have triangle : |(other : ℚ) - roundHalfEven value| ≤
        |(other : ℚ) - value| + |(roundHalfEven value : ℚ) - value| := by
      rw [abs_sub_comm (roundHalfEven value : ℚ)]
      exact abs_sub_le _ _ _
    linarith

/-- What rounds to at most an even integer. -/
theorem roundHalfEven_le_iff (isEven : bound % 2 = 0) :
    roundHalfEven value ≤ bound ↔ value ≤ bound + 1 / 2 := by
  have below := Int.floor_le value
  have above := Int.lt_floor_add_one value
  constructor
  · intro isRounded
    have near := abs_le.mp (abs_roundHalfEven_sub_le_half value)
    have isCast : (roundHalfEven value : ℚ) ≤ bound := by exact_mod_cast isRounded
    linarith
  · intro isBelow
    by_cases isFloor : bound ≤ ⌊value⌋
    · have isCast : (bound : ℚ) ≤ ⌊value⌋ := by exact_mod_cast isFloor
      have isSame : ⌊value⌋ = bound := by
        refine le_antisymm ?_ isFloor
        rw [← Int.lt_add_one_iff, ← @Int.cast_lt ℚ]
        push_cast
        linarith
      unfold roundHalfEven
      rw [isSame]
      split_ifs with isLess isMore
      · exact le_rfl
      · linarith
      · exact le_rfl
    · exact roundHalfEven_le_floor_add_one.trans (by omega)

/-- The nearest integer, away from zero between two: `std::round`. -/
def roundHalfAway (value : ℚ) : Int :=
  if 0 ≤ value then ⌊value + 1 / 2⌋ else ⌈value - 1 / 2⌉

theorem roundHalfAway_of_nonneg (nonneg : 0 ≤ value) :
    roundHalfAway value = ⌊value + 1 / 2⌋ :=
  if_pos nonneg

end Integers

/-- The digits of a fraction, the exponent of the lowest place, and the exponent
from which on numbers are too large. -/
structure BinaryFormat where
  fraction : Nat
  lowest : Int
  limit : Nat
  lowest_nonpos : lowest ≤ 0
  fraction_lt : fraction < limit

namespace BinaryFormat

/-- A number with a digit and those of a fraction over an exponent that is at
least the lowest one. -/
def HasDigits (format : BinaryFormat) (value : ℚ) : Prop :=
  ∃ digits exponent : Int,
    |digits| < 2 ^ (format.fraction + 1) ∧ format.lowest ≤ exponent ∧
      value = digits * 2 ^ exponent

/-- The exponent of the last place of a number. -/
def lastPlace (format : BinaryFormat) (value : ℚ) : Int :=
  max (Int.log 2 |value| - format.fraction) format.lowest

/-- The number that a result is rounded to. -/
def round (format : BinaryFormat) (value : ℚ) : ℚ :=
  roundHalfEven (value / 2 ^ format.lastPlace value) *
    2 ^ format.lastPlace value

section Rounding

variable {format : BinaryFormat} {value : ℚ}

/-- An integer of few digits is a number of every format. -/
theorem hasDigits_intCast {number : Int}
    (few : |number| < 2 ^ (format.fraction + 1)) :
    format.HasDigits number :=
  ⟨number, 0, few, format.lowest_nonpos, by simp⟩

/-- Powers of two have one digit. -/
theorem hasDigits_two_pow (exponent : Nat) : format.HasDigits (2 ^ exponent) :=
  ⟨1, exponent, one_lt_pow₀ (by norm_num) (Nat.succ_ne_zero _),
    format.lowest_nonpos.trans (Int.natCast_nonneg _), by simp⟩

/-- A number has the digits of its negative. -/
theorem HasDigits.neg (hasDigits : format.HasDigits value) :
    format.HasDigits (-value) := by
  obtain ⟨digits, exponent, few, isLowest, isValue⟩ := hasDigits
  refine ⟨-digits, exponent, by rwa [abs_neg], isLowest, ?_⟩
  rw [isValue]
  push_cast
  ring

theorem lastPlace_pos (format : BinaryFormat) (value : ℚ) :
    (0 : ℚ) < 2 ^ format.lastPlace value :=
  zpow_pos (by norm_num) _

/-- The digits in front of the last place. -/
theorem abs_div_lastPlace_lt (format : BinaryFormat) (value : ℚ) :
    |value / 2 ^ format.lastPlace value| < 2 ^ (format.fraction + 1) := by
  have bound : |value| < 2 ^ (Int.log 2 |value| + 1) :=
    mod_cast Int.lt_zpow_succ_log_self (by norm_num : 1 < 2) |value|
  rw [abs_div, abs_of_pos (format.lastPlace_pos value),
    div_lt_iff₀ (format.lastPlace_pos value)]
  calc
    |value| < 2 ^ (Int.log 2 |value| + 1) := bound
    _ ≤ 2 ^ ((format.fraction + 1 : Nat) + format.lastPlace value) := by
        apply zpow_le_zpow_right₀ (by norm_num)
        unfold lastPlace
        omega
    _ = 2 ^ (format.fraction + 1) * 2 ^ format.lastPlace value := by
        rw [zpow_add₀ (by norm_num)]
        norm_cast

/-- A rounded value has the digits of the format. -/
theorem hasDigits_round : format.HasDigits (format.round value) := by
  obtain ⟨below, above⟩ := abs_lt.mp (format.abs_div_lastPlace_lt value)
  have upper : roundHalfEven (value / 2 ^ format.lastPlace value) ≤
      2 ^ (format.fraction + 1) :=
    roundHalfEven_le (by push_cast; exact above.le)
  have lower : -2 ^ (format.fraction + 1) ≤
      roundHalfEven (value / 2 ^ format.lastPlace value) :=
    le_roundHalfEven (by push_cast; exact below.le)
  have isLowest : format.lowest ≤ format.lastPlace value := le_max_right _ _
  unfold round
  by_cases isWide : |roundHalfEven (value / 2 ^ format.lastPlace value)| =
      2 ^ (format.fraction + 1)
  · -- the digits are a power of two, which one place more has with less of them
    have isLess : (2 : Int) ^ format.fraction < 2 ^ (format.fraction + 1) :=
      pow_lt_pow_right₀ (by norm_num) (Nat.lt_succ_self _)
    have isEven : ∃ half, roundHalfEven (value / 2 ^ format.lastPlace value) =
        half * 2 ∧ |half| < 2 ^ (format.fraction + 1) := by
      obtain isPositive | isNegative := abs_eq (by norm_num) |>.mp isWide
      · exact ⟨2 ^ format.fraction, by rw [isPositive, pow_succ],
          by rwa [abs_of_pos (by positivity)]⟩
      · exact ⟨-2 ^ format.fraction, by rw [isNegative, pow_succ, neg_mul],
          by rwa [abs_neg, abs_of_pos (by positivity)]⟩
    obtain ⟨half, isHalf, few⟩ := isEven
    refine ⟨half, format.lastPlace value + 1, few, by omega, ?_⟩
    rw [isHalf, zpow_add_one₀ (by norm_num)]
    push_cast
    ring
  · refine ⟨_, _, ?_, isLowest, rfl⟩
    exact lt_of_le_of_ne (abs_le.mpr ⟨lower, upper⟩) isWide

/-- The error of rounding is that of the quotient in last places. -/
theorem abs_round_sub :
    |format.round value - value| =
      |(roundHalfEven (value / 2 ^ format.lastPlace value) : ℚ) -
        value / 2 ^ format.lastPlace value| * 2 ^ format.lastPlace value := by
  have isScaled : format.round value - value =
      ((roundHalfEven (value / 2 ^ format.lastPlace value) : ℚ) -
        value / 2 ^ format.lastPlace value) * 2 ^ format.lastPlace value := by
    rw [sub_mul, div_mul_cancel₀ _ (format.lastPlace_pos value).ne']
    rfl
  rw [isScaled, abs_mul, abs_of_pos (format.lastPlace_pos value)]

@[simp] theorem round_zero (format : BinaryFormat) : format.round 0 = 0 := by
  unfold round
  rw [zero_div, ← Int.cast_zero, roundHalfEven_intCast, Int.cast_zero, zero_mul]

/-- No multiple of the last place is nearer. -/
theorem abs_round_sub_le_multiple (format : BinaryFormat) (value : ℚ)
    (digits : Int) :
    |format.round value - value| ≤
      |digits * 2 ^ format.lastPlace value - value| := by
  have isScaled : |(digits : ℚ) * 2 ^ format.lastPlace value - value| =
      |(digits : ℚ) - value / 2 ^ format.lastPlace value| *
        2 ^ format.lastPlace value := by
    rw [← abs_of_pos (format.lastPlace_pos value), ← abs_mul, sub_mul,
      abs_of_pos (format.lastPlace_pos value),
      div_mul_cancel₀ _ (format.lastPlace_pos value).ne']
  rw [isScaled, abs_round_sub]
  exact mul_le_mul_of_nonneg_right (abs_roundHalfEven_sub_le digits)
    (format.lastPlace_pos value).le

/-- The start of the binade of a normal number. -/
theorem start_le_abs (isNormal : format.lowest < format.lastPlace value)
    (nonzero : value ≠ 0) :
    (2 : ℚ) ^ format.fraction * 2 ^ format.lastPlace value ≤ |value| := by
  have inBinade : (2 : ℚ) ^ Int.log 2 |value| ≤ |value| :=
    mod_cast Int.zpow_log_le_self (by norm_num : 1 < 2) (abs_pos.mpr nonzero)
  have isPlace :
      format.lastPlace value + format.fraction = Int.log 2 |value| := by
    unfold lastPlace at isNormal ⊢
    omega
  calc
    (2 : ℚ) ^ format.fraction * 2 ^ format.lastPlace value =
        2 ^ (format.lastPlace value + format.fraction) := by
      rw [zpow_add₀ (by norm_num), mul_comm]
      norm_cast
    _ ≤ |value| := by rwa [isPlace]

/-- A normal value is no smaller than the start of its places. -/
theorem start_le (positive : 0 < value)
    (isNormal : format.lowest < format.lastPlace value) :
    (2 : ℚ) ^ format.fraction * 2 ^ format.lastPlace value ≤ value :=
  (start_le_abs isNormal positive.ne').trans_eq (abs_of_pos positive)

/-- The start of the binade, with the sign of the number, is as near as what is
below the binade. -/
theorem abs_round_sub_le_of_small {other : ℚ}
    (isNormal : format.lowest < format.lastPlace value)
    (isSmall : |other| ≤ 2 ^ format.fraction * 2 ^ format.lastPlace value) :
    |format.round value - value| ≤ |other - value| := by
  by_cases isZero : value = 0
  · rw [isZero, round_zero, sub_zero, abs_zero]
    exact abs_nonneg _
  have isStart := start_le_abs isNormal isZero
  have isDistance : |value| - 2 ^ format.fraction * 2 ^ format.lastPlace value ≤
      |other - value| := by
    have triangle := abs_sub_abs_le_abs_sub value other
    rw [abs_sub_comm value other] at triangle
    linarith
  refine le_trans ?_ isDistance
  obtain isPositive | isNegative := lt_or_gt_of_ne isZero |>.symm
  · have isCast : (((2 : Int) ^ format.fraction : Int) : ℚ) =
        2 ^ format.fraction := by
      norm_num
    have near :=
      format.abs_round_sub_le_multiple value ((2 : Int) ^ format.fraction)
    rw [abs_of_pos isPositive] at isStart ⊢
    rwa [isCast,
      abs_sub_comm (2 ^ format.fraction * 2 ^ format.lastPlace value) value,
      abs_of_nonneg (sub_nonneg.mpr isStart)] at near
  · have isCast : ((-(2 : Int) ^ format.fraction : Int) : ℚ) =
        -2 ^ format.fraction := by
      norm_num
    have near :=
      format.abs_round_sub_le_multiple value (-(2 : Int) ^ format.fraction)
    rw [abs_of_neg isNegative] at isStart ⊢
    have isNonneg : 0 ≤
        -(2 : ℚ) ^ format.fraction * 2 ^ format.lastPlace value - value := by
      rw [neg_mul]
      linarith
    rw [isCast, abs_of_nonneg isNonneg] at near
    rw [neg_mul] at near
    linarith

/-- No number of the format is nearer to a result. -/
theorem abs_round_sub_le (value : ℚ) {other : ℚ}
    (hasDigits : format.HasDigits other) :
    |format.round value - value| ≤ |other - value| := by
  obtain ⟨digits, exponent, few, isLowest, rfl⟩ := hasDigits
  by_cases isFine : exponent < format.lastPlace value
  · -- `other` is below the binade of the result
    apply abs_round_sub_le_of_small (by omega)
    have isDigits : |(digits : ℚ)| ≤ 2 ^ (format.fraction + 1) := by
      exact_mod_cast few.le
    have isUnit : (0 : ℚ) < 2 ^ exponent := zpow_pos (by norm_num) _
    calc
      |(digits : ℚ) * 2 ^ exponent| ≤
          2 ^ (format.fraction + 1) * 2 ^ exponent := by
          rw [abs_mul, abs_of_pos isUnit]
          exact mul_le_mul_of_nonneg_right isDigits isUnit.le
      _ = 2 ^ format.fraction * 2 ^ (exponent + 1) := by
          rw [zpow_add_one₀ (by norm_num)]
          ring
      _ ≤ 2 ^ format.fraction * 2 ^ format.lastPlace value := by
          apply mul_le_mul_of_nonneg_left _ (by norm_num)
          exact zpow_le_zpow_right₀ (by norm_num) (by omega)
  · obtain ⟨more, isMore⟩ :
        ∃ more : Nat, exponent = format.lastPlace value + more :=
      ⟨(exponent - format.lastPlace value).toNat, by omega⟩
    have isMultiple : (digits : ℚ) * 2 ^ exponent =
        ((digits * 2 ^ more : Int) : ℚ) * 2 ^ format.lastPlace value := by
      rw [isMore, zpow_add₀ (by norm_num)]
      push_cast
      rw [zpow_natCast]
      ring
    rw [isMultiple]
    exact format.abs_round_sub_le_multiple value _

/-- Rounding does not pass a number of the format. -/
theorem le_round {other : ℚ} (hasDigits : format.HasDigits other)
    (isBelow : other ≤ value) : other ≤ format.round value := by
  by_contra isPassed
  have near := abs_round_sub_le value hasDigits
  rw [abs_sub_comm, abs_sub_comm other, abs_of_nonneg (sub_nonneg.mpr isBelow),
    abs_of_nonneg (sub_nonneg.mpr ((not_le.mp isPassed).le.trans isBelow))] at near
  linarith [not_le.mp isPassed]

/-- Rounding does not go above a number with the digits of the format. -/
theorem round_le {other : ℚ} (hasDigits : format.HasDigits other)
    (isAbove : value ≤ other) : format.round value ≤ other := by
  by_contra isPassed
  have near := abs_round_sub_le value hasDigits
  rw [abs_of_nonneg (sub_nonneg.mpr isAbove),
    abs_of_nonneg (sub_nonneg.mpr (isAbove.trans (not_le.mp isPassed).le))] at near
  linarith [not_le.mp isPassed]

/-- The place of the last digit is no more than that of a bound. -/
theorem lastPlace_le {bound : ℚ} (nonzero : value ≠ 0) (isBound : |value| ≤ bound)
    (isNormal : 2 ^ (format.lowest + format.fraction) ≤ bound) :
    (2 : ℚ) ^ format.lastPlace value ≤ bound / 2 ^ format.fraction := by
  have positive : 0 < bound := (abs_pos.mpr nonzero).trans_le isBound
  have inBinade : (2 : ℚ) ^ Int.log 2 bound ≤ bound :=
    mod_cast Int.zpow_log_le_self (by norm_num : 1 < 2) positive
  have isLowest : format.lowest + format.fraction ≤ Int.log 2 bound := by
    rw [← Int.zpow_le_iff_le_log (by norm_num) positive]
    exact_mod_cast isNormal
  have isLess : Int.log 2 |value| ≤ Int.log 2 bound :=
    Int.log_mono_right (abs_pos.mpr nonzero) isBound
  rw [le_div_iff₀ (by positivity)]
  calc
    (2 : ℚ) ^ format.lastPlace value * 2 ^ format.fraction =
        2 ^ (format.lastPlace value + format.fraction) := by
      rw [zpow_add₀ (by norm_num)]
      norm_cast
    _ ≤ 2 ^ Int.log 2 bound := by
      apply zpow_le_zpow_right₀ (by norm_num)
      unfold lastPlace
      omega
    _ ≤ bound := inBinade

/-- A result is rounded by at most half of the last place of a bound. -/
theorem abs_round_sub_le_of_le {bound : ℚ} (isBound : |value| ≤ bound)
    (isNormal : 2 ^ (format.lowest + format.fraction) ≤ bound) :
    |format.round value - value| ≤ bound / 2 ^ (format.fraction + 1) := by
  by_cases isZero : value = 0
  · rw [isZero, round_zero, sub_zero, abs_zero]
    have nonneg : 0 ≤ bound := (abs_nonneg value).trans isBound
    positivity
  · have isHalf := abs_roundHalfEven_sub_le_half
      (value / 2 ^ format.lastPlace value)
    rw [abs_round_sub]
    calc
      _ ≤ 1 / 2 * (2 : ℚ) ^ format.lastPlace value :=
        mul_le_mul_of_nonneg_right isHalf (format.lastPlace_pos value).le
      _ ≤ 1 / 2 * (bound / 2 ^ format.fraction) :=
        mul_le_mul_of_nonneg_left (lastPlace_le isZero isBound isNormal)
          (by norm_num)
      _ = bound / 2 ^ (format.fraction + 1) := by
        rw [pow_succ]
        ring

/-- Rounding does not go above a multiple of the last place. -/
theorem round_le_of_place {digits : Int}
    (isBelow : value ≤ digits * 2 ^ format.lastPlace value) :
    format.round value ≤ digits * 2 ^ format.lastPlace value := by
  have isDigits : roundHalfEven (value / 2 ^ format.lastPlace value) ≤ digits :=
    roundHalfEven_le ((div_le_iff₀ (format.lastPlace_pos value)).mpr isBelow)
  exact mul_le_mul_of_nonneg_right (by exact_mod_cast isDigits)
    (format.lastPlace_pos value).le

/-- Rounding does not go below a multiple of the last place. -/
theorem le_round_of_place {digits : Int}
    (isAbove : digits * 2 ^ format.lastPlace value ≤ value) :
    digits * 2 ^ format.lastPlace value ≤ format.round value := by
  have isDigits : digits ≤ roundHalfEven (value / 2 ^ format.lastPlace value) :=
    le_roundHalfEven ((le_div_iff₀ (format.lastPlace_pos value)).mpr isAbove)
  exact mul_le_mul_of_nonneg_right (by exact_mod_cast isDigits)
    (format.lastPlace_pos value).le

/-- A result is rounded to at most a number with even digits just if it is at
most the middle between this and the next number. -/
theorem round_le_iff {digits exponent : Int} (positive : 0 < value)
    (isLowest : format.lowest ≤ exponent) (isStart : 2 ^ format.fraction ≤ digits)
    (few : digits < 2 ^ (format.fraction + 1)) (isEven : digits % 2 = 0) :
    format.round value ≤ digits * 2 ^ exponent ↔
      value ≤ (digits + 1 / 2) * 2 ^ exponent := by
  have isStart : (2 : ℚ) ^ format.fraction ≤ digits := by exact_mod_cast isStart
  have few : (digits : ℚ) + 1 ≤ 2 ^ (format.fraction + 1) := by
    exact_mod_cast few
  have isUnit : (0 : ℚ) < 2 ^ exponent := zpow_pos (by norm_num) _
  obtain isLess | rfl | isMore := lt_trichotomy (format.lastPlace value) exponent
  · -- the whole binade of the result is below
    have isNext : (2 : ℚ) ^ (format.fraction + 1) * 2 ^ format.lastPlace value ≤
        digits * 2 ^ exponent := by
      calc
        (2 : ℚ) ^ (format.fraction + 1) * 2 ^ format.lastPlace value =
            2 ^ format.fraction * 2 ^ (format.lastPlace value + 1) := by
          rw [zpow_add_one₀ (by norm_num)]
          ring
        _ ≤ 2 ^ format.fraction * 2 ^ exponent := by
          apply mul_le_mul_of_nonneg_left _ (by norm_num)
          exact zpow_le_zpow_right₀ (by norm_num) (by omega)
        _ ≤ digits * 2 ^ exponent :=
          mul_le_mul_of_nonneg_right isStart isUnit.le
    have inBinade : value ≤ ((2 ^ (format.fraction + 1) : Int) : ℚ) *
        2 ^ format.lastPlace value := by
      have bound := (abs_lt.mp (format.abs_div_lastPlace_lt value)).2
      rw [div_lt_iff₀ (format.lastPlace_pos value)] at bound
      push_cast
      exact bound.le
    have isRounded := round_le_of_place inBinade
    push_cast at inBinade isRounded
    refine iff_of_true (isRounded.trans isNext) ?_
    refine (inBinade.trans isNext).trans ?_
    exact mul_le_mul_of_nonneg_right (by linarith) isUnit.le
  · unfold round
    rw [mul_le_mul_iff_left₀ (format.lastPlace_pos value),
      ← div_le_iff₀ (format.lastPlace_pos value), ← roundHalfEven_le_iff isEven]
    exact_mod_cast Iff.rfl
  · -- the whole binade of the result is above
    have isNext : (2 : ℚ) ^ (format.fraction + 1) * 2 ^ exponent ≤
        2 ^ format.fraction * 2 ^ format.lastPlace value := by
      calc
        (2 : ℚ) ^ (format.fraction + 1) * 2 ^ exponent =
            2 ^ format.fraction * 2 ^ (exponent + 1) := by
          rw [zpow_add_one₀ (by norm_num)]
          ring
        _ ≤ 2 ^ format.fraction * 2 ^ format.lastPlace value := by
          apply mul_le_mul_of_nonneg_left _ (by norm_num)
          exact zpow_le_zpow_right₀ (by norm_num) (by omega)
    have isNormal : format.lowest < format.lastPlace value := by omega
    have isBinade := start_le positive isNormal
    have isRounded :
        ((2 ^ format.fraction : Int) : ℚ) * 2 ^ format.lastPlace value ≤
        format.round value := by
      apply le_round_of_place
      push_cast
      exact isBinade
    push_cast at isRounded
    have isLarge : (digits + 1) * 2 ^ exponent ≤
        (2 : ℚ) ^ (format.fraction + 1) * 2 ^ exponent :=
      mul_le_mul_of_nonneg_right few isUnit.le
    refine iff_of_false (not_le.mpr ?_) (not_le.mpr ?_)
    · linarith
    · linarith

end Rounding

end BinaryFormat

/-- A value of a format. -/
inductive BinaryFloat (format : BinaryFormat)
  | nan
  | infinite (negative : Bool)
  | finite (value : ℚ)
      (isNumber : format.HasDigits value ∧ |value| < 2 ^ format.limit)
  deriving DecidableEq

namespace BinaryFloat

variable {format : BinaryFormat}

/-- The value for an exact result. -/
def ofExact (value : ℚ) : BinaryFloat format :=
  if fits : |format.round value| < 2 ^ format.limit then
    .finite (format.round value) ⟨BinaryFormat.hasDigits_round, fits⟩
  else .infinite (value < 0)

/-- An integer that the format has. -/
def ofInt (value : Int) (few : |value| < 2 ^ (format.fraction + 1)) :
    BinaryFloat format :=
  .finite value (by
    refine ⟨BinaryFormat.hasDigits_intCast few, ?_⟩
    have isFew : |(value : ℚ)| < 2 ^ (format.fraction + 1) := by
      exact_mod_cast few
    exact isFew.trans_le
      (pow_le_pow_right₀ (by norm_num) format.fraction_lt))

/-- Positive zero. -/
def zero : BinaryFloat format := ofInt 0 (by norm_num)

/-- Division, where zero by zero and infinity by infinity give no number. -/
def divide : BinaryFloat format → BinaryFloat format → BinaryFloat format
  | .finite left _, .finite right _ =>
      if right = 0 then
        if left = 0 then .nan else .infinite (left < 0)
      else ofExact (left / right)
  | .infinite negative, .finite right _ =>
      .infinite (negative != decide (right < 0))
  | .finite _ _, .infinite _ => zero
  | _, _ => .nan

/-- The other sign. -/
def negate : BinaryFloat format → BinaryFloat format
  | .nan => .nan
  | .infinite negative => .infinite !negative
  | .finite value isNumber =>
      .finite (-value) ⟨isNumber.1.neg, by rw [abs_neg]; exact isNumber.2⟩

/-- Addition, where infinities of different signs give no number. -/
def add : BinaryFloat format → BinaryFloat format → BinaryFloat format
  | .finite left _, .finite right _ => ofExact (left + right)
  | .infinite negative, .infinite other =>
      if negative = other then .infinite negative else .nan
  | .infinite negative, .finite _ _ => .infinite negative
  | .finite _ _, .infinite negative => .infinite negative
  | _, _ => .nan

/-- Subtraction adds the negated number. -/
def sub (left right : BinaryFloat format) : BinaryFloat format :=
  left.add right.negate

/-- Multiplication, where zero times infinity gives no number. -/
def mul : BinaryFloat format → BinaryFloat format → BinaryFloat format
  | .finite left _, .finite right _ => ofExact (left * right)
  | .infinite negative, .infinite other => .infinite (negative != other)
  | .infinite negative, .finite right _ =>
      if right = 0 then .nan else .infinite (negative != decide (right < 0))
  | .finite left _, .infinite negative =>
      if left = 0 then .nan else .infinite (negative != decide (left < 0))
  | _, _ => .nan

/-- `left <= right`, which is false for what is not a number. -/
def le : BinaryFloat format → BinaryFloat format → Bool
  | .nan, _ => false
  | _, .nan => false
  | .infinite true, _ => true
  | _, .infinite false => true
  | .finite left _, .finite right _ => left ≤ right
  | _, _ => false

/-- A strict comparison, which fails for what is not a number. -/
def lt (left right : BinaryFloat format) : Bool := left.le right && !right.le left

/-- The value for a result between two numbers of the format is between them. -/
theorem ofExact_between {lower upper value : ℚ}
    (lowerDigits : format.HasDigits lower)
    (upperDigits : format.HasDigits upper) (fits : |lower| < 2 ^ format.limit)
    (upperFits : |upper| < 2 ^ format.limit) (above : lower ≤ value)
    (below : value ≤ upper) :
    ∃ number isNumber,
      (ofExact value : BinaryFloat format) = .finite number isNumber ∧
      lower ≤ number ∧ number ≤ upper := by
  have isAbove := BinaryFormat.le_round lowerDigits above
  have isBelow := BinaryFormat.round_le upperDigits below
  have isFinite : |format.round value| < 2 ^ format.limit := by
    rw [abs_lt] at fits upperFits ⊢
    exact ⟨fits.1.trans_le isAbove, isBelow.trans_lt upperFits.2⟩
  exact ⟨format.round value, ⟨BinaryFormat.hasDigits_round, isFinite⟩,
    dif_pos isFinite, isAbove, isBelow⟩

/-! ## Order -/

/-- Where a number stands, with infinities at the ends. -/
def place : BinaryFloat format → Option (WithBot (WithTop ℚ))
  | .nan => none
  | .infinite true => some ⊥
  | .infinite false => some ⊤
  | .finite value _ => some (value : ℚ)

section Order

variable {first second third left right : BinaryFloat format}

/-- Numbers are compared by their places. -/
theorem le_iff : left.le right = true ↔
    ∃ lower ∈ left.place, ∃ upper ∈ right.place, lower ≤ upper := by
  cases left with
  | nan => simp [le, place]
  | infinite negative =>
      cases negative with
      | true =>
          cases right with
          | nan => simp [le, place]
          | infinite other => cases other <;> simp [le, place]
          | finite _ _ => simp [le, place]
      | false =>
          cases right with
          | nan => simp [le, place]
          | infinite other => cases other <;> simp [le, place]
          | finite _ _ => simp [le, place]
  | finite value _ =>
      cases right with
      | nan => simp [le, place]
      | infinite other => cases other <;> simp [le, place]
      | finite _ _ => simp [le, place]

/-- The order is transitive. -/
theorem le_trans (lower : first.le second = true)
    (upper : second.le third = true) : first.le third = true := by
  rw [le_iff] at lower upper ⊢
  obtain ⟨low, isLow, middle, isMiddle, below⟩ := lower
  obtain ⟨other, isOther, high, isHigh, above⟩ := upper
  obtain rfl := Option.mem_unique isMiddle isOther
  exact ⟨low, isLow, high, isHigh, below.trans above⟩

end Order

/-! ## The operators -/

instance : Zero (BinaryFloat format) := ⟨zero⟩

instance : One (BinaryFloat format) :=
  ⟨ofInt 1 (one_lt_pow₀ (by norm_num) (Nat.succ_ne_zero _))⟩

instance : NatCast (BinaryFloat format) := ⟨fun value => ofExact value⟩

instance : IntCast (BinaryFloat format) := ⟨fun value => ofExact value⟩

instance : Neg (BinaryFloat format) := ⟨negate⟩

instance : Add (BinaryFloat format) := ⟨add⟩

instance : Sub (BinaryFloat format) := ⟨sub⟩

instance : Mul (BinaryFloat format) := ⟨mul⟩

instance : Div (BinaryFloat format) := ⟨divide⟩

instance : LT (BinaryFloat format) := ⟨fun left right => left.lt right = true⟩

instance : DecidableLT (BinaryFloat format) := fun left right =>
  inferInstanceAs (Decidable (left.lt right = true))

instance : LE (BinaryFloat format) := ⟨fun left right => left.le right = true⟩

instance : DecidableLE (BinaryFloat format) := fun left right =>
  inferInstanceAs (Decidable (left.le right = true))

/-- Computation with the rounding of the format. -/
instance : Arithmetic (BinaryFloat format) where

/-- What is not a finite number has no integer. -/
instance : ToSigned32 (BinaryFloat format) where
  toSigned32
    | .finite value _ => toSigned32 value
    | _ => none
  fits value result defined := by
    cases value with
    | nan | infinite _ => cases defined
    | finite value _ => exact ToSigned32.fits value result defined

section Operators

variable {first second third left right : BinaryFloat format}

/-- Numbers are strictly compared by their places. -/
theorem lt_iff : left < right ↔
    ∃ lower ∈ left.place, ∃ upper ∈ right.place, lower < upper := by
  change (left.le right && !right.le left) = true ↔ _
  rw [Bool.and_eq_true, Bool.not_eq_true', ← Bool.not_eq_true, le_iff, le_iff]
  constructor
  · rintro ⟨⟨lower, isLower, upper, isUpper, -⟩, notAbove⟩
    refine ⟨lower, isLower, upper, isUpper, not_le.mp ?_⟩
    intro isAbove
    exact notAbove ⟨upper, isUpper, lower, isLower, isAbove⟩
  · rintro ⟨lower, isLower, upper, isUpper, isLess⟩
    refine ⟨⟨lower, isLower, upper, isUpper, isLess.le⟩, ?_⟩
    rintro ⟨other, isOther, least, isLeast, isAbove⟩
    obtain rfl := Option.mem_unique isUpper isOther
    obtain rfl := Option.mem_unique isLower isLeast
    exact isAbove.not_gt isLess

@[simp] theorem not_nan_lt : ¬(.nan : BinaryFloat format) < right := by
  rw [lt_iff]
  simp [place]

@[simp] theorem not_lt_nan : ¬left < (.nan : BinaryFloat format) := by
  rw [lt_iff]
  simp [place]

/-- The strict order is irreflexive. -/
theorem lt_irrefl (value : BinaryFloat format) : ¬value < value := by
  rw [lt_iff]
  rintro ⟨lower, isLower, upper, isUpper, isLess⟩
  obtain rfl := Option.mem_unique isLower isUpper
  exact isLess.false

/-- The strict order is transitive. -/
theorem lt_trans (lower : first < second) (upper : second < third) :
    first < third := by
  rw [lt_iff] at lower upper ⊢
  obtain ⟨low, isLow, middle, isMiddle, below⟩ := lower
  obtain ⟨other, isOther, high, isHigh, above⟩ := upper
  obtain rfl := Option.mem_unique isMiddle isOther
  exact ⟨low, isLow, high, isHigh, below.trans above⟩

instance : IsStrictOrder (BinaryFloat format) (· < ·) where
  irrefl := lt_irrefl
  trans _ _ _ := lt_trans

/-- Any number is above the one or below the other of two that are apart. -/
theorem lt_or_lt (isLess : left < right) {value : BinaryFloat format}
    (isNumber : value ≠ .nan) : left < value ∨ value < right := by
  simp only [lt_iff] at isLess ⊢
  obtain ⟨lower, isLower, upper, isUpper, isLess⟩ := isLess
  obtain ⟨middle, isMiddle⟩ : ∃ middle, middle ∈ value.place := by
    cases value with
    | nan => exact absurd rfl isNumber
    | infinite negative => cases negative <;> exact ⟨_, rfl⟩
    | finite value _ => exact ⟨_, rfl⟩
  obtain isAbove | isBelow := lt_or_ge lower middle
  · exact .inl ⟨lower, isLower, middle, isMiddle, isAbove⟩
  · exact .inr ⟨middle, isMiddle, upper, isUpper, isBelow.trans_lt isLess⟩

/-- Finite numbers are compared as rational ones. -/
theorem finite_lt_iff {value other : ℚ} {isNumber : _} {isOther : _} :
    (.finite value isNumber : BinaryFloat format) < .finite other isOther ↔
      value < other := by
  rw [lt_iff]
  simp [place]

@[simp] theorem nan_add : (.nan : BinaryFloat format) + right = .nan :=
  rfl

@[simp] theorem add_nan : left + (.nan : BinaryFloat format) = .nan := by
  cases left <;> rfl

@[simp] theorem nan_sub : (.nan : BinaryFloat format) - right = .nan :=
  rfl

@[simp] theorem sub_nan : left - (.nan : BinaryFloat format) = .nan :=
  add_nan

@[simp] theorem nan_mul : (.nan : BinaryFloat format) * right = .nan :=
  rfl

@[simp] theorem mul_nan : left * (.nan : BinaryFloat format) = .nan := by
  cases left <;> rfl

@[simp] theorem nan_div : (.nan : BinaryFloat format) / right = .nan :=
  rfl

@[simp] theorem div_nan : left / (.nan : BinaryFloat format) = .nan := by
  cases left <;> rfl

end Operators

/-! ## Finite values -/

/-- The number that a finite value is. -/
def exact : BinaryFloat format → Option ℚ
  | .finite value _ => some value
  | _ => none

section Exact

variable {left right value : BinaryFloat format} {number other result : ℚ}

/-- An exact value is a number. -/
theorem ne_nan_of_exact (isExact : value.exact = some number) :
    value ≠ .nan := by
  rintro rfl
  cases isExact

/-- Exact values are compared as rational numbers. -/
theorem exact_le_iff (isExact : left.exact = some number)
    (isOther : right.exact = some other) : left ≤ right ↔ number ≤ other := by
  cases left with
  | nan | infinite _ => cases isExact
  | finite value _ =>
      cases right with
      | nan | infinite _ => cases isOther
      | finite next _ =>
          obtain rfl := Option.some_inj.mp isExact
          obtain rfl := Option.some_inj.mp isOther
          exact decide_eq_true_iff

/-- Exact values are strictly compared as rational numbers. -/
theorem exact_lt_iff (isExact : left.exact = some number)
    (isOther : right.exact = some other) : left < right ↔ number < other := by
  cases left with
  | nan | infinite _ => cases isExact
  | finite value _ =>
      cases right with
      | nan | infinite _ => cases isOther
      | finite next _ =>
          obtain rfl := Option.some_inj.mp isExact
          obtain rfl := Option.some_inj.mp isOther
          exact finite_lt_iff

/-- What an exact result is rounded to, if this is finite. -/
theorem exact_ofExact :
    (ofExact number : BinaryFloat format).exact = some result ↔
      result = format.round number ∧
        |format.round number| < 2 ^ format.limit := by
  unfold ofExact
  split
  · next fits => simp [exact, fits, eq_comm]
  · next large => simp [exact, large]

/-- The negative of an exact value. -/
theorem exact_negate :
    (-value).exact = some number ↔ value.exact = some (-number) := by
  cases value with
  | nan | infinite _ => exact iff_of_false nofun nofun
  | finite value _ =>
      change some (-value) = some number ↔ some value = some (-number)
      rw [Option.some_inj, Option.some_inj, neg_eq_iff_eq_neg]

/-- The sum of two numbers is finite when its rounded value is. -/
theorem exact_add (isNumber : left.exact = some number)
    (isOther : right.exact = some other)
    (fits : |format.round (number + other)| < 2 ^ format.limit) :
    (left + right).exact = some (format.round (number + other)) := by
  cases left with
  | nan | infinite _ => cases isNumber
  | finite first _ =>
      cases right with
      | nan | infinite _ => cases isOther
      | finite second _ =>
          obtain rfl := Option.some_inj.mp isNumber
          obtain rfl := Option.some_inj.mp isOther
          exact exact_ofExact.mpr ⟨rfl, fits⟩

/-- The difference of exact values is rounded if it fits. -/
theorem exact_sub (isNumber : left.exact = some number)
    (isOther : right.exact = some other)
    (fits : |format.round (number - other)| < 2 ^ format.limit) :
    (left - right).exact = some (format.round (number - other)) := by
  have isNegated : (-right).exact = some (-other) :=
    exact_negate.mpr (by rwa [neg_neg])
  rw [sub_eq_add_neg] at fits ⊢
  exact exact_add isNumber isNegated fits

/-- A finite sum is that of two numbers, rounded. -/
theorem of_exact_add (isExact : (left + right).exact = some result) :
    ∃ number ∈ left.exact, ∃ other ∈ right.exact,
      result = format.round (number + other) := by
  change (left.add right).exact = some result at isExact
  cases left with
  | nan => cases isExact
  | infinite negative =>
      cases right with
      | nan | finite _ _ => cases isExact
      | infinite other =>
          dsimp only [add] at isExact
          split at isExact <;> cases isExact
  | finite number _ =>
      cases right with
      | nan | infinite _ => cases isExact
      | finite other _ =>
          exact ⟨number, rfl, other, rfl, (exact_ofExact.mp isExact).1⟩

/-- An exact difference is the rounded one of exact values. -/
theorem of_exact_sub (isExact : (left - right).exact = some result) :
    ∃ number ∈ left.exact, ∃ other ∈ right.exact,
      result = format.round (number - other) := by
  obtain ⟨number, isNumber, other, isOther, isResult⟩ := of_exact_add isExact
  refine ⟨number, isNumber, -other, exact_negate.mp isOther, ?_⟩
  rw [isResult, sub_neg_eq_add]

/-- A finite product is that of two numbers, rounded. -/
theorem of_exact_mul (isExact : (left * right).exact = some result) :
    ∃ number ∈ left.exact, ∃ other ∈ right.exact,
      result = format.round (number * other) := by
  change (left.mul right).exact = some result at isExact
  cases left with
  | nan => cases isExact
  | infinite negative =>
      cases right with
      | nan | infinite _ => cases isExact
      | finite other _ =>
          dsimp only [mul] at isExact
          split at isExact <;> cases isExact
  | finite number _ =>
      cases right with
      | nan => cases isExact
      | infinite _ =>
          dsimp only [mul] at isExact
          split at isExact <;> cases isExact
      | finite other _ =>
          exact ⟨number, rfl, other, rfl, (exact_ofExact.mp isExact).1⟩

/-- A finite quotient with a finite divisor is that of two numbers, rounded. -/
theorem of_exact_div (isExact : (left / right).exact = some result)
    (isOther : right.exact = some other) :
    other ≠ 0 ∧
      ∃ number ∈ left.exact, result = format.round (number / other) := by
  change (left.divide right).exact = some result at isExact
  cases right with
  | nan | infinite _ => cases isOther
  | finite divisor _ =>
      obtain rfl := Option.some_inj.mp isOther
      cases left with
      | nan | infinite _ => cases isExact
      | finite number _ =>
          dsimp only [divide] at isExact
          split at isExact
          · split at isExact <;> cases isExact
          · next nonzero =>
              exact ⟨nonzero, number, rfl, (exact_ofExact.mp isExact).1⟩

/-- Only exact values are converted. -/
theorem of_toSigned32 {index : Int} (defined : toSigned32 value = some index) :
    ∃ number ∈ value.exact, index = truncate number := by
  cases value with
  | nan | infinite _ => cases defined
  | finite number _ => exact ⟨number, rfl, eq_truncate_of_toSigned32 defined⟩

/-- The number that a value is, and zero for what is no number. -/
def toRat (value : BinaryFloat format) : ℚ :=
  value.exact.getD 0

/-- An exact value is the rational number it stands for. -/
theorem toRat_of_exact (isExact : value.exact = some number) :
    value.toRat = number := by
  rw [toRat, isExact, Option.getD_some]

/-- The rational number of a negative. -/
theorem toRat_neg (isExact : value.exact = some value.toRat) :
    (-value).toRat = -value.toRat :=
  toRat_of_exact (exact_negate.mpr (by rwa [neg_neg]))

/-- The value is a number of at most some size. -/
structure Within (value : BinaryFloat format) (bound : ℚ) : Prop where
  exact : value.exact = some value.toRat
  bound : |value.toRat| ≤ bound

/-- The negative lies within the same bound. -/
theorem Within.neg {bound : ℚ} (isWithin : value.Within bound) :
    (-value).Within bound where
  exact := by
    rw [toRat_neg isWithin.exact, exact_negate, neg_neg]
    exact isWithin.exact
  bound := by
    rw [toRat_neg isWithin.exact, abs_neg]
    exact isWithin.bound

end Exact

end BinaryFloat

/-! ## Formats -/

/-- Single precision. -/
def single : BinaryFormat := ⟨23, -149, 128, by norm_num, by norm_num⟩

@[simp] theorem single_fraction : single.fraction = 23 := rfl

@[simp] theorem single_lowest : single.lowest = -149 := rfl

@[simp] theorem single_limit : single.limit = 128 := rfl

/-- Double precision. -/
def double : BinaryFormat := ⟨52, -1074, 1024, by norm_num, by norm_num⟩

/-- A value of single precision, `FLOAT`. -/
abbrev Binary32 := BinaryFloat single

/-- A value of double precision, `DOUBLE`. -/
abbrev Binary64 := BinaryFloat double

end Foundation
