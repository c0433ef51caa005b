import Pilot2Cloud.Flyto.TimedHandlers
import Pilot2Cloud.Flyto.TimedMove

/-!
# The time of a move

The time that a move or a turn is held for is to be the quotient of the distance
by the speed, rounded to whole milliseconds.  The program rounds the quotient to
single precision first, which moves some quotients past the middle between two
milliseconds, and the time is only defined for distances up to 2147483.625 times
the speed.
-/

namespace Pilot2Cloud
namespace Flyto

open Foundation

/-- The move or turn has passed the checks of its handler. -/
def Admitted (offset : FlightControlOffset) (distance speed : Binary32) : Prop :=
  (∃ direction, FlytoController.handleMove direction distance =
      .ok (offset, distance, speed)) ∨
    ∃ direction zoomFactor, FlytoController.handleTurn direction distance
      zoomFactor = .ok (offset, distance, speed)

/-- The time in milliseconds is the quotient of the distance by the speed, rounded
once. -/
def IsRoundedQuotient (distance speed : Binary32) (totalMs : Int) : Prop :=
  ∃ length isLength rate isRate,
    distance = .finite length isLength ∧ speed = .finite rate isRate ∧
      totalMs = roundHalfAway (length / rate * 1000)

/-- The time fits, is split into cycles and a rest, is the rounded quotient, and
is how long the stick is held when every message is sent. -/
def TimesExactly (offset : FlightControlOffset) (distance speed : Binary32) :
    Prop :=
  ∃ totalMs fullCycles remainingMs,
    FlytoController.calculateTimingParameters distance speed =
        some (totalMs, fullCycles, remainingMs) ∧
      0 ≤ totalMs ∧ totalMs < 2 ^ 31 ∧
      totalMs = fullCycles * cycleDurationMs + remainingMs ∧
      0 ≤ remainingMs ∧ remainingMs < cycleDurationMs ∧
      IsRoundedQuotient distance speed totalMs ∧
      ∃ attempts,
        FlytoController.executeTimedControl (fun _ => true) offset distance
            speed = some (true, attempts) ∧
          (attempts.map Attempt.heldMs).sum = totalMs

/-- No middle between two milliseconds separates a time in seconds from another
one. -/
def SameMs (seconds other : ℚ) : Prop :=
  ∀ ms : Int, (ms + 1 / 2 : ℚ) ≤ seconds * 1000 ↔
    (ms + 1 / 2 : ℚ) ≤ other * 1000

/-- The distance is a number and at most 2147483.625 times the speed, and single
precision has the quotient to the millisecond. -/
def Timeable (distance speed : Binary32) : Prop :=
  ∃ length isLength rate isRate,
    distance = .finite length isLength ∧ speed = .finite rate isRate ∧
      length ≤ 17179869 / 8 * rate ∧
      SameMs (length / rate) (single.round (length / rate))

variable {offset : FlightControlOffset} {distance speed : Binary32}

/-- An admitted distance is positive. -/
theorem Admitted.not_le (admitted : Admitted offset distance speed) :
    distance.le .zero = false := by
  obtain ⟨direction, isMove⟩ | ⟨direction, zoomFactor, isTurn⟩ := admitted
  · unfold FlytoController.handleMove at isMove
    dsimp only at isMove
    split at isMove
    · cases isMove
    · split_ifs at isMove with isShort
      exact Bool.eq_false_iff.mpr isShort
  · unfold FlytoController.handleTurn at isTurn
    split at isTurn
    · cases isTurn
    · split_ifs at isTurn with isShort
      · exact Bool.eq_false_iff.mpr isShort
      · exact Bool.eq_false_iff.mpr isShort

/-- The speed of a move or turn is a positive number. -/
theorem Admitted.exists_speed (admitted : Admitted offset distance speed) :
    ∃ rate isRate, speed = .finite rate isRate ∧ 0 < rate := by
  obtain ⟨direction, isMove⟩ | ⟨direction, zoomFactor, isTurn⟩ := admitted
  · unfold FlytoController.handleMove at isMove
    dsimp only at isMove
    split at isMove
    · cases isMove
    · split_ifs at isMove
      obtain ⟨-, -, rfl⟩ := Prod.mk.inj (Except.ok.inj isMove) |>.imp id
        Prod.mk.inj
      exact ⟨_, _, rfl, by norm_num⟩
  · have isPositive (zoom : Binary32) : ∃ rate isRate,
        yawSpeedForZoom zoom = .finite rate isRate ∧ 0 < rate := by
      obtain ⟨rate, isRate, isSpeed, isLow, -⟩ := within_yawSpeedForZoom zoom
      push_cast at isLow
      exact ⟨rate, isRate, isSpeed, by linarith⟩
    unfold FlytoController.handleTurn at isTurn
    split at isTurn
    · cases isTurn
    · split_ifs at isTurn
      · obtain ⟨-, -, rfl⟩ := Prod.mk.inj (Except.ok.inj isTurn) |>.imp id
          Prod.mk.inj
        exact isPositive _
      · obtain ⟨-, -, rfl⟩ := Prod.mk.inj (Except.ok.inj isTurn) |>.imp id
          Prod.mk.inj
        exact isPositive _

/-! ## The conversion -/

/-- Times that are not negative have the same millisecond just if they are
rounded to the same one. -/
theorem sameMs_iff {seconds other : ℚ} (nonneg : 0 ≤ seconds)
    (otherNonneg : 0 ≤ other) :
    SameMs seconds other ↔
      roundHalfAway (seconds * 1000) = roundHalfAway (other * 1000) := by
  have isBelow (ms : Int) (time : ℚ) :
      (ms + 1 / 2 : ℚ) ≤ time ↔ ms + 1 ≤ ⌊time + 1 / 2⌋ := by
    rw [Int.le_floor]
    push_cast
    constructor
    · intro le
      linarith
    · intro le
      linarith
  rw [roundHalfAway_of_nonneg (by linarith),
    roundHalfAway_of_nonneg (by linarith)]
  unfold SameMs
  simp only [isBelow]
  constructor
  · intro same
    apply le_antisymm
    · have below := same (⌊seconds * 1000 + 1 / 2⌋ - 1)
      rw [sub_add_cancel] at below
      exact below.mp le_rfl
    · have below := same (⌊other * 1000 + 1 / 2⌋ - 1)
      rw [sub_add_cancel] at below
      exact below.mpr le_rfl
  · intro same ms
    rw [same]

section Conversion

variable {length rate : ℚ}
  {isLength : single.HasDigits length ∧ |length| < 2 ^ 128}
  {isRate : single.HasDigits rate ∧ |rate| < 2 ^ 128}

/-- A whole number is not changed by the conversion. -/
@[simp]
theorem truncate_intCast (value : Int) : truncate (value : ℚ) = value := by
  unfold truncate
  split_ifs
  · exact Int.floor_intCast value
  · exact Int.ceil_intCast value

/-- A quotient in the last binade of the times is a multiple of a quarter. -/
theorem exists_quarters {quotient : ℚ} (hasDigits : single.HasDigits quotient)
    (isLarge : 2 ^ 21 ≤ quotient) :
    ∃ quarters : Int, quotient = quarters / 4 := by
  obtain ⟨digits, exponent, few, -, rfl⟩ := hasDigits
  have isPlace : -2 ≤ exponent := by
    by_contra isFine
    have isDigits : (digits : ℚ) < 2 ^ 24 := by exact_mod_cast (abs_lt.mp few).2
    have isSmall : (2 : ℚ) ^ exponent ≤ 2 ^ (-3 : Int) :=
      zpow_le_zpow_right₀ (by norm_num) (by omega)
    have isUnit : (0 : ℚ) < 2 ^ exponent := zpow_pos (by norm_num) _
    have isBelow : (digits : ℚ) * 2 ^ exponent < 2 ^ 24 * 2 ^ (-3 : Int) :=
      (mul_lt_mul_of_pos_right isDigits isUnit).trans_le
        (mul_le_mul_of_nonneg_left isSmall (by norm_num))
    norm_num at isBelow isLarge
    linarith
  obtain ⟨more, isMore⟩ : ∃ more : Nat, exponent = -2 + more :=
    ⟨(exponent + 2).toNat, by omega⟩
  refine ⟨digits * 2 ^ more, ?_⟩
  rw [isMore, zpow_add₀ (by norm_num)]
  push_cast
  rw [zpow_natCast]
  norm_num
  ring

/-- The quotient of finite numbers is rounded. -/
theorem divide_finite (positive : 0 < rate) :
    BinaryFloat.divide (.finite length isLength) (.finite rate isRate) =
      .ofExact (length / rate) := by
  unfold BinaryFloat.divide
  dsimp only
  rw [if_neg positive.ne']

/-- The bound in milliseconds. -/
theorem round_quotient_le_iff (positiveLength : 0 < length)
    (positive : 0 < rate) :
    single.round (length / rate) ≤ 8589934 / 4 ↔
      length ≤ 17179869 / 8 * rate := by
  have isQuotient : 0 < length / rate := div_pos positiveLength positive
  have isRounded := @BinaryFormat.round_le_iff single _ 8589934 (-2) isQuotient
    (by norm_num) (by norm_num) (by norm_num) (by norm_num)
  rw [← div_le_iff₀ positive]
  norm_num at isRounded ⊢
  exact isRounded

/-- The rounded quotient of positive numbers is not negative. -/
theorem round_quotient_nonneg (positiveLength : 0 < length)
    (positive : 0 < rate) : 0 ≤ single.round (length / rate) := by
  have isZero : single.HasDigits 0 := ⟨0, 0, by norm_num, by norm_num, by simp⟩
  exact BinaryFormat.le_round isZero (div_pos positiveLength positive).le

/-- The time of a distance within the bound. -/
theorem calculateTimingParameters_of_le (positiveLength : 0 < length)
    (positive : 0 < rate) (isBounded : length ≤ 17179869 / 8 * rate) :
    ∃ totalMs,
      FlytoController.calculateTimingParameters (.finite length isLength)
          (.finite rate isRate) =
        some (totalMs, totalMs.tdiv cycleDurationMs,
          totalMs.tmod cycleDurationMs) ∧
      0 ≤ totalMs ∧ totalMs < 2 ^ 31 ∧
      totalMs = roundHalfAway (single.round (length / rate) * 1000) := by
  have isQuotient := round_quotient_nonneg positiveLength positive
  have isSmall := (round_quotient_le_iff positiveLength positive).mpr isBounded
  have isNonneg : 0 ≤ roundHalfAway (single.round (length / rate) * 1000) := by
    rw [roundHalfAway_of_nonneg (by linarith)]
    exact Int.floor_nonneg.mpr (by linarith)
  have fits : roundHalfAway (single.round (length / rate) * 1000) < 2 ^ 31 := by
    rw [roundHalfAway_of_nonneg (by linarith), Int.floor_lt]
    push_cast
    linarith
  refine ⟨roundHalfAway (single.round (length / rate) * 1000), ?_, isNonneg, fits,
    rfl⟩
  have isFinite : |single.round (length / rate)| < 2 ^ 128 := by
    rw [abs_of_nonneg isQuotient]
    exact isSmall.trans_lt (by norm_num)
  have isDivided : BinaryFloat.divide (.finite length isLength)
      (.finite rate isRate) =
      .finite (single.round (length / rate))
        ⟨BinaryFormat.hasDigits_round, isFinite⟩ :=
    (divide_finite positive).trans (dif_pos isFinite)
  unfold FlytoController.calculateTimingParameters
  rw [isDivided]
  dsimp only
  rw [toSigned32_of_fits, truncate_intCast]
  · rfl
  · rw [truncate_intCast]
    omega
  · rwa [truncate_intCast]

/-- A longer distance has no time. -/
theorem le_of_calculateTimingParameters (positiveLength : 0 < length)
    (positive : 0 < rate) {times : Int × Int × Int}
    (timed : FlytoController.calculateTimingParameters
      (.finite length isLength) (.finite rate isRate) = some times) :
    length ≤ 17179869 / 8 * rate := by
  rw [← round_quotient_le_iff positiveLength positive]
  unfold FlytoController.calculateTimingParameters at timed
  rw [divide_finite positive] at timed
  unfold BinaryFloat.ofExact at timed
  split_ifs at timed with isFinite
  · obtain ⟨totalMs, isTotal, -⟩ := Option.map_eq_some_iff.mp timed
    have isQuotient := round_quotient_nonneg positiveLength positive
    have fits : roundHalfAway (single.round (length / rate) * 1000) < 2 ^ 31 := by
      rw [toSigned32_eq] at isTotal
      split_ifs at isTotal with inRange
      rw [← truncate_intCast (roundHalfAway _)]
      exact inRange.2
    rw [roundHalfAway_of_nonneg (by linarith), Int.floor_lt] at fits
    push_cast at fits
    by_contra isLarge
    rw [not_le] at isLarge
    obtain ⟨quarters, isQuarters⟩ := exists_quarters
      (@BinaryFormat.hasDigits_round single (length / rate)) (by linarith)
    rw [isQuarters] at isLarge fits
    have isNext : (8589934 : ℚ) < quarters := by linarith
    have isMore : (8589935 : ℚ) ≤ quarters := by exact_mod_cast isNext
    linarith

end Conversion

/-! ## The times of moves and turns -/

/-- The stick is held for the whole time. -/
theorem sum_heldMs_timedPlan {totalMs : Int} (nonneg : 0 ≤ totalMs) :
    ((timedPlan offset totalMs).map Prod.snd).sum = totalMs := by
  have isSplit := Int.tdiv_mul_add_tmod totalMs cycleDurationMs
  have isRest : 0 ≤ totalMs.tmod cycleDurationMs := Int.tmod_nonneg _ nonneg
  have isCycles : 0 ≤ totalMs.tdiv cycleDurationMs :=
    Int.tdiv_nonneg nonneg (by decide)
  unfold timedPlan cyclePlan
  rw [List.map_append, List.map_append, List.sum_append, List.sum_append,
    List.map_replicate, List.sum_replicate, nsmul_eq_mul,
    Int.toNat_of_nonneg isCycles]
  split_ifs with hasRest
  · rw [List.map_singleton, List.map_singleton, List.sum_singleton,
      List.sum_singleton, add_zero]
    exact isSplit
  · have noRest : totalMs.tmod cycleDurationMs = 0 := by omega
    rw [noRest] at isSplit
    simpa using isSplit

/-- The time of an admitted move or turn is exact just if its distance is at most
2147483.625 times its speed and single precision has the quotient to the
millisecond. -/
theorem timesExactly_iff_timeable (admitted : Admitted offset distance speed) :
    TimesExactly offset distance speed ↔ Timeable distance speed := by
  obtain ⟨rate, isRate, rfl, positive⟩ := admitted.exists_speed
  have positiveLength {length : ℚ} {isLength} (isDistance : distance =
      .finite length isLength) : 0 < length := by
    have isFar := admitted.not_le
    rw [isDistance] at isFar
    exact not_le.mp (of_decide_eq_false isFar)
  constructor
  · rintro ⟨totalMs, fullCycles, remainingMs, timed, -, -, -, -, -, isRounded, -⟩
    obtain ⟨length, isLength, same, isSame, rfl, isSpeed, isTotal⟩ := isRounded
    obtain rfl : rate = same := by
      injection isSpeed
    have isPositive := positiveLength rfl
    have isBounded := le_of_calculateTimingParameters isPositive positive timed
    refine ⟨length, isLength, rate, isRate, rfl, rfl, isBounded, ?_⟩
    rw [sameMs_iff (div_pos isPositive positive).le
      (round_quotient_nonneg isPositive positive), ← isTotal]
    obtain ⟨other, timedOther, -, -, isOther⟩ :=
      @calculateTimingParameters_of_le length rate isLength isRate isPositive
        positive isBounded
    rw [← isOther]
    exact congrArg Prod.fst (Option.some_inj.mp (timed.symm.trans timedOther))
  · rintro ⟨length, isLength, same, isSame, rfl, isSpeed, isBounded, isSplit⟩
    obtain rfl : rate = same := by
      injection isSpeed
    have isPositive := positiveLength rfl
    obtain ⟨totalMs, timed, nonneg, fits, isTotal⟩ :=
      @calculateTimingParameters_of_le length rate isLength isRate isPositive
        positive isBounded
    rw [sameMs_iff (div_pos isPositive positive).le
      (round_quotient_nonneg isPositive positive), ← isTotal] at isSplit
    refine ⟨totalMs, _, _, timed, nonneg, fits, ?_, ?_, ?_, ?_, ?_⟩
    · exact (Int.tdiv_mul_add_tmod totalMs cycleDurationMs).symm
    · exact Int.tmod_nonneg _ nonneg
    · exact Int.tmod_lt_of_pos _ (by decide)
    · exact ⟨length, isLength, rate, isRate, rfl, rfl, isSplit.symm⟩
    · have all : AllAccepted (fun _ => true) ([] : List Attempt).length
          (timedPlan offset totalMs).length := fun _ _ => rfl
      refine ⟨_, (executeTimedControl_eq timed).trans
        (congrArg some (carryOut_of_allAccepted all)), ?_⟩
      rw [List.nil_append, List.map_map]
      exact sum_heldMs_timedPlan nonneg

/-- A whole distance at 1 m/s takes as many seconds. -/
theorem handleMove_forward {distance : Int} (few : |distance| < 2 ^ 24)
    (positive : 0 < distance) :
    FlytoController.handleMove 5 (.ofInt distance few) =
      .ok (⟨0, 0, 260, 0⟩, .ofInt distance few, .ofInt 3 (by norm_num)) := by
  have isFar : (BinaryFloat.ofInt distance few : Binary32).le .zero = false := by
    apply decide_eq_false
    rw [not_le]
    exact_mod_cast positive
  have isAllowed : ((BinaryFloat.ofInt 3 (by norm_num) : Binary32).le .zero ||
      (axisMaxSpeed .forward).lt (.ofInt 3 (by norm_num))) = false := by
    decide +kernel
  have isOffset : calculateMoveOffset .forward (.ofInt 3 (by norm_num)) =
      ⟨0, 0, 260, 0⟩ := by
    decide +kernel
  have isMode : FlytoController.moveMode 5 = some .forward := rfl
  unfold FlytoController.handleMove
  rw [isMode]
  dsimp only
  rw [isFar, isAllowed, isOffset]
  rfl

/-- A move over 7000 km has no time, and one over 49153 metres is a millisecond
too long. -/
theorem not_timesExactly_far :
    (FlytoController.handleMove 5 (.ofInt 7000000 (by norm_num)) =
        .ok (⟨0, 0, 260, 0⟩, .ofInt 7000000 (by norm_num),
          .ofInt 3 (by norm_num)) ∧
      ¬TimesExactly ⟨0, 0, 260, 0⟩ (.ofInt 7000000 (by norm_num))
        (.ofInt 3 (by norm_num))) ∧
    FlytoController.handleMove 5 (.ofInt 49153 (by norm_num)) =
        .ok (⟨0, 0, 260, 0⟩, .ofInt 49153 (by norm_num),
          .ofInt 3 (by norm_num)) ∧
      ¬TimesExactly ⟨0, 0, 260, 0⟩ (.ofInt 49153 (by norm_num))
        (.ofInt 3 (by norm_num)) := by
  refine ⟨⟨handleMove_forward _ (by norm_num), ?_⟩,
    handleMove_forward _ (by norm_num), ?_⟩
  · rintro ⟨totalMs, fullCycles, remainingMs, timed, -⟩
    have isBounded := le_of_calculateTimingParameters (by norm_num)
      (by norm_num) timed
    norm_num at isBounded
  · rintro ⟨totalMs, fullCycles, remainingMs, timed, -, -, -, -, -, isRounded, -⟩
    have isTime : FlytoController.calculateTimingParameters
        (.ofInt 49153 (by norm_num)) (.ofInt 3 (by norm_num)) =
          some (16384334, 114575, 109) := by
      decide +kernel
    have isQuotient : roundHalfAway (49153 / 3 * 1000) = 16384333 := by
      decide +kernel
    obtain ⟨length, isLength, rate, isRate, isDistance, isSpeed, isTotal⟩ :=
      isRounded
    injection isDistance with isDistance
    injection isSpeed with isSpeed
    rw [isTime, Option.some_inj] at timed
    rw [← isDistance, ← isSpeed] at isTotal
    push_cast at isTotal
    rw [isQuotient] at isTotal
    have isMs : 16384334 = totalMs := congrArg Prod.fst timed
    omega

/-- A move over ten metres. -/
theorem timesExactly_near :
    TimesExactly ⟨0, 0, 260, 0⟩ (.ofInt 10 (by norm_num))
      (.ofInt 3 (by norm_num)) := by
  have isRounded : roundHalfAway (10 / 3 * 1000) =
      roundHalfAway (single.round (10 / 3) * 1000) := by
    decide +kernel
  have isNonneg : 0 ≤ single.round (10 / 3) := by
    decide +kernel
  refine (timesExactly_iff_timeable
    (.inl ⟨5, handleMove_forward _ (by norm_num)⟩)).mpr
    ⟨_, _, _, _, rfl, rfl, by norm_num, ?_⟩
  push_cast
  exact (sameMs_iff (by norm_num) isNonneg).mpr isRounded

end Flyto
end Pilot2Cloud
