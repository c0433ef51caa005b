import Pilot2Cloud.Foundation.BinaryFloat
import Pilot2Cloud.Hdmap.Line
import Pilot2Cloud.Hdmap.LoadSteps

/-!
# The check along a line in doubles

The points of a line and the corners of their squares are rounded, by little
beside the power of two that bounds the coordinates.  A square still covers what
is not at its edge.  The squares of two steps overlap by a whole step, so the
edges matter at both ends of the line only.
-/

namespace Pilot2Cloud
namespace Hdmap

open Foundation BinaryFloat

/-! ## Rounding -/

/-- Half of the last place of numbers below a power of two. -/
def halfPlace (exponent : Nat) : ℚ := 2 ^ exponent / 2 ^ 53

section Rounding

variable {exponent : Nat} {value : ℚ}

theorem halfPlace_pos (exponent : Nat) : 0 < halfPlace exponent := by
  unfold halfPlace
  positivity

theorem two_pow_eq (exponent : Nat) :
    (2 : ℚ) ^ exponent = 2 ^ 53 * halfPlace exponent := by
  unfold halfPlace
  ring

theorem normal_le_two_pow (exponent : Nat) :
    (2 : ℚ) ^ (double.lowest + double.fraction) ≤ 2 ^ exponent := by
  have isLow : double.lowest + double.fraction ≤ (0 : Nat) := by decide
  calc
    (2 : ℚ) ^ (double.lowest + double.fraction) ≤ 2 ^ ((0 : Nat) : Int) :=
      zpow_le_zpow_right₀ (by norm_num) isLow
    _ ≤ 2 ^ exponent := by
      rw [zpow_natCast]
      exact pow_le_pow_right₀ (by norm_num) (Nat.zero_le _)

/-- A number below a power of two is rounded by at most half a place. -/
theorem abs_round_sub_le_halfPlace (isBound : |value| ≤ 2 ^ exponent) :
    |double.round value - value| ≤ halfPlace exponent :=
  BinaryFormat.abs_round_sub_le_of_le isBound (normal_le_two_pow exponent)

theorem abs_round_le_two_pow (isBound : |value| ≤ 2 ^ exponent) :
    |double.round value| ≤ 2 ^ exponent := by
  obtain ⟨below, above⟩ := abs_le.mp isBound
  exact abs_le.mpr
    ⟨BinaryFormat.le_round (BinaryFormat.hasDigits_two_pow exponent).neg below,
      BinaryFormat.round_le (BinaryFormat.hasDigits_two_pow exponent) above⟩

theorem halfPlace_add (exponent more : Nat) :
    halfPlace (exponent + more) = 2 ^ more * halfPlace exponent := by
  unfold halfPlace
  ring

end Rounding

/-! ## The corners of a square -/

section Corners

variable {exponent : Nat} {start ratio curLen shift : Binary64}

/-- Where the corner of a square is computed to be. -/
theorem corner_near {corner : ℚ} (startWithin : start.Within (2 ^ exponent))
    (ratioWithin : ratio.Within 1) (curLenWithin : curLen.Within (2 ^ exponent))
    (shiftWithin : shift.Within (2 ^ exponent))
    (isCorner : (start + curLen * ratio + shift).exact = some corner) :
    |corner - (start.toRat + curLen.toRat * ratio.toRat + shift.toRat)| ≤
        7 * halfPlace exponent ∧
      |corner| ≤ 2 ^ (exponent + 2) := by
  obtain ⟨point, isPoint, other, isOther, rfl⟩ := of_exact_add isCorner
  obtain rfl : other = shift.toRat := Option.mem_unique isOther shiftWithin.exact
  obtain ⟨first, isFirst, product, isProduct, rfl⟩ := of_exact_add isPoint
  obtain rfl : first = start.toRat := Option.mem_unique isFirst startWithin.exact
  obtain ⟨length, isLength, factor, isFactor, rfl⟩ := of_exact_mul isProduct
  obtain rfl : length = curLen.toRat :=
    Option.mem_unique isLength curLenWithin.exact
  obtain rfl : factor = ratio.toRat :=
    Option.mem_unique isFactor ratioWithin.exact
  -- each of the three results is bounded, and so is its rounding
  have productBound : |curLen.toRat * ratio.toRat| ≤ 2 ^ exponent := by
    rw [abs_mul]
    exact (mul_le_of_le_one_right (abs_nonneg _) ratioWithin.bound).trans
      curLenWithin.bound
  have productNear := abs_round_sub_le_halfPlace productBound
  have productSmall := abs_round_le_two_pow productBound
  generalize double.round (curLen.toRat * ratio.toRat) = product at *
  have pointBound : |start.toRat + product| ≤ 2 ^ (exponent + 1) := by
    rw [pow_succ]
    have sum := abs_add_le start.toRat product
    linarith [startWithin.bound]
  have pointNear := abs_round_sub_le_halfPlace pointBound
  have pointSmall := abs_round_le_two_pow pointBound
  generalize double.round (start.toRat + product) = point at *
  have cornerBound : |point + shift.toRat| ≤ 2 ^ (exponent + 2) := by
    rw [pow_add] at pointSmall ⊢
    have sum := abs_add_le point shift.toRat
    have positive : (0 : ℚ) < 2 ^ exponent := by positivity
    linarith [shiftWithin.bound]
  have cornerNear := abs_round_sub_le_halfPlace cornerBound
  refine ⟨?_, abs_round_le_two_pow cornerBound⟩
  rw [halfPlace_add] at pointNear cornerNear
  rw [abs_le] at *
  constructor <;> linarith

end Corners

/-! ## The number of a cell -/

section Cells

variable {exponent : Nat} {origin size value : Binary64} {index : Int}

/-- A cell index that is computed is that of the rounded quotient. -/
theorem of_cellIndex {number : Int} (sizeExact : size.exact = some size.toRat)
    (originExact : origin.exact = some origin.toRat)
    (defined : cellIndex origin size value = some number) :
    ∃ place ∈ value.exact, number = truncate
      (double.round (double.round (place - origin.toRat) / size.toRat)) := by
  rw [cellIndex, Option.ite_none_left_eq_some] at defined
  obtain ⟨quotient, isQuotient, rfl⟩ := of_toSigned32 defined.2
  obtain ⟨-, offset, isOffset, rfl⟩ := of_exact_div isQuotient sizeExact
  obtain ⟨place, isPlace, other, isOther, rfl⟩ := of_exact_sub isOffset
  obtain rfl := Option.mem_unique isOther originExact
  exact ⟨place, isPlace, rfl⟩

/-- The rounded quotient of an offset that is clearly below a multiple of the
size. -/
theorem round_div_lt {offset width : ℚ} (positive : 0 < width)
    (nonneg : 0 ≤ index)
    (small : width * (index + 1) ≤ 2 ^ (exponent + 3))
    (before : offset < width * (index + 1) - 8 * halfPlace exponent) :
    double.round (offset / width) < index + 1 := by
  have next : (0 : ℚ) < index + 1 := by
    exact_mod_cast Int.lt_add_one_iff.mpr nonneg
  obtain isNegative | isPositive := le_or_gt offset 0
  · have isRounded : double.round (offset / width) ≤ 0 := by
      have zeroDigits : double.HasDigits (0 : Int) :=
        BinaryFormat.hasDigits_intCast (by norm_num)
      rw [Int.cast_zero] at zeroDigits
      exact BinaryFormat.round_le zeroDigits
        (div_nonpos_of_nonpos_of_nonneg isNegative positive.le)
    exact isRounded.trans_lt next
  · have isQuotient : |offset / width| ≤ index + 1 := by
      rw [abs_of_pos (div_pos isPositive positive), div_le_iff₀ positive,
        mul_comm]
      linarith [halfPlace_pos exponent]
    have isNormal : (2 : ℚ) ^ (double.lowest + double.fraction) ≤ index + 1 := by
      have isOne : (1 : ℚ) ≤ index + 1 := by
        exact_mod_cast Int.le_add_of_nonneg_left nonneg
      exact (normal_le_two_pow 0).trans (by simpa using isOne)
    have near := (abs_le.mp
      (BinaryFormat.abs_round_sub_le_of_le isQuotient isNormal)).2
    have isSmall : (index + 1 : ℚ) / 2 ^ (double.fraction + 1) ≤
        8 * halfPlace exponent / width := by
      rw [le_div_iff₀ positive]
      change (index + 1 : ℚ) / 2 ^ 53 * width ≤ _
      unfold halfPlace
      rw [pow_add] at small
      linarith
    have isBefore :
        offset / width < index + 1 - 8 * halfPlace exponent / width := by
      rw [div_lt_iff₀ positive, sub_mul, div_mul_cancel₀ _ positive.ne']
      linarith
    linarith

theorem le_round_div {offset width : ℚ} (positive : 0 < width)
    (few : |index| < 2 ^ 31) (beyond : width * index ≤ offset) :
    index ≤ double.round (offset / width) := by
  apply BinaryFormat.le_round
  · exact BinaryFormat.hasDigits_intCast (few.trans_le (by norm_num [double]))
  · rw [le_div_iff₀ positive]
    linarith

theorem truncate_le_of_lt {number : ℚ} (nonneg : 0 ≤ index)
    (before : number < index + 1) : truncate number ≤ index := by
  obtain isNonneg | isNegative := le_or_gt 0 number
  · rw [truncate_of_nonneg isNonneg, ← Int.lt_add_one_iff, Int.floor_lt]
    exact_mod_cast before
  · exact (truncate_nonpos isNegative).trans nonneg

theorem le_truncate_of_le {number : ℚ} (nonneg : 0 ≤ index)
    (beyond : index ≤ number) : index ≤ truncate number := by
  have isNonneg : (0 : ℚ) ≤ index := by exact_mod_cast nonneg
  rw [truncate_of_nonneg (isNonneg.trans beyond)]
  exact Int.le_floor.mpr beyond

variable {corner least width : ℚ}

/-- The offset of a corner from the origin of the grid is rounded by eight half
places at most. -/
theorem offset_near (cornerSmall : |corner| ≤ 2 ^ (exponent + 2))
    (leastSmall : |least| ≤ 2 ^ exponent) :
    |double.round (corner - least) - (corner - least)| ≤
      8 * halfPlace exponent := by
  have offsetSmall : |corner - least| ≤ 2 ^ (exponent + 3) := by
    have sum := abs_sub corner least
    have unitPositive : (0 : ℚ) < 2 ^ exponent := by positivity
    rw [pow_add] at cornerSmall ⊢
    linarith
  have near := abs_round_sub_le_halfPlace offsetSmall
  rw [halfPlace_add] at near
  linarith

/-- A corner that is clearly before the end of a cell has no larger number. -/
theorem truncate_le_of_before (positive : 0 < width) (nonneg : 0 ≤ index)
    (small : width * (index + 1) ≤ 2 ^ (exponent + 3))
    (cornerSmall : |corner| ≤ 2 ^ (exponent + 2))
    (leastSmall : |least| ≤ 2 ^ exponent)
    (before : corner < least + width * (index + 1) - 17 * halfPlace exponent) :
    truncate (double.round (double.round (corner - least) / width)) ≤ index := by
  have near := (abs_le.mp (offset_near cornerSmall leastSmall)).2
  have unitPositive := halfPlace_pos exponent
  apply truncate_le_of_lt nonneg
  apply round_div_lt positive nonneg small
  linarith

/-- A corner that is clearly behind the start of a cell has no smaller number. -/
theorem le_truncate_of_beyond (positive : 0 < width) (nonneg : 0 ≤ index)
    (few : index < 2 ^ 31)
    (cornerSmall : |corner| ≤ 2 ^ (exponent + 2))
    (leastSmall : |least| ≤ 2 ^ exponent)
    (beyond : least + width * index + 17 * halfPlace exponent ≤ corner) :
    index ≤ truncate (double.round (double.round (corner - least) / width)) := by
  have near := (abs_le.mp (offset_near cornerSmall leastSmall)).1
  have unitPositive := halfPlace_pos exponent
  apply le_truncate_of_le nonneg
  apply le_round_div positive (by rwa [abs_of_nonneg nonneg])
  linarith

end Cells

/-! ## The window -/

/-- The numbers of one coordinate of a call are at most a power of two. -/
structure Axis (exponent : Nat) (origin size start ratio disXy : Binary64) :
    Prop where
  origin : origin.Within (2 ^ exponent)
  size : size.Within (2 ^ exponent)
  start : start.Within (2 ^ exponent)
  ratio : ratio.Within 1
  disXy : disXy.Within (2 ^ exponent)

/-- The coordinate of the line at a distance from its start. -/
noncomputable def linePlace (start ratio : Binary64) (t : ℝ) : ℝ :=
  start.toRat + t * ratio.toRat

namespace Axis

variable {exponent : Nat} {origin size start ratio disXy curLen : Binary64}
  {index first last : Int} {place : ℝ}

/-- The point that a square surrounds is not far away. -/
theorem point_small (startWithin : start.Within (2 ^ exponent))
    (ratioWithin : ratio.Within 1) (curLenWithin : curLen.Within (2 ^ exponent)) :
    |start.toRat + curLen.toRat * ratio.toRat| ≤ 2 * 2 ^ exponent := by
  have product : |curLen.toRat * ratio.toRat| ≤ 2 ^ exponent := by
    rw [abs_mul]
    exact (mul_le_of_le_one_right (abs_nonneg _) ratioWithin.bound).trans
      curLenWithin.bound
  have sum := abs_add_le start.toRat (curLen.toRat * ratio.toRat)
  linarith [startWithin.bound]

/-- A place in the square, but not at its edge, has a number between those of the
corners. -/
theorem index_between (axis : Axis exponent origin size start ratio disXy)
    (curLenWithin : curLen.Within (2 ^ exponent))
    (inside : InInterval (origin.toRat : ℝ) (size.toRat : ℝ) index place)
    (nonneg : 0 ≤ index) (few : index < 2 ^ 31)
    (near : |place - linePlace start ratio curLen.toRat| ≤
      disXy.toRat - 24 * halfPlace exponent)
    (isFirst : cellIndex origin size (start + curLen * ratio - disXy) =
      some first)
    (isLast : cellIndex origin size (start + curLen * ratio + disXy) =
      some last) :
    first ≤ index ∧ index ≤ last := by
  obtain ⟨originWithin, sizeWithin, startWithin, ratioWithin, disXyWithin⟩ := axis
  obtain ⟨lower, isLower, rfl⟩ :=
    of_cellIndex sizeWithin.exact originWithin.exact isFirst
  obtain ⟨upper, isUpper, rfl⟩ :=
    of_cellIndex sizeWithin.exact originWithin.exact isLast
  obtain ⟨lowerNear, lowerSmall⟩ :=
    corner_near startWithin ratioWithin curLenWithin disXyWithin.neg isLower
  obtain ⟨upperNear, upperSmall⟩ :=
    corner_near startWithin ratioWithin curLenWithin disXyWithin isUpper
  rw [toRat_neg disXyWithin.exact] at lowerNear
  have isPoint : linePlace start ratio curLen.toRat =
      ((start.toRat + curLen.toRat * ratio.toRat : ℚ) : ℝ) := by
    unfold linePlace
    push_cast
    rfl
  have pointSmall := point_small startWithin ratioWithin curLenWithin
  rw [isPoint] at near
  generalize start.toRat + curLen.toRat * ratio.toRat = point at *
  have positive : 0 < size.toRat := by exact_mod_cast inside.width_pos
  obtain ⟨above, below⟩ := inside
  obtain ⟨nearBelow, nearAbove⟩ := abs_le.mp near
  obtain ⟨lowerBelow, lowerAbove⟩ := abs_le.mp lowerNear
  obtain ⟨upperBelow, upperAbove⟩ := abs_le.mp upperNear
  -- the corners are beyond the ends of the cell by more than the rounding
  have lowerBefore : lower < origin.toRat + size.toRat * (index + 1) -
      17 * halfPlace exponent := by
    have isBefore :
        (lower : ℝ) ≤ point - disXy.toRat + 7 * halfPlace exponent := by
      exact_mod_cast (by linarith : lower ≤
        point - disXy.toRat + 7 * halfPlace exponent)
    have isCast : (lower : ℝ) < origin.toRat + size.toRat * (index + 1) -
        17 * halfPlace exponent := by
      linarith
    exact_mod_cast isCast
  have upperBeyond : origin.toRat + size.toRat * index + 17 * halfPlace exponent ≤
      upper := by
    have isBeyond :
        (point : ℝ) + disXy.toRat - 7 * halfPlace exponent ≤ upper := by
      exact_mod_cast (by linarith : point + disXy.toRat - 7 * halfPlace exponent ≤
        upper)
    have isCast : (origin.toRat : ℝ) + size.toRat * index +
        17 * halfPlace exponent ≤ upper := by
      linarith
    exact_mod_cast isCast
  constructor
  · have small : size.toRat * (index + 1) ≤ 2 ^ (exponent + 3) := by
      have isBound : size.toRat * index ≤
          point + disXy.toRat - 24 * halfPlace exponent - origin.toRat := by
        have isCast : (size.toRat : ℝ) * index ≤
            point + disXy.toRat - 24 * halfPlace exponent - origin.toRat := by
          linarith
        exact_mod_cast isCast
      rw [pow_add]
      linarith [(abs_le.mp pointSmall).2, (abs_le.mp disXyWithin.bound).2,
        (abs_le.mp originWithin.bound).1, (abs_le.mp sizeWithin.bound).2,
        halfPlace_pos exponent]
    exact truncate_le_of_before positive nonneg small lowerSmall
      originWithin.bound lowerBefore
  · exact le_truncate_of_beyond positive nonneg few upperSmall
      originWithin.bound upperBeyond

end Axis

/-! ## The loop -/

/-- What is left out at both ends of a line. -/
def margin (exponent : Nat) : ℚ := 2 ^ exponent / 2 ^ 48

theorem margin_eq (exponent : Nat) :
    margin exponent = 32 * halfPlace exponent := by
  unfold margin halfPlace
  ring

/-- The length and the step of a walk are at most a power of two, and the step is
not lost beside this. -/
structure Pace (exponent : Nat) (length disXy : Binary64) : Prop where
  few : exponent ≤ 1000
  lengthWithin : length.Within (2 ^ exponent)
  stepWithin : disXy.Within (2 ^ exponent)
  enough : 2 ^ exponent ≤ 2 ^ 47 * disXy.toRat

namespace Pace

variable {exponent : Nat} {length disXy curLen : Binary64}

theorem le_disXy (pace : Pace exponent length disXy) :
    64 * halfPlace exponent ≤ disXy.toRat := by
  have enough := pace.enough
  rw [two_pow_eq] at enough
  linarith

/-- Every value up to twice the length of the line is rounded below the largest
number. -/
theorem fits (pace : Pace exponent length disXy) {value : ℚ}
    (isBound : |value| ≤ 2 ^ (exponent + 1)) :
    |double.round value| < 2 ^ double.limit := by
  refine (abs_round_le_two_pow isBound).trans_lt ?_
  have isLess : exponent + 1 < double.limit := by
    have few := pace.few
    change exponent + 1 < 1024
    omega
  exact pow_lt_pow_right₀ (by norm_num) isLess

/-- The next distance is longer by about a step. -/
theorem next (pace : Pace exponent length disXy)
    (curLenWithin : curLen.Within (2 ^ exponent)) :
    (curLen + disXy).exact = some (curLen + disXy).toRat ∧
      |(curLen + disXy).toRat - (curLen.toRat + disXy.toRat)| ≤
        2 * halfPlace exponent := by
  have sumBound : |curLen.toRat + disXy.toRat| ≤ 2 ^ (exponent + 1) := by
    rw [pow_succ]
    have sum := abs_add_le curLen.toRat disXy.toRat
    linarith [curLenWithin.bound, pace.stepWithin.bound]
  have isExact := exact_add curLenWithin.exact pace.stepWithin.exact
    (pace.fits sumBound)
  have near := abs_round_sub_le_halfPlace sumBound
  rw [toRat_of_exact isExact]
  rw [halfPlace_add] at near
  exact ⟨isExact, by linarith⟩

/-- The distance before this one is shorter by about a step. -/
theorem previous (pace : Pace exponent length disXy)
    (curLenWithin : curLen.Within (2 ^ exponent)) :
    (curLen - disXy).toRat ≤
      curLen.toRat - disXy.toRat + 2 * halfPlace exponent := by
  have differenceBound : |curLen.toRat - disXy.toRat| ≤ 2 ^ (exponent + 1) := by
    rw [pow_succ]
    have difference := abs_sub curLen.toRat disXy.toRat
    linarith [curLenWithin.bound, pace.stepWithin.bound]
  have isExact := exact_sub curLenWithin.exact pace.stepWithin.exact
    (pace.fits differenceBound)
  have near := (abs_le.mp (abs_round_sub_le_halfPlace differenceBound)).2
  rw [toRat_of_exact isExact]
  rw [halfPlace_add] at near
  linarith

/-- The distance of the loop, and what of the line is known to be clear: nothing
before the first square, and everything up to the distance after it. -/
structure Reached (exponent : Nat) (length disXy : Binary64)
    (clear : ℝ → Prop) (curLen : Binary64) : Prop where
  exact : curLen.exact = some curLen.toRat
  lower : -2 ^ exponent ≤ curLen.toRat
  covered : (curLen.toRat ≤ disXy.toRat ∧ curLen.toRat ≤ length.toRat) ∨
    ∀ t : ℝ, margin exponent ≤ t → t ≤ curLen.toRat - margin exponent → clear t

variable {clear : ℝ → Prop}

/-- The length that is reached stays in the range of the line. -/
theorem Reached.within (reached : Reached exponent length disXy clear curLen)
    (pace : Pace exponent length disXy) (more : curLen ≤ length) :
    curLen.Within (2 ^ exponent) := by
  have isLess := (exact_le_iff reached.exact pace.lengthWithin.exact).mp more
  have lengthBound := (abs_le.mp pace.lengthWithin.bound).2
  exact ⟨reached.exact, abs_le.mpr ⟨reached.lower, by linarith⟩⟩

/-- One round of the loop reaches the next square. -/
theorem Reached.next (reached : Reached exponent length disXy clear curLen)
    (pace : Pace exponent length disXy) (more : curLen ≤ length)
    (square : ∀ t : ℝ, |t - curLen.toRat| ≤
      disXy.toRat - 24 * halfPlace exponent → clear t) :
    Reached exponent length disXy clear (curLen + disXy) := by
  have curLenWithin := reached.within pace more
  obtain ⟨isExact, near⟩ := pace.next curLenWithin
  obtain ⟨nearBelow, nearAbove⟩ := abs_le.mp near
  have step := pace.le_disXy
  have unitPositive := halfPlace_pos exponent
  refine ⟨isExact, by linarith [reached.lower], .inr fun t start before => ?_⟩
  rw [margin_eq] at start before
  have beforeEdge : t ≤ curLen.toRat + disXy.toRat - 24 * halfPlace exponent := by
    have isCast : ((curLen + disXy).toRat : ℝ) ≤
        curLen.toRat + disXy.toRat + 2 * halfPlace exponent := by
      exact_mod_cast (by linarith : (curLen + disXy).toRat ≤
        curLen.toRat + disXy.toRat + 2 * halfPlace exponent)
    have isUnit : (0 : ℝ) < halfPlace exponent := by exact_mod_cast unitPositive
    push_cast at before
    linarith
  by_cases inSquare : curLen.toRat - (disXy.toRat - 24 * halfPlace exponent) ≤ t
  · apply square
    rw [abs_le]
    constructor <;> linarith
  · -- the last square has it, and there was one
    rw [not_le] at inSquare
    have isStep : (64 : ℝ) * halfPlace exponent ≤ disXy.toRat := by
      exact_mod_cast step
    have isUnit : (0 : ℝ) < halfPlace exponent := by exact_mod_cast unitPositive
    push_cast at start
    obtain ⟨first, -⟩ | earlier := reached.covered
    · have isFirst : (curLen.toRat : ℝ) ≤ disXy.toRat := by exact_mod_cast first
      linarith
    · apply earlier t
      · rw [margin_eq]
        push_cast
        exact start
      · rw [margin_eq]
        push_cast
        linarith

section Loop

variable {check : Binary64 → Option Ret}

/-- The loop ends once the steps, of which at least a half is left by the
rounding, exceed the length. -/
theorem isSome_lineLoop (pace : Pace exponent length disXy) (fuel : Nat)
    (curLen : Binary64) (reached : Reached exponent length disXy clear curLen)
    (squares : ∀ curLen : Binary64, curLen.Within (2 ^ exponent) →
      check curLen = some .over → ∀ t : ℝ, |t - curLen.toRat| ≤
        disXy.toRat - 24 * halfPlace exponent → clear t)
    (enough : length.toRat < curLen.toRat + fuel * (disXy.toRat / 2)) :
    (lineLoop check length disXy (fuel + 1) curLen).isSome := by
  induction fuel generalizing curLen with
  | zero =>
      rw [Nat.cast_zero, zero_mul, add_zero] at enough
      rw [lineLoop, if_neg]
      · rfl
      · rw [exact_le_iff reached.exact pace.lengthWithin.exact]
        exact enough.not_ge
  | succ fuel inductionHypothesis =>
      rw [lineLoop]
      split
      · next more =>
        split
        · rfl
        · next found =>
          have curLenWithin := reached.within pace more
          apply inductionHypothesis _
            (reached.next pace more (squares curLen curLenWithin found))
          have near := (abs_le.mp (pace.next curLenWithin).2).1
          have step := pace.le_disXy
          have unitPositive := halfPlace_pos exponent
          push_cast at enough
          linarith
        · rfl
      · rfl

/-- What is clear in the squares of the loop is clear up to the distance that is
returned, and along the whole length if nothing was found. -/
theorem clear_of_lineLoop (pace : Pace exponent length disXy) (fuel : Nat)
    (curLen : Binary64) (reached : Reached exponent length disXy clear curLen)
    (squares : ∀ curLen : Binary64, curLen.Within (2 ^ exponent) →
      check curLen = some .over → ∀ t : ℝ, |t - curLen.toRat| ≤
        disXy.toRat - 24 * halfPlace exponent → clear t)
    {ret : Ret} {safeDis : Binary64}
    (returned : lineLoop check length disXy fuel curLen =
      some (.returned ret safeDis)) :
    (∀ t : ℝ, margin exponent ≤ t → t ≤ safeDis.toRat - margin exponent →
        clear t) ∧
      (ret = .over → ∀ t : ℝ, margin exponent ≤ t →
        t ≤ length.toRat - margin exponent → clear t) := by
  induction fuel generalizing curLen with
  | zero => cases returned
  | succ fuel inductionHypothesis =>
      rw [lineLoop] at returned
      split at returned
      · next more =>
        have curLenWithin := reached.within pace more
        split at returned
        · cases returned
        · next found =>
          exact inductionHypothesis _
            (reached.next pace more (squares curLen curLenWithin found)) returned
        · next ret notOver found =>
          cases returned
          refine ⟨fun t start before => ?_, fun same => (notOver same).elim⟩
          have isMargin : (0 : ℝ) < margin exponent := by
            rw [margin_eq]
            exact_mod_cast mul_pos (by norm_num) (halfPlace_pos exponent)
          split at before
          · have isZero : ((0 : Binary64).toRat : ℝ) = 0 := Rat.cast_zero
            linarith
          · have isPrevious : ((curLen - disXy).toRat : ℝ) ≤
                curLen.toRat - disXy.toRat + 2 * halfPlace exponent := by
              exact_mod_cast pace.previous curLenWithin
            have isStep : (64 : ℝ) * halfPlace exponent ≤ disXy.toRat := by
              exact_mod_cast pace.le_disXy
            have isUnit : (0 : ℝ) < halfPlace exponent := by
              exact_mod_cast halfPlace_pos exponent
            obtain ⟨first, -⟩ | earlier := reached.covered
            · have isFirst : (curLen.toRat : ℝ) ≤ disXy.toRat := by
                exact_mod_cast first
              rw [margin_eq] at start before
              push_cast at start before
              linarith
            · exact earlier t start (by linarith)
      · next past =>
        cases returned
        rw [exact_le_iff reached.exact pace.lengthWithin.exact, not_le] at past
        obtain ⟨-, within⟩ | earlier := reached.covered
        · exact absurd within past.not_ge
        · refine ⟨earlier, fun _ t start before => earlier t start ?_⟩
          have isPast : (length.toRat : ℝ) < safeDis.toRat := by
            exact_mod_cast past
          linarith

/-- The loop starts with the step or the whole length. -/
theorem reached_start (pace : Pace exponent length disXy) (clear : ℝ → Prop) :
    Reached exponent length disXy clear
      (if length < disXy then length else disXy) := by
  have lengthLower := (abs_le.mp pace.lengthWithin.bound).1
  have stepLower := (abs_le.mp pace.stepWithin.bound).1
  split
  · next short =>
    rw [exact_lt_iff pace.lengthWithin.exact pace.stepWithin.exact] at short
    exact ⟨pace.lengthWithin.exact, lengthLower, .inl ⟨short.le, le_rfl⟩⟩
  · next long =>
    rw [exact_lt_iff pace.lengthWithin.exact pace.stepWithin.exact,
      not_lt] at long
    exact ⟨pace.stepWithin.exact, stepLower, .inl ⟨le_rfl, long⟩⟩

end Loop

end Pace

/-! ## The line -/

/-- The angle that the sine and the cosine are taken of. -/
def theta (angle : Binary64) : Binary64 := angle * pai / halfTurn

/-- The numbers of a call are finite, a power of two bounds them, and the step is
not lost beside this. -/
structure Moderate (exponent : Nat) (trigonometry : Trigonometry Binary64)
    (map : MapInfo Binary64) (x y angle length disXy : Binary64) : Prop where
  pace : Pace exponent length disXy
  alongX : Axis exponent map.blockMin.x map.blockSize.x x
    (trigonometry.cos (theta angle)) disXy
  alongY : Axis exponent map.blockMin.y map.blockSize.y y
    (trigonometry.sin (theta angle)) disXy

/-- The point of the line at a distance is in a cell of the grid that is an
obstacle or restricted at this height. -/
def LoadedMap.BlockedOn (map : LoadedMap Binary64)
    (trigonometry : Trigonometry Binary64) (x y z angle disZ : Binary64)
    (t : ℝ) : Prop :=
  ∃ j i, map.InGrid j i ∧
    InInterval (map.blockMin.x.toRat : ℝ) map.blockSize.x.toRat i
      (linePlace x (trigonometry.cos (theta angle)) t) ∧
    InInterval (map.blockMin.y.toRat : ℝ) map.blockSize.y.toRat j
      (linePlace y (trigonometry.sin (theta angle)) t) ∧
    map.Blocks j i z disZ

section Line

variable {exponent : Nat} {trigonometry : Trigonometry Binary64}
  {map : LoadedMap Binary64} {x y z angle length disXy disZ : Binary64}

theorem linePlace_near {start ratio : Binary64} {distance : ℝ} {t other : ℝ}
    (ratioWithin : ratio.Within 1) (near : |t - other| ≤ distance) :
    |linePlace start ratio t - linePlace start ratio other| ≤ distance := by
  have isRatio : |(ratio.toRat : ℝ)| ≤ 1 := by exact_mod_cast ratioWithin.bound
  unfold linePlace
  rw [add_sub_add_left_eq_sub, ← sub_mul, abs_mul]
  exact (mul_le_of_le_one_right (abs_nonneg _) isRatio).trans near

/-- A square that was found clear has no cell that blocks, but at its edge. -/
theorem not_blockedOn_of_over
    (moderate : Moderate exponent trigonometry map.toMapInfo x y angle length
      disXy) {curLen : Binary64} (curLenWithin : curLen.Within (2 ^ exponent))
    (unblocked : checkBlockAround map
      (x + curLen * trigonometry.cos (theta angle))
      (y + curLen * trigonometry.sin (theta angle)) z disXy disZ = some .over)
    (t : ℝ) (near : |t - curLen.toRat| ≤
      disXy.toRat - 24 * halfPlace exponent) :
    ¬map.BlockedOn trigonometry x y z angle disZ t := by
  rintro ⟨j, i, inGrid, column, row, blocks⟩
  have isOk : Ret.over = .ok := by
    apply eq_ok_of_between unblocked inGrid blocks
    intro window defined
    simp only [MapInfo.window, Option.bind_eq_bind, Option.bind_eq_some_iff,
      Option.some_inj] at defined
    obtain ⟨xiMin, left, yiMin, bottom, xiMax, right, yiMax, top, rfl⟩ := defined
    obtain ⟨afterLeft, beforeRight⟩ := moderate.alongX.index_between curLenWithin
      column inGrid.columnNonneg (inGrid.column.trans map.countsFit.1)
      (linePlace_near moderate.alongX.ratio near) left right
    obtain ⟨afterBottom, beforeTop⟩ := moderate.alongY.index_between curLenWithin
      row inGrid.rowNonneg (inGrid.row.trans map.countsFit.2)
      (linePlace_near moderate.alongY.ratio near) bottom top
    exact ⟨afterLeft, afterBottom, beforeRight, beforeTop⟩
  cases isOk

/-- The check along a line returns.  But for a margin at the ends no point before
the safe distance is in a cell of the grid that blocks, and if nothing was found
no point of the whole line is. -/
theorem checkBlockAroundLine_covers
    (moderate : Moderate exponent trigonometry map.toMapInfo x y angle length
      disXy) :
    (∃ enough, ∀ fuel, enough ≤ fuel →
      (checkBlockAroundLine trigonometry map x y z angle length disXy disZ
        fuel).isSome) ∧
    ∀ fuel ret safeDis,
      checkBlockAroundLine trigonometry map x y z angle length disXy disZ
        fuel = some (.returned ret safeDis) →
      (∀ t : ℝ, margin exponent ≤ t → t ≤ safeDis.toRat - margin exponent →
        ¬map.BlockedOn trigonometry x y z angle disZ t) ∧
      (ret = .over → ∀ t : ℝ, margin exponent ≤ t →
        t ≤ length.toRat - margin exponent →
          ¬map.BlockedOn trigonometry x y z angle disZ t) := by
  have start := moderate.pace.reached_start
    fun t => ¬map.BlockedOn trigonometry x y z angle disZ t
  have squares : ∀ curLen : Binary64, curLen.Within (2 ^ exponent) →
      checkBlockAround map (x + curLen * trigonometry.cos (theta angle))
        (y + curLen * trigonometry.sin (theta angle)) z disXy disZ = some .over →
      ∀ t : ℝ, |t - curLen.toRat| ≤ disXy.toRat - 24 * halfPlace exponent →
        ¬map.BlockedOn trigonometry x y z angle disZ t :=
    fun _ curLenWithin unblocked =>
      not_blockedOn_of_over moderate curLenWithin unblocked
  constructor
  · have positive : 0 < disXy.toRat / 2 := by
      linarith [moderate.pace.le_disXy, halfPlace_pos exponent]
    obtain ⟨steps, exceed⟩ := exists_nat_gt ((length.toRat -
      (if length < disXy then length else disXy).toRat) / (disXy.toRat / 2))
    rw [div_lt_iff₀ positive] at exceed
    refine ⟨steps + 1, fun fuel more => ?_⟩
    obtain ⟨extra, rfl⟩ := Nat.exists_eq_add_of_le more
    rw [show steps + 1 + extra = steps + extra + 1 by omega]
    refine moderate.pace.isSome_lineLoop _ _ start squares ?_
    have spare : 0 ≤ (extra : ℚ) * (disXy.toRat / 2) :=
      mul_nonneg (Nat.cast_nonneg _) positive.le
    push_cast
    linarith
  · intro fuel ret safeDis returned
    exact moderate.pace.clear_of_lineLoop fuel _ start squares returned

end Line

/-! ## A line along a column -/

/-- Two rows and two columns of five metres.  Only the second column is free. -/
def twoColumnsFile : Text :=
  "<block_min x=\"0\" y=\"0\" z=\"0\"/>\n".toList ++
    "<block_max x=\"10\" y=\"10\" z=\"10\"/>\n".toList ++
    "<block_size x=\"5\" y=\"5\" z=\"5\"/>\n".toList ++
    "<block id=\"0\" x=\"5\" y=\"0\" z=\"0\"/>\n".toList ++
    "<block id=\"1\" x=\"5\" y=\"5\" z=\"0\"/>\n".toList

/-- All walks lead due east. -/
def east : Trigonometry Binary64 where
  cos _ := 1
  sin _ := 0

/-- The last double before the second column. -/
def beforeSecondColumn : Binary64 := .ofExact (5 - 1 / 2 ^ 50)

theorem twoColumns_loaded :
    ∃ map, getMapInfo doubleScanner (fun _ => true) (some twoColumnsFile) =
        .loaded map ∧
      map.blockMin.x = 0 ∧ map.blockMin.y = 0 ∧ map.blockSize.x = 5 ∧
      map.blockSize.y = 5 ∧ map.blockCountX = 2 ∧ map.blockCountY = 2 ∧
      map.Blocks 0 0 20 1 ∧
      checkBlockAroundLine east map.toLoadedMap beforeSecondColumn 2 20 0 5 5 1
        2 = some (.returned .over 10) := by
  have computed : (match getMapInfo doubleScanner (fun _ => true)
        (some twoColumnsFile) with
      | .loaded map => decide (map.blockMin.x = 0 ∧ map.blockMin.y = 0 ∧
          map.blockSize.x = 5 ∧ map.blockSize.y = 5 ∧ map.blockCountX = 2 ∧
          map.blockCountY = 2 ∧ (20 : Binary64) - 1 < map.blockz 0 0 20 ∧
          checkBlockAroundLine east map.toLoadedMap beforeSecondColumn 2 20 0 5 5
            1 2 = some (.returned .over 10))
      | _ => false) = true := by
    decide +kernel
  split at computed
  · next map loaded =>
    have facts := of_decide_eq_true computed
    exact ⟨map, loaded, facts⟩
  · cases computed

theorem within_of_computed {value : Binary64} {bound : ℚ}
    (computed : value.exact = some value.toRat ∧ |value.toRat| ≤ bound) :
    value.Within bound :=
  ⟨computed.1, computed.2⟩

/-- The whole line is free but for its first and its last nanometre. -/
theorem checkBlockAroundLine_covers_twoColumns :
    ∃ map, getMapInfo doubleScanner (fun _ => true) (some twoColumnsFile) =
        .loaded map ∧
      ∀ t : ℝ, margin 4 ≤ t → t ≤ (5 : Binary64).toRat - margin 4 →
        ¬map.BlockedOn east beforeSecondColumn 2 20 0 1 t := by
  obtain ⟨map, loaded, originX, originY, sizeX, sizeY, -, -, -, returned⟩ :=
    twoColumns_loaded
  have zeroWithin : (0 : Binary64).Within (2 ^ 4) :=
    within_of_computed (by decide +kernel)
  have twoWithin : (2 : Binary64).Within (2 ^ 4) :=
    within_of_computed (by decide +kernel)
  have fiveWithin : (5 : Binary64).Within (2 ^ 4) :=
    within_of_computed (by decide +kernel)
  have startWithin : beforeSecondColumn.Within (2 ^ 4) :=
    within_of_computed (by decide +kernel)
  have moderate : Moderate 4 east map.toMapInfo beforeSecondColumn 2 0 5 5 := by
    refine ⟨⟨by decide, fiveWithin, fiveWithin, by decide +kernel⟩,
      ⟨?_, ?_, startWithin, within_of_computed (by decide +kernel), fiveWithin⟩,
      ⟨?_, ?_, twoWithin, within_of_computed (by decide +kernel), fiveWithin⟩⟩
    · rwa [originX]
    · rwa [sizeX]
    · rwa [originY]
    · rwa [sizeY]
  exact ⟨map, loaded, (checkBlockAroundLine_covers moderate).2 2 .over 10 returned
    |>.2 rfl⟩

/-- The start is in a cell that blocks, and nothing is found up to a distance of
ten metres: the square around the first point, which is rounded, has only the
second column. -/
theorem blockedOn_twoColumns :
    ∃ map, getMapInfo doubleScanner (fun _ => true) (some twoColumnsFile) =
        .loaded map ∧
      checkBlockAroundLine east map.toLoadedMap beforeSecondColumn 2 20 0 5 5 1
        2 = some (.returned .over 10) ∧
      map.BlockedOn east beforeSecondColumn 2 20 0 1 0 := by
  obtain ⟨map, loaded, originX, originY, sizeX, sizeY, countX, countY, blocks,
    returned⟩ := twoColumns_loaded
  have zero : (0 : Binary64).toRat = 0 := rfl
  have five : (5 : Binary64).toRat = 5 := by decide +kernel
  have two : (2 : Binary64).toRat = 2 := by decide +kernel
  have start : beforeSecondColumn.toRat = 5 - 1 / 2 ^ 50 := by decide +kernel
  refine ⟨map, loaded, returned, 0, 0, ?_, ?_, ?_, blocks⟩
  · refine ⟨le_rfl, ?_, le_rfl, ?_⟩
    · rw [countY]
      decide
    · rw [countX]
      decide
  · unfold linePlace
    rw [originX, sizeX, zero, five, start, zero_mul, add_zero]
    constructor <;> norm_num
  · unfold linePlace
    rw [originY, sizeY, zero, five, two, zero_mul, add_zero]
    constructor <;> norm_num

end Hdmap
end Pilot2Cloud
