import Pilot2Cloud.Hdmap.BlockAround

/-!
# The check along a line

`check_block_around_line` checks squares around points of a ray whose distance
is half the side of a square.  Each point of the ray up to the distance that is
called safe lies in a square that was found clear.
-/

namespace Pilot2Cloud
namespace Hdmap

open Foundation

/-- The sine and the cosine of the mathematical library. -/
structure Trigonometry (K : Type*) where
  cos : K → K
  sin : K → K

/-- A sine and a cosine without rounding. -/
structure UnitTrigonometry (K : Type*) [Field K] extends Trigonometry K where
  cos_sq_add_sin_sq (angle : K) : cos angle ^ 2 + sin angle ^ 2 = 1

section Numbers

variable {K : Type*} [Arithmetic K]

/-- `PAI`. -/
@[simp] abbrev pai : K := 31415926 / 10000000

/-- Degrees of half a turn. -/
@[simp] abbrev halfTurn : K := 180

/-- How the walk along a line ends. -/
inductive LineResult (K : Type*)
  | undefined
  | returned (ret : Ret) (safeDis : K)
  deriving DecidableEq

/-- The loop of `check_block_around_line`, which is given up when the fuel is
used up. -/
def lineLoop (check : K → Option Ret) (length disXy : K) :
    Nat → K → Option (LineResult K)
  | 0, _ => none
  | fuel + 1, curLen =>
      if curLen ≤ length then
        match check curLen with
        | none => some .undefined
        | some .over => lineLoop check length disXy fuel (curLen + disXy)
        | some ret =>
            some (.returned ret
              (if curLen < disXy then 0 else curLen - disXy))
      else some (.returned .over curLen)

/-- `check_block_around_line`. -/
def checkBlockAroundLine [ToSigned32 K] (trigonometry : Trigonometry K)
    (map : LoadedMap K) (x y z angle length disXy disZ : K) (fuel : Nat) :
    Option (LineResult K) :=
  let theta := angle * pai / halfTurn
  let curLen := if length < disXy then length else disXy
  lineLoop
    (fun curLen =>
      checkBlockAround map (x + curLen * trigonometry.cos theta)
        (y + curLen * trigonometry.sin theta) z disXy disZ)
    length disXy fuel curLen

end Numbers

variable {K : Type*} [Field K] [LinearOrder K]

/-! ## The loop -/

section Loop

variable [IsStrictOrderedRing K] {check : K → Option Ret} {length disXy : K}

/-- The loop ends once the steps exceed the length. -/
theorem isSome_lineLoop (fuel : Nat) (curLen : K)
    (enough : length < curLen + fuel * disXy) :
    (lineLoop check length disXy (fuel + 1) curLen).isSome := by
  induction fuel generalizing curLen with
  | zero =>
      simp only [Nat.cast_zero, zero_mul, add_zero] at enough
      rw [lineLoop, if_neg enough.not_ge]
      rfl
  | succ fuel inductionHypothesis =>
      rw [lineLoop]
      split
      · split
        · rfl
        · apply inductionHypothesis
          push_cast at enough
          linarith
        · rfl
      · rfl

/-- Enough fuel lets the loop along a line reach its end. -/
theorem exists_fuel_lineLoop [FloorRing K] (check : K → Option Ret)
    (length : K) (positive : 0 < disXy) (curLen : K) :
    ∃ enough, ∀ fuel, enough ≤ fuel →
      (lineLoop check length disXy fuel curLen).isSome := by
  obtain ⟨steps, exceed⟩ := exists_nat_gt ((length - curLen) / disXy)
  rw [div_lt_iff₀ positive] at exceed
  refine ⟨steps + 1, fun fuel more => ?_⟩
  obtain ⟨extra, rfl⟩ := Nat.exists_eq_add_of_le more
  rw [show steps + 1 + extra = steps + extra + 1 by omega]
  apply isSome_lineLoop
  have spare : 0 ≤ (extra : K) * disXy := by positivity
  push_cast
  linarith

/-- Either no square has been checked yet and the first one contains the start,
or everything up to the next point is clear. -/
def Covered (clear : K → Prop) (length disXy curLen : K) : Prop :=
  (curLen ≤ disXy ∧ curLen ≤ length) ∨ ∀ t, 0 ≤ t → t ≤ curLen → clear t

/-- One more square extends the part of the line that is covered. -/
theorem Covered.next {clear : K → Prop} {curLen : K}
    (covered : Covered clear length disXy curLen)
    (square : ∀ t, |t - curLen| ≤ disXy → clear t) :
    Covered clear length disXy (curLen + disXy) := by
  refine .inr fun t nonneg le => ?_
  by_cases inSquare : curLen - disXy ≤ t
  · apply square
    rw [abs_le]
    constructor <;> linarith
  · rw [not_le] at inSquare
    obtain ⟨first, -⟩ | earlier := covered
    · linarith
    · exact earlier t nonneg (by linarith)

/-- What is clear before the loop and in the squares it checks is clear up to
the distance that is returned, and along the whole length if nothing was
found. -/
theorem clear_of_lineLoop {clear : K → Prop} (positive : 0 < disXy)
    (squares : ∀ curLen, check curLen = some .over →
      ∀ t, |t - curLen| ≤ disXy → clear t)
    (fuel : Nat) (curLen : K) (covered : Covered clear length disXy curLen)
    {ret : Ret} {safeDis : K}
    (returned : lineLoop check length disXy fuel curLen =
      some (.returned ret safeDis)) :
    (∀ t, 0 ≤ t → t < safeDis → clear t) ∧
      (ret = .over → ∀ t, 0 ≤ t → t ≤ length → clear t) := by
  induction fuel generalizing curLen with
  | zero => cases returned
  | succ fuel inductionHypothesis =>
      rw [lineLoop] at returned
      split at returned
      · next more =>
        split at returned
        · cases returned
        · next found =>
          exact inductionHypothesis _ (covered.next (squares curLen found))
            returned
        · next ret notOver found =>
          cases returned
          refine ⟨fun t nonneg before => ?_, fun same => (notOver same).elim⟩
          obtain ⟨first, -⟩ | earlier := covered
          · split at before <;> linarith
          · split at before
            · linarith
            · exact earlier t nonneg (by linarith)
      · next past =>
        cases returned
        rw [not_le] at past
        obtain ⟨-, within⟩ | earlier := covered
        · linarith
        · constructor
          · exact fun t nonneg before => earlier t nonneg before.le
          · exact fun _ t nonneg within => earlier t nonneg (by linarith)

/-- The loop finds nothing if no check does. -/
theorem over_of_lineLoop (nonneg : 0 ≤ disXy)
    (clear : ∀ curLen, 0 ≤ curLen → curLen ≤ length →
      check curLen = some .over)
    (fuel : Nat) (curLen : K) (start : 0 ≤ curLen) {result : LineResult K}
    (ends : lineLoop check length disXy fuel curLen = some result) :
    ∃ safeDis, result = .returned .over safeDis := by
  induction fuel generalizing curLen with
  | zero => cases ends
  | succ fuel inductionHypothesis =>
      rw [lineLoop] at ends
      split at ends
      · next more =>
        rw [clear curLen start more] at ends
        exact inductionHypothesis _ (add_nonneg start nonneg) ends
      · cases ends
        exact ⟨curLen, rfl⟩

end Loop

/-! ## The ray -/

/-- The point of the ray at a distance from its start. -/
def Trigonometry.ray (trigonometry : Trigonometry K) (x y angle t : K) :
    K × K :=
  (x + t * trigonometry.cos (angle * pai / halfTurn),
    y + t * trigonometry.sin (angle * pai / halfTurn))

@[simp] theorem Trigonometry.ray_zero (trigonometry : Trigonometry K)
    (x y angle : K) : trigonometry.ray x y angle 0 = (x, y) := by
  simp [Trigonometry.ray]

theorem sq_add_sq_eq_one_abs_le [IsStrictOrderedRing K] {first second : K}
    (unit : first ^ 2 + second ^ 2 = 1) : |first| ≤ 1 := by
  rw [← sq_le_one_iff_abs_le_one]
  have nonneg := sq_nonneg second
  linarith

/-- Points of the ray are as far apart in each direction as along the ray, at
most. -/
theorem UnitTrigonometry.ray_near [IsStrictOrderedRing K]
    (trigonometry : UnitTrigonometry K) (x y angle : K) {t other distance : K}
    (near : |t - other| ≤ distance) :
    |(trigonometry.ray x y angle t).1 -
        (trigonometry.ray x y angle other).1| ≤ distance ∧
      |(trigonometry.ray x y angle t).2 -
        (trigonometry.ray x y angle other).2| ≤ distance := by
  have unit := trigonometry.cos_sq_add_sin_sq (angle * pai / halfTurn)
  have cosine := sq_add_sq_eq_one_abs_le unit
  rw [add_comm] at unit
  have sine := sq_add_sq_eq_one_abs_le unit
  simp only [Trigonometry.ray, add_sub_add_left_eq_sub, ← sub_mul, abs_mul]
  constructor
  · exact (mul_le_of_le_one_right (abs_nonneg _) cosine).trans near
  · exact (mul_le_of_le_one_right (abs_nonneg _) sine).trans near

variable [FloorRing K]

/-- The cell of the point, if it is in the grid, blocks at this height. -/
def LoadedMap.BlockedAt (map : LoadedMap K) (point : K × K) (z disZ : K) :
    Prop :=
  ∃ j i, map.InGrid j i ∧ map.InCell j i point.1 point.2 ∧
    map.Blocks j i z disZ

section Rays

variable [IsStrictOrderedRing K] (trigonometry : UnitTrigonometry K)
  (map : LoadedMap K) (x y z angle length disXy disZ : K)

/-- What a walk along a line of any length says about its points. -/
theorem clear_of_checkBlockAroundLine (positive : 0 < disXy)
    {fuel : Nat} {ret : Ret} {safeDis : K}
    (returned : checkBlockAroundLine trigonometry.toTrigonometry map x y z
      angle length disXy disZ fuel = some (.returned ret safeDis)) :
    (∀ t, 0 ≤ t → t < safeDis →
      ¬map.BlockedAt (trigonometry.ray x y angle t) z disZ) ∧
    (ret = .over → ∀ t, 0 ≤ t → t ≤ length →
      ¬map.BlockedAt (trigonometry.ray x y angle t) z disZ) := by
  refine clear_of_lineLoop positive ?_ fuel _ ?_ returned
  · rintro curLen unblocked t near ⟨j, i, inGrid, inCell, blocks⟩
    obtain ⟨nearX, nearY⟩ := trigonometry.ray_near x y angle near
    cases eq_ok_of_blocks unblocked inGrid inCell nearX nearY blocks
  · apply Or.inl
    split
    · next short => exact ⟨short.le, le_rfl⟩
    · next long => exact ⟨le_rfl, not_lt.mp long⟩

end Rays

/-- All walks lead due east. -/
def eastward : UnitTrigonometry ℚ where
  cos _ := 1
  sin _ := 0
  cos_sq_add_sin_sq _ := by norm_num

/-- A free cell of 100 metres. -/
def freeMap : LoadedMap ℚ where
  blockMin := ⟨0, 0, 0⟩
  blockSize := ⟨100, 100, 1⟩
  blockCountX := 1
  blockCountY := 1
  countsFit := oneCell_countsFit
  node := []
  restriction := []
  block _ _ := ⟨1, 0⟩
  resdictionI _ _ := 0

end Hdmap
end Pilot2Cloud
