import Pilot2Cloud.Flyto.StickEncoding

/-!
# What moves and turns are held for

`handleMove` and `handleTurn` check their arguments and pass the offset, the
distance and the speed of the aircraft on.  The speed of a turn is interpolated
between the entries of a table.
-/

namespace Pilot2Cloud
namespace Flyto

open Foundation

/-- A zoom factor with its yaw speed. -/
structure ZoomSpeedPoint where
  zoom : Binary32
  speed : Binary32

/-- An entry for a whole zoom, with the speed in tenths of a degree. -/
def ZoomSpeedPoint.tenths (zoom : Nat) (speed : Int) : ZoomSpeedPoint where
  zoom := .ofExact zoom
  speed := .ofExact (speed / 10)

open ZoomSpeedPoint in
/-- `kZoomYawSpeedTable`. -/
def kZoomYawSpeedTable : List ZoomSpeedPoint :=
  [tenths 1 725, tenths 2 367, tenths 3 284, tenths 4 228, tenths 5 192,
    tenths 6 165, tenths 7 145, tenths 8 129, tenths 9 119, tenths 10 109]

/-- The interpolation between two entries. -/
def interpolate (zoom : Binary32) (previous point : ZoomSpeedPoint) : Binary32 :=
  let span := point.zoom.sub previous.zoom
  let t := (zoom.sub previous.zoom).divide span
  previous.speed.add (t.mul (point.speed.sub previous.speed))

/-- The loop over the entries after the first. -/
def yawSpeedLoop (zoom : Binary32) (previous : ZoomSpeedPoint) :
    List ZoomSpeedPoint → Binary32
  | [] => previous.speed
  | point :: table =>
      if zoom.le point.zoom then interpolate zoom previous point
      else yawSpeedLoop zoom point table

/-- The yaw speed at a zoom factor, which is interpolated in the table. -/
def yawSpeedForZoom (zoom : Binary32) : Binary32 :=
  let front := ZoomSpeedPoint.tenths 1 725
  let back := ZoomSpeedPoint.tenths 10 109
  if zoom.le front.zoom then front.speed
  else if back.zoom.le zoom then back.speed
  else yawSpeedLoop zoom front kZoomYawSpeedTable.tail

namespace FlytoController

/-- The mode that a number in a command stands for. -/
def moveMode : Int → Option MoveMode
  | 1 => some .up
  | 2 => some .down
  | 3 => some .left
  | 4 => some .right
  | 5 => some .forward
  | 6 => some .backward
  | _ => none

/-- `TurnMode`. -/
inductive TurnMode
  | clockwise
  | counterclockwise
  deriving DecidableEq, Repr

/-- The turn that a number in a command stands for. -/
def turnMode : Int → Option TurnMode
  | 1 => some .clockwise
  | 2 => some .counterclockwise
  | _ => none

/-- `getTurnOffset`. -/
def getTurnOffset : TurnMode → FlightControlOffset
  | .clockwise => ⟨0, 0, 0, -660⟩
  | .counterclockwise => ⟨0, 0, 0, 660⟩

/-- What `handleMove` passes to `executeTimedControl` once the mode is checked
and the arguments are converted, or the reason of its refusal. -/
def handleMove (direction : Int) (distance : Binary32) :
    Except String (FlightControlOffset × Binary32 × Binary32) :=
  let speed : Binary32 := .ofInt 3 (by norm_num)
  match moveMode direction with
  | none => .error "非法方向值"
  | some mode =>
      if distance.le .zero then .error "非法距离值"
      else if speed.le .zero || (axisMaxSpeed mode).lt speed then
        .error "非法速度值"
      else .ok (calculateMoveOffset mode speed, distance, speed)

/-- What `handleTurn` passes on, with the zoom of the telemetry. -/
def handleTurn (direction : Int) (angle zoomFactor : Binary32) :
    Except String (FlightControlOffset × Binary32 × Binary32) :=
  match turnMode direction with
  | none => .error "非法方向值"
  | some mode =>
      if angle.le .zero then .error "非法角度值"
      else
        let zoomFactor :=
          if zoomFactor.lt (.ofInt 1 (by norm_num)) then
            .ofInt 3 (by norm_num)
          else zoomFactor
        .ok (getTurnOffset mode, angle, yawSpeedForZoom zoomFactor)

end FlytoController

/-! ## The speeds are positive -/

/-- A number between two integers that the format has. -/
def Within (lower upper : Int) (speed : Binary32) : Prop :=
  ∃ value isNumber, speed = .finite value isNumber ∧ lower ≤ value ∧ value ≤ upper

/-- Small whole numbers are single-precision numbers. -/
theorem hasDigits_intCast {value : Int} (few : |value| < 2 ^ 24) :
    single.HasDigits value :=
  ⟨value, 0, few, by norm_num, by simp⟩

/-- Rounding keeps a result between two integers. -/
theorem within_ofExact {lower upper : Int} {value : ℚ} (few : |lower| < 2 ^ 24)
    (upperFew : |upper| < 2 ^ 24) (above : lower ≤ value)
    (below : value ≤ upper) :
    Within lower upper (.ofExact value) := by
  have fits {bound : Int} (few : |bound| < 2 ^ 24) :
      |(bound : ℚ)| < 2 ^ 128 := by
    have isFew : |(bound : ℚ)| < 2 ^ 24 := by exact_mod_cast few
    exact isFew.trans (by norm_num)
  obtain ⟨number, isNumber, isExact, isAbove, isBelow⟩ :=
    BinaryFloat.ofExact_between (hasDigits_intCast few)
      (hasDigits_intCast upperFew) (fits few) (fits upperFew) above below
  exact ⟨number, isNumber, isExact, isAbove, isBelow⟩

/-- An entry of a whole zoom with a speed between two integers. -/
structure Entry (zoom : Nat) (low : Int) (point : ZoomSpeedPoint) : Prop where
  isZoom : ∃ isNumber, point.zoom = .finite zoom isNumber
  speed : Within low (low + 1) point.speed

/-- Between two entries the speed stays above the lower one, but for a unit. -/
theorem within_interpolate {previous point : ZoomSpeedPoint} {zoom : Binary32}
    {start : Nat} {high low : Int}
    (entry : Entry start high previous) (next : Entry (start + 1) low point)
    (isLow : 10 ≤ low) (isDescent : low < high) (isHigh : high < 100)
    (isAbove : zoom.le previous.zoom = false)
    (isBelow : zoom.le point.zoom = true) :
    Within 9 100 (interpolate zoom previous point) := by
  obtain ⟨⟨isNumber, isStart⟩, first, isFirst, firstEq, firstLow, firstHigh⟩ :=
    entry
  obtain ⟨⟨isNext, isEnd⟩, second, isSecond, secondEq, secondLow, secondHigh⟩ :=
    next
  rw [isStart] at isAbove
  rw [isEnd] at isBelow
  obtain ⟨place, isPlace, rfl⟩ :
      ∃ place isPlace, zoom = .finite place isPlace := by
    cases zoom with
    | nan => cases isBelow
    | infinite negative =>
        cases negative with
        | true => cases isAbove
        | false => cases isBelow
    | finite place isPlace => exact ⟨place, isPlace, rfl⟩
  have afterStart : (start : ℚ) < place := not_le.mp (of_decide_eq_false isAbove)
  have beforeEnd : place ≤ ((start + 1 : Nat) : ℚ) := of_decide_eq_true isBelow
  push_cast at beforeEnd
  have isStep : (low : ℚ) + 1 ≤ high := by exact_mod_cast isDescent
  have isBase : (10 : ℚ) ≤ low := by exact_mod_cast isLow
  have isTop : (high : ℚ) + 1 ≤ 100 := by exact_mod_cast isHigh
  push_cast at firstHigh secondHigh
  -- every operation rounds a number between two integers
  obtain ⟨span, isSpan, spanEq, spanLow, spanHigh⟩ :
      Within 1 1 (point.zoom.sub previous.zoom) := by
    rw [isStart, isEnd]
    apply within_ofExact (by norm_num) (by norm_num) <;> push_cast <;> linarith
  obtain ⟨offset, isOffset, offsetEq, offsetLow, offsetHigh⟩ :
      Within 0 1 (BinaryFloat.sub (.finite place isPlace) previous.zoom) := by
    rw [isStart]
    apply within_ofExact (by norm_num) (by norm_num) <;> push_cast <;> linarith
  obtain ⟨t, isT, tEq, tLow, tHigh⟩ :
      Within 0 1 (BinaryFloat.divide (.finite offset isOffset)
        (.finite span isSpan)) := by
    have isOne : span = 1 :=
      le_antisymm (by exact_mod_cast spanHigh) (by exact_mod_cast spanLow)
    subst isOne
    unfold BinaryFloat.divide
    dsimp only
    rw [if_neg one_ne_zero, div_one]
    exact within_ofExact (by norm_num) (by norm_num) offsetLow offsetHigh
  obtain ⟨change, isChange, changeEq, changeLow, changeHigh⟩ :
      Within (low - high - 1) 0 (point.speed.sub previous.speed) := by
    rw [firstEq, secondEq]
    apply within_ofExact
    · rw [abs_lt]
      omega
    · norm_num
    · push_cast
      linarith
    · push_cast
      linarith
  obtain ⟨part, isPart, partEq, partLow, partHigh⟩ :
      Within (low - high - 1) 0 (BinaryFloat.mul (.finite t isT)
        (.finite change isChange)) := by
    push_cast at changeLow changeHigh tLow tHigh
    apply within_ofExact
    · rw [abs_lt]
      omega
    · norm_num
    · push_cast
      nlinarith
    · push_cast
      exact mul_nonpos_of_nonneg_of_nonpos tLow changeHigh
  unfold interpolate
  dsimp only
  rw [offsetEq, spanEq, tEq, changeEq, partEq, firstEq]
  push_cast at partLow partHigh
  apply within_ofExact (by norm_num) (by norm_num) <;> push_cast <;> linarith

/-- Entries for the zooms behind `start`, with falling speeds. -/
def Descends : Nat → Int → List ZoomSpeedPoint → Prop
  | _, _, [] => True
  | start, high, point :: table =>
      ∃ low, Entry (start + 1) low point ∧ 10 ≤ low ∧ low < high ∧
        Descends (start + 1) low table

/-- The loop stays within the bounds of the table. -/
theorem within_yawSpeedLoop {previous : ZoomSpeedPoint}
    {table : List ZoomSpeedPoint} {zoom : Binary32} {start : Nat} {high : Int}
    (entry : Entry start high previous) (isHigh : 10 ≤ high) (isTop : high < 100)
    (descends : Descends start high table)
    (isAbove : zoom.le previous.zoom = false) :
    Within 9 100 (yawSpeedLoop zoom previous table) := by
  induction table generalizing previous start high with
  | nil =>
      obtain ⟨value, isNumber, isSpeed, isLow, isBelow⟩ := entry.speed
      refine ⟨value, isNumber, isSpeed, ?_, ?_⟩
      · have isBase : (10 : ℚ) ≤ high := by exact_mod_cast isHigh
        push_cast
        linarith
      · have isLast : (high : ℚ) + 1 ≤ 100 := by exact_mod_cast isTop
        push_cast at isBelow ⊢
        linarith
  | cons point table inductionHypothesis =>
      obtain ⟨low, next, isLow, isDescent, rest⟩ := descends
      unfold yawSpeedLoop
      split_ifs with isBelow
      · exact within_interpolate entry next isLow isDescent isTop
          isAbove isBelow
      · exact inductionHypothesis next isLow (by omega) rest
          (Bool.eq_false_iff.mpr isBelow)

/-- An entry lies within its bounds. -/
theorem entry_tenths {zoom : Nat} {speed low : Int} (small : zoom < 64)
    (few : |low| < 100) (above : low * 10 ≤ speed)
    (below : speed ≤ low * 10 + 10) :
    Entry zoom low (.tenths zoom speed) where
  isZoom := by
    have isSmall : |(zoom : Int)| < 2 ^ 24 := by
      rw [abs_lt]
      omega
    obtain ⟨value, isNumber, isZoom, isLow, isHigh⟩ :
        Within zoom zoom (.ofExact (zoom : ℚ)) :=
      within_ofExact isSmall isSmall (by norm_cast) (by norm_cast)
    have isValue : value = zoom := by
      push_cast at isLow isHigh
      exact le_antisymm isHigh isLow
    subst isValue
    exact ⟨isNumber, isZoom⟩
  speed := by
    rw [abs_lt] at few
    have isAbove : (low : ℚ) * 10 ≤ speed := by exact_mod_cast above
    have isBelow : (speed : ℚ) ≤ low * 10 + 10 := by exact_mod_cast below
    apply within_ofExact
    · rw [abs_lt]
      omega
    · rw [abs_lt]
      omega
    · linarith
    · push_cast
      linarith

/-- The table descends. -/
theorem descends_kZoomYawSpeedTable :
    Descends 1 72 kZoomYawSpeedTable.tail := by
  refine ⟨36, entry_tenths ?_ ?_ ?_ ?_, ?_, ?_, 28, entry_tenths ?_ ?_ ?_ ?_,
    ?_, ?_, 22, entry_tenths ?_ ?_ ?_ ?_, ?_, ?_, 19, entry_tenths ?_ ?_ ?_ ?_,
    ?_, ?_, 16, entry_tenths ?_ ?_ ?_ ?_, ?_, ?_, 14, entry_tenths ?_ ?_ ?_ ?_,
    ?_, ?_, 12, entry_tenths ?_ ?_ ?_ ?_, ?_, ?_, 11, entry_tenths ?_ ?_ ?_ ?_,
    ?_, ?_, 10, entry_tenths ?_ ?_ ?_ ?_, ?_, ?_, trivial⟩
  all_goals norm_num

/-- Wider bounds hold, too. -/
theorem Within.mono {lower upper least greatest : Int} {speed : Binary32}
    (within : Within lower upper speed) (below : least ≤ lower)
    (above : upper ≤ greatest) :
    Within least greatest speed := by
  obtain ⟨value, isNumber, isSpeed, isLow, isHigh⟩ := within
  exact ⟨value, isNumber, isSpeed, le_trans (by exact_mod_cast below) isLow,
    isHigh.trans (by exact_mod_cast above)⟩

/-- A turn is never slower than nine degrees per second. -/
theorem within_yawSpeedForZoom (zoom : Binary32) :
    Within 9 100 (yawSpeedForZoom zoom) := by
  have front : Entry 1 72 (.tenths 1 725) :=
    entry_tenths (by norm_num) (by norm_num) (by norm_num) (by norm_num)
  have back : Entry 10 10 (.tenths 10 109) :=
    entry_tenths (by norm_num) (by norm_num) (by norm_num) (by norm_num)
  unfold yawSpeedForZoom
  dsimp only
  split_ifs with isFront isBack
  · exact front.speed.mono (by norm_num) (by norm_num)
  · exact back.speed.mono (by norm_num) (by norm_num)
  · exact within_yawSpeedLoop front (by norm_num) (by norm_num)
      descends_kZoomYawSpeedTable (Bool.eq_false_iff.mpr isFront)

end Flyto
end Pilot2Cloud
