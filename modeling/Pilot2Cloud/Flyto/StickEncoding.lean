import Pilot2Cloud.Flyto.Control
import Pilot2Cloud.Foundation.BinaryFloat

/-!
# The stick values of a move

A speed is looked up in the table of its direction, which gives the offset of
the one channel that the direction uses.  The offsets of a table grow, so a
larger speed never has a smaller offset.
-/

namespace Pilot2Cloud
namespace Flyto

open Foundation

/-- A speed with its offset. -/
structure SpeedOffsetPoint where
  speed : Binary32
  offset : Int

/-- An entry for a whole number of m/s. -/
def SpeedOffsetPoint.whole (speed : Fin 64) (offset : Int) :
    SpeedOffsetPoint where
  speed := .ofInt speed (by
    rw [abs_of_nonneg (Int.natCast_nonneg _)]
    exact lt_trans (Int.ofNat_lt.mpr speed.isLt) (by norm_num))
  offset := offset

open SpeedOffsetPoint in
/-- `kHorizontalSpeedMap`. -/
def kHorizontalSpeedMap : List SpeedOffsetPoint :=
  [whole 1 165, whole 2 220, whole 3 260, whole 4 295, whole 5 330, whole 6 370,
    whole 7 410, whole 8 450, whole 9 490, whole 10 530, whole 11 570,
    whole 12 600, whole 13 625, whole 14 645, whole 15 660]

open SpeedOffsetPoint in
/-- `kAscendSpeedMap`. -/
def kAscendSpeedMap : List SpeedOffsetPoint :=
  [whole 1 272, whole 2 378, whole 3 463, whole 4 536, whole 5 603, whole 6 660]

open SpeedOffsetPoint in
/-- `kDescendSpeedMap`. -/
def kDescendSpeedMap : List SpeedOffsetPoint :=
  [whole 1 272, whole 2 378, whole 3 463, whole 4 536, whole 5 603, whole 6 660]

/-- `kHorizontalMaxSpeed`. -/
def kHorizontalMaxSpeed : Binary32 := .ofInt 15 (by norm_num)

/-- `kAscendMaxSpeed`. -/
def kAscendMaxSpeed : Binary32 := .ofInt 6 (by norm_num)

/-- `kDescendMaxSpeed`. -/
def kDescendMaxSpeed : Binary32 := .ofInt 6 (by norm_num)

/-- The offset of the first entry that is not below the speed, or of the last
one. -/
def speedToOffset (speed : Binary32) : List SpeedOffsetPoint → Int
  | [] => 0
  | [point] => point.offset
  | point :: table =>
      if speed.le point.speed then point.offset else speedToOffset speed table

/-- `MoveMode`. -/
inductive MoveMode
  | up
  | down
  | left
  | right
  | forward
  | backward
  deriving DecidableEq, Repr

/-- The largest speed of a mode. -/
def axisMaxSpeed : MoveMode → Binary32
  | .up => kAscendMaxSpeed
  | .down => kDescendMaxSpeed
  | _ => kHorizontalMaxSpeed

/-- `calculateMoveOffset`. -/
def calculateMoveOffset (mode : MoveMode) (speed : Binary32) :
    FlightControlOffset :=
  match mode with
  | .up => ⟨speedToOffset speed kAscendSpeedMap, 0, 0, 0⟩
  | .down => ⟨-speedToOffset speed kDescendSpeedMap, 0, 0, 0⟩
  | .left => ⟨0, -speedToOffset speed kHorizontalSpeedMap, 0, 0⟩
  | .right => ⟨0, speedToOffset speed kHorizontalSpeedMap, 0, 0⟩
  | .forward => ⟨0, 0, speedToOffset speed kHorizontalSpeedMap, 0⟩
  | .backward => ⟨0, 0, -speedToOffset speed kHorizontalSpeedMap, 0⟩

/-! ## Tables -/

/-- The offsets of a table grow. -/
def Ascending (table : List SpeedOffsetPoint) : Prop :=
  table.Pairwise fun first second => first.offset ≤ second.offset

variable {table : List SpeedOffsetPoint} {point : SpeedOffsetPoint}
  {speed faster : Binary32}

/-- A speed takes the first entry that it does not exceed. -/
theorem speedToOffset_cons (nonempty : table ≠ []) :
    speedToOffset speed (point :: table) =
      if speed.le point.speed then point.offset else speedToOffset speed table := by
  cases table with
  | nil => exact absurd rfl nonempty
  | cons second table => rfl

/-- The offset is that of an entry. -/
theorem exists_speedToOffset (nonempty : table ≠ []) :
    ∃ point ∈ table, speedToOffset speed table = point.offset := by
  induction table with
  | nil => exact absurd rfl nonempty
  | cons point table inductionHypothesis =>
      by_cases isLast : table = []
      · rw [isLast]
        exact ⟨point, List.mem_cons_self, rfl⟩
      · rw [speedToOffset_cons isLast]
        split_ifs with isBelow
        · exact ⟨point, List.mem_cons_self, rfl⟩
        · obtain ⟨later, isMember, isOffset⟩ := inductionHypothesis isLast
          exact ⟨later, List.mem_cons_of_mem _ isMember, isOffset⟩

/-- A larger speed has no smaller offset. -/
theorem speedToOffset_mono (ascending : Ascending table)
    (isFaster : speed.le faster = true) :
    speedToOffset speed table ≤ speedToOffset faster table := by
  induction table with
  | nil => exact le_rfl
  | cons point table inductionHypothesis =>
      obtain ⟨smallest, rest⟩ := List.pairwise_cons.mp ascending
      by_cases isLast : table = []
      · rw [isLast]
        exact le_rfl
      · rw [speedToOffset_cons isLast, speedToOffset_cons isLast]
        by_cases fasterBelow : faster.le point.speed = true
        · rw [if_pos fasterBelow,
            if_pos (BinaryFloat.le_trans isFaster fasterBelow)]
        · rw [if_neg fasterBelow]
          split_ifs with isBelow
          · obtain ⟨later, isMember, isOffset⟩ := exists_speedToOffset isLast
            rw [isOffset]
            exact smallest later isMember
          · exact inductionHypothesis rest

/-! ## Channels -/

/-- The four channels of a stick message. -/
inductive Channel
  | throttle
  | roll
  | pitch
  | yaw
  deriving DecidableEq, Repr

/-- The value of a channel. -/
def StickControl.channel (message : StickControl) : Channel → Int
  | .throttle => message.throttle
  | .roll => message.roll
  | .pitch => message.pitch
  | .yaw => message.yaw

/-- The channel of a direction. -/
def MoveMode.channel : MoveMode → Channel
  | .up | .down => .throttle
  | .left | .right => .roll
  | .forward | .backward => .pitch

/-- The side of the centre to which a direction moves its channel. -/
def MoveMode.sign : MoveMode → Int
  | .up | .right | .forward => 1
  | .down | .left | .backward => -1

/-- The table of a direction. -/
def MoveMode.speedMap : MoveMode → List SpeedOffsetPoint
  | .up => kAscendSpeedMap
  | .down => kDescendSpeedMap
  | _ => kHorizontalSpeedMap

/-- The message that `commonControlSend` publishes for a move. -/
def moveMessage (mode : MoveMode) (speed : Binary32) : StickControl :=
  .ofOffset (calculateMoveOffset mode speed)

variable {mode : MoveMode}

/-- Only the channel of a mode is deflected. -/
theorem channel_moveMessage (channel : Channel) :
    (moveMessage mode speed).channel channel =
      1024 + if channel = mode.channel then
        mode.sign * speedToOffset speed mode.speedMap
      else 0 := by
  cases mode <;> cases channel <;>
    simp [moveMessage, calculateMoveOffset, StickControl.ofOffset,
      StickControl.channel, MoveMode.channel, MoveMode.sign, MoveMode.speedMap]

/-- Every mode has a table. -/
theorem speedMap_nonempty (mode : MoveMode) : mode.speedMap ≠ [] := by
  cases mode <;> exact List.cons_ne_nil _ _

/-- The tables ascend. -/
theorem speedMap_ascending (mode : MoveMode) : Ascending mode.speedMap := by
  have offsets :
      (mode.speedMap.map SpeedOffsetPoint.offset).Pairwise (· ≤ ·) := by
    cases mode <;> decide
  exact List.pairwise_map.mp offsets

/-- The offsets of the tables are positive and at most 660. -/
theorem speedMap_bounded (mode : MoveMode) :
    ∀ point ∈ mode.speedMap, 0 < point.offset ∧ point.offset ≤ 660 := by
  have offsets : ∀ offset ∈ mode.speedMap.map SpeedOffsetPoint.offset,
      0 < offset ∧ offset ≤ 660 := by
    cases mode <;> decide
  exact fun point isMember =>
    offsets point.offset (List.mem_map_of_mem isMember)

/-- A deflection is positive and at most 660. -/
theorem offset_bounded :
    0 < speedToOffset speed mode.speedMap ∧
      speedToOffset speed mode.speedMap ≤ 660 := by
  obtain ⟨point, isMember, isOffset⟩ :=
    @exists_speedToOffset _ speed (speedMap_nonempty mode)
  rw [isOffset]
  exact speedMap_bounded mode point isMember

/-- How far a move takes its channel off the centre, to the side of its
direction. -/
def deflection (mode : MoveMode) (speed : Binary32) : Int :=
  mode.sign * ((moveMessage mode speed).channel mode.channel - 1024)

/-- The deflection is what the table gives for the speed. -/
theorem deflection_eq :
    deflection mode speed = speedToOffset speed mode.speedMap := by
  unfold deflection
  rw [channel_moveMessage, if_pos rfl, add_sub_cancel_left, ← mul_assoc]
  have isSquare : mode.sign * mode.sign = 1 := by
    cases mode <;> rfl
  rw [isSquare, one_mul]

/-- Every channel is in the range of the stick, just the one of the direction is
off the centre, to its side, and a larger speed takes it no less far. -/
structure Encodes (mode : MoveMode) (speed : Binary32) : Prop where
  inRange : ∀ channel,
    364 ≤ (moveMessage mode speed).channel channel ∧
      (moveMessage mode speed).channel channel ≤ 1684
  offCentre : 0 < deflection mode speed
  centred : ∀ channel ≠ mode.channel,
    (moveMessage mode speed).channel channel = 1024
  monotone : ∀ faster, speed.le faster = true →
    deflection mode speed ≤ deflection mode faster

/-- The stick values of a move are bounded and monotone in its speed. -/
theorem moveMessage_encodes (mode : MoveMode) (speed : Binary32) :
    Encodes mode speed where
  inRange := by
    intro channel
    obtain ⟨isPositive, isBounded⟩ := @offset_bounded speed mode
    rw [channel_moveMessage]
    split_ifs
    · have isSign : mode.sign = 1 ∨ mode.sign = -1 := by
        cases mode <;> decide
      obtain isUp | isDown := isSign
      · rw [isUp]
        omega
      · rw [isDown]
        omega
    · omega
  offCentre := by
    rw [deflection_eq]
    exact offset_bounded.1
  centred := by
    intro channel isOther
    rw [channel_moveMessage, if_neg isOther, add_zero]
  monotone := by
    intro faster isFaster
    rw [deflection_eq, deflection_eq]
    exact speedToOffset_mono (speedMap_ascending mode) isFaster

end Flyto
end Pilot2Cloud
