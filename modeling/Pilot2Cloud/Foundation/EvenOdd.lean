import Mathlib
import Pilot2Cloud.Foundation.ClosedChain

/-!
# The even-odd test

A point is inside of a closed chain of segments when the ray to its right meets
an odd number of them, where a node at the height of the point counts as below.
The test gives the same for two points at one height, or at one place of the
other axis, if no segment is between them.
-/

namespace Foundation

open ClosedChain

/-- A point of the plane. -/
structure Place (K : Type*) where
  x : K
  y : K

namespace Place

variable {K : Type*} [Field K] [LinearOrder K]

/-- The point that divides a segment. -/
def along (segment : Place K × Place K) (part : K) : Place K where
  x := segment.1.x + part * (segment.2.x - segment.1.x)
  y := segment.1.y + part * (segment.2.y - segment.1.y)

/-- Where the line through a segment has a height. -/
def atHeight (segment : Place K × Place K) (y : K) : K :=
  segment.1.x + (y - segment.1.y) / (segment.2.y - segment.1.y) *
    (segment.2.x - segment.1.x)

/-- One end of the segment is above a height and the other one is not. -/
def straddles (segment : Place K × Place K) (y : K) : Bool :=
  decide (y < segment.1.y) ^^ decide (y < segment.2.y)

/-- The ray to the right meets the segment. -/
def crosses (place : Place K) (segment : Place K × Place K) : Bool :=
  straddles segment place.y && decide (place.x < atHeight segment place.y)

/-- The ray to the right meets an odd number of segments. -/
def evenOdd (nodes : List (Place K)) (place : Place K) : Bool :=
  parity (crosses place) (edges nodes)

section Level

variable {nodes : List (Place K)} {first second : Place K}

/-- Two points at one height, on the same side of each segment there. -/
theorem evenOdd_of_level (level : first.y = second.y)
    (sameSide : ∀ segment ∈ edges nodes, straddles segment first.y →
      (first.x < atHeight segment first.y ↔
        second.x < atHeight segment first.y)) :
    evenOdd nodes first = evenOdd nodes second := by
  apply parity_congr
  intro segment isSegment
  unfold crosses
  rw [← level]
  cases meets : straddles segment first.y with
  | false => rfl
  | true =>
      rw [Bool.true_and, Bool.true_and, decide_eq_decide]
      exact sameSide segment isSegment meets

end Level

variable [IsStrictOrderedRing K] {segment : Place K × Place K}
  {x lower upper y : K}

/-- No point of the segment, if it is not vertical, has the place `x` between
two heights. -/
def Avoids (segment : Place K × Place K) (x lower upper : K) : Prop :=
  segment.1.x ≠ segment.2.x → ∀ part, 0 ≤ part → part ≤ 1 →
    (along segment part).x = x →
      ¬(lower ≤ (along segment part).y ∧ (along segment part).y ≤ upper)

/-- A point of the segment between two heights. -/
structure InStrip (segment : Place K × Place K) (lower upper part : K) :
    Prop where
  nonneg : 0 ≤ part
  le_one : part ≤ 1
  above : lower ≤ (along segment part).y
  below : (along segment part).y ≤ upper

omit [LinearOrder K] [IsStrictOrderedRing K] in
@[simp] theorem along_zero : along segment 0 = segment.1 := by
  simp [along]

omit [LinearOrder K] [IsStrictOrderedRing K] in
@[simp] theorem along_one : along segment 1 = segment.2 := by
  simp [along]

/-- What is between two parts is between their heights and places. -/
theorem InStrip.between {early late part : K}
    (first : InStrip segment lower upper early)
    (last : InStrip segment lower upper late)
    (isLater : early ≤ part) (isEarlier : part ≤ late) :
    InStrip segment lower upper part := by
  obtain ⟨earlyNonneg, -, earlyAbove, earlyBelow⟩ := first
  obtain ⟨-, lateLeOne, lateAbove, lateBelow⟩ := last
  unfold along at earlyAbove earlyBelow lateAbove lateBelow
  dsimp only at earlyAbove earlyBelow lateAbove lateBelow
  refine ⟨earlyNonneg.trans isLater, isEarlier.trans lateLeOne, ?_, ?_⟩
  · unfold along
    dsimp only
    rcases le_total segment.1.y segment.2.y with rises | falls
    · have more := mul_le_mul_of_nonneg_right isLater (sub_nonneg.mpr rises)
      linarith
    · have more := mul_le_mul_of_nonpos_right isEarlier (sub_nonpos.mpr falls)
      linarith
  · unfold along
    dsimp only
    rcases le_total segment.1.y segment.2.y with rises | falls
    · have more := mul_le_mul_of_nonneg_right isEarlier (sub_nonneg.mpr rises)
      linarith
    · have more := mul_le_mul_of_nonpos_right isLater (sub_nonpos.mpr falls)
      linarith

/-- Two points of a segment between the heights are not on different sides of a
place that the segment avoids there. -/
theorem Avoids.not_between {early late : K}
    (avoids : Avoids segment x lower upper)
    (first : InStrip segment lower upper early)
    (last : InStrip segment lower upper late)
    (onRight : x < (along segment early).x)
    (onLeft : (along segment late).x ≤ x) : False := by
  unfold along at onRight onLeft
  dsimp only at onRight onLeft
  have slanted : segment.1.x ≠ segment.2.x := by
    intro vertical
    rw [← vertical, sub_self, mul_zero] at onRight onLeft
    linarith
  have nonzero : segment.2.x - segment.1.x ≠ 0 := sub_ne_zero.mpr slanted.symm
  -- the part of the segment up to the place
  have inStrip : InStrip segment lower upper
      ((x - segment.1.x) / (segment.2.x - segment.1.x)) := by
    rcases lt_or_gt_of_ne nonzero with falls | rises
    · have isLater : early ≤
          (x - segment.1.x) / (segment.2.x - segment.1.x) := by
        rw [le_div_iff_of_neg falls]
        linarith
      have isEarlier : (x - segment.1.x) / (segment.2.x - segment.1.x) ≤
          late := by
        rw [div_le_iff_of_neg falls]
        linarith
      exact first.between last isLater isEarlier
    · have isLater : late ≤
          (x - segment.1.x) / (segment.2.x - segment.1.x) := by
        rw [le_div_iff₀ rises]
        linarith
      have isEarlier : (x - segment.1.x) / (segment.2.x - segment.1.x) ≤
          early := by
        rw [div_le_iff₀ rises]
        linarith
      exact last.between first isLater isEarlier
  refine avoids slanted _ inStrip.nonneg inStrip.le_one ?_
    ⟨inStrip.above, inStrip.below⟩
  unfold along
  dsimp only
  rw [div_mul_cancel₀ _ nonzero]
  ring

/-- A segment that avoids a line in a strip keeps to one side of it there. -/
theorem Avoids.sameSide {early late : K}
    (avoids : Avoids segment x lower upper)
    (first : InStrip segment lower upper early)
    (last : InStrip segment lower upper late) :
    x < (along segment early).x ↔ x < (along segment late).x := by
  constructor
  · intro onRight
    by_contra onLeft
    exact avoids.not_between first last onRight (not_lt.mp onLeft)
  · intro onRight
    by_contra onLeft
    exact avoids.not_between last first onRight (not_lt.mp onLeft)

/-- A segment meets a height that it straddles. -/
theorem exists_along_atHeight (meets : straddles segment y = true) :
    ∃ part, 0 ≤ part ∧ part ≤ 1 ∧
      along segment part = ⟨atHeight segment y, y⟩ := by
  refine ⟨(y - segment.1.y) / (segment.2.y - segment.1.y), ?_⟩
  have cases : (y < segment.1.y ∧ segment.2.y ≤ y) ∨
      (segment.1.y ≤ y ∧ y < segment.2.y) := by
    unfold straddles at meets
    grind
  obtain ⟨below, above⟩ | ⟨above, below⟩ := cases
  · have falls : segment.2.y - segment.1.y < 0 := by linarith
    refine ⟨div_nonneg_of_nonpos (by linarith) falls.le,
      (div_le_one_of_neg falls).mpr (by linarith), ?_⟩
    unfold along atHeight
    rw [div_mul_cancel₀ _ falls.ne]
    congr 1
    ring
  · have rises : 0 < segment.2.y - segment.1.y := by linarith
    refine ⟨div_nonneg (by linarith) rises.le,
      (div_le_one rises).mpr (by linarith), ?_⟩
    unfold along atHeight
    rw [div_mul_cancel₀ _ rises.ne']
    congr 1
    ring

/-- The node is to the right, above one height and not above the other. -/
def inRegion (x lower upper : K) (node : Place K) : Bool :=
  decide (x < node.x) &&
    (decide (lower < node.y) && !decide (upper < node.y))

/-- All points of the segment between the heights are on one side. -/
theorem Avoids.exists_side (avoids : Avoids segment x lower upper) :
    ∃ side : Bool, ∀ part, InStrip segment lower upper part →
      decide (x < (along segment part).x) = side := by
  by_cases empty : ∃ part, InStrip segment lower upper part
  · obtain ⟨first, isFirst⟩ := empty
    refine ⟨decide (x < (along segment first).x), ?_⟩
    intro part inStrip
    rw [decide_eq_decide]
    exact avoids.sameSide inStrip isFirst
  · refine ⟨false, ?_⟩
    intro part inStrip
    exact absurd ⟨part, inStrip⟩ empty

theorem xor_of_implies (low high otherLow otherHigh side : Bool)
    (order : high = true → low = true)
    (otherOrder : otherHigh = true → otherLow = true) :
    (((low ^^ otherLow) && side) ^^ ((high ^^ otherHigh) && side)) =
      (((low && !high) && side) ^^ ((otherLow && !otherHigh) && side)) := by
  revert low high otherLow otherHigh side
  decide

/-- A segment that keeps to one side of a point crosses its ray exactly when it
meets the height of the point on that side. -/
theorem crosses_of_side {side : Bool} {height : K}
    (isSide : ∀ part, InStrip segment lower upper part →
      decide (x < (along segment part).x) = side)
    (above : lower ≤ height) (below : height ≤ upper) :
    crosses ⟨x, height⟩ segment = (straddles segment height && side) := by
  unfold crosses
  dsimp only
  cases meets : straddles segment height with
  | false => rfl
  | true =>
      obtain ⟨part, nonneg, leOne, same⟩ := exists_along_atHeight meets
      have isHere := isSide part ⟨nonneg, leOne, by rw [same]; exact above,
        by rw [same]; exact below⟩
      rw [same] at isHere
      rw [Bool.true_and, Bool.true_and]
      exact isHere

omit [Field K] [IsStrictOrderedRing K] in
theorem inRegion_of_side {side : Bool} {node : Place K}
    (isSide : lower < node.y → node.y ≤ upper →
      decide (x < node.x) = side) :
    inRegion x lower upper node =
      ((decide (lower < node.y) && !decide (upper < node.y)) && side) := by
  unfold inRegion
  by_cases above : lower < node.y
  · by_cases below : node.y ≤ upper
    · rw [isSide above below, Bool.and_comm]
    · rw [decide_eq_true (not_le.mp below)]
      simp
  · rw [decide_eq_false above]
    simp

/-- The segment meets one of the two rays exactly if it has one end between
them, unless it goes between the points. -/
theorem crosses_xor_crosses (ordered : lower ≤ upper)
    (avoids : Avoids segment x lower upper) :
    (crosses ⟨x, lower⟩ segment ^^ crosses ⟨x, upper⟩ segment) =
      (inRegion x lower upper segment.1 ^^
        inRegion x lower upper segment.2) := by
  obtain ⟨side, isSide⟩ := avoids.exists_side
  have atStart : lower < segment.1.y → segment.1.y ≤ upper →
      decide (x < segment.1.x) = side := by
    intro above below
    have isHere := isSide 0 ⟨le_rfl, zero_le_one,
      by rw [along_zero]; exact above.le, by rw [along_zero]; exact below⟩
    rw [along_zero] at isHere
    exact isHere
  have atEnd : lower < segment.2.y → segment.2.y ≤ upper →
      decide (x < segment.2.x) = side := by
    intro above below
    have isHere := isSide 1 ⟨zero_le_one, le_rfl,
      by rw [along_one]; exact above.le, by rw [along_one]; exact below⟩
    rw [along_one] at isHere
    exact isHere
  rw [crosses_of_side isSide le_rfl ordered,
    crosses_of_side isSide ordered le_rfl, inRegion_of_side atStart,
    inRegion_of_side atEnd]
  apply xor_of_implies
  · simpa using ordered.trans_lt
  · simpa using ordered.trans_lt

/-- Two points at one place, with no segment between them. -/
theorem evenOdd_of_vertical {nodes : List (Place K)} (ordered : lower ≤ upper)
    (avoid : ∀ segment ∈ edges nodes, Avoids segment x lower upper) :
    evenOdd nodes ⟨x, lower⟩ = evenOdd nodes ⟨x, upper⟩ := by
  have changes := parity_xor (crosses ⟨x, lower⟩) (crosses ⟨x, upper⟩)
    (edges nodes)
  rw [parity_congr fun segment isSegment =>
    crosses_xor_crosses ordered (avoid segment isSegment),
    parity_change] at changes
  exact (bne_eq_false_iff_eq.mp changes.symm)

/-! ## The two sides of a segment -/

/-- Where the line through a segment has a place of the other axis. -/
def atWidth (segment : Place K × Place K) (x : K) : K :=
  segment.1.y + (x - segment.1.x) / (segment.2.x - segment.1.x) *
    (segment.2.y - segment.1.y)

/-- Positive on the left of a segment and negative on its right. -/
def turn (segment : Place K × Place K) (place : Place K) : K :=
  (segment.2.x - segment.1.x) * (place.y - segment.1.y) -
    (segment.2.y - segment.1.y) * (place.x - segment.1.x)

/-- The inside is on the left of every segment, or on the right of every
segment, close to each of its points. -/
def HasInterior (nodes : List (Place K)) (left : Bool) : Prop :=
  ∀ segment ∈ edges nodes, ∀ part, 0 < part → part < 1 →
    ∃ radius, 0 < radius ∧ ∀ place : Place K,
      |place.x - (along segment part).x| < radius →
      |place.y - (along segment part).y| < radius →
        (0 < turn segment place → evenOdd nodes place = left) ∧
        (turn segment place < 0 → evenOdd nodes place = !left)

omit [IsStrictOrderedRing K] [LinearOrder K] in
/-- The turn at a place, by the horizontal distance from the segment to the
place. -/
theorem turn_of_height {place : Place K} (sloped : segment.1.y ≠ segment.2.y) :
    turn segment place =
      (segment.2.y - segment.1.y) * (atHeight segment place.y - place.x) := by
  have nonzero : segment.2.y - segment.1.y ≠ 0 := sub_ne_zero.mpr sloped.symm
  unfold turn atHeight
  field_simp
  ring

omit [IsStrictOrderedRing K] [LinearOrder K] in
/-- The turn at a place, by the vertical distance from the segment to the
place. -/
theorem turn_of_width {place : Place K} (slanted : segment.1.x ≠ segment.2.x) :
    turn segment place =
      (segment.2.x - segment.1.x) * (place.y - atWidth segment place.x) := by
  have nonzero : segment.2.x - segment.1.x ≠ 0 := sub_ne_zero.mpr slanted.symm
  unfold turn atWidth
  field_simp
  ring

omit [IsStrictOrderedRing K] in
/-- Close to a point of a segment the side tells the inside. -/
theorem HasInterior.exists_near {nodes : List (Place K)} {left : Bool}
    (interior : HasInterior nodes left) (isSegment : segment ∈ edges nodes)
    {part : K} (positive : 0 < part) (small : part < 1) :
    ∃ radius, 0 < radius ∧ ∀ place : Place K,
      |place.x - (along segment part).x| < radius →
      |place.y - (along segment part).y| < radius →
        turn segment place ≠ 0 →
          evenOdd nodes place = (decide (0 < turn segment place) == left) := by
  obtain ⟨radius, isPositive, near⟩ := interior segment isSegment part positive
    small
  refine ⟨radius, isPositive, ?_⟩
  intro place nearX nearY notOn
  obtain ⟨onLeft, onRight⟩ := near place nearX nearY
  rcases lt_or_gt_of_ne notOn with negative | positive
  · rw [onRight negative, decide_eq_false negative.not_gt]
    cases left <;> rfl
  · rw [onLeft positive, decide_eq_true positive]
    cases left <;> rfl

/-- A ray meets a segment that rises on its left side. -/
theorem crosses_of_rising {place : Place K} (rises : segment.1.y < segment.2.y) :
    crosses place segment =
      decide (segment.1.y ≤ place.y ∧ place.y < segment.2.y ∧
        0 < turn segment place) := by
  have side : decide (place.x < atHeight segment place.y) =
      decide (0 < turn segment place) := by
    apply decide_eq_decide.mpr
    rw [turn_of_height rises.ne, mul_pos_iff_of_pos_left (sub_pos.mpr rises),
      sub_pos]
  unfold crosses straddles
  rw [side]
  by_cases above : segment.1.y ≤ place.y
  · by_cases below : place.y < segment.2.y
    · simp [above, above.not_gt, below]
    · simp [above.not_gt, below]
  · have both := (not_le.mp above).trans rises
    simp [above, not_le.mp above, both]

/-- A ray meets a segment that falls on its right side. -/
theorem crosses_of_falling {place : Place K} (falls : segment.2.y < segment.1.y) :
    crosses place segment =
      decide (segment.2.y ≤ place.y ∧ place.y < segment.1.y ∧
        turn segment place < 0) := by
  have side : decide (place.x < atHeight segment place.y) =
      decide (turn segment place < 0) := by
    apply decide_eq_decide.mpr
    rw [turn_of_height falls.ne', ← neg_pos, ← neg_mul,
      mul_pos_iff_of_pos_left (by linarith), sub_pos]
  unfold crosses straddles
  rw [side]
  by_cases above : segment.2.y ≤ place.y
  · by_cases below : place.y < segment.1.y
    · simp [above, above.not_gt, below]
    · simp [above.not_gt, below]
  · have both := (not_le.mp above).trans falls
    simp [above, not_le.mp above, both]

/-! ## The nearest segment along an axis -/

section Nearest

variable {nodes : List (Place K)} {left : Bool} {place : Place K}

/-- From a value toward another one, close to it, past no obstacle that is
farther away. -/
theorem exists_toward {value foot radius : K} (apart : value ≠ foot)
    (positive : 0 < radius) :
    ∃ other, |other - foot| < radius ∧ other ≠ foot ∧
      (value < foot ↔ other < foot) ∧
      ∀ obstacle, |value - foot| ≤ |value - obstacle| →
        (value < obstacle ↔ other < obstacle) ∧
        ¬(min value other ≤ obstacle ∧ obstacle ≤ max value other) := by
  have distance : 0 < |value - foot| := abs_pos.mpr (sub_ne_zero.mpr apart)
  have half : 0 < min radius |value - foot| / 2 :=
    half_pos (lt_min positive distance)
  have lessRadius : min radius |value - foot| / 2 < radius :=
    (half_lt_self (lt_min positive distance)).trans_le (min_le_left _ _)
  have lessDistance : min radius |value - foot| / 2 < |value - foot| :=
    (half_lt_self (lt_min positive distance)).trans_le (min_le_right _ _)
  generalize min radius |value - foot| / 2 = step at half lessRadius lessDistance
  rcases lt_or_gt_of_ne apart with isBefore | isBehind
  · have same : |value - foot| = foot - value := by
      rw [abs_sub_comm, abs_of_pos (by linarith)]
    rw [same] at lessDistance
    refine ⟨foot - step, ?_, by linarith, ⟨fun _ => by linarith,
      fun _ => isBefore⟩, ?_⟩
    · rw [abs_sub_comm, abs_of_pos] <;> linarith
    · intro obstacle far
      rw [same] at far
      have order : min value (foot - step) = value :=
        min_eq_left (by linarith)
      have otherOrder : max value (foot - step) = foot - step :=
        max_eq_right (by linarith)
      rw [order, otherOrder]
      rcases le_abs'.mp far with isFar | isFar
      · exact ⟨⟨fun _ => by linarith, fun _ => by linarith⟩,
          fun between => by linarith [between.2]⟩
      · exact ⟨⟨fun _ => by linarith, fun _ => by linarith⟩,
          fun between => by linarith [between.1]⟩
  · have same : |value - foot| = value - foot := abs_of_pos (by linarith)
    rw [same] at lessDistance
    refine ⟨foot + step, ?_, by linarith, ⟨fun _ => by linarith,
      fun _ => by linarith⟩, ?_⟩
    · rw [add_sub_cancel_left, abs_of_pos half]
      exact lessRadius
    · intro obstacle far
      rw [same] at far
      have order : min value (foot + step) = foot + step :=
        min_eq_right (by linarith)
      have otherOrder : max value (foot + step) = value :=
        max_eq_left (by linarith)
      rw [order, otherOrder]
      rcases le_abs'.mp far with isFar | isFar
      · exact ⟨⟨fun _ => by linarith, fun _ => by linarith⟩,
          fun between => by linarith [between.2]⟩
      · exact ⟨⟨fun _ => by linarith, fun _ => by linarith⟩,
          fun between => by linarith [between.1]⟩

/-- A value strictly between two others divides what is between them. -/
theorem part_of_between {first second value : K}
    (within : first < value ∧ value < second ∨
      second < value ∧ value < first) :
    0 < (value - first) / (second - first) ∧
      (value - first) / (second - first) < 1 ∧ second - first ≠ 0 := by
  obtain ⟨above, below⟩ | ⟨above, below⟩ := within
  · have rises : 0 < second - first := by linarith
    exact ⟨div_pos (by linarith) rises, (div_lt_one rises).mpr (by linarith),
      rises.ne'⟩
  · have falls : second - first < 0 := by linarith
    exact ⟨div_pos_of_neg_of_neg (by linarith) falls,
      (div_lt_one_of_neg falls).mpr (by linarith), falls.ne⟩

/-- A segment avoids what is between two heights if it has none of them where it
has the place. -/
theorem avoids_of_far
    (far : segment.1.x ≠ segment.2.x →
      (segment.1.x ≤ x ∧ x ≤ segment.2.x ∨
        segment.2.x ≤ x ∧ x ≤ segment.1.x) →
      ¬(lower ≤ atWidth segment x ∧ atWidth segment x ≤ upper)) :
    Avoids segment x lower upper := by
  intro slanted part nonneg leOne isThere
  have nonzero : segment.2.x - segment.1.x ≠ 0 := sub_ne_zero.mpr slanted.symm
  have isPart : (x - segment.1.x) / (segment.2.x - segment.1.x) = part := by
    rw [div_eq_iff nonzero, ← isThere]
    unfold along
    ring
  have height : (along segment part).y = atWidth segment x := by
    unfold along atWidth
    rw [isPart]
  rw [height]
  apply far slanted
  unfold along at isThere
  dsimp only at isThere
  rcases lt_or_gt_of_ne slanted with rises | falls
  · refine .inl ?_
    have low := mul_nonneg nonneg (sub_nonneg.mpr rises.le)
    have high := mul_le_mul_of_nonneg_right leOne (sub_nonneg.mpr rises.le)
    constructor <;> linarith
  · refine .inr ?_
    have low := mul_nonneg nonneg (sub_nonneg.mpr falls.le)
    have high := mul_le_mul_of_nonneg_right leOne (sub_nonneg.mpr falls.le)
    constructor <;> linarith

/-- Two values on one side of a third one. -/
theorem mul_pos_iff_of_sameSide {factor foot first second : K}
    (firstApart : first ≠ foot) (secondApart : second ≠ foot)
    (sameSide : first < foot ↔ second < foot) :
    0 < factor * (foot - second) ↔ 0 < factor * (foot - first) := by
  rcases lt_or_gt_of_ne firstApart with isBefore | isBehind
  · have otherBefore := sameSide.mp isBefore
    rw [mul_pos_iff_of_pos_right (sub_pos.mpr otherBefore),
      mul_pos_iff_of_pos_right (sub_pos.mpr isBefore)]
  · have otherBehind : foot < second :=
      lt_of_le_of_ne (not_lt.mp fun before => isBehind.not_gt
        (sameSide.mpr before)) secondApart.symm
    rw [← neg_sub second foot, ← neg_sub first foot, mul_neg, mul_neg,
      ← neg_mul, ← neg_mul, mul_pos_iff_of_pos_right (sub_pos.mpr otherBehind),
      mul_pos_iff_of_pos_right (sub_pos.mpr isBehind)]

/-- The side of the segment that is nearest at the height of the point tells
whether the point is inside. -/
theorem HasInterior.evenOdd_of_height (interior : HasInterior nodes left)
    (isSegment : segment ∈ edges nodes)
    (within : segment.1.y < place.y ∧ place.y < segment.2.y ∨
      segment.2.y < place.y ∧ place.y < segment.1.y)
    (apart : place.x ≠ atHeight segment place.y)
    (nearest : ∀ other ∈ edges nodes, straddles other place.y →
      |place.x - atHeight segment place.y| ≤
        |place.x - atHeight other place.y|) :
    evenOdd nodes place = (decide (0 < turn segment place) == left) := by
  obtain ⟨positive, small, nonzero⟩ := part_of_between within
  obtain ⟨radius, isPositive, near⟩ :=
    interior.exists_near isSegment positive small
  have foot : along segment
      ((place.y - segment.1.y) / (segment.2.y - segment.1.y)) =
        ⟨atHeight segment place.y, place.y⟩ := by
    unfold along atHeight
    rw [div_mul_cancel₀ _ nonzero]
    congr 1
    ring
  rw [foot] at near
  obtain ⟨otherX, isNear, notOn, sameSide, passes⟩ :=
    exists_toward apart isPositive
  have sloped : segment.1.y ≠ segment.2.y := fun same =>
    nonzero (by rw [same, sub_self])
  have turns : ∀ x : K, turn segment ⟨x, place.y⟩ =
      (segment.2.y - segment.1.y) * (atHeight segment place.y - x) :=
    fun x => turn_of_height sloped
  have moved : evenOdd nodes place = evenOdd nodes ⟨otherX, place.y⟩ :=
    evenOdd_of_level rfl fun other isOther meets =>
      (passes _ (nearest other isOther meets)).1
  have sameTurn : 0 < turn segment ⟨otherX, place.y⟩ ↔
      0 < turn segment place := by
    rw [turns otherX, turns place.x]
    exact mul_pos_iff_of_sameSide apart notOn sameSide
  rw [moved, near ⟨otherX, place.y⟩ isNear (by simpa using isPositive)]
  · rw [decide_eq_decide.mpr sameTurn]
  · rw [turns]
    exact mul_ne_zero nonzero (sub_ne_zero.mpr notOn.symm)

/-- The side of the segment that is nearest at the place of the point tells
whether the point is inside. -/
theorem HasInterior.evenOdd_of_width (interior : HasInterior nodes left)
    (isSegment : segment ∈ edges nodes)
    (within : segment.1.x < place.x ∧ place.x < segment.2.x ∨
      segment.2.x < place.x ∧ place.x < segment.1.x)
    (apart : place.y ≠ atWidth segment place.x)
    (nearest : ∀ other ∈ edges nodes, other.1.x ≠ other.2.x →
      (other.1.x ≤ place.x ∧ place.x ≤ other.2.x ∨
        other.2.x ≤ place.x ∧ place.x ≤ other.1.x) →
      |place.y - atWidth segment place.x| ≤
        |place.y - atWidth other place.x|) :
    evenOdd nodes place = (decide (0 < turn segment place) == left) := by
  obtain ⟨positive, small, nonzero⟩ := part_of_between within
  obtain ⟨radius, isPositive, near⟩ :=
    interior.exists_near isSegment positive small
  have foot : along segment
      ((place.x - segment.1.x) / (segment.2.x - segment.1.x)) =
        ⟨place.x, atWidth segment place.x⟩ := by
    unfold along atWidth
    rw [div_mul_cancel₀ _ nonzero]
    congr 1
    ring
  rw [foot] at near
  obtain ⟨otherY, isNear, notOn, sameSide, passes⟩ :=
    exists_toward apart isPositive
  have slanted : segment.1.x ≠ segment.2.x := fun same =>
    nonzero (by rw [same, sub_self])
  have turns : ∀ y : K, turn segment ⟨place.x, y⟩ =
      -(segment.2.x - segment.1.x) * (atWidth segment place.x - y) := by
    intro y
    rw [turn_of_width slanted]
    ring
  have moved : evenOdd nodes place = evenOdd nodes ⟨place.x, otherY⟩ := by
    have avoid : ∀ other ∈ edges nodes,
        Avoids other place.x (min place.y otherY) (max place.y otherY) :=
      fun other isOther =>
        avoids_of_far fun otherSlanted between =>
          (passes _ (nearest other isOther otherSlanted between)).2
    have same := evenOdd_of_vertical min_le_max avoid
    rcases le_total place.y otherY with rises | falls
    · rw [min_eq_left rises, max_eq_right rises] at same
      exact same
    · rw [min_eq_right falls, max_eq_left falls] at same
      exact same.symm
  have sameTurn : 0 < turn segment ⟨place.x, otherY⟩ ↔
      0 < turn segment place := by
    rw [turns otherY, turns place.y]
    exact mul_pos_iff_of_sameSide apart notOn sameSide
  rw [moved, near ⟨place.x, otherY⟩ (by simpa using isPositive) isNear]
  · rw [decide_eq_decide.mpr sameTurn]
  · rw [turns]
    exact mul_ne_zero (neg_ne_zero.mpr nonzero)
      (sub_ne_zero.mpr notOn.symm)

end Nearest

/-! ## Beside all nodes -/

section Beside

variable {nodes : List (Place K)} {place : Place K}

omit [IsStrictOrderedRing K] in
theorem evenOdd_of_straddles_false
    (apart : ∀ node ∈ nodes, ∀ other ∈ nodes,
      decide (place.y < node.y) = decide (place.y < other.y)) :
    evenOdd nodes place = false := by
  apply parity_of_none
  intro segment isSegment
  obtain ⟨isFirst, isSecond⟩ := mem_of_mem_edges isSegment
  unfold crosses straddles
  rw [apart _ isFirst _ isSecond, Bool.xor_self, Bool.false_and]

/-- A segment that is met is met between its ends. -/
theorem atHeight_between (meets : straddles segment y = true) {bound : K} :
    (segment.1.x < bound → segment.2.x < bound →
      atHeight segment y < bound) ∧
    (bound < segment.1.x → bound < segment.2.x →
      bound < atHeight segment y) := by
  obtain ⟨part, nonneg, leOne, same⟩ := exists_along_atHeight meets
  have isThere := congrArg Place.x same
  unfold along at isThere
  dsimp only at isThere
  rw [← isThere]
  rcases le_total segment.1.x segment.2.x with rises | falls
  · have low := mul_nonneg nonneg (sub_nonneg.mpr rises)
    have high := mul_le_mul_of_nonneg_right leOne (sub_nonneg.mpr rises)
    constructor <;> intro first second <;> linarith
  · have low := mul_nonneg nonneg (sub_nonneg.mpr falls)
    have high := mul_le_mul_of_nonneg_right leOne (sub_nonneg.mpr falls)
    constructor <;> intro first second <;> linarith

/-- A point beside all nodes is outside. -/
theorem evenOdd_of_beside
    (beside : (∀ node ∈ nodes, place.x < node.x) ∨
      (∀ node ∈ nodes, node.x < place.x) ∨
      (∀ node ∈ nodes, place.y < node.y) ∨
      (∀ node ∈ nodes, node.y < place.y)) :
    evenOdd nodes place = false := by
  obtain isLeft | isRight | isBelow | isAbove := beside
  · have same : evenOdd nodes place =
        parity (fun edge => decide (place.y < edge.1.y) ^^
          decide (place.y < edge.2.y)) (edges nodes) := by
      apply parity_congr
      intro segment isSegment
      obtain ⟨isFirst, isSecond⟩ := mem_of_mem_edges isSegment
      unfold crosses
      cases meets : straddles segment place.y with
      | false => exact meets.symm
      | true =>
          rw [decide_eq_true ((atHeight_between meets).2 (isLeft _ isFirst)
            (isLeft _ isSecond))]
          exact meets.symm
    rw [same]
    exact parity_change (fun node => decide (place.y < node.y)) nodes
  · apply parity_of_none
    intro segment isSegment
    obtain ⟨isFirst, isSecond⟩ := mem_of_mem_edges isSegment
    unfold crosses
    cases meets : straddles segment place.y with
    | false => rfl
    | true =>
        have isBefore := (atHeight_between meets).1 (isRight _ isFirst)
          (isRight _ isSecond)
        rw [decide_eq_false isBefore.not_gt]
        rfl
  · apply evenOdd_of_straddles_false
    intro node isNode other isOther
    rw [decide_eq_true (isBelow node isNode),
      decide_eq_true (isBelow other isOther)]
  · apply evenOdd_of_straddles_false
    intro node isNode other isOther
    rw [decide_eq_false (isAbove node isNode).not_gt,
      decide_eq_false (isAbove other isOther).not_gt]

end Beside

end Place
end Foundation
