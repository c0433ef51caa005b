import Pilot2Cloud.Foundation.EvenOdd
import Pilot2Cloud.Hdmap.LineSide

/-!
# The side of the nearest edge

`pf_map_check_utm_in_polygon` takes a point of the bounding box for inside when
it is on the inner side of the edge that is nearest to it along the axes.  Where
that edge is met between its ends, no other edge is between the point and it,
and the answer is the one of the even-odd test.
-/

namespace Pilot2Cloud
namespace Hdmap

open Foundation Place ClosedChain

/-- An element with a polygon, of one of the four types. -/
structure MapPolygon (K : Type) where
  insideMode : ℤ
  nodes : List (MapNodeLine K)
  /-- The count of the nodes is of type `S16`. -/
  countFits : nodes.length < 2 ^ 15

/-- The place of a node. -/
def MapNodeLine.toPlace {K : Type} (node : MapNodeLine K) : Place K :=
  ⟨node.node_x, node.node_y⟩

section Definitions

variable {K : Type} [Field K] [LinearOrder K]

/-- The bounds of the nodes. -/
structure PolygonBox (K : Type) where
  dbx_min : K
  dbx_max : K
  dby_min : K
  dby_max : K

namespace PolygonBox

/-- One round of the loop for the bounds. -/
def extend (box : PolygonBox K) (node : MapNodeLine K) : PolygonBox K where
  dbx_min := if node.node_x < box.dbx_min then node.node_x else box.dbx_min
  dbx_max :=
    if node.node_x < box.dbx_min then box.dbx_max
    else if box.dbx_max < node.node_x then node.node_x else box.dbx_max
  dby_min := if node.node_y < box.dby_min then node.node_y else box.dby_min
  dby_max :=
    if node.node_y < box.dby_min then box.dby_max
    else if box.dby_max < node.node_y then node.node_y else box.dby_max

/-- The box around some nodes. -/
def ofNodes (nodes : List (MapNodeLine K)) : PolygonBox K :=
  let first := nodeAt nodes 0
  (nodes.drop 1).foldl extend
    ⟨first.node_x, first.node_x, first.node_y, first.node_y⟩

/-- The point is out of the bounds. -/
def Excludes (box : PolygonBox K) (utm_x utm_y : K) : Prop :=
  utm_x < box.dbx_min ∨ box.dbx_max < utm_x ∨
    utm_y < box.dby_min ∨ box.dby_max < utm_y

instance (box : PolygonBox K) (utm_x utm_y : K) :
    Decidable (box.Excludes utm_x utm_y) :=
  inferInstanceAs (Decidable (_ ∨ _))

end PolygonBox

/-- `pf_map_check_utm_in_polygon`: what is returned, and the distance. -/
def checkUtmInPolygon (utm_x utm_y : K) (polygon : MapPolygon K) : ℤ × K :=
  let side := checkLineSide utm_x utm_y polygon.nodes 0 polygon.nodes.length 0
    true
  if (PolygonBox.ofNodes polygon.nodes).Excludes utm_x utm_y then (0, side.2)
  else if polygon.insideMode = side.1.toS32 ∨ side.1 = .ON_LINE then
    (1, side.2)
  else (0, side.2)

/-! ## What is expected of the test -/

/-- The first node of a part has the line to the other one. -/
structure PartHasLine (part : LinePart K) : Prop where
  vertical : part.1.node_x = part.2.node_x → part.1.k = 0 ∧ part.1.b = 0
  sloped : part.1.node_x ≠ part.2.node_x →
    ¬(part.1.k = 0 ∧ part.1.b = 0) ∧
      part.1.node_y = part.1.k * part.1.node_x + part.1.b ∧
      part.2.node_y = part.1.k * part.2.node_x + part.1.b

namespace MapPolygon

variable (polygon : MapPolygon K)

/-- The places of the nodes. -/
def places : List (Place K) := polygon.nodes.map MapNodeLine.toPlace

/-- The edges in the order of the nodes. -/
def parts : List (LinePart K) :=
  lineParts polygon.nodes 0 polygon.nodes.length

/-- Each node has the line to the next one. -/
def HasLines : Prop :=
  ∀ part ∈ polygon.parts, PartHasLine part

/-- `insideMode` is the side of the edges on which the inside is. -/
def HasInsideMode : Prop :=
  polygon.insideMode = 1 ∧ HasInterior polygon.places true ∨
    polygon.insideMode = 2 ∧ HasInterior polygon.places false

end MapPolygon

/-- The two ends of a part of a line. -/
def toSegment (part : LinePart K) : Place K × Place K :=
  (part.1.toPlace, part.2.toPlace)

/-- The part faces the point along an axis. -/
def Faces (pos_x pos_y : K) : MapDirection → LinePart K → Prop
  | .horizontal, part =>
      part.1.node_y ≠ part.2.node_y ∧
        BetweenEnds pos_y part.1.node_y part.2.node_y
  | .vertical, part =>
      part.1.node_x ≠ part.2.node_x ∧
        BetweenEnds pos_x part.1.node_x part.2.node_x

/-- The part is met along the axis between its ends. -/
def MetWithin (pos_x pos_y : K) : MapDirection → LinePart K → Prop
  | .horizontal, part =>
      part.1.node_y < pos_y ∧ pos_y < part.2.node_y ∨
        part.2.node_y < pos_y ∧ pos_y < part.1.node_y
  | .vertical, part =>
      part.1.node_x < pos_x ∧ pos_x < part.2.node_x ∨
        part.2.node_x < pos_x ∧ pos_x < part.1.node_x

/-- The lengthened part faces the point. -/
def FacesLengthened (pos_x pos_y : K) : MapDirection → LinePart K → Prop
  | .horizontal, part =>
      (part.1.node_x = part.2.node_x ∨ part.1.node_y ≠ part.2.node_y) ∧
        WithinLengthened pos_y part.1.node_y part.2.node_y
  | .vertical, part =>
      part.1.node_x ≠ part.2.node_x ∧
        WithinLengthened pos_x part.1.node_x part.2.node_x

/-- The distance from the line of the part along an axis. -/
def gap (pos_x pos_y : K) : MapDirection → LinePart K → K
  | .horizontal, part => |pos_x - atHeight (toSegment part) pos_y|
  | .vertical, part => |pos_y - atWidth (toSegment part) pos_x|

@[simp] theorem gap_horizontal (pos_x pos_y : K) (part : LinePart K) :
    gap pos_x pos_y .horizontal part =
      |pos_x - atHeight (toSegment part) pos_y| := rfl

@[simp] theorem gap_vertical (pos_x pos_y : K) (part : LinePart K) :
    gap pos_x pos_y .vertical part =
      |pos_y - atWidth (toSegment part) pos_x| := rfl

namespace MapPolygon

variable (polygon : MapPolygon K)

/-- The parts with the axes, in the order in which they are checked. -/
def tests : List (MapDirection × LinePart K) :=
  lineTests polygon.nodes 0 polygon.nodes.length

/-- The distances from all edges that face the point are greater than
`ONLINE_OFFSET`. -/
def FarFromEdges (pos_x pos_y : K) : Prop :=
  ∀ test ∈ polygon.tests, Faces pos_x pos_y test.1 test.2 →
    ONLINE_OFFSET < gap pos_x pos_y test.1 test.2

/-- Of the lengthened edges that face the point, the nearest one, and the first
one that is as near, is met between its ends. -/
def NearestWithin (pos_x pos_y : K) : Prop :=
  ∃ before nearest after, polygon.tests = before ++ nearest :: after ∧
    MetWithin pos_x pos_y nearest.1 nearest.2 ∧
    (∀ test ∈ before, FacesLengthened pos_x pos_y test.1 test.2 →
      gap pos_x pos_y nearest.1 nearest.2 < gap pos_x pos_y test.1 test.2) ∧
    ∀ test ∈ after, FacesLengthened pos_x pos_y test.1 test.2 →
      gap pos_x pos_y nearest.1 nearest.2 ≤ gap pos_x pos_y test.1 test.2

end MapPolygon
end Definitions

/-! ## One part -/

section Lines

variable {K : Type} [Field K] {pos_x pos_y : K} {part : LinePart K}

/-- The line of a part that is not vertical. -/
theorem PartHasLine.atWidth_eq (line : PartHasLine part)
    (slanted : part.1.node_x ≠ part.2.node_x) :
    atWidth (toSegment part) pos_x = part.1.k * pos_x + part.1.b := by
  obtain ⟨-, first, second⟩ := line.sloped slanted
  have nonzero : part.2.node_x - part.1.node_x ≠ 0 :=
    sub_ne_zero.mpr slanted.symm
  unfold atWidth toSegment MapNodeLine.toPlace
  dsimp only
  rw [first, second]
  field_simp
  ring

/-- The height of the line of an edge, by its slope. -/
theorem PartHasLine.atHeight_eq (line : PartHasLine part)
    (slanted : part.1.node_x ≠ part.2.node_x) (sloped : part.1.k ≠ 0) :
    atHeight (toSegment part) pos_y = (pos_y - part.1.b) / part.1.k := by
  obtain ⟨-, first, second⟩ := line.sloped slanted
  have nonzero : part.2.node_x - part.1.node_x ≠ 0 :=
    sub_ne_zero.mpr slanted.symm
  have difference : part.2.node_y - part.1.node_y =
      part.1.k * (part.2.node_x - part.1.node_x) := by
    rw [first, second]
    ring
  unfold atHeight toSegment MapNodeLine.toPlace
  dsimp only
  rw [difference, first]
  field_simp
  ring

/-- An edge that is slanted has slope zero exactly when it is level. -/
theorem PartHasLine.k_eq_zero_iff (line : PartHasLine part)
    (slanted : part.1.node_x ≠ part.2.node_x) :
    part.1.k = 0 ↔ part.1.node_y = part.2.node_y := by
  obtain ⟨-, first, second⟩ := line.sloped slanted
  rw [first, second, add_left_inj, mul_eq_mul_left_iff]
  exact (or_iff_right slanted).symm

theorem atHeight_of_vertical (vertical : part.1.node_x = part.2.node_x) :
    atHeight (toSegment part) pos_y = part.1.node_x := by
  unfold atHeight toSegment MapNodeLine.toPlace
  dsimp only
  rw [← vertical, sub_self, mul_zero, add_zero]

end Lines

section OnePart

variable {K : Type} [Field K] [LinearOrder K] [IsStrictOrderedRing K]

theorem DB_OFFSET_pos : (0 : K) < DB_OFFSET := by
  unfold DB_OFFSET
  positivity

theorem DB_OFFSET_lt : (DB_OFFSET : K) < ONLINE_OFFSET := by
  unfold DB_OFFSET ONLINE_OFFSET
  norm_num

theorem ONLINE_OFFSET_pos : (0 : K) < ONLINE_OFFSET :=
  DB_OFFSET_pos.trans DB_OFFSET_lt

theorem lengthen_le_iff {first second : K} :
    lengthenStart first second ≤ lengthenEnd first second ↔
      first < second := by
  have positive := DB_OFFSET_pos (K := K)
  unfold lengthenStart lengthenEnd
  split_ifs with order
  · exact iff_of_true (by linarith) order
  · exact iff_of_false (by linarith) order

theorem lengthen_ge_iff {first second : K} :
    lengthenEnd first second ≤ lengthenStart first second ↔
      ¬first < second := by
  have positive := DB_OFFSET_pos (K := K)
  unfold lengthenStart lengthenEnd
  split_ifs with order
  · exact iff_of_false (by linarith) (not_not.mpr order)
  · exact iff_of_true (by linarith) order

/-- What is between the ends is between the lengthened ends. -/
theorem withinLengthened_of_between {pos first second : K}
    (between : BetweenEnds pos first second) :
    WithinLengthened pos first second := by
  have positive := DB_OFFSET_pos (K := K)
  unfold WithinLengthened BetweenEnds lengthenStart lengthenEnd
  unfold BetweenEnds at between
  split_ifs with order
  · obtain ⟨above, below⟩ | ⟨below, above⟩ := between
    · exact .inl ⟨by linarith, by linarith⟩
    · linarith
  · obtain ⟨above, below⟩ | ⟨below, above⟩ := between
    · exact .inr ⟨by linarith, by linarith⟩
    · exact .inr ⟨by linarith, by linarith⟩

/-- Between the lengthened ends of a single point. -/
theorem abs_sub_le_of_withinLengthened {pos only : K}
    (within : WithinLengthened pos only only) :
    |pos - only| ≤ DB_OFFSET := by
  have positive := DB_OFFSET_pos (K := K)
  unfold WithinLengthened BetweenEnds lengthenStart lengthenEnd at within
  rw [if_neg (lt_irrefl only), if_neg (lt_irrefl only)] at within
  rw [abs_le]
  obtain ⟨above, below⟩ | ⟨below, above⟩ := within
  · constructor <;> linarith
  · constructor <;> linarith

theorem distance_eq_abs (line_test pos_test : K) :
    (if pos_test < line_test then line_test - pos_test
      else pos_test - line_test) = |pos_test - line_test| := by
  split_ifs with order
  · rw [abs_sub_comm, abs_of_pos (by linarith)]
  · rw [abs_of_nonneg (by linarith)]

section Side

variable {line_test pos_test first second : K}

/-- A place that is not too near has a side. -/
theorem sideOfTest_horizontal
    (far : ONLINE_OFFSET < |pos_test - line_test|) :
    sideOfTest .horizontal line_test pos_test (lengthenStart first second)
        (lengthenEnd first second) =
      (if first < second ∧ pos_test < line_test ∨
          ¬first < second ∧ line_test < pos_test then .LEFT_SIDE
        else .RIGHT_SIDE, |pos_test - line_test|) := by
  unfold sideOfTest
  dsimp only
  rw [distance_eq_abs, if_neg far.not_ge]
  congr 1
  exact if_congr (or_congr (and_congr_left' lengthen_le_iff)
    (and_congr_left' lengthen_ge_iff)) rfl rfl

theorem sideOfTest_vertical
    (far : ONLINE_OFFSET < |pos_test - line_test|) :
    sideOfTest .vertical line_test pos_test (lengthenStart first second)
        (lengthenEnd first second) =
      (if first < second ∧ line_test < pos_test ∨
          ¬first < second ∧ pos_test < line_test then .LEFT_SIDE
        else .RIGHT_SIDE, |pos_test - line_test|) := by
  unfold sideOfTest
  dsimp only
  rw [distance_eq_abs, if_neg far.not_ge]
  congr 1
  exact if_congr (or_congr (and_congr_left' lengthen_le_iff)
    (and_congr_left' lengthen_ge_iff)) rfl rfl

end Side

/-- The side of the part along an axis. -/
def sideAlong (pos_x pos_y : K) : MapDirection → LinePart K → LineSide
  | .horizontal, part =>
      if part.1.node_y < part.2.node_y ∧
          pos_x < atHeight (toSegment part) pos_y ∨
        ¬part.1.node_y < part.2.node_y ∧
          atHeight (toSegment part) pos_y < pos_x then .LEFT_SIDE
      else .RIGHT_SIDE
  | .vertical, part =>
      if part.1.node_x < part.2.node_x ∧
          atWidth (toSegment part) pos_x < pos_y ∨
        ¬part.1.node_x < part.2.node_x ∧
          pos_y < atWidth (toSegment part) pos_x then .LEFT_SIDE
      else .RIGHT_SIDE

section Part

variable {pos_x pos_y : K} {part : LinePart K}

/-- What is checked of a part that is far along each axis on which it faces the
point. -/
structure ChecksSide (pos_x pos_y : K) (part : LinePart K)
    (direction_x : MapDirection) : Prop where
  ahead : ¬FacesLengthened pos_x pos_y direction_x part → ∀ distance,
    checkNodelineSide pos_x pos_y part.1 part.2 direction_x distance false =
      (.PF_MAP_ERR, distance)
  beside : FacesLengthened pos_x pos_y direction_x part → ∀ distance,
    checkNodelineSide pos_x pos_y part.1 part.2 direction_x distance false =
      (sideAlong pos_x pos_y direction_x part,
        gap pos_x pos_y direction_x part)

/-- The part is far along each axis on which it faces the point. -/
def FarFrom (pos_x pos_y : K) (part : LinePart K) : Prop :=
  ∀ direction_x, FacesLengthened pos_x pos_y direction_x part →
    ONLINE_OFFSET < gap pos_x pos_y direction_x part

theorem checksSide_of_vertical (far : FarFrom pos_x pos_y part)
    (vertical : part.1.node_x = part.2.node_x) (noSlope : part.1.k = 0)
    (noOffset : part.1.b = 0) (direction_x : MapDirection) :
    ChecksSide pos_x pos_y part direction_x := by
  have notOn : ¬(WithinLengthened pos_x part.1.node_x part.2.node_x ∧
      WithinLengthened pos_y part.1.node_y part.2.node_y) := by
    rintro ⟨inX, inY⟩
    rw [← vertical] at inX
    have isNear := abs_sub_le_of_withinLengthened inX
    have isFar := far .horizontal ⟨.inl vertical, inY⟩
    rw [gap_horizontal, atHeight_of_vertical vertical] at isFar
    exact absurd (isFar.trans_le isNear) DB_OFFSET_lt.not_gt
  have notOnBox : ¬(WithinLengthened pos_x part.1.node_x part.2.node_x ∧
      (false = true ∨
        WithinLengthened pos_y part.1.node_y part.2.node_y)) := by
    rintro ⟨inX, isUnlimited | inY⟩
    · cases isUnlimited
    · exact notOn ⟨inX, inY⟩
  cases direction_x with
  | horizontal =>
      constructor
      · intro ahead distance
        unfold checkNodelineSide
        dsimp only
        rw [if_pos noSlope, if_pos noOffset, if_neg notOnBox, if_neg]
        rintro ⟨-, inY | isUnlimited⟩
        · exact ahead ⟨.inl vertical, inY⟩
        · cases isUnlimited
      · intro beside distance
        have isFar := far .horizontal beside
        rw [gap_horizontal, atHeight_of_vertical vertical] at isFar
        unfold checkNodelineSide sideAlong
        dsimp only
        rw [if_pos noSlope, if_pos noOffset, if_neg notOnBox,
          if_pos ⟨rfl, .inl beside.2⟩, gap_horizontal,
          atHeight_of_vertical vertical, sideOfTest_horizontal isFar]
  | vertical =>
      constructor
      · intro ahead distance
        unfold checkNodelineSide
        dsimp only
        rw [if_pos noSlope, if_pos noOffset, if_neg notOnBox, if_neg]
        rintro ⟨isHorizontal, -⟩
        cases isHorizontal
      · intro beside
        exact absurd vertical beside.1

theorem checksSide_of_level (far : FarFrom pos_x pos_y part)
    (line : PartHasLine part) (slanted : part.1.node_x ≠ part.2.node_x)
    (level : part.1.k = 0) (direction_x : MapDirection) :
    ChecksSide pos_x pos_y part direction_x := by
  obtain ⟨notBoth, first, -⟩ := line.sloped slanted
  have offset : part.1.b ≠ 0 := fun noOffset => notBoth ⟨level, noOffset⟩
  have same := (line.k_eq_zero_iff slanted).mp level
  have width : atWidth (toSegment part) pos_x = part.1.b := by
    rw [line.atWidth_eq slanted, level, zero_mul, zero_add]
  have height : part.1.node_y = part.1.b := by
    rw [first, level, zero_mul, zero_add]
  have notOnBox : ¬((false = true ∨
      WithinLengthened pos_x part.1.node_x part.2.node_x) ∧
        WithinLengthened pos_y part.1.node_y part.2.node_y) := by
    rintro ⟨isUnlimited | inX, inY⟩
    · cases isUnlimited
    · rw [← same, height] at inY
      have isNear := abs_sub_le_of_withinLengthened inY
      have isFar := far .vertical ⟨slanted, inX⟩
      rw [gap_vertical, width] at isFar
      exact absurd (isFar.trans_le isNear) DB_OFFSET_lt.not_gt
  cases direction_x with
  | horizontal =>
      constructor
      · intro ahead distance
        unfold checkNodelineSide
        dsimp only
        rw [if_pos level, if_neg offset, if_neg notOnBox, if_neg]
        rintro ⟨isVertical, -⟩
        cases isVertical
      · rintro ⟨vertical | sloped, -⟩
        · exact absurd vertical slanted
        · exact absurd same sloped
  | vertical =>
      constructor
      · intro ahead distance
        unfold checkNodelineSide
        dsimp only
        rw [if_pos level, if_neg offset, if_neg notOnBox, if_neg]
        rintro ⟨-, inX | isUnlimited⟩
        · exact ahead ⟨slanted, inX⟩
        · cases isUnlimited
      · intro beside distance
        have isFar := far .vertical beside
        rw [gap_vertical, width] at isFar
        unfold checkNodelineSide sideAlong
        dsimp only
        rw [if_pos level, if_neg offset, if_neg notOnBox,
          if_pos ⟨rfl, .inl beside.2⟩, gap_vertical, width,
          sideOfTest_vertical isFar]

theorem checksSide_of_sloped (far : FarFrom pos_x pos_y part)
    (line : PartHasLine part) (slanted : part.1.node_x ≠ part.2.node_x)
    (sloped : part.1.k ≠ 0) (direction_x : MapDirection) :
    ChecksSide pos_x pos_y part direction_x := by
  have heights : part.1.node_y ≠ part.2.node_y :=
    mt (line.k_eq_zero_iff slanted).mpr sloped
  cases direction_x with
  | horizontal =>
      constructor
      · intro ahead distance
        unfold checkNodelineSide
        dsimp only
        rw [if_neg sloped, if_neg]
        rintro (inY | isUnlimited)
        · exact ahead ⟨.inr heights, inY⟩
        · cases isUnlimited
      · intro beside distance
        have isFar := far .horizontal beside
        rw [gap_horizontal] at isFar
        unfold checkNodelineSide sideAlong
        dsimp only
        rw [if_neg sloped, if_pos (.inl beside.2), gap_horizontal,
          ← line.atHeight_eq slanted sloped, sideOfTest_horizontal isFar]
  | vertical =>
      constructor
      · intro ahead distance
        unfold checkNodelineSide
        dsimp only
        rw [if_neg sloped, if_neg]
        rintro (inX | isUnlimited)
        · exact ahead ⟨slanted, inX⟩
        · cases isUnlimited
      · intro beside distance
        have isFar := far .vertical beside
        rw [gap_vertical] at isFar
        unfold checkNodelineSide sideAlong
        dsimp only
        rw [if_neg sloped, if_pos (.inl beside.2), gap_vertical,
          ← line.atWidth_eq slanted, sideOfTest_vertical isFar]

/-- The test of the source decides the side of an edge when the point is far
enough from it. -/
theorem PartHasLine.checksSide (line : PartHasLine part)
    (far : FarFrom pos_x pos_y part) (direction_x : MapDirection) :
    ChecksSide pos_x pos_y part direction_x := by
  by_cases vertical : part.1.node_x = part.2.node_x
  · obtain ⟨noSlope, noOffset⟩ := line.vertical vertical
    exact checksSide_of_vertical far vertical noSlope noOffset direction_x
  · by_cases level : part.1.k = 0
    · exact checksSide_of_level far line vertical level direction_x
    · exact checksSide_of_sloped far line vertical level direction_x

omit [IsStrictOrderedRing K] in
/-- The side along an edge is a side of its line. -/
theorem sideAlong_isSide (direction_x : MapDirection) :
    (sideAlong pos_x pos_y direction_x part).IsSide := by
  unfold LineSide.IsSide sideAlong
  cases direction_x with
  | horizontal =>
      dsimp only
      split_ifs
      · exact .inl rfl
      · exact .inr rfl
  | vertical =>
      dsimp only
      split_ifs
      · exact .inl rfl
      · exact .inr rfl

omit [Field K] [IsStrictOrderedRing K] in
/-- The ends of a part that is met within. -/
theorem MetWithin.faces {direction_x : MapDirection}
    (met : MetWithin pos_x pos_y direction_x part) :
    Faces pos_x pos_y direction_x part := by
  cases direction_x with
  | horizontal =>
      obtain ⟨above, below⟩ | ⟨above, below⟩ := met
      · exact ⟨(above.trans below).ne, .inl ⟨above.le, below.le⟩⟩
      · exact ⟨(above.trans below).ne', .inr ⟨below.le, above.le⟩⟩
  | vertical =>
      obtain ⟨above, below⟩ | ⟨above, below⟩ := met
      · exact ⟨(above.trans below).ne, .inl ⟨above.le, below.le⟩⟩
      · exact ⟨(above.trans below).ne', .inr ⟨below.le, above.le⟩⟩

/-- An edge that faces the point faces it when it is lengthened. -/
theorem Faces.lengthened {direction_x : MapDirection}
    (faces : Faces pos_x pos_y direction_x part) :
    FacesLengthened pos_x pos_y direction_x part := by
  cases direction_x with
  | horizontal => exact ⟨.inr faces.1, withinLengthened_of_between faces.2⟩
  | vertical => exact ⟨faces.1, withinLengthened_of_between faces.2⟩

theorem side_iff_mul_pos {first second low high : K} (apart : first ≠ second) :
    (first < second ∧ low < high ∨ ¬first < second ∧ high < low) ↔
      0 < (second - first) * (high - low) := by
  rw [mul_pos_iff, sub_pos, sub_pos, sub_neg, sub_neg]
  have order : ¬first < second ↔ second < first := by
    rw [not_lt]
    exact ⟨fun notBefore => lt_of_le_of_ne notBefore apart.symm, le_of_lt⟩
  rw [order]

/-- The side along an axis is the one of the turn. -/
theorem sideAlong_eq {direction_x : MapDirection}
    (faces : Faces pos_x pos_y direction_x part) :
    sideAlong pos_x pos_y direction_x part =
      if 0 < turn (toSegment part) ⟨pos_x, pos_y⟩ then .LEFT_SIDE
      else .RIGHT_SIDE := by
  cases direction_x with
  | horizontal =>
      refine if_congr ?_ rfl rfl
      rw [turn_of_height faces.1]
      exact side_iff_mul_pos faces.1
  | vertical =>
      refine if_congr ?_ rfl rfl
      rw [turn_of_width faces.1]
      exact side_iff_mul_pos faces.1

end Part

end OnePart

/-! ## The loops -/

section Loops

variable {K : Type} [Field K] [LinearOrder K]
  {pos_x pos_y least : K} {tests : List (MapDirection × LinePart K)}
  {search : SideSearch K}

@[simp] theorem update_error :
    search.update .PF_MAP_ERR search.dbdistance = search := by
  unfold SideSearch.update
  rw [if_neg]
  rintro ⟨isLeft | isRight, -⟩
  · cases isLeft
  · cases isRight

/-- An edge that does not face the point is skipped by the search. -/
theorem sideLoop_ahead {test : MapDirection × LinePart K}
    (checks : ChecksSide pos_x pos_y test.2 test.1)
    (ahead : ¬FacesLengthened pos_x pos_y test.1 test.2) :
    sideLoop pos_x pos_y (test :: tests) search =
      sideLoop pos_x pos_y tests search := by
  rw [sideLoop, checks.ahead ahead, if_neg nofun, update_error]

/-- One round for a part that faces the point. -/
theorem sideLoop_beside {test : MapDirection × LinePart K}
    (checks : ChecksSide pos_x pos_y test.2 test.1)
    (beside : FacesLengthened pos_x pos_y test.1 test.2) :
    sideLoop pos_x pos_y (test :: tests) search =
      sideLoop pos_x pos_y tests
        (search.update (sideAlong pos_x pos_y test.1 test.2)
          (gap pos_x pos_y test.1 test.2)) := by
  have isSide : (sideAlong pos_x pos_y test.1 test.2).IsSide :=
    sideAlong_isSide test.1
  rw [sideLoop, checks.beside beside, if_neg]
  intro isOn
  rw [show sideAlong pos_x pos_y test.1 test.2 = .ON_LINE from isOn] at isSide
  obtain isLeft | isRight := isSide
  · cases isLeft
  · cases isRight

/-- Before the nearest part only farther ones are kept. -/
theorem sideLoop_before
    (checks : ∀ test ∈ tests, ChecksSide pos_x pos_y test.2 test.1)
    (farther : ∀ test ∈ tests, FacesLengthened pos_x pos_y test.1 test.2 →
      least < gap pos_x pos_y test.1 test.2)
    (kept : search.distance_min = 0 ∨ least < search.distance_min)
    (rest : List (MapDirection × LinePart K)) :
    ∃ next : SideSearch K,
      (next.distance_min = 0 ∨ least < next.distance_min) ∧
        sideLoop pos_x pos_y (tests ++ rest) search =
          sideLoop pos_x pos_y rest next := by
  induction tests generalizing search with
  | nil => exact ⟨search, kept, rfl⟩
  | cons test tests inductionHypothesis =>
      obtain ⟨checksFirst, checksLater⟩ := List.forall_mem_cons.mp checks
      obtain ⟨fartherFirst, fartherLater⟩ := List.forall_mem_cons.mp farther
      rw [List.cons_append]
      by_cases beside : FacesLengthened pos_x pos_y test.1 test.2
      · rw [sideLoop_beside checksFirst beside]
        apply inductionHypothesis checksLater fartherLater
        unfold SideSearch.update
        split_ifs
        · exact .inr (fartherFirst beside)
        · exact kept
      · rw [sideLoop_ahead checksFirst beside]
        exact inductionHypothesis checksLater fartherLater kept

/-- After the nearest part no other one is kept. -/
theorem sideLoop_after (positive : 0 < least)
    (checks : ∀ test ∈ tests, ChecksSide pos_x pos_y test.2 test.1)
    (notNearer : ∀ test ∈ tests, FacesLengthened pos_x pos_y test.1 test.2 →
      least ≤ gap pos_x pos_y test.1 test.2)
    (kept : search.distance_min = least) :
    ∃ final : SideSearch K, sideLoop pos_x pos_y tests search = some final ∧
      final.lineside = search.lineside ∧ final.distance_min = least := by
  induction tests generalizing search with
  | nil => exact ⟨search, rfl, rfl, kept⟩
  | cons test tests inductionHypothesis =>
      obtain ⟨checksFirst, checksLater⟩ := List.forall_mem_cons.mp checks
      obtain ⟨fartherFirst, fartherLater⟩ := List.forall_mem_cons.mp notNearer
      by_cases beside : FacesLengthened pos_x pos_y test.1 test.2
      · rw [sideLoop_beside checksFirst beside]
        have same : search.update (sideAlong pos_x pos_y test.1 test.2)
            (gap pos_x pos_y test.1 test.2) =
              { search with dbdistance := gap pos_x pos_y test.1 test.2 } := by
          unfold SideSearch.update
          rw [if_neg]
          rintro ⟨-, isNearer | isFirst⟩
          · rw [kept] at isNearer
            exact absurd isNearer (fartherFirst beside).not_gt
          · rw [kept] at isFirst
            exact positive.ne' isFirst
        rw [same]
        exact inductionHypothesis checksLater fartherLater kept
      · rw [sideLoop_ahead checksFirst beside]
        exact inductionHypothesis checksLater fartherLater kept

/-- The loops find the side of the nearest part, the first one that is as
near. -/
theorem sideLoop_nearest {before after : List (MapDirection × LinePart K)}
    {nearest : MapDirection × LinePart K}
    (checks : ∀ test ∈ before ++ nearest :: after,
      ChecksSide pos_x pos_y test.2 test.1)
    (faces : FacesLengthened pos_x pos_y nearest.1 nearest.2)
    (positive : 0 < gap pos_x pos_y nearest.1 nearest.2)
    (farther : ∀ test ∈ before, FacesLengthened pos_x pos_y test.1 test.2 →
      gap pos_x pos_y nearest.1 nearest.2 < gap pos_x pos_y test.1 test.2)
    (notNearer : ∀ test ∈ after, FacesLengthened pos_x pos_y test.1 test.2 →
      gap pos_x pos_y nearest.1 nearest.2 ≤ gap pos_x pos_y test.1 test.2) :
    ∃ final : SideSearch K,
      sideLoop pos_x pos_y (before ++ nearest :: after)
          ⟨.PF_MAP_ERR, 0, 0⟩ = some final ∧
        final.lineside = sideAlong pos_x pos_y nearest.1 nearest.2 := by
  obtain ⟨checksBefore, checksRest⟩ := List.forall_mem_append.mp checks
  obtain ⟨checksNearest, checksAfter⟩ := List.forall_mem_cons.mp checksRest
  let start : SideSearch K := ⟨.PF_MAP_ERR, 0, 0⟩
  have nothing : start.distance_min = 0 ∨
      gap pos_x pos_y nearest.1 nearest.2 < start.distance_min := .inl rfl
  obtain ⟨next, kept, runs⟩ :=
    sideLoop_before checksBefore farther nothing (nearest :: after)
  have updated : next.update (sideAlong pos_x pos_y nearest.1 nearest.2)
      (gap pos_x pos_y nearest.1 nearest.2) =
        ⟨sideAlong pos_x pos_y nearest.1 nearest.2,
          gap pos_x pos_y nearest.1 nearest.2,
          gap pos_x pos_y nearest.1 nearest.2⟩ := by
    unfold SideSearch.update
    rw [if_pos ⟨sideAlong_isSide _, kept.symm⟩]
  obtain ⟨final, ends, side, -⟩ := sideLoop_after positive checksAfter
    notNearer (congrArg SideSearch.distance_min updated)
  refine ⟨final, ?_, ?_⟩
  · rw [runs, sideLoop_beside checksNearest faces]
    exact ends
  · rw [side, updated]

end Loops

/-! ## The polygon -/

section Polygon

variable {K : Type} [Field K]

@[simp] theorem mem_tests {polygon : MapPolygon K}
    {test : MapDirection × LinePart K} :
    test ∈ polygon.tests ↔ test.2 ∈ polygon.parts := by
  obtain ⟨direction_x, part⟩ := test
  unfold MapPolygon.tests lineTests MapPolygon.parts
  cases direction_x <;> simp

theorem nodeAt_eq {nodes : List (MapNodeLine K)} {index : ℕ}
    {node : MapNodeLine K} (isNode : nodes[index]? = some node) :
    nodeAt nodes index = node := by
  unfold nodeAt
  rw [List.getD_eq_getElem?_getD, isNode, Option.getD_some]

/-- The parts of a polygon are its edges. -/
theorem mem_parts {polygon : MapPolygon K} {part : LinePart K} :
    part ∈ polygon.parts ↔ part ∈ edges polygon.nodes := by
  rw [mem_edges_iff]
  unfold MapPolygon.parts lineParts
  rw [List.mem_map]
  constructor
  · rintro ⟨index, isIndex, rfl⟩
    have inside := List.mem_range.mp isIndex
    have nextInside : (index + 1) % polygon.nodes.length <
        polygon.nodes.length := Nat.mod_lt _ (by omega)
    refine ⟨index, inside, ?_, ?_⟩
    · rw [zero_add, Nat.mod_eq_of_lt inside]
      unfold nodeAt
      rw [List.getD_eq_getElem _ _ inside, List.getElem?_eq_getElem inside]
    · rw [zero_add]
      unfold nodeAt
      rw [List.getD_eq_getElem _ _ nextInside,
        List.getElem?_eq_getElem nextInside]
  · rintro ⟨index, inside, isFirst, isSecond⟩
    refine ⟨index, List.mem_range.mpr inside, ?_⟩
    rw [zero_add, Nat.mod_eq_of_lt inside, nodeAt_eq isFirst,
      nodeAt_eq isSecond]

theorem mem_edges_places {polygon : MapPolygon K}
    {segment : Place K × Place K} :
    segment ∈ edges polygon.places ↔
      ∃ part ∈ polygon.parts, toSegment part = segment := by
  unfold MapPolygon.places
  rw [edges_map, List.mem_map]
  constructor
  · rintro ⟨part, isEdge, same⟩
    exact ⟨part, mem_parts.mpr isEdge, same⟩
  · rintro ⟨part, isPart, same⟩
    exact ⟨part, mem_parts.mp isPart, same⟩

variable [LinearOrder K]

/-- The bounds include a node. -/
structure PolygonBox.Encloses (box : PolygonBox K) (node : MapNodeLine K) :
    Prop where
  minX : box.dbx_min ≤ node.node_x
  maxX : node.node_x ≤ box.dbx_max
  minY : box.dby_min ≤ node.node_y
  maxY : node.node_y ≤ box.dby_max

omit [Field K] in
/-- A box that encloses a node still encloses it when it is extended. -/
theorem PolygonBox.Encloses.extend {box : PolygonBox K}
    {node : MapNodeLine K} (encloses : box.Encloses node)
    (other : MapNodeLine K) :
    (box.extend other).Encloses node ∧ (box.extend other).Encloses other := by
  obtain ⟨minX, maxX, minY, maxY⟩ := encloses
  have orderX := minX.trans maxX
  have orderY := minY.trans maxY
  unfold PolygonBox.extend
  constructor
  · constructor <;> dsimp only <;> split_ifs <;> order
  · constructor <;> dsimp only <;> split_ifs <;> order

omit [Field K] in
theorem PolygonBox.encloses_foldl {box : PolygonBox K}
    {node : MapNodeLine K} (encloses : box.Encloses node)
    (nodes : List (MapNodeLine K)) :
    (nodes.foldl PolygonBox.extend box).Encloses node ∧
      ∀ other ∈ nodes,
        (nodes.foldl PolygonBox.extend box).Encloses other := by
  induction nodes generalizing box node with
  | nil => exact ⟨encloses, nofun⟩
  | cons first nodes inductionHypothesis =>
      obtain ⟨still, new⟩ := encloses.extend first
      obtain ⟨first_in, later_in⟩ := inductionHypothesis new
      exact ⟨(inductionHypothesis still).1,
        List.forall_mem_cons.mpr ⟨first_in, later_in⟩⟩

/-- The bounds include all nodes. -/
theorem PolygonBox.encloses_ofNodes {nodes : List (MapNodeLine K)}
    {node : MapNodeLine K} (isNode : node ∈ nodes) :
    (PolygonBox.ofNodes nodes).Encloses node := by
  cases nodes with
  | nil => cases isNode
  | cons first nodes =>
      have start : (⟨first.node_x, first.node_x, first.node_y,
          first.node_y⟩ : PolygonBox K).Encloses first :=
        ⟨le_rfl, le_rfl, le_rfl, le_rfl⟩
      obtain ⟨isFirst, isLater⟩ := PolygonBox.encloses_foldl start nodes
      obtain rfl | later := List.mem_cons.mp isNode
      · exact isFirst
      · exact isLater node later

variable [IsStrictOrderedRing K] {polygon : MapPolygon K} {utm_x utm_y : K}

/-- A point out of the bounds is outside. -/
theorem evenOdd_of_excludes
    (excludes : (PolygonBox.ofNodes polygon.nodes).Excludes utm_x utm_y) :
    evenOdd polygon.places ⟨utm_x, utm_y⟩ = false := by
  have encloses : ∀ place ∈ polygon.places, ∃ node,
      (PolygonBox.ofNodes polygon.nodes).Encloses node ∧
        node.toPlace = place := by
    intro place isPlace
    obtain ⟨node, isNode, same⟩ := List.mem_map.mp isPlace
    exact ⟨node, PolygonBox.encloses_ofNodes isNode, same⟩
  apply evenOdd_of_beside
  obtain isLeft | isRight | isBelow | isAbove := excludes
  · refine .inl fun place isPlace => ?_
    obtain ⟨node, inside, rfl⟩ := encloses place isPlace
    exact isLeft.trans_le inside.minX
  · refine .inr (.inl fun place isPlace => ?_)
    obtain ⟨node, inside, rfl⟩ := encloses place isPlace
    exact inside.maxX.trans_lt isRight
  · refine .inr (.inr (.inl fun place isPlace => ?_))
    obtain ⟨node, inside, rfl⟩ := encloses place isPlace
    exact isBelow.trans_le inside.minY
  · refine .inr (.inr (.inr fun place isPlace => ?_))
    obtain ⟨node, inside, rfl⟩ := encloses place isPlace
    exact inside.maxY.trans_lt isAbove

omit [IsStrictOrderedRing K] in
/-- No lengthened edge that faces the point is nearer than the nearest one. -/
theorem MapPolygon.NearestWithin.exists_least
    (nearest : polygon.NearestWithin utm_x utm_y) :
    ∃ before test after, polygon.tests = before ++ test :: after ∧
      MetWithin utm_x utm_y test.1 test.2 ∧
      (∀ other ∈ before, FacesLengthened utm_x utm_y other.1 other.2 →
        gap utm_x utm_y test.1 test.2 < gap utm_x utm_y other.1 other.2) ∧
      (∀ other ∈ after, FacesLengthened utm_x utm_y other.1 other.2 →
        gap utm_x utm_y test.1 test.2 ≤ gap utm_x utm_y other.1 other.2) ∧
      ∀ direction_x, ∀ part ∈ polygon.parts,
        FacesLengthened utm_x utm_y direction_x part →
          gap utm_x utm_y test.1 test.2 ≤ gap utm_x utm_y direction_x part := by
  obtain ⟨before, test, after, split, met, farther, notNearer⟩ := nearest
  refine ⟨before, test, after, split, met, farther, notNearer, ?_⟩
  intro direction_x part isPart faces
  have isTest : (direction_x, part) ∈ polygon.tests := mem_tests.mpr isPart
  rw [split, List.mem_append, List.mem_cons] at isTest
  obtain isBefore | isSame | isAfter := isTest
  · exact (farther _ isBefore faces).le
  · rw [← isSame]
  · exact notNearer _ isAfter faces

omit [Field K] [IsStrictOrderedRing K] in
/-- An edge that meets the height of a point faces it horizontally. -/
theorem faces_of_straddles {part : LinePart K}
    (meets : straddles (toSegment part) utm_y = true) :
    Faces utm_x utm_y .horizontal part := by
  unfold straddles toSegment MapNodeLine.toPlace at meets
  dsimp only at meets
  by_cases first : utm_y < part.1.node_y
  · rw [decide_eq_true first] at meets
    have second : part.2.node_y ≤ utm_y := by simpa using meets
    exact ⟨(second.trans_lt first).ne', .inr ⟨first.le, second⟩⟩
  · rw [decide_eq_false first] at meets
    have second : utm_y < part.2.node_y := by simpa using meets
    have notAbove := not_lt.mp first
    exact ⟨(notAbove.trans_lt second).ne, .inl ⟨notAbove, second.le⟩⟩

/-- The side of the nearest edge tells the inside. -/
theorem evenOdd_of_nearest {left : Bool}
    (interior : HasInterior polygon.places left)
    {direction_x : MapDirection} {part : LinePart K}
    (isPart : part ∈ polygon.parts)
    (met : MetWithin utm_x utm_y direction_x part)
    (positive : 0 < gap utm_x utm_y direction_x part)
    (least : ∀ other ∈ polygon.parts,
      FacesLengthened utm_x utm_y direction_x other →
        gap utm_x utm_y direction_x part ≤ gap utm_x utm_y direction_x other) :
    evenOdd polygon.places ⟨utm_x, utm_y⟩ =
      (decide (0 < turn (toSegment part) ⟨utm_x, utm_y⟩) == left) := by
  have isSegment : toSegment part ∈ edges polygon.places :=
    mem_edges_places.mpr ⟨part, isPart, rfl⟩
  cases direction_x with
  | horizontal =>
      rw [gap_horizontal] at positive
      refine interior.evenOdd_of_height isSegment met ?_ ?_
      · exact sub_ne_zero.mp (abs_pos.mp positive)
      intro segment isOther meets
      obtain ⟨other, isPart, rfl⟩ := mem_edges_places.mp isOther
      exact least other isPart (faces_of_straddles meets).lengthened
  | vertical =>
      rw [gap_vertical] at positive
      refine interior.evenOdd_of_width isSegment met ?_ ?_
      · exact sub_ne_zero.mp (abs_pos.mp positive)
      intro segment isOther slanted between
      obtain ⟨other, isPart, rfl⟩ := mem_edges_places.mp isOther
      have faces : Faces utm_x utm_y .vertical other := by
        refine ⟨slanted, ?_⟩
        obtain ⟨above, below⟩ | ⟨above, below⟩ := between
        · exact .inl ⟨above, below⟩
        · exact .inr ⟨below, above⟩
      exact least other isPart faces.lengthened

/-- The side of the nearest edge is found. -/
theorem checkLineSide_nearest (lines : polygon.HasLines)
    (far : polygon.FarFromEdges utm_x utm_y)
    {before after : List (MapDirection × LinePart K)}
    {test : MapDirection × LinePart K}
    (split : polygon.tests = before ++ test :: after)
    (met : MetWithin utm_x utm_y test.1 test.2)
    (farther : ∀ other ∈ before,
      FacesLengthened utm_x utm_y other.1 other.2 →
        gap utm_x utm_y test.1 test.2 < gap utm_x utm_y other.1 other.2)
    (notNearer : ∀ other ∈ after,
      FacesLengthened utm_x utm_y other.1 other.2 →
        gap utm_x utm_y test.1 test.2 ≤ gap utm_x utm_y other.1 other.2)
    (least : ∀ direction_x, ∀ part ∈ polygon.parts,
      FacesLengthened utm_x utm_y direction_x part →
        gap utm_x utm_y test.1 test.2 ≤ gap utm_x utm_y direction_x part) :
    (checkLineSide utm_x utm_y polygon.nodes 0 polygon.nodes.length 0 true).1 =
      sideAlong utm_x utm_y test.1 test.2 := by
  have isTest : test ∈ polygon.tests := by
    rw [split]
    exact List.mem_append_right _ List.mem_cons_self
  have isFar := far test isTest met.faces
  have checks : ∀ other ∈ before ++ test :: after,
      ChecksSide utm_x utm_y other.2 other.1 := by
    intro other isOther
    rw [← split] at isOther
    have isPart := mem_tests.mp isOther
    exact (lines other.2 isPart).checksSide (fun direction_x faces =>
      isFar.trans_le (least direction_x other.2 isPart faces)) other.1
  obtain ⟨final, ends, side⟩ := sideLoop_nearest checks met.faces.lengthened
    (ONLINE_OFFSET_pos.trans isFar) farther notNearer
  have nonempty : 0 < polygon.nodes.length := by
    obtain ⟨index, isIndex, -⟩ := List.mem_map.mp (mem_tests.mp isTest)
    exact Nat.zero_lt_of_lt (List.mem_range.mp isIndex)
  have found : sideLoop utm_x utm_y
      (lineTests polygon.nodes (0 : ℤ).toNat
        (polygon.nodes.length : ℤ).toNat) ⟨.PF_MAP_ERR, 0, 0⟩ =
      some final := by
    rw [← split] at ends
    rw [Int.toNat_zero, Int.toNat_natCast]
    exact ends
  have isSide : final.lineside ≠ .PF_MAP_ERR := by
    intro isError
    obtain isLeft | isRight :=
      (sideAlong_isSide test.1 : (sideAlong utm_x utm_y test.1 test.2).IsSide)
    · rw [← side, isError] at isLeft
      cases isLeft
    · rw [← side, isError] at isRight
      cases isRight
  unfold checkLineSide
  rw [if_neg (by omega), found]
  dsimp only
  rw [if_neg isSide]
  exact side

/-- For a polygon with the lines of its edges and the side of its inside, a
point that is far from the edges is found to be inside exactly if it is, if it
is out of the bounds, or the nearest lengthened edge is met between its ends. -/
theorem checkUtmInPolygon_iff (lines : polygon.HasLines)
    (mode : polygon.HasInsideMode)
    (far : polygon.FarFromEdges utm_x utm_y)
    (nearest : (PolygonBox.ofNodes polygon.nodes).Excludes utm_x utm_y ∨
      polygon.NearestWithin utm_x utm_y) :
    (checkUtmInPolygon utm_x utm_y polygon).1 = 1 ↔
      evenOdd polygon.places ⟨utm_x, utm_y⟩ = true := by
  unfold checkUtmInPolygon
  dsimp only
  by_cases excludes : (PolygonBox.ofNodes polygon.nodes).Excludes utm_x utm_y
  · rw [if_pos excludes, evenOdd_of_excludes excludes]
    simp
  · obtain ⟨before, test, after, split, met, farther, notNearer, least⟩ :=
      (nearest.resolve_left excludes).exists_least
    have isTest : test ∈ polygon.tests := by
      rw [split]
      exact List.mem_append_right _ List.mem_cons_self
    have positive : 0 < gap utm_x utm_y test.1 test.2 :=
      ONLINE_OFFSET_pos.trans (far test isTest met.faces)
    have side := checkLineSide_nearest lines far split met farther notNearer
      least
    rw [sideAlong_eq met.faces] at side
    have inside : ∀ left, HasInterior polygon.places left →
        evenOdd polygon.places ⟨utm_x, utm_y⟩ =
          (decide (0 < turn (toSegment test.2) ⟨utm_x, utm_y⟩) == left) :=
      fun left interior => evenOdd_of_nearest interior
        (mem_tests.mp isTest) met positive (least test.1)
    rw [if_neg excludes, side]
    obtain ⟨isLeft, interior⟩ | ⟨isRight, interior⟩ := mode
    · rw [inside true interior, isLeft]
      split_ifs <;> simp_all [LineSide.toS32]
    · rw [inside false interior, isRight]
      split_ifs <;> simp_all [LineSide.toS32]

end Polygon

/-! ## A polygon with two peaks -/

/-- The lower peak is at the height 4, the higher one at the height 5. -/
def twoPeaks : MapPolygon ℚ where
  insideMode := 1
  nodes := [⟨2, 1, 2, -3⟩, ⟨4, 5, 3 / 2, -1⟩, ⟨2, 2, -1, 4⟩, ⟨0, 4, -3 / 2, 4⟩]
  countFits := by decide

theorem twoPeaks_edges :
    edges twoPeaks.places =
      [(⟨0, 4⟩, ⟨2, 1⟩), (⟨2, 1⟩, ⟨4, 5⟩), (⟨4, 5⟩, ⟨2, 2⟩),
        (⟨2, 2⟩, ⟨0, 4⟩)] := rfl

theorem twoPeaks_parts :
    twoPeaks.parts =
      [(⟨2, 1, 2, -3⟩, ⟨4, 5, 3 / 2, -1⟩),
        (⟨4, 5, 3 / 2, -1⟩, ⟨2, 2, -1, 4⟩),
        (⟨2, 2, -1, 4⟩, ⟨0, 4, -3 / 2, 4⟩),
        (⟨0, 4, -3 / 2, 4⟩, ⟨2, 1, 2, -3⟩)] := rfl

theorem twoPeaks_hasLines : twoPeaks.HasLines := by
  unfold MapPolygon.HasLines
  rw [twoPeaks_parts]
  simp only [List.forall_mem_cons]
  refine ⟨?_, ?_, ?_, ?_, nofun⟩ <;> constructor <;> norm_num

/-- The even-odd test of the polygon. -/
theorem twoPeaks_evenOdd (place : Place ℚ) :
    evenOdd twoPeaks.places place =
      (decide (1 ≤ place.y ∧ place.y < 4 ∧ 3 * place.x + 2 * place.y < 8) ^^
        (decide (1 ≤ place.y ∧ place.y < 5 ∧ 2 * place.x < place.y + 3) ^^
          (decide (2 ≤ place.y ∧ place.y < 5 ∧
              3 * place.x < 2 * place.y + 2) ^^
            decide (2 ≤ place.y ∧ place.y < 4 ∧ place.x + place.y < 4)))) := by
  unfold evenOdd
  rw [twoPeaks_edges, parity_cons, parity_cons, parity_cons, parity_cons,
    parity_nil, Bool.xor_false, crosses_of_falling (by norm_num),
    crosses_of_rising (by norm_num), crosses_of_falling (by norm_num),
    crosses_of_rising (by norm_num)]
  unfold turn
  dsimp only
  have first : (2 - 0) * (place.y - 4) - (1 - 4) * (place.x - 0) < 0 ↔
      3 * place.x + 2 * place.y < 8 := by
    constructor <;> intro side <;> linarith
  have second : 0 < (4 - 2) * (place.y - 1) - (5 - 1) * (place.x - 2) ↔
      2 * place.x < place.y + 3 := by
    constructor <;> intro side <;> linarith
  have third : (2 - 4) * (place.y - 5) - (2 - 5) * (place.x - 4) < 0 ↔
      3 * place.x < 2 * place.y + 2 := by
    constructor <;> intro side <;> linarith
  have fourth : 0 < (0 - 2) * (place.y - 2) - (4 - 2) * (place.x - 2) ↔
      place.x + place.y < 4 := by
    constructor <;> intro side <;> linarith
  simp only [first, second, third, fourth]

section TwoPeaks

variable {part radius : ℚ} {place : Place ℚ}

/-- Close to the first segment the inside is above it. -/
theorem twoPeaks_first (more : radius ≤ part / 10)
    (less : radius ≤ (1 - part) / 10)
    (nearX : |place.x - (along (⟨0, 4⟩, ⟨2, 1⟩) part).x| < radius)
    (nearY : |place.y - (along (⟨0, 4⟩, ⟨2, 1⟩) part).y| < radius) :
    evenOdd twoPeaks.places place =
      !decide (3 * place.x + 2 * place.y < 8) := by
  obtain ⟨afterX, beforeX⟩ := abs_lt.mp nearX
  obtain ⟨afterY, beforeY⟩ := abs_lt.mp nearY
  unfold along at afterX beforeX afterY beforeY
  dsimp only at afterX beforeX afterY beforeY
  have isFirst : (1 ≤ place.y ∧ place.y < 4 ∧ 3 * place.x + 2 * place.y < 8) ↔
      3 * place.x + 2 * place.y < 8 :=
    ⟨fun ⟨_, _, side⟩ => side, fun side => ⟨by linarith, by linarith, side⟩⟩
  have isSecond : 1 ≤ place.y ∧ place.y < 5 ∧ 2 * place.x < place.y + 3 :=
    ⟨by linarith, by linarith, by linarith⟩
  have isThird : (2 ≤ place.y ∧ place.y < 5 ∧
      3 * place.x < 2 * place.y + 2) ↔ 2 ≤ place.y :=
    ⟨fun ⟨high, _, _⟩ => high, fun high => ⟨high, by linarith, by linarith⟩⟩
  have isFourth : (2 ≤ place.y ∧ place.y < 4 ∧ place.x + place.y < 4) ↔
      2 ≤ place.y :=
    ⟨fun ⟨high, _, _⟩ => high, fun high => ⟨high, by linarith, by linarith⟩⟩
  rw [twoPeaks_evenOdd, decide_eq_true isSecond]
  simp only [isFirst, isThird, isFourth, Bool.xor_self, Bool.xor_false,
    Bool.xor_true]

/-- Close to the second segment the inside is on its left. -/
theorem twoPeaks_second (more : radius ≤ part / 10)
    (less : radius ≤ (1 - part) / 10)
    (nearX : |place.x - (along (⟨2, 1⟩, ⟨4, 5⟩) part).x| < radius)
    (nearY : |place.y - (along (⟨2, 1⟩, ⟨4, 5⟩) part).y| < radius) :
    evenOdd twoPeaks.places place =
      decide (2 * place.x < place.y + 3) := by
  obtain ⟨afterX, beforeX⟩ := abs_lt.mp nearX
  obtain ⟨afterY, beforeY⟩ := abs_lt.mp nearY
  unfold along at afterX beforeX afterY beforeY
  dsimp only at afterX beforeX afterY beforeY
  have notFirst :
      ¬(1 ≤ place.y ∧ place.y < 4 ∧ 3 * place.x + 2 * place.y < 8) :=
    fun ⟨_, _, side⟩ => by linarith
  have isSecond : (1 ≤ place.y ∧ place.y < 5 ∧ 2 * place.x < place.y + 3) ↔
      2 * place.x < place.y + 3 :=
    ⟨fun ⟨_, _, side⟩ => side, fun side => ⟨by linarith, by linarith, side⟩⟩
  have notThird : ¬(2 ≤ place.y ∧ place.y < 5 ∧
      3 * place.x < 2 * place.y + 2) :=
    fun ⟨_, _, side⟩ => by linarith
  have notFourth : ¬(2 ≤ place.y ∧ place.y < 4 ∧ place.x + place.y < 4) :=
    fun ⟨_, _, side⟩ => by linarith
  rw [twoPeaks_evenOdd, decide_eq_false notFirst, decide_eq_false notThird,
    decide_eq_false notFourth]
  simp only [isSecond, Bool.xor_false, Bool.false_xor]

/-- Close to the third segment the inside is below it. -/
theorem twoPeaks_third (more : radius ≤ part / 10)
    (less : radius ≤ (1 - part) / 10)
    (nearX : |place.x - (along (⟨4, 5⟩, ⟨2, 2⟩) part).x| < radius)
    (nearY : |place.y - (along (⟨4, 5⟩, ⟨2, 2⟩) part).y| < radius) :
    evenOdd twoPeaks.places place =
      !decide (3 * place.x < 2 * place.y + 2) := by
  obtain ⟨afterX, beforeX⟩ := abs_lt.mp nearX
  obtain ⟨afterY, beforeY⟩ := abs_lt.mp nearY
  unfold along at afterX beforeX afterY beforeY
  dsimp only at afterX beforeX afterY beforeY
  have notFirst :
      ¬(1 ≤ place.y ∧ place.y < 4 ∧ 3 * place.x + 2 * place.y < 8) :=
    fun ⟨_, _, side⟩ => by linarith
  have isSecond : 1 ≤ place.y ∧ place.y < 5 ∧ 2 * place.x < place.y + 3 :=
    ⟨by linarith, by linarith, by linarith⟩
  have isThird : (2 ≤ place.y ∧ place.y < 5 ∧
      3 * place.x < 2 * place.y + 2) ↔ 3 * place.x < 2 * place.y + 2 :=
    ⟨fun ⟨_, _, side⟩ => side, fun side => ⟨by linarith, by linarith, side⟩⟩
  have notFourth : ¬(2 ≤ place.y ∧ place.y < 4 ∧ place.x + place.y < 4) :=
    fun ⟨_, _, side⟩ => by linarith
  rw [twoPeaks_evenOdd, decide_eq_false notFirst, decide_eq_true isSecond,
    decide_eq_false notFourth]
  simp only [isThird, Bool.xor_false, Bool.false_xor, Bool.true_xor]

/-- Close to the last segment the inside is below it. -/
theorem twoPeaks_fourth (more : radius ≤ part / 10)
    (less : radius ≤ (1 - part) / 10)
    (nearX : |place.x - (along (⟨2, 2⟩, ⟨0, 4⟩) part).x| < radius)
    (nearY : |place.y - (along (⟨2, 2⟩, ⟨0, 4⟩) part).y| < radius) :
    evenOdd twoPeaks.places place =
      decide (place.x + place.y < 4) := by
  obtain ⟨afterX, beforeX⟩ := abs_lt.mp nearX
  obtain ⟨afterY, beforeY⟩ := abs_lt.mp nearY
  unfold along at afterX beforeX afterY beforeY
  dsimp only at afterX beforeX afterY beforeY
  have notFirst :
      ¬(1 ≤ place.y ∧ place.y < 4 ∧ 3 * place.x + 2 * place.y < 8) :=
    fun ⟨_, _, side⟩ => by linarith
  have isSecond : 1 ≤ place.y ∧ place.y < 5 ∧ 2 * place.x < place.y + 3 :=
    ⟨by linarith, by linarith, by linarith⟩
  have isThird : 2 ≤ place.y ∧ place.y < 5 ∧ 3 * place.x < 2 * place.y + 2 :=
    ⟨by linarith, by linarith, by linarith⟩
  have isFourth : (2 ≤ place.y ∧ place.y < 4 ∧ place.x + place.y < 4) ↔
      place.x + place.y < 4 :=
    ⟨fun ⟨_, _, side⟩ => side, fun side => ⟨by linarith, by linarith, side⟩⟩
  rw [twoPeaks_evenOdd, decide_eq_false notFirst, decide_eq_true isSecond,
    decide_eq_true isThird]
  simp only [isFourth, Bool.false_xor, Bool.true_xor, Bool.not_not]

end TwoPeaks

/-- The inside is on the left of the segments. -/
theorem twoPeaks_hasInterior : HasInterior twoPeaks.places true := by
  intro segment isSegment part positive small
  have half : 0 < min part (1 - part) / 10 :=
    div_pos (lt_min positive (sub_pos.mpr small)) (by norm_num)
  have more : min part (1 - part) / 10 ≤ part / 10 :=
    div_le_div_of_nonneg_right (min_le_left _ _) (by norm_num)
  have less : min part (1 - part) / 10 ≤ (1 - part) / 10 :=
    div_le_div_of_nonneg_right (min_le_right _ _) (by norm_num)
  refine ⟨min part (1 - part) / 10, half, ?_⟩
  intro place nearX nearY
  generalize min part (1 - part) / 10 = radius at more less nearX nearY
  rw [twoPeaks_edges] at isSegment
  simp only [List.mem_cons, List.not_mem_nil, or_false] at isSegment
  unfold turn
  obtain rfl | rfl | rfl | rfl := isSegment
  · dsimp only
    rw [twoPeaks_first more less nearX nearY]
    constructor
    · intro side
      simpa using (by linarith : 8 ≤ 3 * place.x + 2 * place.y)
    · intro side
      simpa using (by linarith : 3 * place.x + 2 * place.y < 8)
  · dsimp only
    rw [twoPeaks_second more less nearX nearY]
    constructor
    · intro side
      simpa using (by linarith : 2 * place.x < place.y + 3)
    · intro side
      simpa using (by linarith : place.y + 3 ≤ 2 * place.x)
  · dsimp only
    rw [twoPeaks_third more less nearX nearY]
    constructor
    · intro side
      simpa using (by linarith : 2 * place.y + 2 ≤ 3 * place.x)
    · intro side
      simpa using (by linarith : 3 * place.x < 2 * place.y + 2)
  · dsimp only
    rw [twoPeaks_fourth more less nearX nearY]
    constructor
    · intro side
      simpa using (by linarith : place.x + place.y < 4)
    · intro side
      simpa using (by linarith : 4 ≤ place.x + place.y)

theorem twoPeaks_tests :
    twoPeaks.tests =
      twoPeaks.parts.map (MapDirection.horizontal, ·) ++
        twoPeaks.parts.map (MapDirection.vertical, ·) := rfl

/-- Above the lower peak the nearest lengthened edge is one that ends there, and
the point counts as inside. -/
theorem checkUtmInPolygon_above_peak :
    twoPeaks.HasLines ∧ twoPeaks.HasInsideMode ∧
      twoPeaks.FarFromEdges (1 / 2) (800001 / 200000) ∧
      (checkUtmInPolygon (1 / 2) (800001 / 200000) twoPeaks).1 = 1 ∧
      evenOdd twoPeaks.places ⟨1 / 2, 800001 / 200000⟩ = false := by
  refine ⟨twoPeaks_hasLines, .inl ⟨rfl, twoPeaks_hasInterior⟩, ?_, ?_, ?_⟩
  · unfold MapPolygon.FarFromEdges
    rw [twoPeaks_tests, twoPeaks_parts]
    simp only [List.map_cons, List.map_nil, List.cons_append, List.nil_append,
      List.forall_mem_cons]
    refine ⟨?_, ?_, ?_, ?_, ?_, ?_, ?_, ?_, nofun⟩ <;>
      norm_num [Faces, BetweenEnds, gap, atHeight, atWidth, toSegment,
        MapNodeLine.toPlace, ONLINE_OFFSET, abs_of_pos, abs_of_neg]
  · decide +kernel
  · rw [twoPeaks_evenOdd]
    decide +kernel

/-- A point between the first and the last node is inside. -/
theorem checkUtmInPolygon_iff_inside :
    (checkUtmInPolygon (3 / 2) 2 twoPeaks).1 = 1 ↔
      evenOdd twoPeaks.places ⟨3 / 2, 2⟩ = true := by
  apply checkUtmInPolygon_iff twoPeaks_hasLines
    (.inl ⟨rfl, twoPeaks_hasInterior⟩)
  · unfold MapPolygon.FarFromEdges
    rw [twoPeaks_tests, twoPeaks_parts]
    simp only [List.map_cons, List.map_nil, List.cons_append, List.nil_append,
      List.forall_mem_cons]
    refine ⟨?_, ?_, ?_, ?_, ?_, ?_, ?_, ?_, nofun⟩ <;>
      norm_num [Faces, BetweenEnds, gap, atHeight, atWidth, toSegment,
        MapNodeLine.toPlace, ONLINE_OFFSET, abs_of_pos, abs_of_neg]
  · right
    refine ⟨(twoPeaks.parts.take 3).map (MapDirection.horizontal, ·),
      (.horizontal, ⟨0, 4, -3 / 2, 4⟩, ⟨2, 1, 2, -3⟩),
      twoPeaks.parts.map (MapDirection.vertical, ·), rfl, ?_, ?_, ?_⟩
    · norm_num [MetWithin]
    · rw [twoPeaks_parts]
      simp only [List.take_succ_cons, List.take_zero, List.map_cons,
        List.map_nil, List.forall_mem_cons]
      refine ⟨?_, ?_, ?_, nofun⟩ <;>
        norm_num [FacesLengthened, WithinLengthened, BetweenEnds,
          lengthenStart, lengthenEnd, DB_OFFSET, gap, atHeight, atWidth,
          toSegment, MapNodeLine.toPlace, abs_of_pos, abs_of_neg]
    · rw [twoPeaks_parts]
      simp only [List.map_cons, List.map_nil, List.forall_mem_cons]
      refine ⟨?_, ?_, ?_, ?_, nofun⟩ <;>
        norm_num [FacesLengthened, WithinLengthened, BetweenEnds,
          lengthenStart, lengthenEnd, DB_OFFSET, gap, atHeight, atWidth,
          toSegment, MapNodeLine.toPlace, abs_of_pos, abs_of_neg]

end Hdmap
end Pilot2Cloud
