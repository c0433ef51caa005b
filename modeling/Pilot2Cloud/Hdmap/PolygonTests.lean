import Mathlib
import Pilot2Cloud.Foundation.ClosedChain
import Pilot2Cloud.Hdmap.MapBlock

/-!
# Two tests for a point in a polygon

`pnpoly` counts a node on the height of the point as below it and `isInPolygon`
counts it as above.  The edges for which this matters come in pairs, so off the
boundary both tests have the same parity.
-/

namespace Pilot2Cloud
namespace Hdmap

open Foundation ClosedChain

/-- `PF_NODE_ST`. -/
structure PfNode (K : Type*) where
  x : K
  y : K

section Numbers

variable {K : Type*} [Arithmetic K]

theorem pnpolyFrom_eq (px py : K) (previous : MapXyz K)
    (poly : List (MapXyz K)) (c : Bool) :
    pnpolyFrom px py previous poly c =
      (c ^^ parity (fun edge => crossesEdge edge.2 edge.1 px py)
        (edgesFrom previous poly)) := by
  induction poly generalizing previous c with
  | nil => simp [pnpolyFrom, edgesFrom]
  | cons node poly inductionHypothesis =>
      rw [pnpolyFrom, inductionHypothesis, edgesFrom, parity_cons]
      cases crossesEdge node previous px py <;> cases c <;> simp

/-- `pnpoly` finds the parity of the edges on the right of the point. -/
theorem pnpoly_eq (poly : List (MapXyz K)) (px py : K) :
    pnpoly poly px py =
      parity (fun edge => crossesEdge edge.2 edge.1 px py) (edges poly) := by
  rw [pnpoly, edges]
  cases poly.getLast? with
  | none => rfl
  | some last =>
      dsimp only
      rw [pnpolyFrom_eq, Bool.false_xor]

end Numbers

section Tests

variable {K : Type*} [Field K] [LinearOrder K]

/-- The place where the line through a segment meets the height of the point, as
`isRayCrossSeg` computes it. -/
def xseg (point startPoint endPoint : PfNode K) : K :=
  endPoint.x - (endPoint.x - startPoint.x) * (endPoint.y - point.y) /
    (endPoint.y - startPoint.y)

/-- `isRayCrossSeg`. -/
def isRayCrossSeg (point startPoint endPoint : PfNode K) : Bool :=
  if startPoint.y = endPoint.y then false
  else if point.y < startPoint.y ∧ point.y < endPoint.y then false
  else if startPoint.y < point.y ∧ endPoint.y < point.y then false
  else if startPoint.y = point.y ∧ point.y < endPoint.y then false
  else if endPoint.y = point.y ∧ point.y < startPoint.y then false
  else if startPoint.x < point.x ∧ endPoint.x < point.x then false
  else if xseg point startPoint endPoint < point.x then false
  else true

/-- The loop of `isInPolygon`. -/
def crossPointNum (point : PfNode K) : PfNode K → List (PfNode K) → Nat → Nat
  | _, [], crossPointNum => crossPointNum
  | startPoint, endPoint :: polygon, num =>
      crossPointNum point endPoint polygon
        (if isRayCrossSeg point startPoint endPoint then num + 1 else num)

/-- `isInPolygon`. -/
def isInPolygon (point : PfNode K) (polygon : List (PfNode K)) : Bool :=
  match polygon.getLast? with
  | none => false
  | some last => crossPointNum point last polygon 0 % 2 = 1

/-- The coordinates of a node of an area. -/
def MapXyz.toNode (node : MapXyz K) : PfNode K :=
  ⟨node.x, node.y⟩

omit [Field K] [LinearOrder K] in
@[simp] theorem MapXyz.toNode_x (node : MapXyz K) : node.toNode.x = node.x :=
  rfl

omit [Field K] [LinearOrder K] in
@[simp] theorem MapXyz.toNode_y (node : MapXyz K) : node.toNode.y = node.y :=
  rfl

/-! ## Parities -/

theorem crossPointNum_eq (point startPoint : PfNode K)
    (polygon : List (PfNode K)) (num : Nat) :
    crossPointNum point startPoint polygon num =
      num + (edgesFrom startPoint polygon).countP
        (fun edge => isRayCrossSeg point edge.1 edge.2) := by
  induction polygon generalizing startPoint num with
  | nil => rfl
  | cons endPoint polygon inductionHypothesis =>
      rw [crossPointNum, inductionHypothesis, edgesFrom, List.countP_cons]
      split <;> omega

/-- `isInPolygon` finds the parity of the segments that the ray crosses. -/
theorem isInPolygon_eq (point : PfNode K) (polygon : List (PfNode K)) :
    isInPolygon point polygon =
      parity (fun edge => isRayCrossSeg point edge.1 edge.2)
        (edges polygon) := by
  rw [isInPolygon, edges]
  cases polygon.getLast? with
  | none => rfl
  | some last =>
      dsimp only
      rw [crossPointNum_eq, Nat.zero_add, parity_eq_countP]

/-! ## One edge -/

/-- The point is on the segment. -/
def OnSegment (point startPoint endPoint : PfNode K) : Prop :=
  ∃ part, 0 ≤ part ∧ part ≤ 1 ∧
    point.x = startPoint.x + part * (endPoint.x - startPoint.x) ∧
    point.y = startPoint.y + part * (endPoint.y - startPoint.y)

/-- The node is on the ray. -/
def onRay (point node : PfNode K) : Bool :=
  node.y = point.y && point.x < node.x

variable {point startPoint endPoint : PfNode K}

omit [LinearOrder K] in
theorem xseg_eq (sloped : startPoint.y ≠ endPoint.y) :
    xseg point startPoint endPoint =
      startPoint.x + (point.y - startPoint.y) / (endPoint.y - startPoint.y) *
        (endPoint.x - startPoint.x) := by
  have nonzero : endPoint.y - startPoint.y ≠ 0 := sub_ne_zero.mpr sloped.symm
  rw [xseg]
  field_simp
  ring

omit [LinearOrder K] in
theorem xseg_of_start (sloped : startPoint.y ≠ endPoint.y)
    (level : startPoint.y = point.y) :
    xseg point startPoint endPoint = startPoint.x := by
  rw [xseg_eq sloped, level]
  simp

omit [LinearOrder K] in
@[simp] theorem xseg_of_end (level : endPoint.y = point.y) :
    xseg point startPoint endPoint = endPoint.x := by
  rw [xseg, level]
  simp

variable [IsStrictOrderedRing K]

/-- The part of a sloped segment up to the height of a point between its
ends. -/
theorem part_mem (sloped : startPoint.y ≠ endPoint.y)
    (between : startPoint.y ≤ point.y ∧ point.y ≤ endPoint.y ∨
      endPoint.y ≤ point.y ∧ point.y ≤ startPoint.y) :
    0 ≤ (point.y - startPoint.y) / (endPoint.y - startPoint.y) ∧
      (point.y - startPoint.y) / (endPoint.y - startPoint.y) ≤ 1 := by
  obtain ⟨above, below⟩ | ⟨below, above⟩ := between
  · have rises : 0 < endPoint.y - startPoint.y :=
      sub_pos.mpr (lt_of_le_of_ne (above.trans below) sloped)
    exact ⟨div_nonneg (by linarith) rises.le,
      (div_le_one rises).mpr (by linarith)⟩
  · have falls : endPoint.y - startPoint.y < 0 :=
      sub_neg.mpr (lt_of_le_of_ne (below.trans above) sloped.symm)
    exact ⟨div_nonneg_of_nonpos (by linarith) falls.le,
      (div_le_one_of_neg falls).mpr (by linarith)⟩

/-- A point between the ends that is not on the segment is not where the segment
meets its height. -/
theorem xseg_ne (off : ¬OnSegment point startPoint endPoint)
    (sloped : startPoint.y ≠ endPoint.y)
    (between : startPoint.y ≤ point.y ∧ point.y ≤ endPoint.y ∨
      endPoint.y ≤ point.y ∧ point.y ≤ startPoint.y) :
    xseg point startPoint endPoint ≠ point.x := by
  intro meets
  rw [xseg_eq sloped] at meets
  obtain ⟨nonneg, le⟩ := part_mem sloped between
  refine off ⟨_, nonneg, le, meets.symm, ?_⟩
  rw [div_mul_cancel₀ _ (sub_ne_zero.mpr sloped.symm)]
  ring

/-- A segment on the left of the point meets its height on the left. -/
theorem xseg_lt (sloped : startPoint.y ≠ endPoint.y)
    (between : startPoint.y ≤ point.y ∧ point.y ≤ endPoint.y ∨
      endPoint.y ≤ point.y ∧ point.y ≤ startPoint.y)
    (startLeft : startPoint.x < point.x) (endLeft : endPoint.x < point.x) :
    xseg point startPoint endPoint < point.x := by
  obtain ⟨nonneg, le⟩ := part_mem sloped between
  rw [xseg_eq sloped]
  generalize (point.y - startPoint.y) / (endPoint.y - startPoint.y) = part
    at nonneg le
  rcases le_total endPoint.x startPoint.x with falls | rises
  · have back : part * (endPoint.x - startPoint.x) ≤ 0 :=
      mul_nonpos_of_nonneg_of_nonpos nonneg (by linarith)
    linarith
  · have forth : part * (endPoint.x - startPoint.x) ≤
        1 * (endPoint.x - startPoint.x) :=
      mul_le_mul_of_nonneg_right le (by linarith)
    linarith

/-- The ends of a segment that passes the tests for the heights are on different
sides of the point or on its height. -/
theorem between_of_counted (sloped : startPoint.y ≠ endPoint.y)
    (notAbove : ¬(point.y < startPoint.y ∧ point.y < endPoint.y))
    (notBelow : ¬(startPoint.y < point.y ∧ endPoint.y < point.y))
    (notFromRay : ¬(startPoint.y = point.y ∧ point.y < endPoint.y))
    (notToRay : ¬(endPoint.y = point.y ∧ point.y < startPoint.y)) :
    endPoint.y < point.y ∧ point.y ≤ startPoint.y ∨
      startPoint.y < point.y ∧ point.y ≤ endPoint.y := by
  grind

/-- A segment is counted if one end is below the point and the other is not, and
it meets the height of the point at the point or on its right. -/
theorem isRayCrossSeg_eq :
    isRayCrossSeg point startPoint endPoint =
      ((decide (point.y ≤ startPoint.y) ^^ decide (point.y ≤ endPoint.y)) &&
        decide (point.x ≤ xseg point startPoint endPoint)) := by
  rw [isRayCrossSeg]
  split_ifs with horizontal above below start ends left before
  · simp [horizontal]
  · simp [above.1.le, above.2.le]
  · simp [below.1.not_ge, below.2.not_ge]
  · simp [start.1, start.2.le]
  · simp [ends.1, ends.2.le]
  · have between := between_of_counted horizontal above below start ends
    have beside := xseg_lt horizontal
      (between.symm.imp (And.imp_left le_of_lt) (And.imp_left le_of_lt))
      left.1 left.2
    simp [beside.not_ge]
  · simp [before.not_ge]
  · obtain down | up := between_of_counted horizontal above below start ends
    · simp [down.1.not_ge, down.2, not_lt.mp before]
    · simp [up.1.not_ge, up.2, not_lt.mp before]

omit [IsStrictOrderedRing K] in
/-- `pnpoly` counts an edge if one end is above the point and the other is not,
and it meets the height of the point on its right. -/
theorem crossesEdge_eq (node previous : MapXyz K) (px py : K) :
    crossesEdge node previous px py =
      ((decide (py < previous.y) ^^ decide (py < node.y)) &&
        decide (px < xseg ⟨px, py⟩ previous.toNode node.toNode)) := by
  rw [crossesEdge]
  by_cases horizontal : previous.y = node.y
  · simp [horizontal]
  · have meets : (previous.x - node.x) * (py - node.y) /
          (previous.y - node.y) + node.x =
        xseg ⟨px, py⟩ previous.toNode node.toNode := by
      have nonzero : previous.y - node.y ≠ 0 := sub_ne_zero.mpr horizontal
      have reversed : node.y - previous.y ≠ 0 :=
        sub_ne_zero.mpr (Ne.symm horizontal)
      simp only [xseg, MapXyz.toNode]
      field_simp
      ring
    rw [meets, Bool.xor_comm]

/-- A point off a segment is not an end of it. -/
theorem end_ne_of_off (off : ¬OnSegment point startPoint endPoint) :
    (startPoint.y = point.y → startPoint.x ≠ point.x) ∧
      (endPoint.y = point.y → endPoint.x ≠ point.x) := by
  constructor
  · intro level same
    exact off ⟨0, le_rfl, zero_le_one, by simp [same], by simp [level]⟩
  · intro level same
    exact off ⟨1, zero_le_one, le_rfl, by simp [same], by simp [level]⟩

/-- A point off a horizontal segment on its height is on one side of it. -/
theorem side_of_off (off : ¬OnSegment point startPoint endPoint)
    (startLevel : startPoint.y = point.y) (endLevel : endPoint.y = point.y) :
    point.x < startPoint.x ↔ point.x < endPoint.x := by
  have inside : ∀ part, 0 ≤ part → part ≤ 1 →
      point.x ≠ startPoint.x + part * (endPoint.x - startPoint.x) := by
    intro part nonneg le meets
    exact off ⟨part, nonneg, le, meets, by simp [startLevel, endLevel]⟩
  have between : ∀ first second : K, first ≤ point.x → point.x < second →
      0 ≤ (point.x - first) / (second - first) ∧
        (point.x - first) / (second - first) ≤ 1 := by
    intro first second lower upper
    have positive : 0 < second - first := by linarith
    exact ⟨div_nonneg (by linarith) positive.le,
      (div_le_one positive).mpr (by linarith)⟩
  constructor
  · intro right
    by_contra left
    rw [not_lt] at left
    obtain ⟨nonneg, le⟩ := between _ _ left right
    apply inside (1 - (point.x - endPoint.x) / (startPoint.x - endPoint.x))
      (by linarith) (by linarith)
    have nonzero : startPoint.x - endPoint.x ≠ 0 :=
      sub_ne_zero.mpr (left.trans_lt right).ne'
    field_simp
    ring
  · intro right
    by_contra left
    rw [not_lt] at left
    obtain ⟨nonneg, le⟩ := between _ _ left right
    apply inside ((point.x - startPoint.x) / (endPoint.x - startPoint.x))
      nonneg le
    have nonzero : endPoint.x - startPoint.x ≠ 0 :=
      sub_ne_zero.mpr (left.trans_lt right).ne'
    field_simp
    ring

/-- Off the boundary the two tests differ on an edge exactly if one of its ends
is on the ray and the other is not. -/
theorem isRayCrossSeg_xor_crossesEdge {node previous : MapXyz K} {px py : K}
    (off : ¬OnSegment ⟨px, py⟩ previous.toNode node.toNode) :
    (isRayCrossSeg ⟨px, py⟩ previous.toNode node.toNode ^^
        crossesEdge node previous px py) =
      (onRay ⟨px, py⟩ previous.toNode ^^ onRay ⟨px, py⟩ node.toNode) := by
  obtain ⟨startNe, endNe⟩ := end_ne_of_off off
  dsimp only [MapXyz.toNode_x, MapXyz.toNode_y] at startNe endNe
  have counts : isRayCrossSeg ⟨px, py⟩ previous.toNode node.toNode =
      ((decide (py ≤ previous.y) ^^ decide (py ≤ node.y)) &&
        decide (px ≤ xseg ⟨px, py⟩ previous.toNode node.toNode)) :=
    isRayCrossSeg_eq
  have ray : ∀ node : MapXyz K, onRay ⟨px, py⟩ node.toNode =
      (decide (node.y = py) && decide (px < node.x)) :=
    fun _ => rfl
  rw [counts, crossesEdge_eq, ray, ray]
  have closed : ∀ {place : K}, place ≠ px →
      decide (px ≤ place) = decide (px < place) :=
    fun apart => decide_eq_decide.mpr apart.symm.le_iff_lt
  by_cases horizontal : previous.y = node.y
  · rw [horizontal, Bool.xor_self, Bool.xor_self, Bool.false_and,
      Bool.false_and, Bool.xor_self]
    by_cases level : node.y = py
    · have side : px < previous.x ↔ px < node.x :=
        side_of_off off (horizontal.trans level) level
      rw [decide_eq_decide.mpr side, Bool.xor_self]
    · rw [decide_eq_false level, Bool.false_and, Bool.false_and,
        Bool.xor_self]
  · have startMeets : previous.y = py →
        xseg ⟨px, py⟩ previous.toNode node.toNode = previous.x :=
      fun level => xseg_of_start horizontal level
    have endMeets : node.y = py →
        xseg ⟨px, py⟩ previous.toNode node.toNode = node.x :=
      fun level => xseg_of_end level
    have meets := fun between => xseg_ne off horizontal between
    dsimp only [MapXyz.toNode_y] at meets
    generalize xseg ⟨px, py⟩ previous.toNode node.toNode = place at *
    rcases lt_trichotomy previous.y py with below | level | above
    · rcases lt_trichotomy node.y py with nodeBelow | nodeLevel | nodeAbove
      · simp [below.not_ge, nodeBelow.not_ge, below.not_gt, nodeBelow.not_gt,
          below.ne, nodeBelow.ne]
      · rw [endMeets nodeLevel, closed (endNe nodeLevel)]
        simp [below.not_ge, below.not_gt, below.ne, nodeLevel]
      · rw [closed (meets (.inl ⟨below.le, nodeAbove.le⟩))]
        simp [below.not_ge, below.not_gt, below.ne, nodeAbove, nodeAbove.le,
          nodeAbove.ne']
    · rcases lt_trichotomy node.y py with nodeBelow | nodeLevel | nodeAbove
      · rw [startMeets level, closed (startNe level)]
        simp [nodeBelow.not_ge, nodeBelow.not_gt, nodeBelow.ne, level]
      · exact absurd (level.trans nodeLevel.symm) horizontal
      · rw [startMeets level]
        simp [level, nodeAbove, nodeAbove.le, nodeAbove.ne']
    · rcases lt_trichotomy node.y py with nodeBelow | nodeLevel | nodeAbove
      · rw [closed (meets (.inr ⟨nodeBelow.le, above.le⟩))]
        simp [nodeBelow.not_ge, nodeBelow.not_gt, nodeBelow.ne, above,
          above.le, above.ne']
      · rw [endMeets nodeLevel]
        simp [nodeLevel, above, above.le, above.ne']
      · simp [above, above.le, above.ne', nodeAbove, nodeAbove.le,
          nodeAbove.ne']

/-- Off the boundary of a polygon both tests have the same answer. -/
theorem isInPolygon_eq_pnpoly (poly : List (MapXyz K)) (px py : K)
    (off : ∀ edge ∈ edges poly,
      ¬OnSegment ⟨px, py⟩ edge.1.toNode edge.2.toNode) :
    isInPolygon ⟨px, py⟩ (poly.map MapXyz.toNode) = pnpoly poly px py := by
  have differ : parity (fun edge =>
        isRayCrossSeg ⟨px, py⟩ edge.1.toNode edge.2.toNode ^^
          crossesEdge edge.2 edge.1 px py) (edges poly) = false := by
    rw [parity_congr fun edge mem =>
      isRayCrossSeg_xor_crossesEdge (off edge mem)]
    exact parity_change (fun node => onRay ⟨px, py⟩ node.toNode) poly
  rw [parity_xor] at differ
  rw [isInPolygon_eq, edges_map, parity_map, pnpoly_eq]
  exact bne_eq_false_iff_eq.mp differ

end Tests

/-- A triangle for examples. -/
def triangleNodes : List (MapXyz ℚ) :=
  [⟨0, -1, 0⟩, ⟨2, 0, 0⟩, ⟨0, 1, 0⟩]

/-- A point at the height of a corner of the triangle. -/
theorem isInPolygon_eq_pnpoly_triangle :
    isInPolygon ⟨1, 0⟩ (triangleNodes.map MapXyz.toNode) =
      pnpoly triangleNodes 1 0 := by
  apply isInPolygon_eq_pnpoly
  intro edge mem
  simp only [triangleNodes, edges, edgesFrom, List.getLast?_cons,
    List.getLast?_nil, Option.getD_some, Option.getD_none, List.mem_cons,
    List.not_mem_nil, or_false] at mem
  obtain rfl | rfl | rfl := mem
  · rintro ⟨part, nonneg, le, column, row⟩
    simp [MapXyz.toNode] at column row
  · rintro ⟨part, nonneg, le, column, row⟩
    simp [MapXyz.toNode] at column row
    linarith
  · rintro ⟨part, nonneg, le, column, row⟩
    simp [MapXyz.toNode] at column row
    linarith

end Hdmap
end Pilot2Cloud
