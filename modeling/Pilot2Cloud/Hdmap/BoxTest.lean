import Pilot2Cloud.Hdmap.BoundingBox

/-!
# The test with the box

`check_in_area` compares a point with the box of an area before `pnpoly` counts
the edges.  At the height of a point an even number of edges changes its side, so
beside the box the answers agree if and only if an even number of these is met,
as computed, on the other side of the point than the box.
-/

namespace Pilot2Cloud
namespace Hdmap

open Foundation ClosedChain

section Computation

variable {K : Type*} [Arithmetic K]

/-- The box that is stored for the area does not have the point. -/
def MapArea.Rejects (area : MapArea K) (px py : K) : Prop :=
  px < area.minX ∨ area.maxX < px ∨ py < area.minY ∨ area.maxY < py

/-- One end of the edge is above the height and the other is not. -/
def straddles (py : K) (edge : MapXyz K × MapXyz K) : Bool :=
  decide (py < edge.1.y) ^^ decide (py < edge.2.y)

/-- Where the edge meets the height, as `pnpoly` computes it. -/
def crossing (py : K) (edge : MapXyz K × MapXyz K) : K :=
  (edge.1.x - edge.2.x) * (py - edge.2.y) / (edge.1.y - edge.2.y) + edge.2.x

/-- Beside the box an even number of edges meets the height, as computed, on the
other side of the point. -/
structure EvenBeyond (area : MapArea K) (poly : List (MapXyz K)) (px py : K) :
    Prop where
  left : px < area.minX →
    parity (fun edge => straddles py edge && !decide (px < crossing py edge))
      (edges poly) = false
  right : area.maxX < px →
    parity (fun edge => straddles py edge && decide (px < crossing py edge))
      (edges poly) = false

theorem pnpoly_eq_straddles (poly : List (MapXyz K)) (px py : K) :
    pnpoly poly px py =
      parity (fun edge => straddles py edge && decide (px < crossing py edge))
        (edges poly) := by
  rw [pnpoly_eq]
  apply parity_congr
  intro edge _
  rw [straddles, Bool.xor_comm]
  rfl

/-- `pnpoly` could count the edges on the left as well. -/
theorem parity_left_eq_pnpoly (poly : List (MapXyz K)) (px py : K) :
    parity (fun edge => straddles py edge && !decide (px < crossing py edge))
      (edges poly) = pnpoly poly px py := by
  have isEven : parity (fun edge =>
      (straddles py edge && !decide (px < crossing py edge)) ^^
        (straddles py edge && decide (px < crossing py edge)))
      (edges poly) = false := by
    rw [← parity_change (fun node => decide (py < node.y)) poly]
    apply parity_congr
    intro edge _
    rw [← Bool.and_xor_distrib_left, Bool.not_xor_self, Bool.and_true]
    rfl
  rw [parity_xor, ← pnpoly_eq_straddles] at isEven
  exact bne_eq_false_iff_eq.mp isEven

variable {map : MapInfo K} {area : MapArea K} {px py : K}

/-- An area whose box rejects the point is not tested further. -/
theorem checkInArea_of_rejects (rejects : area.Rejects px py) :
    checkInArea map px py area = false :=
  if_pos rejects

/-- An area whose box accepts the point is decided by its polygon. -/
theorem checkInArea_of_not_rejects (accepts : ¬area.Rejects px py) :
    checkInArea map px py area = pnpoly (map.polygon area) px py :=
  if_neg accepts

/-- If `pnpoly` finds no point above or below the box, both answers agree if and
only if the edges beyond a point beside it are even. -/
theorem checkInArea_eq_pnpoly_iff
    (atHeight : py < area.minY ∨ area.maxY < py →
      pnpoly (map.polygon area) px py = false) :
    checkInArea map px py area = pnpoly (map.polygon area) px py ↔
      EvenBeyond area (map.polygon area) px py := by
  by_cases rejects : area.Rejects px py
  · rw [checkInArea_of_rejects rejects, eq_comm]
    constructor
    · intro isOutside
      constructor
      · intro _
        rw [parity_left_eq_pnpoly, isOutside]
      · intro _
        rw [← pnpoly_eq_straddles, isOutside]
    · intro even
      obtain left | right | height := rejects
      · rw [← parity_left_eq_pnpoly, even.left left]
      · rw [pnpoly_eq_straddles, even.right right]
      · exact atHeight height
  · rw [checkInArea_of_not_rejects rejects]
    refine iff_of_true rfl ⟨?_, ?_⟩
    · intro left
      exact absurd (.inl left) rejects
    · intro right
      exact absurd (.inr (.inl right)) rejects

end Computation

/-! ## Doubles -/

section Doubles

variable {area : MapArea Binary64} {poly : List (MapXyz Binary64)}
  {px py : Binary64}

/-- An edge whose end has no height is met nowhere. -/
theorem crossing_of_nan {edge : MapXyz Binary64 × MapXyz Binary64}
    (isNan : edge.1.y = .nan ∨ edge.2.y = .nan) :
    crossing py edge = .nan := by
  unfold crossing
  obtain isNan | isNan := isNan <;> rw [isNan] <;> simp

/-- `pnpoly` finds no point above or below a box around all nodes. -/
theorem pnpoly_of_height (inBox : ∀ node ∈ poly, InBox area node)
    (outside : py < area.minY ∨ area.maxY < py) :
    pnpoly poly px py = false := by
  rw [pnpoly_eq_straddles]
  apply parity_of_none
  intro edge mem
  obtain ⟨first, second⟩ := mem_of_mem_edges mem
  obtain below | above := outside
  · by_cases isNan : edge.1.y = .nan ∨ edge.2.y = .nan
    · rw [crossing_of_nan isNan, decide_eq_false BinaryFloat.not_lt_nan,
        Bool.and_false]
    · rw [not_or] at isNan
      have firstAbove : py < edge.1.y :=
        (BinaryFloat.lt_or_lt below isNan.1).resolve_right (inBox _ first).bottom
      have secondAbove : py < edge.2.y :=
        (BinaryFloat.lt_or_lt below isNan.2).resolve_right
          (inBox _ second).bottom
      rw [straddles, decide_eq_true firstAbove, decide_eq_true secondAbove]
      rfl
  · have notAbove : ∀ node ∈ poly, ¬py < node.y := by
      intro node mem isAbove
      exact (inBox node mem).top (BinaryFloat.lt_trans above isAbove)
    rw [straddles, decide_eq_false (notAbove _ first),
      decide_eq_false (notAbove _ second)]
    rfl

/-- A node with the coordinates of another as exact numbers. -/
structure IsExact (node : MapXyz Binary64) (exact : MapXyz ℚ) : Prop where
  x : node.x.exact = some exact.x
  y : node.y.exact = some exact.y

/-- All coordinates are finite, and the point is inside of the polygon of the
exact nodes when nothing is rounded. -/
def ExactlyInside (poly : List (MapXyz Binary64)) (px py : Binary64) : Prop :=
  ∃ exact, List.Forall₂ IsExact poly exact ∧ ∃ x ∈ px.exact, ∃ y ∈ py.exact,
    pnpoly exact x y = true

theorem exists_isExact {exact : List (MapXyz ℚ)} {other : MapXyz ℚ}
    (isExact : List.Forall₂ IsExact poly exact) (mem : other ∈ exact) :
    ∃ node ∈ poly, IsExact node other := by
  induction isExact with
  | nil => cases mem
  | cons same _ inductionHypothesis =>
      obtain rfl | mem := List.mem_cons.mp mem
      · exact ⟨_, List.mem_cons_self, same⟩
      · obtain ⟨node, isNode, same⟩ := inductionHypothesis mem
        exact ⟨node, List.mem_cons_of_mem _ isNode, same⟩

section Bounds

variable {bound point coordinate : Binary64} {place other : ℚ}

/-- What is less than a lower bound of a coordinate is less than this. -/
theorem exact_lt_of_lt_bound (isLess : point < bound)
    (isBound : ¬coordinate < bound) (isPlace : point.exact = some place)
    (isOther : coordinate.exact = some other) : place < other := by
  have isNumber := BinaryFloat.ne_nan_of_exact isOther
  have beyond : point < coordinate :=
    (BinaryFloat.lt_or_lt isLess isNumber).resolve_right isBound
  exact (BinaryFloat.exact_lt_iff isPlace isOther).mp beyond

theorem exact_lt_of_bound_lt (isMore : bound < point)
    (isBound : ¬bound < coordinate) (isPlace : point.exact = some place)
    (isOther : coordinate.exact = some other) : other < place := by
  have isNumber := BinaryFloat.ne_nan_of_exact isOther
  have before : coordinate < point :=
    (BinaryFloat.lt_or_lt isMore isNumber).resolve_left isBound
  exact (BinaryFloat.exact_lt_iff isOther isPlace).mp before

end Bounds

/-- A box around all nodes rejects no point of the polygon. -/
theorem ExactlyInside.not_rejects (inside : ExactlyInside poly px py)
    (inBox : ∀ node ∈ poly, InBox area node) : ¬area.Rejects px py := by
  obtain ⟨exact, isExact, x, isX, y, isY, inside⟩ := inside
  intro rejects
  have outside : pnpoly exact x y = false := by
    apply pnpoly_eq_false
    obtain left | right | below | above := rejects
    · refine .inl fun other mem => ?_
      obtain ⟨node, isNode, same⟩ := exists_isExact isExact mem
      exact exact_lt_of_lt_bound left (inBox node isNode).left isX same.x
    · refine .inr (.inl fun other mem => ?_)
      obtain ⟨node, isNode, same⟩ := exists_isExact isExact mem
      exact exact_lt_of_bound_lt right (inBox node isNode).right isX same.x
    · refine .inr (.inr (.inl fun other mem => ?_))
      obtain ⟨node, isNode, same⟩ := exists_isExact isExact mem
      exact exact_lt_of_lt_bound below (inBox node isNode).bottom isY same.y
    · refine .inr (.inr (.inr fun other mem => ?_))
      obtain ⟨node, isNode, same⟩ := exists_isExact isExact mem
      exact exact_lt_of_bound_lt above (inBox node isNode).top isY same.y
  rw [outside] at inside
  cases inside

/-- For every area of a map that was loaded the box rejects no point of the
polygon, and its test agrees with `pnpoly` alone if and only if the edges beyond a
point beside the box are even. -/
theorem checkInArea_of_loaded {scan : Scanner Binary64} {malloc : Int → Bool}
    {file : Text} {map : LoadedFile Binary64}
    (loaded : getMapInfo scan malloc (some file) = .loaded map)
    (kind : AreaKind) (area : AreaRecord Binary64)
    (stored : area ∈ map.areas kind) (px py : Binary64) :
    (ExactlyInside (map.polygon area.toMapArea) px py →
        ¬area.toMapArea.Rejects px py) ∧
      (checkInArea map.toMapInfo px py area.toMapArea =
          pnpoly (map.polygon area.toMapArea) px py ↔
        EvenBeyond area.toMapArea (map.polygon area.toMapArea) px py) := by
  have boxed := boxed_of_loaded loaded kind area stored
  constructor
  · intro inside
    exact inside.not_rejects boxed.covered
  · exact checkInArea_eq_pnpoly_iff (pnpoly_of_height boxed.covered)

/-- The points of an area with an edge on the left of the others. -/
def longTriangleLines : Text :=
  "<points id=\"7\">\n".toList ++
    "<node x=\"0.1\" y=\"0\" z=\"0\"/>\n".toList ++
    "<node x=\"450000\" y=\"1\" z=\"0\"/>\n".toList ++
    "<node x=\"0.1\" y=\"1\" z=\"0\"/>\n".toList ++
    "</points>\n".toList

/-- A file with one cell and an area in the form of a long triangle. -/
def longTriangleFile : Text :=
  oneCellLines ++ noFlyAreaLines ++ longTriangleLines

theorem longTriangle_loaded :
    ∃ map, getMapInfo doubleScanner (fun _ => true) (some longTriangleFile) =
      .loaded map := by
  apply LoadResult.exists_of_isLoaded
  decide +kernel

theorem checkInArea_of_loaded_longTriangle :
    ∃ map, getMapInfo doubleScanner (fun _ => true) (some longTriangleFile) =
        .loaded map ∧
      ∀ kind, ∀ area ∈ map.areas kind, ∀ px py,
        (ExactlyInside (map.polygon area.toMapArea) px py →
            ¬area.toMapArea.Rejects px py) ∧
          (checkInArea map.toMapInfo px py area.toMapArea =
              pnpoly (map.polygon area.toMapArea) px py ↔
            EvenBeyond area.toMapArea (map.polygon area.toMapArea) px py) := by
  obtain ⟨map, loaded⟩ := longTriangle_loaded
  exact ⟨map, loaded, checkInArea_of_loaded loaded⟩

/-- A point at the least place that the long edge of the triangle is computed to
meet its height at, a little on the left of the triangle. -/
def besideLongTriangle : Binary64 :=
  .ofExact (1717986918 / 2 ^ 34)

/-- `pnpoly` counts one of the two edges that meet in the corner, and the box does
not have the point. -/
theorem checkInArea_ne_pnpoly_longTriangle :
    ∃ map, getMapInfo doubleScanner (fun _ => true) (some longTriangleFile) =
        .loaded map ∧
      ∃ area ∈ map.areas .restriction,
        checkInArea map.toMapInfo besideLongTriangle 0 area.toMapArea = false ∧
          pnpoly (map.polygon area.toMapArea) besideLongTriangle 0 = true := by
  have differ : (match getMapInfo doubleScanner (fun _ => true)
        (some longTriangleFile) with
      | .loaded map => (map.areas .restriction).any fun area =>
          !checkInArea map.toMapInfo besideLongTriangle 0 area.toMapArea &&
            pnpoly (map.polygon area.toMapArea) besideLongTriangle 0
      | _ => false) = true := by
    decide +kernel
  obtain ⟨map, loaded⟩ := longTriangle_loaded
  rw [loaded] at differ
  obtain ⟨area, mem, differ⟩ := List.any_eq_true.mp differ
  rw [Bool.and_eq_true, Bool.not_eq_true'] at differ
  exact ⟨map, loaded, area, mem, differ⟩

end Doubles

end Hdmap
end Pilot2Cloud
