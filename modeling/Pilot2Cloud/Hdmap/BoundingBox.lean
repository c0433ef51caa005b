import Pilot2Cloud.Foundation.BinaryFloat
import Pilot2Cloud.Hdmap.PolygonBinding
import Pilot2Cloud.Hdmap.PolygonTests

/-!
# The bounding box of an area

The extent of a list of points covers all of its nodes, although it starts from
fixed values.  Outside of it every edge meets the height of the point on one side
of it, so their number is even or zero and the point is outside of the polygon.

`pnpoly` computes where an edge meets the height, and the rounding can take this
place out of the box.  The test with the box then says outside where `pnpoly`
alone says inside, for a point that is outside.
-/

namespace Pilot2Cloud
namespace Hdmap

open Foundation ClosedChain

/-! ## Points beside a polygon -/

section Geometry

variable {K : Type*} [Field K] [LinearOrder K] [IsStrictOrderedRing K]

/-- A segment on the right of a point meets its height on the right. -/
theorem lt_xseg {point startPoint endPoint : PfNode K}
    (sloped : startPoint.y ≠ endPoint.y)
    (between : startPoint.y ≤ point.y ∧ point.y ≤ endPoint.y ∨
      endPoint.y ≤ point.y ∧ point.y ≤ startPoint.y)
    (startRight : point.x < startPoint.x) (endRight : point.x < endPoint.x) :
    point.x < xseg point startPoint endPoint := by
  obtain ⟨nonneg, le⟩ := part_mem sloped between
  rw [xseg_eq sloped]
  generalize (point.y - startPoint.y) / (endPoint.y - startPoint.y) = part
    at nonneg le
  rcases le_total startPoint.x endPoint.x with rises | falls
  · have forth : 0 ≤ part * (endPoint.x - startPoint.x) :=
      mul_nonneg nonneg (by linarith)
    linarith
  · have back : part * (startPoint.x - endPoint.x) ≤
        1 * (startPoint.x - endPoint.x) :=
      mul_le_mul_of_nonneg_right le (by linarith)
    linarith

/-- The height of the point is between the ends of the edge. -/
theorem between_of_straddles {node previous : MapXyz K} {py : K}
    (straddles : (decide (py < previous.y) ^^ decide (py < node.y)) = true) :
    previous.y ≠ node.y ∧
      (previous.y ≤ py ∧ py ≤ node.y ∨ node.y ≤ py ∧ py ≤ previous.y) := by
  constructor
  · intro level
    rw [level, Bool.xor_self] at straddles
    cases straddles
  · grind

/-- A point with all nodes on one side of it is not in the polygon. -/
theorem pnpoly_eq_false {poly : List (MapXyz K)} {px py : K}
    (outside : (∀ node ∈ poly, px < node.x) ∨ (∀ node ∈ poly, node.x < px) ∨
      (∀ node ∈ poly, py < node.y) ∨ ∀ node ∈ poly, node.y < py) :
    pnpoly poly px py = false := by
  rw [pnpoly_eq]
  obtain right | left | above | below := outside
  · have counts : ∀ edge ∈ edges poly, crossesEdge edge.2 edge.1 px py =
        (decide (py < edge.1.y) ^^ decide (py < edge.2.y)) := by
      intro edge mem
      obtain ⟨first, second⟩ := mem_of_mem_edges mem
      rw [crossesEdge_eq]
      cases straddles : decide (py < edge.1.y) ^^ decide (py < edge.2.y) with
      | false => rfl
      | true =>
          obtain ⟨sloped, between⟩ := between_of_straddles straddles
          have beyond : (⟨px, py⟩ : PfNode K).x <
              xseg ⟨px, py⟩ edge.1.toNode edge.2.toNode :=
            lt_xseg sloped between (right _ first) (right _ second)
          rw [Bool.true_and]
          exact decide_eq_true beyond
    rw [parity_congr counts]
    exact parity_change (fun node => decide (py < node.y)) poly
  · apply parity_of_none
    intro edge mem
    obtain ⟨first, second⟩ := mem_of_mem_edges mem
    rw [crossesEdge_eq]
    cases straddles : decide (py < edge.1.y) ^^ decide (py < edge.2.y) with
    | false => rfl
    | true =>
        obtain ⟨sloped, between⟩ := between_of_straddles straddles
        have before : xseg ⟨px, py⟩ edge.1.toNode edge.2.toNode <
            (⟨px, py⟩ : PfNode K).x :=
          xseg_lt sloped between (left _ first) (left _ second)
        rw [Bool.true_and]
        exact decide_eq_false before.not_gt
  · apply parity_of_none
    intro edge mem
    obtain ⟨first, second⟩ := mem_of_mem_edges mem
    rw [crossesEdge_eq, decide_eq_true (above _ first),
      decide_eq_true (above _ second)]
    rfl
  · apply parity_of_none
    intro edge mem
    obtain ⟨first, second⟩ := mem_of_mem_edges mem
    rw [crossesEdge_eq, decide_eq_false (below _ first).not_gt,
      decide_eq_false (below _ second).not_gt]
    rfl

end Geometry

/-! ## The boxes that are stored -/

section Loading

variable {K : Type*} [Arithmetic K]

/-- The comparisons do not find the node out of the box that is stored for the
area. -/
structure InBox (area : MapArea K) (node : MapXyz K) : Prop where
  left : ¬node.x < area.minX
  right : ¬area.maxX < node.x
  bottom : ¬node.y < area.minY
  top : ¬area.maxY < node.y

/-- The comparisons do not find the node out of the extent. -/
structure Extent.Covers (extent : Extent K) (node : MapXyz K) : Prop where
  left : ¬node.x < extent.minX
  right : ¬extent.maxX < node.x
  bottom : ¬node.y < extent.minY
  top : ¬extent.maxY < node.y

section Widening

variable [IsStrictOrder K (· < ·)]

theorem not_lt_ite_self (value bound : K) :
    ¬value < if value < bound then value else bound := by
  split
  · exact irrefl value
  · assumption

theorem not_ite_self_lt (value bound : K) :
    ¬(if bound < value then value else bound) < value := by
  split
  · exact irrefl value
  · assumption

/-- A lower bound stays one when it is made less. -/
theorem not_lt_ite {value bound : K} (isBound : ¬value < bound) (other : K) :
    ¬value < if other < bound then other else bound := by
  split
  · next isLess => exact fun passed => isBound (trans_of (· < ·) passed isLess)
  · exact isBound

theorem not_ite_lt {value bound : K} (isBound : ¬bound < value) (other : K) :
    ¬(if bound < other then other else bound) < value := by
  split
  · next isMore => exact fun passed => isBound (trans_of (· < ·) isMore passed)
  · exact isBound

/-- A widened extent covers the node that widens it. -/
theorem Extent.covers_widen (extent : Extent K) (node : MapXyz K) :
    (Loading.widen extent node).Covers node where
  left := not_lt_ite_self _ _
  right := not_ite_self_lt _ _
  bottom := not_lt_ite_self _ _
  top := not_ite_self_lt _ _

/-- Widening an extent keeps the nodes it covers. -/
theorem Extent.Covers.widen {extent : Extent K} {node : MapXyz K}
    (covers : extent.Covers node) (other : MapXyz K) :
    (Loading.widen extent other).Covers node where
  left := not_lt_ite covers.left _
  right := not_ite_lt covers.right _
  bottom := not_lt_ite covers.bottom _
  top := not_ite_lt covers.top _

/-- The extent of some nodes covers them, whatever it starts from. -/
theorem Extent.covers_foldl_widen (nodes : List (MapXyz K))
    (extent : Extent K) :
    (∀ node ∈ nodes, (nodes.foldl Loading.widen extent).Covers node) ∧
      ∀ node, extent.Covers node →
        (nodes.foldl Loading.widen extent).Covers node := by
  induction nodes generalizing extent with
  | nil => exact ⟨by simp, fun _ covers => covers⟩
  | cons first nodes inductionHypothesis =>
      obtain ⟨covered, keeps⟩ :=
        inductionHypothesis (Loading.widen extent first)
      rw [List.foldl_cons, List.forall_mem_cons]
      refine ⟨⟨keeps first (extent.covers_widen first), covered⟩, ?_⟩
      intro node covers
      exact keeps node (covers.widen first)

end Widening

/-- The nodes of the area are stored, and they are in its box. -/
structure Boxed (node : List (MapXyz K)) (area : AreaRecord K) : Prop where
  inside : area.nodeI + area.nodeCount ≤ node.length
  covered : ∀ vertex ∈ (node.drop area.nodeI).take area.nodeCount,
    InBox area.toMapArea vertex

theorem Boxed.append {node : List (MapXyz K)} {area : AreaRecord K}
    (boxed : Boxed node area) (more : List (MapXyz K)) :
    Boxed (node ++ more) area := by
  have has : HasPolygon node area (area.extrapointsID, _) :=
    ⟨rfl, boxed.inside, rfl⟩
  have kept := has.append more
  refine ⟨kept.inside, ?_⟩
  rw [kept.nodes]
  exact boxed.covered

/-- An area without nodes. -/
theorem boxed_of_empty {node : List (MapXyz K)} {area : AreaRecord K}
    (start : area.nodeI = 0) (count : area.nodeCount = 0) :
    Boxed node area := by
  constructor
  · rw [start, count]
    exact Nat.zero_le _
  · rw [count]
    intro vertex mem
    cases mem

/-- Binding a polygon to an area boxes the area by its vertices. -/
theorem Boxed.bindArea {node : List (MapXyz K)} {area : AreaRecord K}
    (boxed : Boxed node area) (id : Int) {vertices : List (MapXyz K)}
    {extent : Extent K} (covers : ∀ vertex ∈ vertices, extent.Covers vertex) :
    Boxed (node ++ vertices)
      (Loading.bindArea id node.length vertices.length extent area) := by
  rw [Loading.bindArea]
  split
  · refine ⟨by simp, ?_⟩
    simp only [List.drop_left, List.take_length]
    intro vertex mem
    obtain ⟨left, right, bottom, top⟩ := covers vertex mem
    exact ⟨left, right, bottom, top⟩
  · exact boxed.append vertices

/-- All areas that are stored have boxes around their nodes. -/
def Boxes (loading : Loading K) : Prop :=
  ∀ kind, ∀ area ∈ loading.areas kind, Boxed loading.node area

variable [ToSigned32 K] [IsStrictOrder K (· < ·)] {layout : Layout K}
  {loading next : Loading K}

/-- Every element of a file keeps the boxes of the areas. -/
theorem Boxes.takeElement {element : Element K} (boxes : Boxes loading)
    (takes : Loading.takeElement layout loading element = some next) :
    Boxes next := by
  cases element with
  | block position =>
      obtain ⟨block, rfl⟩ := Loading.eq_of_takeBlock takes
      exact boxes
  | brokenBlock => cases takes
  | points id nodes =>
      rw [Loading.eq_of_takePoints takes]
      intro kind area mem
      rw [Loading.areas_bindPoints, List.mem_map] at mem
      obtain ⟨area, mem, rfl⟩ := mem
      have bound := (boxes kind area mem).bindArea id
        (Extent.covers_foldl_widen nodes.reduceOption
          Loading.initialExtent).1
      simpa [Loading.afterNodes] using bound
  | area own members =>
      obtain ⟨progress, reads, rfl⟩ := Loading.eq_of_takeArea takes
      obtain ⟨-, start, count⟩ := eq_of_setMembers reads
      intro kind area mem
      rw [Loading.areas_pushArea, List.mem_append] at mem
      obtain mem | mem := mem
      · exact boxes kind area mem
      · split at mem
        · rw [List.mem_singleton.mp mem]
          exact boxed_of_empty start count
        · cases mem
  | badBlock | unreadable =>
      cases takes
      exact boxes

/-- The second pass stores boxes around the nodes of all areas. -/
theorem Boxes.readElements {elements : List (Element K)}
    (boxes : Boxes loading)
    (reads : Loading.readElements layout loading elements = some next) :
    Boxes next := by
  induction elements generalizing loading with
  | nil =>
      cases reads
      exact boxes
  | cons element rest inductionHypothesis =>
      by_cases bad : element = .badBlock
      · rw [bad] at reads
        exact boxes.takeElement reads
      · rw [Loading.readElements_cons bad, Option.bind_eq_some_iff] at reads
        obtain ⟨middle, takes, reads⟩ := reads
        exact inductionHypothesis (boxes.takeElement takes) reads

/-- The boxes of a map that was loaded are around the nodes of its areas. -/
theorem boxed_of_loaded {scan : Scanner K} {malloc : Int → Bool} {file : Text}
    {map : LoadedFile K}
    (loaded : getMapInfo scan malloc (some file) = .loaded map)
    (kind : AreaKind) (area : AreaRecord K) (stored : area ∈ map.areas kind) :
    Boxed map.node area := by
  obtain ⟨layout, loading, loads⟩ := loads_of_loaded loaded
  have start : Boxes (Loading.initial : Loading K) := by
    intro kind area mem
    cases mem
  have boxes := start.readElements loads.reads.1
  have nodes : map.node = loading.node := by
    rw [toMapInfo_of_loaded loads.recorded]
    rfl
  rw [nodes]
  rw [loads.areas, Layout.areaArray, List.mem_append] at stored
  obtain read | blank := stored
  · exact boxes kind area read
  · rw [List.eq_of_mem_replicate blank]
    exact boxed_of_empty rfl rfl

end Loading

end Hdmap
end Pilot2Cloud
