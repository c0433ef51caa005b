import Mathlib

/-!
# The side of a line

`pf_map_check_line_side` finds the part of a line that is nearest to a point
along one of the axes, and the side of it on which the point is.  Each part is
lengthened a little at both ends.  A point that no part faces is compared with
the line through the neighbours of the nearest node.
-/

namespace Pilot2Cloud
namespace Hdmap

/-- `PF_MAP_NODE_LINE_ST`.  If `k` and `b` are zero the line is vertical. -/
structure MapNodeLine (K : Type) where
  node_x : K
  node_y : K
  k : K
  b : K

/-- What `pf_map_check_nodeline_side` and `pf_map_check_line_side` return. -/
inductive LineSide
  | PF_MAP_ERR
  | ON_LINE
  | LEFT_SIDE
  | RIGHT_SIDE
  deriving DecidableEq

namespace LineSide

/-- The number that is returned. -/
def toS32 : LineSide → ℤ
  | PF_MAP_ERR => -2
  | ON_LINE => 0
  | LEFT_SIDE => 1
  | RIGHT_SIDE => 2

/-- The side is greater than `ON_LINE`. -/
def IsSide (side : LineSide) : Prop :=
  side = LEFT_SIDE ∨ side = RIGHT_SIDE

instance (side : LineSide) : Decidable side.IsSide :=
  inferInstanceAs (Decidable (_ ∨ _))

end LineSide

/-- The argument `direction_x`: whether the distance is horizontal, `0`, or
vertical, `1`. -/
inductive MapDirection
  | horizontal
  | vertical
  deriving DecidableEq

section Definitions

variable {K : Type} [Field K] [LinearOrder K]

/-- `DB_OFFSET`. -/
def DB_OFFSET : K := 1 / ((100000 : ℕ) : K)

/-- `ONLINE_OFFSET`. -/
def ONLINE_OFFSET : K := 1 / ((100 : ℕ) : K)

/-- One end of a part, lengthened away from the other one. -/
def lengthenStart (first second : K) : K :=
  if first < second then first - DB_OFFSET else first + DB_OFFSET

/-- The coordinate of the end of a line that is made longer. -/
def lengthenEnd (first second : K) : K :=
  if first < second then second + DB_OFFSET else second - DB_OFFSET

/-- The value is between two others, in one order or the other. -/
def BetweenEnds (pos start stop : K) : Prop :=
  start ≤ pos ∧ pos ≤ stop ∨ pos ≤ start ∧ stop ≤ pos

instance (pos start stop : K) : Decidable (BetweenEnds pos start stop) :=
  inferInstanceAs (Decidable (_ ∨ _))

/-- The value is between the lengthened ends. -/
def WithinLengthened (pos first second : K) : Prop :=
  BetweenEnds pos (lengthenStart first second) (lengthenEnd first second)

instance (pos first second : K) :
    Decidable (WithinLengthened pos first second) :=
  inferInstanceAs (Decidable (BetweenEnds _ _ _))

/-- The side of a part whose ends are `line_start` and `line_end`, at the place
`line_test`, and the distance from it. -/
def sideOfTest (direction_x : MapDirection)
    (line_test pos_test line_start line_end : K) : LineSide × K :=
  let dbdistance :=
    if pos_test < line_test then line_test - pos_test else pos_test - line_test
  let side : LineSide :=
    if dbdistance ≤ ONLINE_OFFSET then .ON_LINE
    else
      match direction_x with
      | .vertical =>
          if line_start ≤ line_end ∧ line_test < pos_test ∨
              line_end ≤ line_start ∧ pos_test < line_test then .LEFT_SIDE
          else .RIGHT_SIDE
      | .horizontal =>
          if line_start ≤ line_end ∧ pos_test < line_test ∨
              line_end ≤ line_start ∧ line_test < pos_test then .LEFT_SIDE
          else .RIGHT_SIDE
  (side, dbdistance)

/-- `pf_map_check_nodeline_side`, with the value of `distance` before the call
for where it does not set it. -/
def checkNodelineSide (pos_x pos_y : K) (start stop : MapNodeLine K)
    (direction_x : MapDirection) (distance : K) (unlimited : Bool) :
    LineSide × K :=
  let inX := WithinLengthened pos_x start.node_x stop.node_x
  let inY := WithinLengthened pos_y start.node_y stop.node_y
  let dbx0 := lengthenStart start.node_x stop.node_x
  let dbx1 := lengthenEnd start.node_x stop.node_x
  let dby0 := lengthenStart start.node_y stop.node_y
  let dby1 := lengthenEnd start.node_y stop.node_y
  if start.k = 0 then
    if start.b = 0 then
      if inX ∧ (unlimited = true ∨ inY) then (.ON_LINE, distance)
      else if direction_x = .horizontal ∧ (inY ∨ unlimited = true) then
        sideOfTest direction_x start.node_x pos_x dby0 dby1
      else (.PF_MAP_ERR, distance)
    else if (unlimited = true ∨ inX) ∧ inY then (.ON_LINE, distance)
    else if direction_x = .vertical ∧ (inX ∨ unlimited = true) then
      sideOfTest direction_x start.b pos_y dbx0 dbx1
    else (.PF_MAP_ERR, distance)
  else
    match direction_x with
    | .vertical =>
        if inX ∨ unlimited = true then
          sideOfTest direction_x (start.k * pos_x + start.b) pos_y dbx0 dbx1
        else (.PF_MAP_ERR, distance)
    | .horizontal =>
        if inY ∨ unlimited = true then
          sideOfTest direction_x ((pos_y - start.b) / start.k) pos_x dby0 dby1
        else (.PF_MAP_ERR, distance)

/-- The variables of the loops of `pf_map_check_line_side`. -/
structure SideSearch (K : Type) where
  lineside : LineSide
  distance_min : K
  dbdistance : K

/-- A part of a line. -/
abbrev LinePart (K : Type) := MapNodeLine K × MapNodeLine K

/-- The node at an index, which is less than the number of nodes. -/
def nodeAt (nodes : List (MapNodeLine K)) (index : ℕ) : MapNodeLine K :=
  nodes.getD index ⟨0, 0, 0, 0⟩

/-- The parts from a node on, the first node following the last one. -/
def lineParts (nodes : List (MapNodeLine K)) (line_i linecount : ℕ) :
    List (LinePart K) :=
  (List.range linecount).map fun i =>
    (nodeAt nodes ((line_i + i) % nodes.length),
      nodeAt nodes ((line_i + i + 1) % nodes.length))

/-- The order in which parts are checked. -/
def lineTests (nodes : List (MapNodeLine K)) (line_i linecount : ℕ) :
    List (MapDirection × LinePart K) :=
  [MapDirection.horizontal, .vertical].flatMap fun direction_x =>
    (lineParts nodes line_i linecount).map fun part => (direction_x, part)

/-- What is kept after a part, unless the point is on it. -/
def SideSearch.update (search : SideSearch K) (side : LineSide)
    (dbdistance : K) : SideSearch K :=
  if side.IsSide ∧ (dbdistance < search.distance_min ∨
      search.distance_min = 0) then
    ⟨side, dbdistance, dbdistance⟩
  else { search with dbdistance := dbdistance }

/-- The two loops, which end with nothing if the point is on a part. -/
def sideLoop (pos_x pos_y : K) :
    List (MapDirection × LinePart K) → SideSearch K → Option (SideSearch K)
  | [], search => some search
  | (direction_x, part) :: tests, search =>
      let result := checkNodelineSide pos_x pos_y part.1 part.2 direction_x
        search.dbdistance false
      if result.1 = .ON_LINE then none
      else sideLoop pos_x pos_y tests (search.update result.1 result.2)

/-! ### A point that no part faces -/

/-- The square of the distance from a node. -/
def nodeDistance (pos_x pos_y : K) (node : MapNodeLine K) : K :=
  (node.node_x - pos_x) * (node.node_x - pos_x) +
    (node.node_y - pos_y) * (node.node_y - pos_y)

/-- The loop for the nearest node: its index and its distance. -/
def nearestNode (pos_x pos_y : K) (nodes : List (MapNodeLine K)) :
    List ℕ → ℕ × K → ℕ × K
  | [], nearest => nearest
  | j :: indices, (node_i, distance_min) =>
      let tmpdb := nodeDistance pos_x pos_y (nodeAt nodes j)
      nearestNode pos_x pos_y nodes indices
        (if tmpdb < distance_min ∨ distance_min = -1 then (j, tmpdb)
          else (node_i, distance_min))

/-- The side of the line from one node to another. -/
def sideOfNeighbours (pos_x pos_y : K) (pre next : MapNodeLine K) : LineSide :=
  let tmpdb := ((pos_x - pre.node_x) * next.node_y +
    (next.node_x - pos_x) * pre.node_y) / (next.node_x - pre.node_x)
  if pre.node_x < next.node_x then
    if pos_y < tmpdb then .RIGHT_SIDE
    else if tmpdb < pos_y then .LEFT_SIDE
    else .PF_MAP_ERR
  else if next.node_x < pre.node_x then
    if tmpdb < pos_y then .RIGHT_SIDE
    else if pos_y < tmpdb then .LEFT_SIDE
    else .PF_MAP_ERR
  else if pre.node_y < next.node_y then
    if pos_x < pre.node_x then .LEFT_SIDE
    else if pre.node_x < pos_x then .RIGHT_SIDE
    else .PF_MAP_ERR
  else if next.node_y < pre.node_y then
    if pre.node_x < pos_x then .LEFT_SIDE
    else if pos_x < pre.node_x then .RIGHT_SIDE
    else .PF_MAP_ERR
  else .PF_MAP_ERR

/-- What follows the loops if no part faces the point. -/
def sideOfNearestNode (pos_x pos_y : K) (nodes : List (MapNodeLine K))
    (line_i : ℕ) (linecount : ℤ) (ispolygon : Bool) : LineSide × K :=
  let indices := (List.range (linecount + 1).toNat).map fun i =>
    (line_i + i) % nodes.length
  let nearest := nearestNode pos_x pos_y nodes indices (0, -1)
  let node_i := nearest.1
  let next :=
    if node_i + 1 < nodes.length then nodeAt nodes (node_i + 1)
    else if ispolygon then nodeAt nodes 0
    else nodeAt nodes node_i
  let pre :=
    if 0 < node_i then nodeAt nodes (node_i - 1)
    else if ispolygon then nodeAt nodes (nodes.length - 1)
    else nodeAt nodes node_i
  (sideOfNeighbours pos_x pos_y pre next, nearest.2)

/-- `pf_map_check_line_side`, with the value of `pdbinstance` before the call
for where it does not set it. -/
def checkLineSide (pos_x pos_y : K) (nodes : List (MapNodeLine K))
    (line_i linecount : ℤ) (pdbinstance : K) (ispolygon : Bool) :
    LineSide × K :=
  if line_i < 0 ∨ (nodes.length : ℤ) ≤ line_i ∨
      (nodes.length : ℤ) < linecount then
    (.PF_MAP_ERR, pdbinstance)
  else
    match sideLoop pos_x pos_y
        (lineTests nodes line_i.toNat linecount.toNat) ⟨.PF_MAP_ERR, 0, 0⟩ with
    | none => (.ON_LINE, 0)
    | some search =>
        if search.lineside = .PF_MAP_ERR then
          sideOfNearestNode pos_x pos_y nodes line_i.toNat linecount ispolygon
        else (search.lineside, search.distance_min)

end Definitions
end Hdmap
end Pilot2Cloud
