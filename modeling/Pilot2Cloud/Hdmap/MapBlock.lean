import Pilot2Cloud.Foundation.Truncation

/-!
# The block map

A map divides a rectangle into cells of equal size.  Every cell has the height
of what stands on it, if the file tells, and the number of the restriction area
that was recorded for it when the file was loaded.  What is computed with the
numbers of the program is written with their operations alone.
-/

namespace Pilot2Cloud
namespace Hdmap

open Foundation

/-- `PF_MAP_XYZ_ST`. -/
structure MapXyz (K : Type*) where
  x : K
  y : K
  z : K

/-- `PF_MAP_AREA_ST`, without the members that are only logged. -/
structure MapArea (K : Type*) where
  nodeI : Nat
  nodeCount : Nat
  heightLimit : K
  minX : K
  minY : K
  maxX : K
  maxY : K

/-- The members of `PF_MAP_BLOCK_ST` that a `<block>` line sets.  The cell has
no height if `zI` is not positive. -/
structure BlockHeight where
  zI : Int16
  zmaxMm : Int32

/-- What the lines of a map file say, before the areas are recorded for the
cells. -/
structure MapInfo (K : Type*) where
  blockMin : MapXyz K
  blockSize : MapXyz K
  blockCountX : Int
  blockCountY : Int
  /-- The counts are of type `S32`. -/
  countsFit : blockCountX < 2 ^ 31 ∧ blockCountY < 2 ^ 31
  node : List (MapXyz K)
  restriction : List (MapArea K)
  block : Int → Int → BlockHeight

/-- A map with the areas recorded for its cells: number 0 is none and number
`k + 1` is `pstRestriction[k]`. -/
structure LoadedMap (K : Type*) extends MapInfo K where
  resdictionI : Int → Int → Int8

/-- The counts of a grid of one cell. -/
theorem oneCell_countsFit : (1 : Int) < 2 ^ 31 ∧ (1 : Int) < 2 ^ 31 := by
  decide

/-- Cell `pblock[j][i]` exists. -/
structure MapInfo.InGrid {K : Type*} (map : MapInfo K) (j i : Int) :
    Prop where
  rowNonneg : 0 ≤ j
  row : j < map.blockCountY
  columnNonneg : 0 ≤ i
  column : i < map.blockCountX

section Numbers

variable {K : Type*} [Arithmetic K]

/-- The height of a cell without one, and of a no-fly cell; the least coordinates
of no nodes. -/
@[simp] abbrev unknownHeight : K := 9999999999 / 10

/-- A height in millimetres as a height in metres. -/
def heightOfMm (zmaxMm : Int32) : K :=
  (zmaxMm.toInt : K) / 1000

variable [ToSigned32 K]

/-- `S32((value - origin + size / 2) / size)`, undefined for size zero. -/
def roundedIndex (origin size value : K) : Option Int :=
  if size = 0 then none
  else toSigned32 ((value - origin + size / (2 : ℕ)) / size)

end Numbers

section Areas

variable {K : Type*} [Arithmetic K]

/-- `RESTRICT_NO_FLY`. -/
@[simp] abbrev restrictNoFly : K := -1

/-- It is not allowed to fly in the area. -/
def MapArea.NoFly (area : MapArea K) : Prop :=
  area.heightLimit = restrictNoFly

instance (area : MapArea K) : Decidable area.NoFly :=
  inferInstanceAs (Decidable (_ = _))

/-- The test of `pnpoly` for the edge between two consecutive nodes. -/
def crossesEdge (node previous : MapXyz K) (px py : K) : Bool :=
  decide (py < node.y) != decide (py < previous.y) &&
    px < (previous.x - node.x) * (py - node.y) / (previous.y - node.y) +
      node.x

/-- The loop of `pnpoly`. -/
def pnpolyFrom (px py : K) : MapXyz K → List (MapXyz K) → Bool → Bool
  | _, [], c => c
  | previous, node :: poly, c =>
      pnpolyFrom px py node poly
        (if crossesEdge node previous px py then !c else c)

/-- `pnpoly`. -/
def pnpoly (poly : List (MapXyz K)) (px py : K) : Bool :=
  match poly.getLast? with
  | none => false
  | some last => pnpolyFrom px py last poly false

/-- The nodes `pstNode + parea.node_i` up to `parea.node_count`. -/
def MapInfo.polygon (map : MapInfo K) (area : MapArea K) :
    List (MapXyz K) :=
  (map.node.drop area.nodeI).take area.nodeCount

/-- `check_in_area`. -/
def checkInArea (map : MapInfo K) (px py : K) (parea : MapArea K) : Bool :=
  if px < parea.minX ∨ parea.maxX < px ∨ py < parea.minY ∨
      parea.maxY < py then
    false
  else pnpoly (map.polygon parea) px py

/-- One of the four corners of a cell is in the area. -/
def cornerInArea (map : MapInfo K) (j i : Int) (area : MapArea K) : Bool :=
  let dby := map.blockMin.y + map.blockSize.y * j
  let dbx := map.blockMin.x + map.blockSize.x * i
  checkInArea map dbx dby area ||
    checkInArea map (dbx + map.blockSize.x) dby area ||
    checkInArea map (dbx + map.blockSize.x) (dby + map.blockSize.y) area ||
    checkInArea map dbx (dby + map.blockSize.y) area

/-- `pstRestriction[k]`, undefined outside of the array. -/
def restrictionAt (restriction : List (MapArea K)) (k : Int) :
    Option (MapArea K) :=
  if k < 0 then none else restriction[k.toNat]?

/-- The number recorded for a cell after area `k` has been compared with it. -/
def recordArea (restriction : List (MapArea K)) (corner : MapArea K → Bool)
    (resdictionI : Int8) (area : MapArea K) (k : Nat) : Option Int8 :=
  if corner area then
    if resdictionI = 0 ∨ area.NoFly then some (.ofInt (k + 1))
    else
      match restrictionAt restriction (resdictionI.toInt - 1) with
      | none => none
      | some recorded =>
          if recorded.heightLimit < area.heightLimit then
            some (.ofInt (k + 1))
          else some resdictionI
  else some resdictionI

/-- The number recorded for a cell at last. -/
def recordAreas (restriction : List (MapArea K)) (corner : MapArea K → Bool) :
    Option Int8 :=
  restriction.zipIdx.foldlM
    (fun resdictionI indexed =>
      recordArea restriction corner resdictionI indexed.1 indexed.2)
    0

/-- The cells of the grid, by row and column. -/
def MapInfo.cells (map : MapInfo K) : List (Int × Int) :=
  (Int.range 0 map.blockCountY).product (Int.range 0 map.blockCountX)

/-- The map with a number recorded for every cell. -/
def MapInfo.withNumbers (map : MapInfo K) : LoadedMap K :=
  { map with resdictionI := fun j i =>
      (recordAreas map.restriction (cornerInArea map j i)).getD 0 }

/-- `set_map_block_area`, undefined if the number recorded for a cell is used to
read outside of the array. -/
def setMapBlockArea (map : MapInfo K) : Option (LoadedMap K) :=
  if ∀ cell ∈ map.cells,
      (recordAreas map.restriction
        (cornerInArea map cell.1 cell.2)).isSome then
    some map.withNumbers
  else none

end Areas

end Hdmap
end Pilot2Cloud
