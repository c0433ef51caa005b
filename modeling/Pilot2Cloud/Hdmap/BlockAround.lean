import Pilot2Cloud.Hdmap.Restriction

/-!
# The check around a point

`check_block_around` looks at all cells of the grid with indices in a window
around a point.  The window contains the cell of every point of the square
around it, so a cell that is too high is reported from every point of it and
near it.
-/

namespace Pilot2Cloud
namespace Hdmap

open Foundation

/-- `RET_ERR`, `RET_OVER` and `RET_OK`: the check fails, there is no block, or
there is one. -/
inductive Ret
  | err
  | over
  | ok
  deriving DecidableEq, Repr

section Numbers

variable {K : Type*} [Arithmetic K]

/-- The height of what stands on a cell. -/
def MapInfo.ground (map : MapInfo K) (j i : Int) : K :=
  if 0 < (map.block j i).zI then heightOfMm (map.block j i).zmaxMm
  else unknownHeight

/-- The variable `blockz` of `check_block_around` for a cell. -/
def LoadedMap.blockz (map : LoadedMap K) (j i : Int) (z : K) : K :=
  match map.recorded j i with
  | none => map.ground j i
  | some area =>
      if area.NoFly then unknownHeight
      else if z < area.heightLimit then area.heightLimit
      else map.ground j i

/-- The indices of the cells that are looked at, before they are cut to the
grid. -/
structure Window where
  xiMin : Int
  yiMin : Int
  xiMax : Int
  yiMax : Int

variable [ToSigned32 K]

/-- `S32((value - origin) / size)`, undefined for size zero. -/
def cellIndex (origin size value : K) : Option Int :=
  if size = 0 then none else toSigned32 ((value - origin) / size)

/-- The cells around a place, if all four quotients can be converted. -/
def MapInfo.window (map : MapInfo K) (x y disXy : K) : Option Window := do
  let xiMin ← cellIndex map.blockMin.x map.blockSize.x (x - disXy)
  let yiMin ← cellIndex map.blockMin.y map.blockSize.y (y - disXy)
  let xiMax ← cellIndex map.blockMin.x map.blockSize.x (x + disXy)
  let yiMax ← cellIndex map.blockMin.y map.blockSize.y (y + disXy)
  some ⟨xiMin, yiMin, xiMax, yiMax⟩

/-- The window lies beside the grid. -/
def MapInfo.Outside (map : MapInfo K) (window : Window) : Prop :=
  map.blockCountX ≤ window.xiMin ∨ window.xiMax < 0 ∨
    map.blockCountY ≤ window.yiMin ∨ window.yiMax < 0

instance (map : MapInfo K) (window : Window) :
    Decidable (map.Outside window) :=
  inferInstanceAs (Decidable (_ ∨ _ ∨ _ ∨ _))

/-- The cells of the window that are in the grid. -/
def MapInfo.windowCells (map : MapInfo K) (window : Window) :
    List (Int × Int) :=
  (Int.range (max window.yiMin 0)
      (min window.yiMax (map.blockCountY - 1) + 1)).product
    (Int.range (max window.xiMin 0)
      (min window.xiMax (map.blockCountX - 1) + 1))

/-- `check_block_around`, undefined if an index does not fit. -/
def checkBlockAround (map : LoadedMap K) (x y z disXy disZ : K) :
    Option Ret := do
  let zmin := z - disZ
  let window ← map.window x y disXy
  if map.Outside window then
    some .err
  else if ∃ cell ∈ map.windowCells window,
      zmin < map.blockz cell.1 cell.2 z then
    some .ok
  else some .over

/-- The cell is an obstacle or restricted for an aircraft at height `z` that
keeps the vertical distance. -/
def LoadedMap.Blocks (map : LoadedMap K) (j i : Int) (z disZ : K) : Prop :=
  z - disZ < map.blockz j i z

omit [Arithmetic K] [ToSigned32 K] in
/-- The cells of the window are the cells of its clamped row and column
ranges. -/
theorem MapInfo.mem_windowCells {map : MapInfo K} {window : Window}
    {j i : Int} :
    (j, i) ∈ map.windowCells window ↔
      (max window.yiMin 0 ≤ j ∧ j < min window.yiMax (map.blockCountY - 1) + 1) ∧
        max window.xiMin 0 ≤ i ∧
          i < min window.xiMax (map.blockCountX - 1) + 1 := by
  rw [windowCells, List.pair_mem_product, Int.mem_range_iff,
    Int.mem_range_iff]

/-- The check reports every cell of the grid that blocks and is between the
corners of the window. -/
theorem eq_ok_of_between {map : LoadedMap K} {x y z disXy disZ : K}
    {ret : Ret} {j i : Int}
    (checks : checkBlockAround map x y z disXy disZ = some ret)
    (inGrid : map.InGrid j i) (blocks : map.Blocks j i z disZ)
    (between : ∀ window, map.window x y disXy = some window →
      window.xiMin ≤ i ∧ window.yiMin ≤ j ∧ i ≤ window.xiMax ∧
        j ≤ window.yiMax) : ret = .ok := by
  simp only [checkBlockAround, Option.bind_eq_bind,
    Option.bind_eq_some_iff] at checks
  obtain ⟨window, defined, checks⟩ := checks
  obtain ⟨xiMin, yiMin, xiMax, yiMax⟩ := between window defined
  obtain ⟨rowNonneg, row, columnNonneg, column⟩ := inGrid
  have mem : (j, i) ∈ map.windowCells window := by
    rw [MapInfo.mem_windowCells]
    omega
  have inside : ¬map.Outside window := by
    rw [MapInfo.Outside]
    omega
  rw [if_neg inside, if_pos ⟨(j, i), mem, blocks⟩, Option.some_inj] at checks
  exact checks.symm

end Numbers

variable {K : Type*} [Field K] [LinearOrder K] [FloorRing K]

/-- The point is in the cell. -/
structure MapInfo.InCell (map : MapInfo K) (j i : Int) (x y : K) : Prop where
  column : InInterval map.blockMin.x map.blockSize.x i x
  row : InInterval map.blockMin.y map.blockSize.y j y

/-! ## The window -/

theorem eq_truncate_of_cellIndex {origin size value : K} {index : Int}
    (defined : cellIndex origin size value = some index) :
    index = truncate ((value - origin) / size) := by
  rw [cellIndex, Option.ite_none_left_eq_some] at defined
  exact eq_truncate_of_toSigned32 defined.2

namespace MapInfo

variable {map : MapInfo K} {window : Window} {x y disXy : K} {j i : Int}

/-- The window is made of the indices of the corners of the square. -/
theorem eq_of_window (defined : map.window x y disXy = some window) :
    window.xiMin = truncate
        ((x - disXy - map.blockMin.x) / map.blockSize.x) ∧
      window.yiMin = truncate
        ((y - disXy - map.blockMin.y) / map.blockSize.y) ∧
      window.xiMax = truncate
        ((x + disXy - map.blockMin.x) / map.blockSize.x) ∧
      window.yiMax = truncate
        ((y + disXy - map.blockMin.y) / map.blockSize.y) := by
  simp only [MapInfo.window, Option.bind_eq_bind, Option.bind_eq_some_iff,
    Option.some_inj] at defined
  obtain ⟨xiMin, left, yiMin, bottom, xiMax, right, yiMax, top, rfl⟩ := defined
  exact ⟨eq_truncate_of_cellIndex left, eq_truncate_of_cellIndex bottom,
    eq_truncate_of_cellIndex right, eq_truncate_of_cellIndex top⟩

variable [IsStrictOrderedRing K]

/-- A cell of the grid with a point of the square is between the corners of the
window. -/
theorem between_of_near {otherX otherY : K}
    (defined : map.window x y disXy = some window) (inGrid : map.InGrid j i)
    (inCell : map.InCell j i otherX otherY) (nearX : |otherX - x| ≤ disXy)
    (nearY : |otherY - y| ≤ disXy) :
    window.xiMin ≤ i ∧ window.yiMin ≤ j ∧ i ≤ window.xiMax ∧
      j ≤ window.yiMax := by
  obtain ⟨left, bottom, right, top⟩ := eq_of_window defined
  rw [abs_le] at nearX nearY
  refine ⟨?_, ?_, ?_, ?_⟩
  · rw [left]
    exact inCell.column.truncate_le inGrid.columnNonneg (by linarith)
  · rw [bottom]
    exact inCell.row.truncate_le inGrid.rowNonneg (by linarith)
  · rw [right]
    exact inCell.column.le_truncate inGrid.columnNonneg (by linarith)
  · rw [top]
    exact inCell.row.le_truncate inGrid.rowNonneg (by linarith)

/-- The number of an interval with a value of it. -/
theorem cellIndex_of_inInterval {origin size value : K} {index : Int}
    (inside : InInterval origin size index value) (nonneg : 0 ≤ index)
    (fits : index < 2 ^ 31) : cellIndex origin size value = some index := by
  have number := inside.truncate_eq nonneg
  rw [cellIndex, if_neg inside.width_pos.ne', toSigned32_of_fits, number]
  · omega
  · omega

/-- With distance zero only the cell of the point is in the window. -/
theorem eq_of_mem_windowCells {otherJ otherI : Int}
    (defined : map.window x y 0 = some window) (inGrid : map.InGrid j i)
    (inCell : map.InCell j i x y)
    (mem : (otherJ, otherI) ∈ map.windowCells window) :
    otherJ = j ∧ otherI = i := by
  obtain ⟨left, bottom, right, top⟩ := eq_of_window defined
  rw [sub_zero, inCell.column.truncate_eq inGrid.columnNonneg] at left
  rw [sub_zero, inCell.row.truncate_eq inGrid.rowNonneg] at bottom
  rw [add_zero, inCell.column.truncate_eq inGrid.columnNonneg] at right
  rw [add_zero, inCell.row.truncate_eq inGrid.rowNonneg] at top
  rw [mem_windowCells] at mem
  omega

end MapInfo

/-! ## What is reported -/

/-- A check with distance zero at a point of the grid is defined. -/
theorem exists_checkBlockAround [IsStrictOrderedRing K] {map : LoadedMap K}
    {x y : K} {j i : Int} (inGrid : map.InGrid j i)
    (inCell : map.InCell j i x y) (z disZ : K) :
    ∃ ret, checkBlockAround map x y z 0 disZ = some ret := by
  have column : cellIndex map.blockMin.x map.blockSize.x x = some i :=
    MapInfo.cellIndex_of_inInterval inCell.column inGrid.columnNonneg
      (inGrid.column.trans map.countsFit.1)
  have row : cellIndex map.blockMin.y map.blockSize.y y = some j :=
    MapInfo.cellIndex_of_inInterval inCell.row inGrid.rowNonneg
      (inGrid.row.trans map.countsFit.2)
  have defined : map.window x y 0 = some ⟨i, j, i, j⟩ := by
    simp [MapInfo.window, column, row]
  simp only [checkBlockAround, defined, Option.bind_eq_bind,
    Option.bind_some]
  split
  · exact ⟨_, rfl⟩
  · split <;> exact ⟨_, rfl⟩

variable {map : LoadedMap K} {x y z disXy disZ : K} {j i : Int} {ret : Ret}

/-- The check reports every cell of the grid that blocks and has a point of the
square around the point. -/
theorem eq_ok_of_blocks [IsStrictOrderedRing K] {otherX otherY : K}
    (checks : checkBlockAround map x y z disXy disZ = some ret)
    (inGrid : map.InGrid j i) (inCell : map.InCell j i otherX otherY)
    (nearX : |otherX - x| ≤ disXy) (nearY : |otherY - y| ≤ disXy)
    (blocks : map.Blocks j i z disZ) : ret = .ok := by
  apply eq_ok_of_between checks inGrid blocks
  intro window defined
  exact MapInfo.between_of_near defined inGrid inCell nearX nearY

/-- With distance zero a block is the cell of the point. -/
theorem blocks_of_eq_ok [IsStrictOrderedRing K]
    (checks : checkBlockAround map x y z 0 disZ = some .ok)
    (inGrid : map.InGrid j i) (inCell : map.InCell j i x y) :
    map.Blocks j i z disZ := by
  simp only [checkBlockAround, Option.bind_eq_bind,
    Option.bind_eq_some_iff] at checks
  obtain ⟨window, defined, checks⟩ := checks
  split at checks
  · cases checks
  · split at checks
    · next found =>
      obtain ⟨⟨otherJ, otherI⟩, mem, blocks⟩ := found
      obtain ⟨rfl, rfl⟩ :=
        MapInfo.eq_of_mem_windowCells defined inGrid inCell mem
      exact blocks
    · cases checks

end Hdmap
end Pilot2Cloud
