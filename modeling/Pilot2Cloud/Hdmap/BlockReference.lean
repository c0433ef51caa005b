import Pilot2Cloud.Hdmap.BlockAround
import Pilot2Cloud.Hdmap.HeightLookup
import Pilot2Cloud.Hdmap.Line

/-!
# The check around a point against the cells of the grid

The square around a point meets a cell when they have a point in common.  The
window of indices is made of the cells that the square meets, except in front of
the grid: a quotient between minus one and zero is truncated to the first index,
though no cell is met there.
-/

namespace Pilot2Cloud
namespace Hdmap

open Foundation

variable {K : Type*} [Field K] [LinearOrder K]

/-! ## The cells that the square meets -/

/-- The cell and the square have a point in common. -/
def LoadedMap.CellMeets (map : LoadedMap K) (j i : Int) (x y disXy : K) :
    Prop :=
  ∃ otherX otherY, map.InCell j i otherX otherY ∧
    |otherX - x| ≤ disXy ∧ |otherY - y| ≤ disXy

/-- The point is in the rectangle of the grid, which is made of its cells. -/
def LoadedMap.Covers (map : LoadedMap K) (x y : K) : Prop :=
  ∃ j i, map.InGrid j i ∧ map.InCell j i x y

/-- The rectangle of the grid and the square have a point in common. -/
def LoadedMap.MeetsGrid (map : LoadedMap K) (x y disXy : K) : Prop :=
  ∃ otherX otherY, map.Covers otherX otherY ∧
    |otherX - x| ≤ disXy ∧ |otherY - y| ≤ disXy

/-- A square meets the grid when it meets some cell of it. -/
theorem meetsGrid_iff {map : LoadedMap K} {x y disXy : K} :
    map.MeetsGrid x y disXy ↔
      ∃ j i, map.InGrid j i ∧ map.CellMeets j i x y disXy := by
  constructor
  · rintro ⟨otherX, otherY, ⟨j, i, inGrid, inCell⟩, near⟩
    exact ⟨j, i, inGrid, otherX, otherY, inCell, near⟩
  · rintro ⟨j, i, inGrid, otherX, otherY, inCell, near⟩
    exact ⟨otherX, otherY, ⟨j, i, inGrid, inCell⟩, near⟩

variable [IsStrictOrderedRing K] [FloorRing K]

/-- The interval with an index meets the interval around a value. -/
theorem exists_inInterval_iff {origin size value distance : K} {index : Int}
    (positive : 0 < size) (nonneg : 0 ≤ distance) :
    (∃ other, InInterval origin size index other ∧
        |other - value| ≤ distance) ↔
      (value - distance - origin) / size < index + 1 ∧
        index ≤ (value + distance - origin) / size := by
  rw [div_lt_iff₀ positive, le_div_iff₀ positive]
  constructor
  · rintro ⟨other, ⟨start, stop⟩, near⟩
    rw [abs_le] at near
    constructor <;> linarith
  · rintro ⟨lower, upper⟩
    -- the first value of the interval, or the first one near the value
    refine ⟨max (value - distance) (origin + size * index), ⟨?_, ?_⟩, ?_⟩
    · exact le_max_right _ _
    · apply max_lt
      · linarith
      · linarith
    · rw [abs_le]
      constructor
      · have start := le_max_left (value - distance) (origin + size * index)
        linarith
      · have before : max (value - distance) (origin + size * index) ≤
            value + distance := by
          apply max_le <;> linarith
        linarith

/-- The intervals with an index below a count make one interval. -/
theorem exists_index_iff {origin size value : K} {count : Int}
    (positive : 0 < size) :
    (∃ index : Int, (0 ≤ index ∧ index < count) ∧
        InInterval origin size index value) ↔
      origin ≤ value ∧ value < origin + size * count := by
  constructor
  · rintro ⟨index, ⟨nonneg, inside⟩, start, stop⟩
    have first : (0 : K) ≤ index := by exact_mod_cast nonneg
    have last : (index : K) + 1 ≤ count := by exact_mod_cast inside
    have notBefore := mul_nonneg positive.le first
    have notBehind := mul_le_mul_of_nonneg_left last positive.le
    constructor <;> linarith
  · rintro ⟨start, stop⟩
    have nonneg : 0 ≤ (value - origin) / size :=
      div_nonneg (sub_nonneg.mpr start) positive.le
    have inside : (value - origin) / size < count := by
      rw [div_lt_iff₀ positive]
      linarith
    refine ⟨⌊(value - origin) / size⌋, ⟨Int.floor_nonneg.mpr nonneg,
      Int.floor_lt.mpr inside⟩, ?_, ?_⟩
    · have lower := mul_le_mul_of_nonneg_left
        (Int.floor_le ((value - origin) / size)) positive.le
      rw [mul_div_cancel₀ _ positive.ne'] at lower
      linarith
    · have upper := mul_lt_mul_of_pos_left
        (Int.lt_floor_add_one ((value - origin) / size)) positive
      rw [mul_div_cancel₀ _ positive.ne'] at upper
      linarith

/-- The rectangle of a grid whose cells have an extent. -/
theorem covers_iff {map : LoadedMap K} {x y : K}
    (positiveX : 0 < map.blockSize.x) (positiveY : 0 < map.blockSize.y) :
    map.Covers x y ↔
      (map.blockMin.x ≤ x ∧
        x < map.blockMin.x + map.blockSize.x * map.blockCountX) ∧
      map.blockMin.y ≤ y ∧
        y < map.blockMin.y + map.blockSize.y * map.blockCountY := by
  rw [← exists_index_iff positiveX, ← exists_index_iff positiveY]
  constructor
  · rintro ⟨j, i, ⟨rowNonneg, row, columnNonneg, column⟩, atColumn, atRow⟩
    exact ⟨⟨i, ⟨columnNonneg, column⟩, atColumn⟩, j, ⟨rowNonneg, row⟩, atRow⟩
  · rintro ⟨⟨i, ⟨columnNonneg, column⟩, atColumn⟩, j, ⟨rowNonneg, row⟩, atRow⟩
    exact ⟨j, i, ⟨rowNonneg, row, columnNonneg, column⟩, atColumn, atRow⟩

/-! ## Indices -/

/-- A truncated number is at most an index of the grid. -/
theorem truncate_le_iff {value : K} {index : Int} (nonneg : 0 ≤ index) :
    truncate value ≤ index ↔ value < index + 1 := by
  have indexNonneg : (0 : K) ≤ index := by exact_mod_cast nonneg
  unfold truncate
  split
  case isTrue _ =>
    rw [← Int.lt_add_one_iff, Int.floor_lt, Int.cast_add, Int.cast_one]
  case isFalse negative =>
    have below := not_le.mp negative
    apply iff_of_true
    · exact (Int.ceil_le.mpr (by simpa using below.le)).trans nonneg
    · linarith

omit [IsStrictOrderedRing K] in
/-- A truncated number that is not negative is at least an index. -/
theorem le_truncate_iff {value : K} {index : Int} (nonneg : 0 ≤ value) :
    index ≤ truncate value ↔ (index : K) ≤ value := by
  rw [truncate_of_nonneg nonneg, Int.le_floor]

/-- Only a number that is a whole one in front of zero has a negative index. -/
theorem truncate_neg_iff {value : K} : truncate value < 0 ↔ value ≤ -1 := by
  unfold truncate
  split
  case isTrue nonneg =>
    apply iff_of_false
    · exact not_lt.mpr (Int.floor_nonneg.mpr nonneg)
    · linarith
  case isFalse _ =>
    rw [← Int.le_sub_one_iff, Int.ceil_le, zero_sub, Int.cast_neg,
      Int.cast_one]

/-- The number is that of an index behind the grid. -/
def BeginsBeyond (count : Int) (value : K) : Prop :=
  if 0 < count then (count : K) ≤ value else (count : K) - 1 < value

theorem count_le_truncate_iff {count : Int} {value : K} :
    count ≤ truncate value ↔ BeginsBeyond count value := by
  unfold truncate BeginsBeyond
  split
  case isTrue nonneg =>
    split
    case isTrue _ => exact Int.le_floor
    case isFalse notPositive =>
      have countNonpos : (count : K) ≤ 0 := by
        exact_mod_cast not_lt.mp notPositive
      apply iff_of_true
      · exact (not_lt.mp notPositive).trans (Int.floor_nonneg.mpr nonneg)
      · linarith
  case isFalse negative =>
    have below := not_le.mp negative
    split
    case isTrue positive =>
      have countPositive : (0 : K) < count := by exact_mod_cast positive
      have ceilNonpos : ⌈value⌉ ≤ 0 := Int.ceil_le.mpr (by simpa using below.le)
      apply iff_of_false
      · omega
      · linarith
    case isFalse _ =>
      rw [← Int.sub_one_lt_iff, Int.lt_ceil, Int.cast_sub, Int.cast_one]

/-! ## The window -/

variable {map : LoadedMap K} {x y z disXy disZ : K} {window : Window}

/-- The square begins beyond the last cells of the grid, or ends a whole cell in
front of the first ones. -/
def LoadedMap.Beside (map : LoadedMap K) (x y disXy : K) : Prop :=
  BeginsBeyond map.blockCountX (map.columnOf (x - disXy)) ∨
    map.columnOf (x + disXy) ≤ -1 ∨
    BeginsBeyond map.blockCountY (map.rowOf (y - disXy)) ∨
    map.rowOf (y + disXy) ≤ -1

/-- A window is outside the grid exactly when its square lies beside the
grid. -/
theorem outside_iff_beside (defined : map.window x y disXy = some window) :
    map.Outside window ↔ map.Beside x y disXy := by
  obtain ⟨left, bottom, right, top⟩ := MapInfo.eq_of_window defined
  rw [MapInfo.Outside, left, bottom, right, top, count_le_truncate_iff,
    count_le_truncate_iff, truncate_neg_iff, truncate_neg_iff]
  rfl

omit [IsStrictOrderedRing K] in
/-- The window is defined when its indices are of type `S32`. -/
theorem exists_window_iff (nonzeroX : map.blockSize.x ≠ 0)
    (nonzeroY : map.blockSize.y ≠ 0) :
    (∃ window, map.window x y disXy = some window) ↔
      map.IndicesFit (x - disXy) (y - disXy) ∧
        map.IndicesFit (x + disXy) (y + disXy) := by
  simp only [MapInfo.window, Option.bind_eq_bind, Option.bind_eq_some_iff,
    cellIndex_eq_some_iff nonzeroX, cellIndex_eq_some_iff nonzeroY]
  constructor
  · rintro ⟨_, _, ⟨left, -⟩, _, ⟨bottom, -⟩, _, ⟨right, -⟩, _, ⟨top, -⟩, -⟩
    exact ⟨⟨left, bottom⟩, right, top⟩
  · rintro ⟨⟨left, bottom⟩, right, top⟩
    exact ⟨_, _, ⟨left, rfl⟩, _, ⟨bottom, rfl⟩, _, ⟨right, rfl⟩, _,
      ⟨top, rfl⟩, rfl⟩

variable {j i : Int}

/-- In numbers of cells, the square meets a cell. -/
theorem cellMeets_iff (positiveX : 0 < map.blockSize.x)
    (positiveY : 0 < map.blockSize.y) (nonneg : 0 ≤ disXy) :
    map.CellMeets j i x y disXy ↔
      (map.columnOf (x - disXy) < i + 1 ∧ i ≤ map.columnOf (x + disXy)) ∧
        map.rowOf (y - disXy) < j + 1 ∧ j ≤ map.rowOf (y + disXy) := by
  have both : map.CellMeets j i x y disXy ↔
      (∃ otherX, InInterval map.blockMin.x map.blockSize.x i otherX ∧
        |otherX - x| ≤ disXy) ∧
      ∃ otherY, InInterval map.blockMin.y map.blockSize.y j otherY ∧
        |otherY - y| ≤ disXy := by
    constructor
    · rintro ⟨otherX, otherY, ⟨column, row⟩, nearX, nearY⟩
      exact ⟨⟨otherX, column, nearX⟩, otherY, row, nearY⟩
    · rintro ⟨⟨otherX, column, nearX⟩, otherY, row, nearY⟩
      exact ⟨otherX, otherY, ⟨column, row⟩, nearX, nearY⟩
  rw [both, exists_inInterval_iff positiveX nonneg,
    exists_inInterval_iff positiveY nonneg]
  rfl

omit [FloorRing K] in
/-- Only cells with an extent are met. -/
theorem positive_of_cellMeets (cell : map.CellMeets j i x y disXy) :
    0 < map.blockSize.x ∧ 0 < map.blockSize.y := by
  obtain ⟨otherX, otherY, ⟨column, row⟩, -⟩ := cell
  exact ⟨column.width_pos, row.width_pos⟩

/-- Unless the square ends in front of the grid, the cells of the window are
those that it meets. -/
theorem mem_windowCells_iff (positiveX : 0 < map.blockSize.x)
    (positiveY : 0 < map.blockSize.y) (nonneg : 0 ≤ disXy)
    (defined : map.window x y disXy = some window)
    (column : 0 ≤ map.columnOf (x + disXy))
    (row : 0 ≤ map.rowOf (y + disXy)) :
    (j, i) ∈ map.windowCells window ↔
      map.InGrid j i ∧ map.CellMeets j i x y disXy := by
  obtain ⟨left, bottom, right, top⟩ := MapInfo.eq_of_window defined
  rw [MapInfo.mem_windowCells, cellMeets_iff positiveX positiveY nonneg]
  have inside : map.InGrid j i ↔ (0 ≤ j ∧ j < map.blockCountY) ∧
      0 ≤ i ∧ i < map.blockCountX :=
    ⟨fun inGrid => ⟨⟨inGrid.rowNonneg, inGrid.row⟩, inGrid.columnNonneg,
      inGrid.column⟩, fun ⟨⟨rowNonneg, row⟩, columnNonneg, column⟩ =>
        ⟨rowNonneg, row, columnNonneg, column⟩⟩
  have cut : (max window.yiMin 0 ≤ j ∧
        j < min window.yiMax (map.blockCountY - 1) + 1) ∧
      (max window.xiMin 0 ≤ i ∧
        i < min window.xiMax (map.blockCountX - 1) + 1) ↔
      ((0 ≤ j ∧ j < map.blockCountY) ∧ 0 ≤ i ∧ i < map.blockCountX) ∧
        (window.xiMin ≤ i ∧ i ≤ window.xiMax) ∧
          window.yiMin ≤ j ∧ j ≤ window.yiMax := by
    omega
  rw [cut, inside]
  apply and_congr_right
  rintro ⟨⟨rowNonneg, -⟩, columnNonneg, -⟩
  rw [left, bottom, right, top]
  exact and_congr
    (and_congr (truncate_le_iff columnNonneg) (le_truncate_iff column))
    (and_congr (truncate_le_iff rowNonneg) (le_truncate_iff row))

/-- Where a cell is met, the square is not beside the grid. -/
theorem not_beside_of_meetsGrid (nonneg : 0 ≤ disXy)
    (meets : map.MeetsGrid x y disXy) :
    (0 ≤ map.columnOf (x + disXy) ∧ 0 ≤ map.rowOf (y + disXy)) ∧
      ¬map.Beside x y disXy := by
  obtain ⟨j, i, inGrid, cell⟩ := meetsGrid_iff.mp meets
  obtain ⟨positiveX, positiveY⟩ := positive_of_cellMeets cell
  obtain ⟨⟨columnBefore, column⟩, rowBefore, row⟩ :=
    (cellMeets_iff positiveX positiveY nonneg).mp cell
  have notBeyond : ∀ {count index : Int} {value : K}, 0 ≤ index →
      index < count → value < index + 1 → ¬BeginsBeyond count value := by
    intro count index value indexNonneg inside before
    have last : (index : K) + 1 ≤ count := by exact_mod_cast inside
    rw [BeginsBeyond, if_pos (by omega), not_le]
    exact before.trans_le last
  have columnNonneg : (0 : K) ≤ i := by exact_mod_cast inGrid.columnNonneg
  have rowNonneg : (0 : K) ≤ j := by exact_mod_cast inGrid.rowNonneg
  refine ⟨⟨columnNonneg.trans column, rowNonneg.trans row⟩, ?_⟩
  rintro (right | left | top | bottom)
  · exact notBeyond inGrid.columnNonneg inGrid.column columnBefore right
  · linarith
  · exact notBeyond inGrid.rowNonneg inGrid.row rowBefore top
  · linarith

/-! ## The reference -/

/-- The check returns, with a block exactly if a cell that the square meets is
blocked, and with an error exactly if the square does not meet the grid. -/
def LoadedMap.EqualsReference (map : LoadedMap K) (x y z disXy disZ : K) :
    Prop :=
  ∃ ret, checkBlockAround map x y z disXy disZ = some ret ∧
    (ret = .ok ↔ ∃ j i, map.InGrid j i ∧ map.CellMeets j i x y disXy ∧
      map.Blocks j i z disZ) ∧
    (ret = .err ↔ ¬map.MeetsGrid x y disXy)

/-- The quotients are defined and of type `S32`, and a square that does not meet
the grid is beside it. -/
structure LoadedMap.Regular (map : LoadedMap K) (x y disXy : K) : Prop where
  sizes : map.blockSize.x ≠ 0 ∧ map.blockSize.y ≠ 0
  lower : map.IndicesFit (x - disXy) (y - disXy)
  upper : map.IndicesFit (x + disXy) (y + disXy)
  place : map.MeetsGrid x y disXy ∨ map.Beside x y disXy

omit [IsStrictOrderedRing K] in
theorem sizes_of_window (defined : map.window x y disXy = some window) :
    map.blockSize.x ≠ 0 ∧ map.blockSize.y ≠ 0 := by
  simp only [MapInfo.window, Option.bind_eq_bind, Option.bind_eq_some_iff]
    at defined
  obtain ⟨_, left, _, bottom, -⟩ := defined
  rw [cellIndex, Option.ite_none_left_eq_some] at left bottom
  exact ⟨left.1, bottom.1⟩

/-- In the window of a square that meets the grid, a cell is blocked exactly if
it is one that the square meets. -/
theorem exists_blocked_iff (z disZ : K) (nonneg : 0 ≤ disXy)
    (defined : map.window x y disXy = some window)
    (meets : map.MeetsGrid x y disXy) :
    (∃ cell ∈ map.windowCells window,
        z - disZ < map.blockz cell.1 cell.2 z) ↔
      ∃ j i, map.InGrid j i ∧ map.CellMeets j i x y disXy ∧
        map.Blocks j i z disZ := by
  obtain ⟨_, _, -, cell⟩ := meetsGrid_iff.mp meets
  obtain ⟨positiveX, positiveY⟩ := positive_of_cellMeets cell
  obtain ⟨⟨column, row⟩, -⟩ := not_beside_of_meetsGrid nonneg meets
  constructor
  · rintro ⟨⟨j, i⟩, isCell, blocks⟩
    obtain ⟨inGrid, cellMeets⟩ :=
      (mem_windowCells_iff positiveX positiveY nonneg defined column row).mp
        isCell
    exact ⟨j, i, inGrid, cellMeets, blocks⟩
  · rintro ⟨j, i, inGrid, cellMeets, blocks⟩
    refine ⟨(j, i), ?_, blocks⟩
    exact (mem_windowCells_iff positiveX positiveY nonneg defined column
      row).mpr ⟨inGrid, cellMeets⟩

end Hdmap
end Pilot2Cloud
