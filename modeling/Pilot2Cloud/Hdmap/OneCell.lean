import Pilot2Cloud.Hdmap.Line
import Pilot2Cloud.Hdmap.NoFly

/-!
# Maps of one cell

A grid of a single cell around a line shows what a walk along the line does not
see: it returns without a find whatever the cell hides at other heights.
-/

namespace Pilot2Cloud
namespace Hdmap

open Foundation

variable {K : Type*} [Field K]

/-- A square cell with middle `(x, y)`, and perhaps an area around its first
corner. -/
def oneCell (x y radius : K) (block : BlockHeight)
    (restriction : List (MapArea K)) : MapInfo K where
  blockMin := ⟨x - radius, y - radius, 0⟩
  blockSize := ⟨2 * radius, 2 * radius, 1⟩
  blockCountX := 1
  blockCountY := 1
  countsFit := oneCell_countsFit
  node := squareNodes (x - radius) (y - radius) 1
  restriction := restriction
  block _ _ := block

theorem inGrid_oneCell {x y radius : K} {block : BlockHeight}
    {restriction : List (MapArea K)} :
    (oneCell x y radius block restriction).InGrid 0 0 :=
  ⟨le_rfl, Int.zero_lt_one, le_rfl, Int.zero_lt_one⟩

variable [LinearOrder K] [IsStrictOrderedRing K]

theorem inInterval_middle {middle radius value distance : K}
    (near : |value - middle| ≤ distance) (inside : distance < radius) :
    InInterval (middle - radius) (2 * radius) 0 value := by
  rw [abs_le] at near
  constructor
  · simp only [Int.cast_zero, mul_zero, add_zero]
    linarith
  · simp only [Int.cast_zero, zero_add, mul_one]
    linarith

theorem inCell_oneCell {x y radius otherX otherY distance : K}
    {block : BlockHeight} {restriction : List (MapArea K)}
    (nearX : |otherX - x| ≤ distance) (nearY : |otherY - y| ≤ distance)
    (inside : distance < radius) :
    (oneCell x y radius block restriction).InCell 0 0 otherX otherY :=
  ⟨inInterval_middle nearX inside, inInterval_middle nearY inside⟩

theorem pnpoly_squareNodes {x y half : K} (positive : 0 < half) :
    pnpoly (squareNodes x y half) x y = true := by
  simp [pnpoly, squareNodes, pnpolyFrom, crossesEdge, positive, positive.le]

section Areas

variable {x y radius : K} {block : BlockHeight}

/-- The area around the first corner of the cell. -/
def cornerArea (x y radius heightLimit : K) : MapArea K :=
  squareArea 0 (x - radius) (y - radius) 1 heightLimit

theorem cornerInArea_oneCell (heightLimit : K) :
    cornerInArea (oneCell x y radius block [cornerArea x y radius heightLimit])
      0 0 (cornerArea x y radius heightLimit) = true := by
  have inside : checkInArea
      (oneCell x y radius block [cornerArea x y radius heightLimit])
      (x - radius) (y - radius) (cornerArea x y radius heightLimit) = true := by
    rw [checkInArea, if_neg (by simp [cornerArea, squareArea])]
    exact pnpoly_squareNodes zero_lt_one
  simp only [cornerInArea, Int.cast_zero, mul_zero, add_zero, Bool.or_assoc]
  exact Bool.or_eq_true_iff.mpr (.inl inside)

/-- A no-fly area around its first corner makes the cell no-fly. -/
theorem cellRestriction_oneCell {loaded : LoadedMap K}
    (loads : setMapBlockArea (oneCell x y radius block
      [cornerArea x y radius restrictNoFly]) = some loaded) :
    loaded.cellRestriction 0 0 = ⊤ := by
  rw [LoadedMap.cellRestriction, recorded_of_loaded (by simp [oneCell]) loads
    inGrid_oneCell, selectAreas_eq_top_iff]
  refine ⟨[], _, [], rfl, rfl, cornerInArea_oneCell _, ?_⟩
  simp

omit [IsStrictOrderedRing K] in
/-- Without an area the cell is as high as what stands on it. -/
theorem blockz_oneCell {loaded : LoadedMap K} (known : 0 < block.zI)
    (loads : setMapBlockArea (oneCell x y radius block []) = some loaded)
    (z : K) : loaded.blockz 0 0 z = heightOfMm block.zmaxMm := by
  have recorded : loaded.recorded 0 0 = none :=
    recorded_of_loaded (by simp [oneCell]) loads inGrid_oneCell
  rw [LoadedMap.blockz, recorded, toMapInfo_of_loaded loads]
  exact if_pos known

end Areas

variable [FloorRing K] {x y radius z disXy disZ : K} {block : BlockHeight}
  {restriction : List (MapArea K)} {loaded : LoadedMap K}

theorem window_oneCell {otherX otherY distance : K}
    (nearX : |otherX - x| ≤ distance) (nearY : |otherY - y| ≤ distance)
    (nonneg : 0 ≤ disXy) (inside : distance + disXy < radius) :
    (oneCell x y radius block restriction).window otherX otherY disXy =
      some ⟨0, 0, 0, 0⟩ := by
  have index : ∀ middle value : K, |value - middle| ≤ distance + disXy →
      cellIndex (middle - radius) (2 * radius) value = some 0 :=
    fun middle value near => MapInfo.cellIndex_of_inInterval
      (inInterval_middle near inside) le_rfl (by decide)
  rw [abs_le] at nearX nearY
  have left := index x (otherX - disXy)
    (abs_le.mpr (by constructor <;> linarith))
  have right := index x (otherX + disXy)
    (abs_le.mpr (by constructor <;> linarith))
  have bottom := index y (otherY - disXy)
    (abs_le.mpr (by constructor <;> linarith))
  have top := index y (otherY + disXy)
    (abs_le.mpr (by constructor <;> linarith))
  simp [MapInfo.window, oneCell, left, right, bottom, top]

/-- A square inside the cell is clear if the cell does not block. -/
theorem checkBlockAround_oneCell
    (loads : setMapBlockArea (oneCell x y radius block restriction) =
      some loaded)
    {otherX otherY distance : K} (nearX : |otherX - x| ≤ distance)
    (nearY : |otherY - y| ≤ distance) (nonneg : 0 ≤ disXy)
    (inside : distance + disXy < radius) (free : ¬loaded.Blocks 0 0 z disZ) :
    checkBlockAround loaded otherX otherY z disXy disZ = some .over := by
  have same := toMapInfo_of_loaded loads
  have cells : loaded.windowCells ⟨0, 0, 0, 0⟩ = [(0, 0)] := by
    rw [same]
    rfl
  have within : ¬loaded.Outside ⟨0, 0, 0, 0⟩ := by
    rw [same]
    simp [MapInfo.Outside, oneCell]
  rw [checkBlockAround, same, window_oneCell nearX nearY nonneg inside]
  simp only [Option.bind_eq_bind, Option.bind_some]
  rw [← same, if_neg within, cells, if_neg]
  simpa [LoadedMap.Blocks] using free

/-- A line inside the cell is clear if the cell does not block. -/
theorem checkBlockAroundLine_oneCell
    (loads : setMapBlockArea (oneCell x y radius block restriction) =
      some loaded) (trigonometry : UnitTrigonometry K) (angle : K) {length : K}
    (nonneg : 0 ≤ length) (positive : 0 < disXy)
    (inside : length + disXy < radius) (free : ¬loaded.Blocks 0 0 z disZ) :
    ∃ fuel safeDis, checkBlockAroundLine trigonometry.toTrigonometry loaded x y z
      angle length disXy disZ fuel = some (.returned .over safeDis) := by
  obtain ⟨fuel, returns⟩ := exists_fuel_lineLoop
    (fun curLen =>
      checkBlockAround loaded (trigonometry.ray x y angle curLen).1
        (trigonometry.ray x y angle curLen).2 z disXy disZ)
    length positive (if length < disXy then length else disXy)
  obtain ⟨result, ends⟩ := Option.isSome_iff_exists.mp (returns fuel le_rfl)
  have clear : ∀ curLen, 0 ≤ curLen → curLen ≤ length →
      checkBlockAround loaded (trigonometry.ray x y angle curLen).1
        (trigonometry.ray x y angle curLen).2 z disXy disZ = some .over := by
    intro curLen start le
    have near : |curLen - 0| ≤ length := by
      rwa [sub_zero, abs_of_nonneg start]
    obtain ⟨nearX, nearY⟩ := trigonometry.ray_near x y angle near
    simp only [Trigonometry.ray_zero] at nearX nearY
    exact checkBlockAround_oneCell loads nearX nearY positive.le inside free
  have start : 0 ≤ if length < disXy then length else disXy := by
    split
    · exact nonneg
    · exact positive.le
  obtain ⟨safeDis, rfl⟩ := over_of_lineLoop positive.le clear fuel _ start ends
  exact ⟨fuel, safeDis, ends⟩

end Hdmap
end Pilot2Cloud
