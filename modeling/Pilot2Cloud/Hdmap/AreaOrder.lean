import Pilot2Cloud.Hdmap.CellNumbers

/-!
# The order of the areas in the file

Which restriction a cell gets does not depend on the order of the areas, and a
no-fly area always wins, exactly if every cell is settled: none has corners both
in a no-fly area and in one with a height limit, and the numbers of the areas
that matter fit.
-/

namespace Pilot2Cloud
namespace Hdmap

open Foundation

/-! ## Loading -/

section Cells

variable {K : Type*} {map : MapInfo K} {j i : Int}

theorem MapInfo.mem_cells :
    (j, i) ∈ map.cells ↔ map.InGrid j i := by
  rw [MapInfo.cells, List.pair_mem_product, Int.mem_range_iff,
    Int.mem_range_iff]
  constructor
  · rintro ⟨⟨rowNonneg, row⟩, columnNonneg, column⟩
    exact ⟨rowNonneg, row, columnNonneg, column⟩
  · rintro ⟨rowNonneg, row, columnNonneg, column⟩
    exact ⟨⟨rowNonneg, row⟩, columnNonneg, column⟩

/-- The map with its areas in another order. -/
def MapInfo.withAreas (map : MapInfo K) (areas : List (MapArea K)) :
    MapInfo K :=
  { map with restriction := areas }

theorem MapInfo.InGrid.withAreas (inGrid : map.InGrid j i)
    (areas : List (MapArea K)) : (map.withAreas areas).InGrid j i :=
  ⟨inGrid.rowNonneg, inGrid.row, inGrid.columnNonneg, inGrid.column⟩

theorem MapInfo.InGrid.of_withAreas {areas : List (MapArea K)}
    (inGrid : (map.withAreas areas).InGrid j i) : map.InGrid j i :=
  ⟨inGrid.rowNonneg, inGrid.row, inGrid.columnNonneg, inGrid.column⟩

end Cells

section Numbers

variable {K : Type*} [Arithmetic K]

/-- Loading leaves what the file says and records a number for every cell. -/
theorem setMapBlockArea_eq_some_iff {map : MapInfo K} {loaded : LoadedMap K} :
    setMapBlockArea map = some loaded ↔
      (∀ j i, map.InGrid j i →
        (recordAreas map.restriction (cornerInArea map j i)).isSome) ∧
      loaded = map.withNumbers := by
  rw [setMapBlockArea, Option.ite_none_right_eq_some, Option.some_inj]
  apply and_congr
  · constructor
    · intro defined j i inGrid
      exact defined (j, i) (MapInfo.mem_cells.mpr inGrid)
    · intro defined cell mem
      exact defined cell.1 cell.2 (MapInfo.mem_cells.mp mem)
  · exact eq_comm

theorem toMapInfo_of_loaded {map : MapInfo K} {loaded : LoadedMap K}
    (loads : setMapBlockArea map = some loaded) :
    loaded.toMapInfo = map := by
  rw [(setMapBlockArea_eq_some_iff.mp loads).2, MapInfo.withNumbers]

theorem recordAreas_of_loaded {map : MapInfo K} {loaded : LoadedMap K}
    (loads : setMapBlockArea map = some loaded) {j i : Int}
    (inGrid : map.InGrid j i) :
    recordAreas map.restriction (cornerInArea map j i) =
      some (loaded.resdictionI j i) := by
  obtain ⟨defined, rfl⟩ := setMapBlockArea_eq_some_iff.mp loads
  obtain ⟨number, recorded⟩ :=
    Option.isSome_iff_exists.mp (defined j i inGrid)
  simp only [MapInfo.withNumbers, recorded, Option.getD_some]

end Numbers

variable {K : Type*} [Field K] [LinearOrder K]

/-- With at most 127 areas a cell's area is the one selected among the areas
with a corner of it. -/
theorem recorded_of_loaded {map : MapInfo K} {loaded : LoadedMap K}
    (few : map.restriction.length ≤ 127)
    (loads : setMapBlockArea map = some loaded) {j i : Int}
    (inGrid : map.InGrid j i) :
    loaded.recorded j i =
      selectAreas (map.restriction.filter (cornerInArea map j i)) := by
  obtain ⟨number, recorded, describes⟩ :=
    recordAreas_describes few (cornerInArea map j i)
  rw [recordAreas_of_loaded loads inGrid, Option.some_inj] at recorded
  rw [LoadedMap.recorded, recorded, toMapInfo_of_loaded loads]
  exact describes.areaOf_eq

theorem exists_loaded_of_few {map : MapInfo K}
    (few : map.restriction.length ≤ 127) :
    ∃ loaded, setMapBlockArea map = some loaded := by
  refine ⟨_, setMapBlockArea_eq_some_iff.mpr ⟨fun j i inGrid => ?_, rfl⟩⟩
  obtain ⟨number, recorded, -⟩ :=
    recordAreas_describes few (cornerInArea map j i)
  exact Option.isSome_of_mem recorded

/-! ## Orders -/

/-- The restriction that is recorded for a cell. -/
def LoadedMap.cellRestriction (map : LoadedMap K) (j i : Int) :
    Restriction K :=
  restrictionOf (map.recorded j i)

/-- Whatever the order of the areas, the map can be loaded and every cell gets
the same restriction, no-fly if a no-fly area has a corner of it. -/
def OrderIndependent (map : MapInfo K) : Prop :=
  ∃ outcome : Int → Int → Restriction K, ∀ areas,
    areas.Perm map.restriction →
    ∃ loaded, setMapBlockArea (map.withAreas areas) = some loaded ∧
      ∀ j i, map.InGrid j i →
        loaded.cellRestriction j i = outcome j i ∧
        ∀ area ∈ areas, area.NoFly → cornerInArea map j i area →
          loaded.cellRestriction j i = ⊤

theorem OrderIndependent.cell {map : MapInfo K}
    (independent : OrderIndependent map) {j i : Int}
    (inGrid : map.InGrid j i) :
    CellIndependent map.restriction (cornerInArea map j i) := by
  obtain ⟨outcome, independent⟩ := independent
  refine ⟨outcome j i, fun areas perm => ?_⟩
  obtain ⟨loaded, loads, cells⟩ := independent areas perm
  obtain ⟨same, isTop⟩ := cells j i inGrid
  have recorded := recordAreas_of_loaded loads (inGrid.withAreas areas)
  rw [LoadedMap.cellRestriction, LoadedMap.recorded,
    toMapInfo_of_loaded loads] at same isTop
  exact ⟨loaded.resdictionI j i, recorded, same, isTop⟩

theorem orderIndependent_of_cells {map : MapInfo K}
    (cells : ∀ j i, map.InGrid j i →
      CellIndependent map.restriction (cornerInArea map j i)) :
    OrderIndependent map := by
  choose! outcome independent using cells
  refine ⟨outcome, fun areas perm => ?_⟩
  have loads : ∃ loaded, setMapBlockArea (map.withAreas areas) =
      some loaded := by
    refine ⟨_, setMapBlockArea_eq_some_iff.mpr ⟨fun j i inGrid => ?_, rfl⟩⟩
    obtain ⟨number, recorded, -⟩ :=
      independent j i inGrid.of_withAreas areas perm
    exact Option.isSome_of_mem recorded
  obtain ⟨loaded, loads⟩ := loads
  refine ⟨loaded, loads, fun j i inGrid => ?_⟩
  obtain ⟨number, recorded, same, isTop⟩ := independent j i inGrid areas perm
  have stored := recordAreas_of_loaded loads (inGrid.withAreas areas)
  obtain rfl := Option.some_inj.mp (stored.symm.trans recorded)
  rw [LoadedMap.cellRestriction, LoadedMap.recorded, toMapInfo_of_loaded loads]
  exact ⟨same, isTop⟩

/-- The nodes of a square with the given middle and half its side. -/
def squareNodes (x y half : K) : List (MapXyz K) :=
  [⟨x - half, y - half, 0⟩, ⟨x + half, y - half, 0⟩,
    ⟨x + half, y + half, 0⟩, ⟨x - half, y + half, 0⟩]

/-- The area of such a square whose nodes start at `nodeI`. -/
def squareArea (nodeI : Nat) (x y half heightLimit : K) : MapArea K where
  nodeI := nodeI
  nodeCount := 4
  heightLimit := heightLimit
  minX := x - half
  minY := y - half
  maxX := x + half
  maxY := y + half

/-- One cell whose first corner is in a no-fly area and in one with a height
limit of 50 metres. -/
def mixedMap : MapInfo ℚ where
  blockMin := ⟨100, 100, 0⟩
  blockSize := ⟨10, 10, 1⟩
  blockCountX := 1
  blockCountY := 1
  countsFit := oneCell_countsFit
  node := squareNodes 100 100 5
  restriction := [squareArea 0 100 100 5 (-1), squareArea 0 100 100 5 50]
  block _ _ := ⟨1, 0⟩

end Hdmap
end Pilot2Cloud
