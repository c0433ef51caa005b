import Pilot2Cloud.Hdmap.AreaOrder
import Pilot2Cloud.Hdmap.BlockAround

/-!
# Restrictions of flight

`check_fly_resdiction` takes the height limit of an area as the lowest height
that is restricted, and `check_block_around` takes it as the height of an
obstacle.  The first one has no return value where it finds no area, so they
agree only where both report a restriction.
-/

namespace Pilot2Cloud
namespace Hdmap

open Foundation

variable {K : Type*} [Field K] [LinearOrder K]

/-- The test of `check_fly_resdiction` for the height. -/
def MapArea.RestrictsFrom (area : MapArea K) (z : K) : Prop :=
  area.NoFly ∨ 0 < area.heightLimit ∧ area.heightLimit ≤ z

instance (area : MapArea K) (z : K) : Decidable (area.RestrictsFrom z) :=
  inferInstanceAs (Decidable (_ ∨ _))

/-- `check_fly_resdiction`, which has no return value if no area restricts. -/
def checkFlyResdiction (map : LoadedMap K) (x y z : K) : Option Ret :=
  if ∃ area ∈ map.restriction,
      area.RestrictsFrom z ∧ checkInArea map.toMapInfo x y area then
    some .ok
  else none

/-- The restriction recorded for a cell reaches above a height. -/
def LoadedMap.RestrictionBlocks (map : LoadedMap K) (j i : Int) (z : K) :
    Prop :=
  ∃ area, map.recorded j i = some area ∧
    z < if area.NoFly then unknownHeight else area.heightLimit

/-- `check_fly_resdiction` returns at a point of a cell, and reports it exactly if
the check around it is blocked by the restriction of the cell. -/
def RestrictionsAgree [FloorRing K] (map : LoadedMap K) (j i : Int)
    (x y z : K) : Prop :=
  ∃ ret, checkFlyResdiction map x y z = some ret ∧
    (ret = .ok ↔
      checkBlockAround map x y z 0 0 = some .ok ∧ map.RestrictionBlocks j i z)

/-- The point is in an area that is no-fly or has a positive limit up to the
height, and the cell has one that is no-fly or has a limit above the height. -/
structure LoadedMap.RestrictedTwice (map : LoadedMap K) (j i : Int)
    (x y z : K) : Prop where
  point : ∃ area ∈ map.restriction,
    area.RestrictsFrom z ∧ checkInArea map.toMapInfo x y area
  cell : map.RestrictionBlocks j i z

variable {map : LoadedMap K} {x y z : K} {j i : Int}

/-- The check returns only where an area restricts the height and holds the
point, and there it returns `ok`. -/
theorem checkFlyResdiction_eq_some_iff {ret : Ret} :
    checkFlyResdiction map x y z = some ret ↔
      (∃ area ∈ map.restriction,
        area.RestrictsFrom z ∧ checkInArea map.toMapInfo x y area) ∧
      ret = .ok := by
  unfold checkFlyResdiction
  rw [Option.ite_none_right_eq_some, Option.some_inj, eq_comm]

/-- A cell whose restriction is above the height blocks. -/
theorem LoadedMap.RestrictionBlocks.blocks [IsStrictOrderedRing K]
    (restricts : map.RestrictionBlocks j i z) : map.Blocks j i z 0 := by
  obtain ⟨area, recorded, above⟩ := restricts
  rw [LoadedMap.Blocks, LoadedMap.blockz, recorded, sub_zero]
  dsimp only
  split
  · next noFly => simpa [noFly] using above
  · next limited =>
      rw [if_neg limited] at above
      rw [if_pos above]
      exact above

variable [FloorRing K] [IsStrictOrderedRing K]

/-- The check around a point of the cell reports a restriction above it. -/
theorem checkBlockAround_of_restrictionBlocks (inGrid : map.InGrid j i)
    (inCell : map.InCell j i x y)
    (restricts : map.RestrictionBlocks j i z) :
    checkBlockAround map x y z 0 0 = some .ok := by
  obtain ⟨ret, checks⟩ := exists_checkBlockAround inGrid inCell z 0
  rw [checks, eq_ok_of_blocks checks inGrid inCell (by simp) (by simp)
    restricts.blocks]

/-- One cell in some areas with the same square around it. -/
def coveredMap (limits : List ℚ) : MapInfo ℚ where
  blockMin := ⟨100, 100, 0⟩
  blockSize := ⟨10, 10, 1⟩
  blockCountX := 1
  blockCountY := 1
  countsFit := oneCell_countsFit
  node := squareNodes 105 105 10
  restriction := limits.map (squareArea 0 105 105 10)
  block _ _ := ⟨1, 0⟩

theorem coveredMap_inGrid (limits : List ℚ) :
    (coveredMap limits).InGrid 0 0 := by
  constructor <;> simp [coveredMap]

theorem coveredMap_inCell (limits : List ℚ) :
    (coveredMap limits).InCell 0 0 105 105 := by
  constructor <;> constructor <;> norm_num [coveredMap]

theorem coveredMap_loads (limits : List ℚ) (few : limits.length ≤ 127) :
    setMapBlockArea (coveredMap limits) =
      some (coveredMap limits).withNumbers := by
  have fewAreas : (coveredMap limits).restriction.length ≤ 127 := by
    simpa [coveredMap] using few
  obtain ⟨loaded, loads⟩ := exists_loaded_of_few fewAreas
  rw [loads, (setMapBlockArea_eq_some_iff.mp loads).2]

/-- All areas have a corner of the cell. -/
theorem coveredMap_recorded (limits : List ℚ) (few : limits.length ≤ 127) :
    (coveredMap limits).withNumbers.recorded 0 0 =
      selectAreas (limits.map (squareArea 0 105 105 10)) := by
  have fewAreas : (coveredMap limits).restriction.length ≤ 127 := by
    simpa [coveredMap] using few
  rw [recorded_of_loaded fewAreas (coveredMap_loads limits few)
    (coveredMap_inGrid limits)]
  congr 1
  apply List.filter_eq_self.mpr
  intro area mem
  obtain ⟨limit, -, rfl⟩ := List.mem_map.mp mem
  have corner : cornerInArea (coveredMap []) 0 0 (squareArea 0 105 105 10 0) =
      true := by
    decide +kernel
  exact corner

/-- The point in the middle is in all areas. -/
theorem coveredMap_inArea (limits : List ℚ) (limit : ℚ) :
    checkInArea (coveredMap limits).withNumbers.toMapInfo 105 105
      (squareArea 0 105 105 10 limit) = true := by
  have inside : checkInArea (coveredMap []) 105 105
      (squareArea 0 105 105 10 0) = true := by
    decide +kernel
  exact inside

end Hdmap
end Pilot2Cloud
