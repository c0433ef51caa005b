import Pilot2Cloud.Hdmap.AreaOrder
import Pilot2Cloud.Hdmap.BlockAround

/-!
# No-fly areas

The areas are recorded by the corners of the cells.  A point of a no-fly area
is reported at every height exactly where its cell has no height or was
recorded as no-fly.
-/

namespace Pilot2Cloud
namespace Hdmap

open Foundation

section Selection

variable {K : Type*} [Field K] [LinearOrder K]

/-- A no-fly area has a corner of the cell, and no area with a height limit
that comes later has one. -/
def KeepsNoFly (areas : List (MapArea K)) (corner : MapArea K → Bool) :
    Prop :=
  ∃ early area late, areas = early ++ area :: late ∧ area.NoFly ∧
    corner area = true ∧
    ∀ other ∈ late, corner other = true → other.heightLimit ≤ restrictNoFly

theorem keepsNoFly_append_singleton_iff {areas : List (MapArea K)}
    {corner : MapArea K → Bool} {last : MapArea K} :
    KeepsNoFly (areas ++ [last]) corner ↔
      (corner last = true ∧ last.NoFly) ∨
        (KeepsNoFly areas corner ∧
          (corner last = true → last.heightLimit ≤ restrictNoFly)) := by
  constructor
  · rintro ⟨early, area, late, split, noFly, reaches, low⟩
    induction late using List.reverseRecOn with
    | nil =>
        obtain ⟨-, same⟩ := List.append_inj' split rfl
        cases same
        exact .inl ⟨reaches, noFly⟩
    | append_singleton late other _ =>
        rw [← List.cons_append, ← List.append_assoc] at split
        obtain ⟨rfl, same⟩ := List.append_inj' split rfl
        cases same
        refine .inr ⟨⟨early, area, late, rfl, noFly, reaches, ?_⟩, ?_⟩
        · exact fun other mem => low other (List.mem_append_left _ mem)
        · exact low last (List.mem_append_right _ List.mem_cons_self)
  · rintro (⟨reaches, noFly⟩ | ⟨⟨early, area, late, rfl, noFly, reaches, low⟩,
      lastLow⟩)
    · exact ⟨areas, last, [], rfl, noFly, reaches, by simp⟩
    · refine ⟨early, area, late ++ [last], by simp, noFly, reaches, ?_⟩
      intro other mem
      rw [List.mem_append, List.mem_singleton] at mem
      obtain mem | rfl := mem
      · exact low other mem
      · exact lastLow

/-- A cell is forbidden exactly when the selected area is a no-fly area. -/
theorem restrictionOf_eq_top_iff {selected : Option (MapArea K)} :
    restrictionOf selected = ⊤ ↔ ∃ area, selected = some area ∧ area.NoFly := by
  cases selected with
  | none => simp [restrictionOf]
  | some area =>
      by_cases noFly : area.NoFly
      · simp [restrictionOf, MapArea.restriction, noFly]
      · simp [restrictionOf, MapArea.restriction, noFly, ← WithBot.coe_top]

/-- No-fly is selected, or stays selected if no height limit comes next. -/
theorem restrictionOf_selectArea_eq_top_iff {selected : Option (MapArea K)}
    {area : MapArea K} :
    restrictionOf (selectArea selected area) = ⊤ ↔
      area.NoFly ∨
        (restrictionOf selected = ⊤ ∧ area.heightLimit ≤ restrictNoFly) := by
  rw [restrictionOf_eq_top_iff, restrictionOf_eq_top_iff]
  cases selected with
  | none => simp [selectArea]
  | some previous =>
      by_cases noFly : area.NoFly
      · simp [selectArea, noFly]
      · by_cases higher : previous.heightLimit < area.heightLimit
        · have limited : previous.NoFly → restrictNoFly < area.heightLimit :=
            fun previousNoFly => previousNoFly ▸ higher
          simpa [selectArea, noFly, higher] using limited
        · have low : previous.NoFly → area.heightLimit ≤ restrictNoFly :=
            fun previousNoFly => previousNoFly ▸ not_lt.mp higher
          simpa [selectArea, noFly, higher] using low

/-- The area selected for a cell is a no-fly area exactly if one is kept. -/
theorem selectAreas_eq_top_iff {areas : List (MapArea K)}
    {corner : MapArea K → Bool} :
    restrictionOf (selectAreas (areas.filter corner)) = ⊤ ↔
      KeepsNoFly areas corner := by
  induction areas using List.reverseRecOn with
  | nil => simp [selectAreas, restrictionOf, KeepsNoFly]
  | append_singleton areas last inductionHypothesis =>
      rw [keepsNoFly_append_singleton_iff, ← inductionHypothesis,
        List.filter_append]
      cases reaches : corner last with
      | false => simp [reaches]
      | true =>
          simp [reaches, restrictionOf_selectArea_eq_top_iff]

end Selection

/-! ## The height that a cell is given -/

variable {K : Type*} [Field K] [LinearOrder K]

/-- A known ground lies more than one below the height of unknown cells. -/
theorem ground_lt (map : MapInfo K) [IsStrictOrderedRing K] {j i : Int}
    (known : 0 < (map.block j i).zI) :
    map.ground j i < unknownHeight - 1 := by
  have bound : ((map.block j i).zmaxMm.toInt : K) ≤ 2 ^ 31 := by
    exact_mod_cast (Int32.toInt_lt _).le
  rw [MapInfo.ground, if_pos known, heightOfMm, div_lt_iff₀ (by norm_num)]
  norm_num at bound ⊢
  linarith

/-- The height of a cell that was not recorded as no-fly and whose height limit
is not above the aircraft is the one of what stands on it. -/
theorem blockz_eq_ground {map : LoadedMap K} {j i : Int} {z : K}
    (fly : map.cellRestriction j i ≠ ⊤)
    (above : ∀ area, map.recorded j i = some area → area.heightLimit ≤ z) :
    map.blockz j i z = map.ground j i := by
  rw [LoadedMap.cellRestriction, ne_eq, restrictionOf_eq_top_iff] at fly
  rw [LoadedMap.blockz]
  split
  · rfl
  · next area recorded =>
    rw [if_neg fun noFly => fly ⟨area, recorded, noFly⟩,
      if_neg (above area recorded).not_gt]

theorem blockz_of_noFly {map : LoadedMap K} {j i : Int} {z : K}
    (noFly : map.cellRestriction j i = ⊤) :
    map.blockz j i z = unknownHeight := by
  rw [LoadedMap.cellRestriction, restrictionOf_eq_top_iff] at noFly
  obtain ⟨area, recorded, noFly⟩ := noFly
  simp only [LoadedMap.blockz, recorded, if_pos noFly]

theorem ground_le (map : MapInfo K) [IsStrictOrderedRing K] (j i : Int) :
    map.ground j i ≤ unknownHeight := by
  by_cases known : 0 < (map.block j i).zI
  · linarith [ground_lt map known]
  · rw [MapInfo.ground, if_neg known]

/-- Whatever its restriction, a cell blocks at heights below its own. -/
theorem blocks_of_ground [IsStrictOrderedRing K] {map : LoadedMap K}
    {j i : Int} {z disZ : K} (nonneg : 0 ≤ disZ)
    (below : z - disZ < map.ground j i) : map.Blocks j i z disZ := by
  have bound := ground_le map.toMapInfo j i
  rw [LoadedMap.Blocks, LoadedMap.blockz]
  split
  · exact below
  · split
    · exact below.trans_le bound
    · split
      · next limited => linarith
      · exact below

/-- A no-fly cell blocks every place below the height of unknown cells. -/
theorem blocks_of_noFly {map : LoadedMap K} {j i : Int} {z disZ : K}
    (noFly : map.cellRestriction j i = ⊤) (low : z - disZ < unknownHeight) :
    map.Blocks j i z disZ := by
  rw [LoadedMap.Blocks, blockz_of_noFly noFly]
  exact low

variable [FloorRing K]

/-! ## Completeness -/

/-- Some point of the cell is in a no-fly area. -/
def MapInfo.TouchesNoFly (map : MapInfo K) (j i : Int) : Prop :=
  ∃ x y, map.InCell j i x y ∧
    ∃ area ∈ map.restriction, area.NoFly ∧ checkInArea map x y area = true

/-- Every check around a point that lies in the grid and in a no-fly area
reports a block, at every height below that of a no-fly cell. -/
def NoFlyComplete (map : LoadedMap K) : Prop :=
  ∀ x y z disXy disZ ret, 0 ≤ disXy → 0 ≤ disZ →
    z - disZ < unknownHeight →
    (∃ j i, map.InGrid j i ∧ map.InCell j i x y) →
    (∃ area ∈ map.restriction,
      area.NoFly ∧ checkInArea map.toMapInfo x y area = true) →
    checkBlockAround map x y z disXy disZ = some ret → ret = .ok

/-- Every cell with a point of a no-fly area has no height or was recorded as
no-fly. -/
def NoFlyRecorded (map : LoadedMap K) : Prop :=
  ∀ j i, map.InGrid j i → map.TouchesNoFly j i →
    ¬0 < (map.block j i).zI ∨ map.cellRestriction j i = ⊤

/-- Recorded no-fly areas are complete. -/
theorem noFlyComplete_of_recorded [IsStrictOrderedRing K] {map : LoadedMap K}
    (recorded : NoFlyRecorded map) : NoFlyComplete map := by
  intro x y z disXy disZ ret nonneg nonnegZ low cell noFly checks
  obtain ⟨j, i, inGrid, inCell⟩ := cell
  apply eq_ok_of_blocks checks inGrid inCell
  · simpa using nonneg
  · simpa using nonneg
  · obtain unknown | noFly := recorded j i inGrid ⟨x, y, inCell, noFly⟩
    · apply blocks_of_ground nonnegZ
      rwa [MapInfo.ground, if_neg unknown]
    · exact blocks_of_noFly noFly low

/-- Complete no-fly areas are recorded. -/
theorem recorded_of_noFlyComplete [IsStrictOrderedRing K] {map : LoadedMap K}
    (complete : NoFlyComplete map) : NoFlyRecorded map := by
  intro j i inGrid touches
  obtain ⟨x, y, inCell, noFly⟩ := touches
  by_contra neither
  rw [not_or, not_not] at neither
  obtain ⟨known, fly⟩ := neither
  -- above any height limit of the cell, but just below a no-fly cell
  obtain ⟨z, above, high⟩ : ∃ z : K,
      (∀ area, map.recorded j i = some area → area.heightLimit ≤ z) ∧
        unknownHeight - 1 ≤ z := by
    cases map.recorded j i with
    | none => exact ⟨unknownHeight - 1, by simp, le_rfl⟩
    | some area =>
        refine ⟨max area.heightLimit (unknownHeight - 1), ?_, le_max_right _ _⟩
        rintro _ ⟨⟩
        exact le_max_left _ _
  obtain ⟨ret, checks⟩ := exists_checkBlockAround inGrid inCell z
    (z - (unknownHeight - 1))
  have reported : ret = .ok :=
    complete x y z 0 (z - (unknownHeight - 1)) ret le_rfl (by linarith)
      (by linarith) ⟨j, i, inGrid, inCell⟩ noFly checks
  rw [reported] at checks
  have blocks := blocks_of_eq_ok checks inGrid inCell
  rw [LoadedMap.Blocks, blockz_eq_ground fly above, sub_sub_cancel] at blocks
  exact lt_asymm blocks (ground_lt map.toMapInfo known)

/-- One cell of height zero, with a no-fly area in its middle. -/
def smallAreaMap : MapInfo ℚ where
  blockMin := ⟨100, 100, 0⟩
  blockSize := ⟨10, 10, 1⟩
  blockCountX := 1
  blockCountY := 1
  countsFit := oneCell_countsFit
  node := squareNodes 105 105 1
  restriction := [squareArea 0 105 105 1 (-1)]
  block _ _ := ⟨1, 0⟩

end Hdmap
end Pilot2Cloud
