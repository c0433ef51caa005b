import Pilot2Cloud.Hdmap.OneCell

/-!
# The path of a flight to a point

`handleFlytoPoint` publishes a target when the check along the line to it finds
nothing at the height of the aircraft.  The height of the target is not
checked, so the path is known to be clear only as far as it does not descend to
heights of cells below the ones that were checked.
-/

namespace Pilot2Cloud
namespace Flyto

open Hdmap Foundation

/-- A point by its coordinates in degrees. -/
structure GeoPoint (K : Type*) where
  lat : K
  lon : K
  deriving DecidableEq

/-- The conversion to plane coordinates and the computation of distances and
courses, which are library functions for this module. -/
structure Geodesy (K : Type*) [Field K] extends UnitTrigonometry K where
  wgs842utm : GeoPoint K → K × K
  calculateDistance : GeoPoint K → GeoPoint K → K
  calculateTargetCourse : GeoPoint K → GeoPoint K → K

/-- The members of a command that say where to fly, and of the published
message. -/
structure FlytoTarget (K : Type*) extends GeoPoint K where
  height : K
  deriving DecidableEq

variable {K : Type*} [Field K] [LinearOrder K]

/-- The distance and the course lead from one point to the other. -/
structure Geodesy.Exact (geodesy : Geodesy K) (current target : GeoPoint K) :
    Prop where
  nonneg : 0 ≤ geodesy.calculateDistance current target
  meets : geodesy.ray (geodesy.wgs842utm current).1
      (geodesy.wgs842utm current).2
      (geodesy.calculateTargetCourse current target)
      (geodesy.calculateDistance current target) =
    geodesy.wgs842utm target

/-- A point of the straight segment in plane coordinates. -/
def Geodesy.segment (geodesy : Geodesy K) (current target : GeoPoint K)
    (part : K) : K × K :=
  let start := geodesy.wgs842utm current
  let stop := geodesy.wgs842utm target
  (start.1 + part * (stop.1 - start.1), start.2 + part * (stop.2 - start.2))

/-- The points of the segment are those of the ray up to the distance. -/
theorem Geodesy.Exact.segment_eq_ray {geodesy : Geodesy K}
    {current target : GeoPoint K} (exact : geodesy.Exact current target)
    (part : K) :
    geodesy.segment current target part =
      geodesy.ray (geodesy.wgs842utm current).1 (geodesy.wgs842utm current).2
        (geodesy.calculateTargetCourse current target)
        (part * geodesy.calculateDistance current target) := by
  rw [segment, ← exact.meets]
  simp only [Trigonometry.ray, add_sub_cancel_left, mul_assoc]

/-- `validateCoordinates`. -/
def validateCoordinates (p1 p2 : GeoPoint K) : Bool :=
  if p1.lat < -90 ∨ 90 < p1.lat ∨ p2.lat < -90 ∨ 90 < p2.lat then false
  else if p1.lon < -halfTurn ∨ halfTurn < p1.lon ∨ p2.lon < -halfTurn ∨
      halfTurn < p2.lon then
    false
  else true

/-- A published flight: a new one or the update of the one in progress. -/
structure FlytoMessage (K : Type*) where
  update : Bool
  point : FlytoTarget K
  deriving DecidableEq

variable [FloorRing K]

/-- `checkBlockAroundLine` for coordinates in degrees. -/
def checkBlockAroundLineLonlat (geodesy : Geodesy K) (map : LoadedMap K)
    (position : GeoPoint K) (z angle length disXy disZ : K) (fuel : Nat) :
    Option (LineResult K) :=
  let utm := geodesy.wgs842utm position
  checkBlockAroundLine geodesy.toTrigonometry map utm.1 utm.2 z angle length
    disXy disZ fuel

/-- What `handleFlytoPoint` publishes for an aircraft at `current`. -/
def handleFlytoPoint (geodesy : Geodesy K) (map : LoadedMap K)
    (flytoInProgress : Bool) (current target : FlytoTarget K) (fuel : Nat) :
    Option (FlytoMessage K) :=
  if validateCoordinates current.toGeoPoint target.toGeoPoint then
    let distance :=
      geodesy.calculateDistance current.toGeoPoint target.toGeoPoint
    let course :=
      geodesy.calculateTargetCourse current.toGeoPoint target.toGeoPoint
    match checkBlockAroundLineLonlat geodesy map current.toGeoPoint
        current.height course distance 5 1 fuel with
    | some (.returned .over _) => some ⟨flytoInProgress, target⟩
    | _ => none
  else none

/-- The message is published, whatever the check needs. -/
def Publishes (geodesy : Geodesy K) (map : LoadedMap K)
    (current target : FlytoTarget K) (message : FlytoMessage K) : Prop :=
  ∃ flytoInProgress fuel,
    handleFlytoPoint geodesy map flytoInProgress current target fuel =
      some message

/-- No point of the segment from the aircraft to the target is in a cell of the
grid that is higher than the segment there or no-fly. -/
def ClearPath (geodesy : Geodesy K) (map : LoadedMap K)
    (current target : FlytoTarget K) : Prop :=
  ∀ part, 0 ≤ part → part ≤ 1 → ∀ j i, map.InGrid j i →
    map.InCell j i
      (geodesy.segment current.toGeoPoint target.toGeoPoint part).1
      (geodesy.segment current.toGeoPoint target.toGeoPoint part).2 →
    map.ground j i ≤
        current.height + part * (target.height - current.height) ∧
      map.cellRestriction j i ≠ ⊤

/-- A height of a cell that the check at the height of the aircraft lets pass is
not above the target. -/
def HeightCovered (current target : FlytoTarget K) : Prop :=
  current.height - 1 < unknownHeight ∧
    ∀ zmaxMm : Int32, heightOfMm zmaxMm ≤ current.height - 1 →
      heightOfMm zmaxMm ≤ target.height

/-- A target is published after a check along the line that found nothing. -/
theorem over_of_publishes {geodesy : Geodesy K} {map : LoadedMap K}
    {current target : FlytoTarget K} {message : FlytoMessage K}
    (published : Publishes geodesy map current target message) :
    message.point = target ∧ ∃ fuel safeDis,
      checkBlockAroundLineLonlat geodesy map current.toGeoPoint current.height
        (geodesy.calculateTargetCourse current.toGeoPoint target.toGeoPoint)
        (geodesy.calculateDistance current.toGeoPoint target.toGeoPoint) 5 1
        fuel = some (.returned .over safeDis) := by
  obtain ⟨flytoInProgress, fuel, handled⟩ := published
  simp only [handleFlytoPoint] at handled
  split at handled
  · split at handled
    · next safeDis unblocked =>
      cases handled
      exact ⟨rfl, fuel, safeDis, unblocked⟩
    · cases handled
  · cases handled

/-- A line that the check finds clear is published if the coordinates are
valid. -/
theorem publishes_of_over {geodesy : Geodesy K} {map : LoadedMap K}
    {current target : FlytoTarget K} {fuel : Nat} {safeDis : K}
    (valid : validateCoordinates current.toGeoPoint target.toGeoPoint = true)
    (unblocked : checkBlockAroundLineLonlat geodesy map current.toGeoPoint
      current.height
      (geodesy.calculateTargetCourse current.toGeoPoint target.toGeoPoint)
      (geodesy.calculateDistance current.toGeoPoint target.toGeoPoint) 5 1
      fuel = some (.returned .over safeDis)) :
    Publishes geodesy map current target ⟨false, target⟩ := by
  refine ⟨false, fuel, ?_⟩
  simp only [handleFlytoPoint, valid, if_true, unblocked]

/-- A grid of one cell around the line from the aircraft to the target. -/
def pathCell (geodesy : Geodesy K) (current target : FlytoTarget K)
    (block : BlockHeight) (restriction : List (MapArea K)) : MapInfo K :=
  oneCell (geodesy.wgs842utm current.toGeoPoint).1
    (geodesy.wgs842utm current.toGeoPoint).2
    (geodesy.calculateDistance current.toGeoPoint target.toGeoPoint + 6)
    block restriction

section Descent

variable [IsStrictOrderedRing K] {geodesy : Geodesy K} {map : LoadedMap K}
  {current target : FlytoTarget K}

/-- A cell that does not block at the height of the aircraft is not above any
point of the segment. -/
theorem ground_le_of_heightCovered (covered : HeightCovered current target)
    {j i : Int} (free : ¬map.Blocks j i current.height 1) {part : K}
    (nonneg : 0 ≤ part) (le : part ≤ 1) :
    map.ground j i ≤
      current.height + part * (target.height - current.height) := by
  have checked : map.ground j i ≤ current.height - 1 := by
    by_contra below
    exact free (blocks_of_ground zero_le_one (not_le.mp below))
  have known : 0 < (map.block j i).zI := by
    by_contra unknown
    rw [MapInfo.ground, if_neg unknown] at checked
    exact checked.not_gt covered.1
  have reached : map.ground j i ≤ target.height := by
    rw [MapInfo.ground, if_pos known] at checked ⊢
    exact covered.2 _ checked
  have fromStart : 0 ≤ (1 - part) * (current.height - map.ground j i) :=
    mul_nonneg (by linarith) (by linarith)
  have toTarget : 0 ≤ part * (target.height - map.ground j i) :=
    mul_nonneg nonneg (by linarith)
  linarith

/-- If the requested height is covered, the path of a published flight is
clear. -/
theorem clearPath_of_heightCovered {message : FlytoMessage K}
    (exact : geodesy.Exact current.toGeoPoint target.toGeoPoint)
    (covered : HeightCovered current target)
    (published : Publishes geodesy map current target message) :
    ClearPath geodesy map current message.point := by
  obtain ⟨same, fuel, safeDis, unblocked⟩ := over_of_publishes published
  rw [same]
  have clear := (clear_of_checkBlockAroundLine _ _ _ _ _ _ _ _ _
    (by norm_num) unblocked).2 rfl
  intro part nonneg le j i inGrid inCell
  have free : ¬map.Blocks j i current.height 1 := by
    intro blocks
    rw [exact.segment_eq_ray] at inCell
    refine clear _ (mul_nonneg nonneg exact.nonneg) ?_
      ⟨j, i, inGrid, inCell, blocks⟩
    exact mul_le_of_le_one_left exact.nonneg le
  constructor
  · exact ground_le_of_heightCovered covered free nonneg le
  · intro noFly
    exact free (blocks_of_noFly noFly covered.1)

/-- If all paths published over a map of one cell are clear and the cell does
not block, it is not no-fly and not above any point of the segment. -/
theorem clear_pathCell {block : BlockHeight} {restriction : List (MapArea K)}
    (exact : geodesy.Exact current.toGeoPoint target.toGeoPoint)
    (valid : validateCoordinates current.toGeoPoint target.toGeoPoint = true)
    (loads : setMapBlockArea
      (pathCell geodesy current target block restriction) = some map)
    (free : ¬map.Blocks 0 0 current.height 1)
    (safe : ∀ message, Publishes geodesy map current target message →
      ClearPath geodesy map current message.point)
    {part : K} (nonneg : 0 ≤ part) (le : part ≤ 1) :
    map.ground 0 0 ≤
        current.height + part * (target.height - current.height) ∧
      map.cellRestriction 0 0 ≠ ⊤ := by
  obtain ⟨fuel, safeDis, unblocked⟩ := checkBlockAroundLine_oneCell loads
    geodesy.toUnitTrigonometry
    (geodesy.calculateTargetCourse current.toGeoPoint target.toGeoPoint)
    exact.nonneg (show (0 : K) < 5 by norm_num) (by linarith) free
  have clear := safe _ (publishes_of_over valid unblocked)
  have near : |part * geodesy.calculateDistance current.toGeoPoint
      target.toGeoPoint - 0| ≤
      geodesy.calculateDistance current.toGeoPoint target.toGeoPoint := by
    rw [sub_zero, abs_of_nonneg (mul_nonneg nonneg exact.nonneg)]
    exact mul_le_of_le_one_left exact.nonneg le
  obtain ⟨nearX, nearY⟩ := geodesy.ray_near
    (geodesy.wgs842utm current.toGeoPoint).1
    (geodesy.wgs842utm current.toGeoPoint).2
    (geodesy.calculateTargetCourse current.toGeoPoint target.toGeoPoint) near
  rw [Trigonometry.ray_zero] at nearX nearY
  apply clear part nonneg le 0 0
  · rw [toMapInfo_of_loaded loads]
    exact inGrid_oneCell
  · rw [toMapInfo_of_loaded loads, exact.segment_eq_ray]
    exact inCell_oneCell nearX nearY (by linarith)

end Descent

variable [IsStrictOrderedRing K] {geodesy : Geodesy K}
  {current target : FlytoTarget K}

/-- If the path of every published flight is clear, the requested height is
covered. -/
theorem heightCovered_of_clearPath
    (exact : geodesy.Exact current.toGeoPoint target.toGeoPoint)
    (valid : validateCoordinates current.toGeoPoint target.toGeoPoint = true)
    (safe : ∀ raw map, setMapBlockArea raw = some map → ∀ message,
      Publishes geodesy map current target message →
      ClearPath geodesy map current message.point) :
    HeightCovered current target := by
  constructor
  · by_contra high
    obtain ⟨map, loads⟩ := exists_loaded_of_few (show
      (pathCell geodesy current target ⟨1, 0⟩
        [cornerArea _ _ _ restrictNoFly]).restriction.length ≤ 127 by
          simp [pathCell, oneCell])
    have noFly : map.cellRestriction 0 0 = ⊤ := cellRestriction_oneCell loads
    have free : ¬map.Blocks 0 0 current.height 1 := by
      rwa [LoadedMap.Blocks, blockz_of_noFly noFly]
    exact (clear_pathCell exact valid loads free (safe _ map loads) le_rfl
      zero_le_one).2 noFly
  · intro zmaxMm low
    obtain ⟨map, loads⟩ := exists_loaded_of_few (show
      (pathCell geodesy current target ⟨1, zmaxMm⟩ []).restriction.length ≤ 127
        by simp [pathCell, oneCell])
    have free : ¬map.Blocks 0 0 current.height 1 := by
      rw [LoadedMap.Blocks, blockz_oneCell (show (0 : Int16) < 1 by decide) loads]
      exact low.not_gt
    have ground := (clear_pathCell exact valid loads free (safe _ map loads)
      zero_le_one le_rfl).1
    rw [toMapInfo_of_loaded loads] at ground
    have height : (pathCell geodesy current target ⟨1, zmaxMm⟩ []).ground 0 0 =
        heightOfMm zmaxMm := rfl
    linarith

/-- A flat earth on which all flights lead east. -/
def flatGeodesy : Geodesy ℚ where
  toUnitTrigonometry := eastward
  wgs842utm point := (100000 * point.lon, 100000 * point.lat)
  calculateDistance current target := 100000 * (target.lon - current.lon)
  calculateTargetCourse _ _ := 0

/-- Thirty metres east of the start of a flight. -/
def eastOfStart (height : ℚ) : FlytoTarget ℚ where
  lat := 30
  lon := 1200003 / 10000
  height := height

/-- A start for examples. -/
def startOfFlight : FlytoTarget ℚ where
  lat := 30
  lon := 120
  height := 50

/-- The example's lengths and angles are exact. -/
theorem exact_eastOfStart (height : ℚ) :
    flatGeodesy.Exact startOfFlight.toGeoPoint
      (eastOfStart height).toGeoPoint := by
  constructor
  · norm_num [flatGeodesy, startOfFlight, eastOfStart]
  · norm_num [flatGeodesy, startOfFlight, eastOfStart, eastward,
      Trigonometry.ray]

/-- A cell of 40 metres, over which an aircraft at 50 metres is sent down to
10 metres. -/
def hillMap : MapInfo ℚ :=
  pathCell flatGeodesy startOfFlight (eastOfStart 10) ⟨1, 40000⟩ []

end Flyto
end Pilot2Cloud
