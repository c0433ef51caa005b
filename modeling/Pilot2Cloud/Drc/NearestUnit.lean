import Mathlib.Data.List.Induction
import Mathlib.Data.Finset.Max
import Pilot2Cloud.Drc.Geofencing
import Pilot2Cloud.Foundation.RunningMinimum

/-!
# The nearest unit of a point

The index has for every unit the polygons that were given for it, whatever calls
came before.  The unit that is answered is a nearest one of the units of the
point, as long as the bound of the search is above its distance or it is the
only one.
-/

namespace Pilot2Cloud
namespace Drc

open Foundation

variable {D : Type}

/-! ## What was given -/

/-- The polygons of a call, each with its unit. -/
def Call.polygons : Call D → List (UInt32 × Polygon D)
  | .initConfig pbConfig =>
      pbConfig.flatMap fun data =>
        data.polygonGeofencingList.map (Prod.mk data.uldrsuId)
  | _ => []

/-- The polygons of all calls, each with its unit. -/
def givenPolygons (calls : List (Call D)) : List (UInt32 × Polygon D) :=
  calls.flatMap Call.polygons

/-- The position that a call leaves a unit at. -/
def Call.place (positions : UInt32 → DrcVector3d D) :
    Call D → UInt32 → DrcVector3d D
  | .addDrsuPos ulDrsuId pos => Function.update positions ulDrsuId pos
  | _ => positions

/-- The last position that was given for a unit.  A unit without one is at the
zero vector. -/
def givenPosition [Zero D] (calls : List (Call D)) : UInt32 → DrcVector3d D :=
  calls.foldl Call.place fun _ => ⟨0, 0, 0⟩

/-- The polygons fit into the arrays. -/
def Fits (polygons : List (UInt32 × Polygon D)) : Prop :=
  polygons.length ≤ polygonMaxNumbers ∧
    ∀ polygon ∈ polygons, polygon.2.length ≤ pointMaxNumbers

instance (polygons : List (UInt32 × Polygon D)) : Decidable (Fits polygons) :=
  inferInstanceAs (Decidable (_ ∧ _))

/-- The first of some areas that fit do so. -/
theorem Fits.of_append {front back : List (UInt32 × Polygon D)}
    (fits : Fits (front ++ back)) : Fits front := by
  obtain ⟨few, small⟩ := fits
  rw [List.length_append] at few
  exact ⟨(Nat.le_add_right _ _).trans few,
    fun polygon isMember => small polygon (List.mem_append_left _ isMember)⟩

/-! ## The grids of the units -/

/-- The grids are the polygons, and the index lists those of each unit. -/
structure Grids (fence : Geofencing D) (polygons : List (UInt32 × Polygon D)) :
    Prop where
  fits : Fits polygons
  grid : fence.polyGrid = polygons.map Prod.snd
  index : ∀ id i,
    i ∈ (fence.drsuPolygonIndex.lookup id).getD [] ↔
      ∃ polygon, polygons[i]? = some (id, polygon)

variable {fence next : Geofencing D} {polygons more : List (UInt32 × Polygon D)}
  {id : UInt32} {polygon : Polygon D}

/-- Without areas the grids are right. -/
theorem Grids.new : Grids (Geofencing.new : Geofencing D) [] where
  fits := ⟨Nat.zero_le _,
    fun polygon isMember => absurd isMember List.not_mem_nil⟩
  grid := rfl
  index := by
    intro id i
    simp [Geofencing.new]

/-- The positions of the units do not matter to the grids. -/
theorem Grids.congr (grids : Grids fence polygons)
    (sameGrid : next.polyGrid = fence.polyGrid)
    (sameIndex : next.drsuPolygonIndex = fence.drsuPolygonIndex) :
    Grids next polygons where
  fits := grids.fits
  grid := sameGrid.trans grids.grid
  index := by
    rw [sameIndex]
    exact grids.index

/-- The index after a new grid. -/
theorem mem_lookup_pushIndex {index : AList fun _ : UInt32 => List Nat}
    {polyCnt i : Nat} {other : UInt32} :
    i ∈ ((Geofencing.pushIndex index id polyCnt).lookup other).getD [] ↔
      i ∈ (index.lookup other).getD [] ∨ other = id ∧ i = polyCnt := by
  unfold Geofencing.pushIndex
  by_cases isUnit : other = id
  · subst isUnit
    cases found : index.lookup other with
    | none => simp
    | some vp => simp
  · cases found : index.lookup id with
    | none => simp [AList.lookup_insert_ne isUnit, isUnit]
    | some vp => simp [AList.lookup_insert_ne isUnit, isUnit]

theorem getElem?_append_singleton_iff {entry last : UInt32 × Polygon D}
    {i : Nat} :
    (polygons ++ [last])[i]? = some entry ↔
      polygons[i]? = some entry ∨ i = polygons.length ∧ entry = last := by
  rw [List.getElem?_append]
  split_ifs with isOld
  · simp [isOld.ne]
  · rw [List.getElem?_eq_none (not_lt.mp isOld)]
    obtain rfl | later := eq_or_lt_of_le (not_lt.mp isOld)
    · simp [eq_comm]
    · have isPositive : 0 < i - polygons.length := Nat.sub_pos_of_lt later
      simp [later.ne', Nat.ne_of_gt isPositive]

/-- An area that fits is added. -/
theorem Grids.addPolygon (grids : Grids fence polygons)
    (fits : Fits (polygons ++ [(id, polygon)])) :
    ∃ next, fence.addPolygon id polygon = some next ∧
      Grids next (polygons ++ [(id, polygon)]) ∧
      next.stDrsuPosMap = fence.stDrsuPosMap := by
  have few : fence.polyGrid.length < polygonMaxNumbers := by
    have bound := fits.1
    rw [List.length_append, List.length_singleton] at bound
    rw [grids.grid, List.length_map]
    exact bound
  have small : polygon.length ≤ pointMaxNumbers :=
    fits.2 (id, polygon) (List.mem_append_right _ List.mem_cons_self)
  unfold Geofencing.addPolygon
  dsimp only
  rw [if_neg (not_lt.mpr small), if_neg (not_le.mpr few)]
  refine ⟨_, rfl, ⟨fits, ?_, ?_⟩, rfl⟩
  · rw [grids.grid, List.map_append]
    rfl
  · intro other i
    rw [mem_lookup_pushIndex, grids.index, grids.grid, List.length_map]
    simp only [getElem?_append_singleton_iff, Prod.mk.injEq]
    constructor
    · rintro (⟨old, isOld⟩ | ⟨rfl, rfl⟩)
      · exact ⟨old, .inl isOld⟩
      · exact ⟨polygon, .inr ⟨rfl, rfl, rfl⟩⟩
    · rintro ⟨old, isOld | ⟨isLast, isUnit, -⟩⟩
      · exact .inl ⟨old, isOld⟩
      · exact .inr ⟨isUnit, isLast⟩

/-- An area that is added fits. -/
theorem Grids.fits_of_addPolygon (grids : Grids fence polygons)
    (added : fence.addPolygon id polygon = some next) :
    Fits (polygons ++ [(id, polygon)]) := by
  unfold Geofencing.addPolygon at added
  dsimp only at added
  split_ifs at added with isLarge isFull
  refine ⟨?_, ?_⟩
  · rw [grids.grid, List.length_map] at isFull
    rw [List.length_append, List.length_singleton]
    exact not_le.mp isFull
  · intro entry isMember
    obtain isOld | isLast := List.mem_append.mp isMember
    · exact grids.fits.2 entry isOld
    · rw [List.mem_singleton.mp isLast]
      exact not_lt.mp isLarge

/-- The configuration is added polygon by polygon. -/
theorem initConfig_eq (fence : Geofencing D) (pbConfig : DrsuCfgFile D) :
    fence.initConfig pbConfig =
      (Call.initConfig pbConfig).polygons.foldlM
        (fun fence entry => fence.addPolygon entry.1 entry.2) fence := by
  have isData (data : DrsuRangeConfigData D) (fence : Geofencing D) :
      fence.analysisDrsuRangeCfgData data =
        (data.polygonGeofencingList.map (Prod.mk data.uldrsuId)).foldlM
          (fun fence entry => fence.addPolygon entry.1 entry.2) fence := by
    unfold Geofencing.analysisDrsuRangeCfgData
    dsimp only
    rw [List.foldlM_map]
    split_ifs with isEmpty
    · rw [List.eq_nil_of_length_eq_zero isEmpty]
      rfl
    · rfl
  unfold Geofencing.initConfig
  induction pbConfig generalizing fence with
  | nil => rfl
  | cons data pbConfig inductionHypothesis =>
      have isSplit : (Call.initConfig (data :: pbConfig)).polygons =
          data.polygonGeofencingList.map (Prod.mk data.uldrsuId) ++
            (Call.initConfig pbConfig).polygons := rfl
      rw [isSplit, List.foldlM_append, List.foldlM_cons, isData]
      congr 1
      funext fence
      exact inductionHypothesis fence

/-- Areas that fit are added. -/
theorem Grids.foldlM (grids : Grids fence polygons)
    (fits : Fits (polygons ++ more)) :
    ∃ next,
      more.foldlM (fun fence entry => fence.addPolygon entry.1 entry.2) fence =
          some next ∧
        Grids next (polygons ++ more) ∧
        next.stDrsuPosMap = fence.stDrsuPosMap := by
  induction more generalizing fence polygons with
  | nil =>
      rw [List.append_nil]
      exact ⟨fence, rfl, grids, rfl⟩
  | cons entry more inductionHypothesis =>
      have isSplit :
          polygons ++ entry :: more = (polygons ++ [entry]) ++ more := by
        simp
      rw [isSplit] at fits ⊢
      obtain ⟨middle, isMiddle, middleGrids, middlePositions⟩ :=
        grids.addPolygon fits.of_append
      obtain ⟨next, isNext, nextGrids, nextPositions⟩ :=
        inductionHypothesis middleGrids fits
      refine ⟨next, ?_, nextGrids, nextPositions.trans middlePositions⟩
      rw [List.foldlM_cons, isMiddle]
      exact isNext

/-- Areas that are added fit. -/
theorem Grids.fits_of_foldlM (grids : Grids fence polygons)
    (added : more.foldlM (fun fence entry => fence.addPolygon entry.1 entry.2)
      fence = some next) :
    Fits (polygons ++ more) := by
  induction more generalizing fence polygons with
  | nil =>
      rw [List.append_nil]
      exact grids.fits
  | cons entry more inductionHypothesis =>
      have isSplit :
          polygons ++ entry :: more = (polygons ++ [entry]) ++ more := by
        simp
      rw [List.foldlM_cons] at added
      obtain ⟨middle, isMiddle, rest⟩ := Option.bind_eq_some_iff.mp added
      obtain ⟨same, isSame, middleGrids, -⟩ :=
        grids.addPolygon (grids.fits_of_addPolygon isMiddle)
      obtain rfl : same = middle := Option.some.inj (isSame.symm.trans isMiddle)
      rw [isSplit]
      exact inductionHypothesis middleGrids rest

/-! ## Runs of calls -/

section Runs

variable [F64 D] (geometry : Geometry D)

/-- The geofences have the polygons and the positions of the calls. -/
structure Represents (fence : Geofencing D) (calls : List (Call D)) : Prop where
  grids : Grids fence (givenPolygons calls)
  position : ∀ id,
    (fence.stDrsuPosMap.lookup id).getD ⟨0, 0, 0⟩ = givenPosition calls id

variable {geometry} {calls : List (Call D)} {call : Call D}

namespace Geofencing

variable {positions : AList fun _ : UInt32 => DrcVector3d D} {key other : UInt32}

/-- A unit without a position is at the origin. -/
@[simp] theorem subscript_fst :
    (subscript positions key).1 = (positions.lookup key).getD ⟨0, 0, 0⟩ := by
  unfold subscript
  split
  case h_1 pos found => rw [found, Option.getD_some]
  case h_2 absent => rw [absent, Option.getD_none]

/-- Asking for a position changes none. -/
@[simp] theorem lookup_subscript :
    ((subscript positions key).2.lookup other).getD ⟨0, 0, 0⟩ =
      (positions.lookup other).getD ⟨0, 0, 0⟩ := by
  unfold subscript
  split
  case h_1 pos found => rfl
  case h_2 absent =>
    by_cases isUnit : other = key
    · rw [isUnit, AList.lookup_insert, absent]
      rfl
    · rw [AList.lookup_insert_ne isUnit]

variable (coordinateX coordinateY : D) (ids : List Int32) {choice : Choice D}
  {placed : UInt32 → DrcVector3d D}

/-- The loop is a running minimum of the distances, and leaves the positions. -/
theorem foldl_next
    (isPlaced : ∀ id,
      (choice.stDrsuPosMap.lookup id).getD ⟨0, 0, 0⟩ = placed id) :
    let last := ids.foldl (Choice.next coordinateX coordinateY) choice
    (∀ id, (last.stDrsuPosMap.lookup id).getD ⟨0, 0, 0⟩ = placed id) ∧
      (last.ulBestDrsuId, last.dBestDistance) =
        runningMinimum (fun id => dis coordinateX coordinateY (placed id))
          (choice.ulBestDrsuId, choice.dBestDistance)
          (ids.map Int32.toUInt32) := by
  induction ids generalizing choice with
  | nil => exact ⟨isPlaced, rfl⟩
  | cons data ids inductionHypothesis =>
      have isPosition : (subscript choice.stDrsuPosMap data.toUInt32).1 =
          placed data.toUInt32 :=
        subscript_fst.trans (isPlaced _)
      have isNext : choice.next coordinateX coordinateY data =
          if dis coordinateX coordinateY (placed data.toUInt32) <
              choice.dBestDistance then
            { stDrsuPosMap := (subscript choice.stDrsuPosMap data.toUInt32).2
              ulBestDrsuId := data.toUInt32
              dBestDistance :=
                dis coordinateX coordinateY (placed data.toUInt32) }
          else
            { choice with
              stDrsuPosMap :=
                (subscript choice.stDrsuPosMap data.toUInt32).2 } := by
        rw [← isPosition]
        rfl
      have isStep :
          (∀ id,
            ((choice.next coordinateX coordinateY data).stDrsuPosMap.lookup
              id).getD ⟨0, 0, 0⟩ = placed id) ∧
          ((choice.next coordinateX coordinateY data).ulBestDrsuId,
              (choice.next coordinateX coordinateY data).dBestDistance) =
            nearer (fun id => dis coordinateX coordinateY (placed id))
              (choice.ulBestDrsuId, choice.dBestDistance) data.toUInt32 := by
        rw [isNext]
        unfold nearer
        split_ifs with isNear
        · exact ⟨fun id => lookup_subscript.trans (isPlaced id), rfl⟩
        · exact ⟨fun id => lookup_subscript.trans (isPlaced id), rfl⟩
      rw [List.foldl_cons, List.map_cons, runningMinimum_cons, ← isStep.2]
      exact inductionHypothesis isStep.1

variable (geometry fence) (walk : List UInt32) (zone : Int)

/-- A query leaves the grids, and every unit where it is. -/
theorem queryPointInDrsu_snd :
    let next := (fence.queryPointInDrsu geometry walk coordinateX coordinateY
      zone).2
    next.polyGrid = fence.polyGrid ∧
      next.drsuPolygonIndex = fence.drsuPolygonIndex ∧
      ∀ id, (next.stDrsuPosMap.lookup id).getD ⟨0, 0, 0⟩ =
        (fence.stDrsuPosMap.lookup id).getD ⟨0, 0, 0⟩ := by
  unfold queryPointInDrsu
  dsimp only
  split
  case h_1 => exact ⟨rfl, rfl, fun _ => rfl⟩
  case h_2 => exact ⟨rfl, rfl, fun _ => rfl⟩
  case h_3 first second rest isSeveral =>
    exact ⟨rfl, rfl, (foldl_next _ _ _ fun _ => rfl).1⟩

end Geofencing

/-- A new fence represents no calls. -/
theorem Represents.new : Represents (Geofencing.new : Geofencing D) [] where
  grids := Grids.new
  position := fun _ => rfl

omit [F64 D] in
/-- The areas that are given by one more call. -/
@[simp] theorem givenPolygons_concat :
    givenPolygons (calls ++ [call]) = givenPolygons calls ++ call.polygons := by
  unfold givenPolygons
  rw [List.flatMap_append, List.flatMap_singleton]

/-- The positions that are given by one more call. -/
@[simp] theorem givenPosition_concat :
    givenPosition (calls ++ [call]) = call.place (givenPosition calls) := by
  unfold givenPosition
  rw [List.foldl_append]
  rfl

/-- A call whose polygons fit goes through. -/
theorem Represents.run (represents : Represents fence calls)
    (fits : Fits (givenPolygons (calls ++ [call]))) :
    ∃ next, call.run geometry fence = some next ∧
      Represents next (calls ++ [call]) := by
  obtain ⟨grids, position⟩ := represents
  cases call with
  | initConfig pbConfig =>
      rw [givenPolygons_concat] at fits
      obtain ⟨next, isNext, nextGrids, samePositions⟩ := grids.foldlM fits
      refine ⟨next, (initConfig_eq fence pbConfig).trans isNext, ?_, ?_⟩
      · rwa [givenPolygons_concat]
      · rw [samePositions, givenPosition_concat]
        exact position
  | addDrsuPos ulDrsuId pos =>
      refine ⟨_, rfl, ?_, ?_⟩
      · have noPolygons : givenPolygons
            (calls ++ [Call.addDrsuPos ulDrsuId pos]) = givenPolygons calls :=
          givenPolygons_concat.trans (List.append_nil _)
        rw [noPolygons]
        exact grids.congr rfl rfl
      · intro id
        have isPlace : (Call.addDrsuPos ulDrsuId pos).place
            (givenPosition calls) =
              Function.update (givenPosition calls) ulDrsuId pos := rfl
        rw [givenPosition_concat, isPlace]
        unfold Geofencing.addDrsuPos
        by_cases isUnit : id = ulDrsuId
        · rw [isUnit, AList.lookup_insert, Function.update_self]
          rfl
        · rw [AList.lookup_insert_ne isUnit, Function.update_of_ne isUnit]
          exact position id
  | queryPointInDrsu walk coordinateX coordinateY zone =>
      obtain ⟨sameGrid, sameIndex, samePositions⟩ :=
        Geofencing.queryPointInDrsu_snd fence geometry coordinateX coordinateY
          walk zone
      refine ⟨_, rfl, ?_, ?_⟩
      · have noPolygons : givenPolygons
            (calls ++ [Call.queryPointInDrsu walk coordinateX coordinateY
              zone]) = givenPolygons calls :=
          givenPolygons_concat.trans (List.append_nil _)
        rw [noPolygons]
        exact grids.congr sameGrid sameIndex
      · intro id
        rw [givenPosition_concat]
        exact (samePositions id).trans (position id)

/-- The areas of a call that goes through fit. -/
theorem Represents.fits_of_run (represents : Represents fence calls)
    (goesThrough : call.run geometry fence = some next) :
    Fits (givenPolygons (calls ++ [call])) := by
  rw [givenPolygons_concat]
  cases call with
  | initConfig pbConfig =>
      exact represents.grids.fits_of_foldlM
        ((initConfig_eq fence pbConfig).symm.trans goesThrough)
  | addDrsuPos ulDrsuId pos =>
      have noPolygons : (Call.addDrsuPos ulDrsuId pos).polygons = [] := rfl
      rw [noPolygons, List.append_nil]
      exact represents.grids.fits
  | queryPointInDrsu walk coordinateX coordinateY zone =>
      have noPolygons : (Call.queryPointInDrsu walk coordinateX coordinateY
        zone).polygons = [] := rfl
      rw [noPolygons, List.append_nil]
      exact represents.grids.fits

variable (geometry calls)

/-- The calls go through if their polygons fit, and only then. -/
theorem runCalls_spec :
    (Fits (givenPolygons calls) →
        ∃ fence, runCalls geometry calls = some fence ∧
          Represents fence calls) ∧
      (runCalls geometry calls ≠ none → Fits (givenPolygons calls)) := by
  unfold runCalls
  induction calls using List.reverseRecOn with
  | nil =>
      exact ⟨fun _ => ⟨_, rfl, Represents.new⟩, fun _ => Grids.new.fits⟩
  | append_singleton calls call inductionHypothesis =>
      obtain ⟨goes, fits⟩ := inductionHypothesis
      rw [List.foldlM_append]
      constructor
      · intro allFit
        have front : Fits (givenPolygons calls) := by
          rw [givenPolygons_concat] at allFit
          exact allFit.of_append
        obtain ⟨fence, isFence, represents⟩ := goes front
        obtain ⟨next, isNext, nextRepresents⟩ :=
          @Represents.run D fence _ geometry calls call represents allFit
        refine ⟨next, ?_, nextRepresents⟩
        rw [isFence]
        exact (bind_pure _).trans isNext
      · intro goesThrough
        obtain ⟨next, isNext⟩ := Option.ne_none_iff_exists'.mp goesThrough
        obtain ⟨fence, isFence, rest⟩ := Option.bind_eq_some_iff.mp isNext
        have front : Fits (givenPolygons calls) := by
          apply fits
          rw [isFence]
          exact Option.some_ne_none fence
        obtain ⟨same, isSame, represents⟩ := goes front
        obtain rfl : same = fence := Option.some.inj (isSame.symm.trans isFence)
        exact represents.fits_of_run ((bind_pure _).symm.trans rest)

end Runs

/-! ## The answer -/

section Answer

variable [F64 D] (geometry : Geometry D) (calls : List (Call D))
  (point : Point D) (coordinateX coordinateY : D)

/-- The point is in a polygon of the unit. -/
def Owner (id : UInt32) : Prop :=
  ∃ polygon, (id, polygon) ∈ givenPolygons calls ∧
    geometry.gridTest polygon point = true

/-- The distance from the point to the position of a unit. -/
def unitDistance (id : UInt32) : D :=
  Geofencing.dis coordinateX coordinateY (givenPosition calls id)

/-- The unit has the point, and no unit that has it is nearer. -/
def Nearest (id : UInt32) : Prop :=
  Owner geometry calls point id ∧
    ∀ other, Owner geometry calls point other →
      unitDistance calls coordinateX coordinateY id ≤
        unitDistance calls coordinateX coordinateY other

/-- The answer is `-1` just for a point of no unit, and else a nearest unit of
the point. -/
structure AnswersNearest (answer : UInt32) : Prop where
  none_iff : answer = -1 ↔ ∀ id, ¬Owner geometry calls point id
  nearest : (∃ id, Owner geometry calls point id) →
    Nearest geometry calls point coordinateX coordinateY answer

/-- Every nearest unit of the point can be told from no unit, and is below the
bound of the search unless it is the only unit of the point. -/
def Distinguished : Prop :=
  ∀ id, Nearest geometry calls point coordinateX coordinateY id →
    id ≠ -1 ∧
      (unitDistance calls coordinateX coordinateY id < ((9999 : Nat) : D) ∨
        ∀ other, Owner geometry calls point other → other = id)

variable {geometry calls point coordinateX coordinateY} {walk : List UInt32}
  {zone : Int}

omit [F64 D] in
/-- A point is found in a unit exactly when one of its areas holds it. -/
theorem queryPoint_eq_success_iff (grids : Grids fence (givenPolygons calls)) :
    fence.queryPoint geometry point id = .allocationSuccess ↔
      Owner geometry calls point id := by
  have isIndexed := grids.index id
  have isOwner : Owner geometry calls point id ↔
      ∃ i ∈ (fence.drsuPolygonIndex.lookup id).getD [],
        geometry.gridTest (fence.polyGrid.getD i []) point = true := by
    have isGrid {i : Nat} {polygon : Polygon D}
        (found : (givenPolygons calls)[i]? = some (id, polygon)) :
        fence.polyGrid.getD i [] = polygon := by
      rw [List.getD_eq_getElem?_getD, grids.grid, List.getElem?_map, found]
      rfl
    constructor
    · rintro ⟨polygon, isGiven, isInside⟩
      obtain ⟨i, found⟩ := List.mem_iff_getElem?.mp isGiven
      refine ⟨i, (isIndexed i).mpr ⟨polygon, found⟩, ?_⟩
      rwa [isGrid found]
    · rintro ⟨i, isMember, isInside⟩
      obtain ⟨polygon, found⟩ := (isIndexed i).mp isMember
      rw [isGrid found] at isInside
      exact ⟨polygon, List.mem_of_getElem? found, isInside⟩
  rw [isOwner]
  unfold Geofencing.queryPoint
  split
  case h_1 indices found =>
    rw [found, Option.getD_some]
    split_ifs with isAny
    · exact iff_of_true rfl (List.any_eq_true.mp isAny)
    · refine iff_of_false (fun same => by cases same) ?_
      exact fun some => isAny (List.any_eq_true.mpr some)
  case h_2 absent =>
    rw [absent, Option.getD_none]
    refine iff_of_false (fun same => by cases same) ?_
    rintro ⟨i, isMember, -⟩
    exact List.not_mem_nil isMember

omit [F64 D] in
/-- A unit that holds a point has areas. -/
theorem Owner.mem_keys (grids : Grids fence (givenPolygons calls))
    (owner : Owner geometry calls point id) :
    id ∈ fence.drsuPolygonIndex.keys := by
  obtain ⟨polygon, isGiven, -⟩ := owner
  obtain ⟨i, found⟩ := List.mem_iff_getElem?.mp isGiven
  have isMember := (grids.index id i).mpr ⟨polygon, found⟩
  apply AList.lookup_isSome.mp
  cases isUnit : fence.drsuPolygonIndex.lookup id with
  | none =>
      rw [isUnit, Option.getD_none] at isMember
      exact absurd isMember List.not_mem_nil
  | some indices => rfl

/-- The units of the point, in the order of the hash map. -/
def unitsOf (geometry : Geometry D) (fence : Geofencing D) (point : Point D)
    (walk : List UInt32) : List UInt32 :=
  walk.filter fun id =>
    fence.queryPoint geometry point id = .allocationSuccess

/-- What a query answers, from the units of the point in the order of the hash
map. -/
def choose (calls : List (Call D)) (coordinateX coordinateY : D) :
    List UInt32 → UInt32
  | [] => -1
  | [id] => id
  | ids =>
      (runningMinimum (unitDistance calls coordinateX coordinateY)
        (-1, ((9999 : Nat) : D)) ids).1

/-- What the query answers is chosen from the units that hold the point. -/
theorem queryPointInDrsu_fst (represents : Represents fence calls)
    (valid : Geofencing.utm2wgs84 geometry coordinateX coordinateY zone =
      .ok point) :
    (fence.queryPointInDrsu geometry walk coordinateX coordinateY zone).1 =
      choose calls coordinateX coordinateY
        (unitsOf geometry fence point walk) := by
  have isVector : ((walk.map UInt32.toInt32).filter fun ulDrsuId =>
        fence.queryPoint geometry point ulDrsuId.toUInt32 =
          .allocationSuccess).map Int32.toUInt32 =
      unitsOf geometry fence point walk := by
    unfold unitsOf
    rw [List.filter_map, List.map_map]
    simp [Function.comp_def]
  rw [← isVector]
  unfold Geofencing.queryPointInDrsu
  rw [valid]
  dsimp only
  split
  case h_1 isNone => rw [isNone]; rfl
  case h_2 ulDrsuId isOne => rw [isOne]; rfl
  case h_3 first second rest isSeveral =>
    rw [isSeveral]
    have isLoop := (@Geofencing.foldl_next D _ coordinateX coordinateY
      (first :: second :: rest) ⟨fence.stDrsuPosMap, -1, ((9999 : Nat) : D)⟩ _
      represents.position).2
    exact congrArg Prod.fst isLoop

variable {units rest : List UInt32}

/-- Among several units the loop chooses the nearest one. -/
theorem choose_of_several (several : units.length ≠ 0 ∧ units.length ≠ 1) :
    choose calls coordinateX coordinateY units =
      (runningMinimum (unitDistance calls coordinateX coordinateY)
        (-1, ((9999 : Nat) : D)) units).1 := by
  obtain _ | ⟨first, _ | ⟨second, rest⟩⟩ := units
  · exact absurd rfl several.1
  · exact absurd rfl several.2
  · rfl

/-- If the units can be told apart, the choice answers the nearest one. -/
theorem answersNearest_choose (distinct : units.Nodup)
    (members : ∀ id, id ∈ units ↔ Owner geometry calls point id)
    (distinguished :
      Distinguished geometry calls point coordinateX coordinateY) :
    AnswersNearest geometry calls point coordinateX coordinateY
      (choose calls coordinateX coordinateY units) := by
  by_cases isNone : units = []
  · subst isNone
    have noOwner : ∀ id, ¬Owner geometry calls point id :=
      fun id owner => List.not_mem_nil ((members id).mpr owner)
    exact ⟨iff_of_true rfl noOwner, fun ⟨id, owner⟩ => absurd owner (noOwner id)⟩
  · have isNearest : Nearest geometry calls point coordinateX coordinateY
        (choose calls coordinateX coordinateY units) := by
      by_cases isOne : units.length = 1
      · obtain ⟨only, rfl⟩ := List.length_eq_one_iff.mp isOne
        refine ⟨(members only).mp List.mem_cons_self, ?_⟩
        intro other owner
        rw [List.mem_singleton.mp ((members other).mpr owner)]
        exact le_rfl
      · rw [choose_of_several
          ⟨fun isZero => isNone (List.length_eq_zero_iff.mp isZero), isOne⟩]
        obtain ⟨near, isMember, isLeast⟩ := units.toFinset.exists_min_image
          (unitDistance calls coordinateX coordinateY)
          (List.toFinset_nonempty_iff _ |>.mpr isNone)
        rw [List.mem_toFinset] at isMember
        have nearest : Nearest geometry calls point coordinateX coordinateY
            near :=
          ⟨(members near).mp isMember, fun other owner =>
            isLeast other (List.mem_toFinset.mpr ((members other).mpr owner))⟩
        have isBelow : unitDistance calls coordinateX coordinateY near <
            ((9999 : Nat) : D) := by
          refine (distinguished near nearest).2.resolve_right fun alone => ?_
          have isSingle : units = [near] := by
            apply List.perm_singleton.mp
            rw [List.perm_ext_iff_of_nodup distinct (List.nodup_singleton near)]
            intro other
            rw [List.mem_singleton]
            constructor
            · exact fun isUnit => alone other ((members other).mp isUnit)
            · rintro rfl
              exact isMember
          rw [isSingle] at isOne
          exact isOne rfl
        obtain ⟨element, isElement, isFound, least⟩ :=
          @runningMinimum_of_lt _ _ _ _ (-1, ((9999 : Nat) : D)) _ _ isMember
            isBelow
        rw [isFound]
        exact ⟨(members element).mp isElement, fun other owner =>
          least other ((members other).mpr owner)⟩
    refine ⟨iff_of_false (distinguished _ isNearest).1 ?_, fun _ => isNearest⟩
    exact fun noOwner => noOwner _ isNearest.1

/-- A nearest unit that is not distinguished and comes first is not answered. -/
theorem choose_cons_of_nearest
    (isLeast : ∀ other ∈ rest,
      unitDistance calls coordinateX coordinateY id ≤
        unitDistance calls coordinateX coordinateY other)
    (undistinguished : id = -1 ∨
      ((9999 : Nat) : D) ≤ unitDistance calls coordinateX coordinateY id ∧
        rest ≠ []) :
    choose calls coordinateX coordinateY (id :: rest) = -1 := by
  by_cases isOne : rest = []
  · subst isOne
    exact undistinguished.resolve_right fun several => several.2 rfl
  · have several : (id :: rest).length ≠ 0 ∧ (id :: rest).length ≠ 1 := by
      rw [List.length_cons]
      exact ⟨Nat.succ_ne_zero _, fun isSame =>
        isOne (List.length_eq_zero_iff.mp (Nat.succ.inj isSame))⟩
    rw [choose_of_several several]
    by_cases isFar : ((9999 : Nat) : D) ≤
        unitDistance calls coordinateX coordinateY id
    · rw [runningMinimum_of_le]
      intro other isMember
      obtain rfl | later := List.mem_cons.mp isMember
      · exact isFar
      · exact isFar.trans (isLeast other later)
    · have isNear : unitDistance calls coordinateX coordinateY id <
          ((-1, ((9999 : Nat) : D)) : UInt32 × D).2 := not_le.mp isFar
      rw [runningMinimum_cons_of_nearest isNear isLeast]
      exact undistinguished.resolve_right fun isAway => isFar isAway.1

/-- The calls go through and a query answers a nearest unit, in whatever order
the hash map has the units. -/
def AlwaysAnswersNearest (geometry : Geometry D) (calls : List (Call D))
    (point : Point D) (coordinateX coordinateY : D) (zone : Int) : Prop :=
  ∃ fence, runCalls geometry calls = some fence ∧
    ∀ walk : List UInt32, walk.Perm fence.drsuPolygonIndex.keys →
      AnswersNearest geometry calls point coordinateX coordinateY
        (fence.queryPointInDrsu geometry walk coordinateX coordinateY zone).1

/-- The units that are found are those that hold the point. -/
theorem mem_units_iff (represents : Represents fence calls)
    (isWalk : walk.Perm fence.drsuPolygonIndex.keys) :
    id ∈ unitsOf geometry fence point walk ↔ Owner geometry calls point id := by
  unfold unitsOf
  rw [List.mem_filter, decide_eq_true_iff,
    queryPoint_eq_success_iff represents.grids]
  exact and_iff_right_of_imp fun owner =>
    isWalk.mem_iff.mpr (owner.mem_keys represents.grids)

/-- Units that can be told apart are answered right on every walk. -/
theorem AlwaysAnswersNearest.of_distinguished
    (valid : Geofencing.utm2wgs84 geometry coordinateX coordinateY zone =
      .ok point)
    (fits : Fits (givenPolygons calls))
    (distinguished :
      Distinguished geometry calls point coordinateX coordinateY) :
    AlwaysAnswersNearest geometry calls point coordinateX coordinateY zone := by
  obtain ⟨fence, isFence, represents⟩ := (runCalls_spec geometry calls).1 fits
  refine ⟨fence, isFence, fun walk isWalk => ?_⟩
  rw [queryPointInDrsu_fst represents valid]
  refine answersNearest_choose ?_ (fun id => mem_units_iff represents isWalk)
    distinguished
  exact (isWalk.nodup_iff.mpr (AList.keys_nodup _)).filter _

/-- A fence that always answers right has areas that fit. -/
theorem AlwaysAnswersNearest.fits
    (always : AlwaysAnswersNearest geometry calls point coordinateX coordinateY
      zone) :
    Fits (givenPolygons calls) := by
  obtain ⟨fence, isFence, -⟩ := always
  apply (runCalls_spec geometry calls).2
  rw [isFence]
  exact Option.some_ne_none fence

/-- A fence that always answers right has units that can be told apart. -/
theorem AlwaysAnswersNearest.distinguished
    (always : AlwaysAnswersNearest geometry calls point coordinateX coordinateY
      zone)
    (valid : Geofencing.utm2wgs84 geometry coordinateX coordinateY zone =
      .ok point) :
    Distinguished geometry calls point coordinateX coordinateY := by
  obtain ⟨fence, isFence, represents⟩ :=
    (runCalls_spec geometry calls).1 always.fits
  obtain ⟨same, isSame, answers⟩ := always
  obtain rfl : same = fence := Option.some.inj (isSame.symm.trans isFence)
  intro id nearest
  by_contra undistinguished
  have isMember : id ∈ same.drsuPolygonIndex.keys :=
    nearest.1.mem_keys represents.grids
  have isWalk : (id :: same.drsuPolygonIndex.keys.erase id).Perm
      same.drsuPolygonIndex.keys :=
    (List.perm_cons_erase isMember).symm
  have isAnswer := answers _ isWalk
  have isFirst : unitsOf geometry same point
        (id :: same.drsuPolygonIndex.keys.erase id) =
      id :: unitsOf geometry same point (same.drsuPolygonIndex.keys.erase id) :=
    List.filter_cons_of_pos (decide_eq_true
      ((queryPoint_eq_success_iff represents.grids).mpr nearest.1))
  have members {other : UInt32} :=
    @mem_units_iff D same other _ geometry calls point _ represents isWalk
  rw [queryPointInDrsu_fst represents valid, isFirst] at isAnswer
  rw [isFirst] at members
  have isNone := choose_cons_of_nearest
    (fun other later =>
      nearest.2 other (members.mp (List.mem_cons_of_mem _ later)))
    (by
      by_contra notNone
      obtain ⟨isUnit, isNear⟩ := not_or.mp notNone
      refine undistinguished ⟨isUnit, ?_⟩
      by_contra isAway
      obtain ⟨isFar, isSeveral⟩ := not_or.mp isAway
      refine isNear ⟨not_lt.mp isFar, fun isAlone => isSeveral ?_⟩
      intro other owner
      have isFirst := members.mpr owner
      rw [isAlone] at isFirst
      exact List.mem_singleton.mp isFirst)
  exact isAnswer.none_iff.mp isNone id nearest.1

/-- A query answers a nearest unit just if the polygons fit into the arrays and
the nearest units of the point are distinguished. -/
theorem alwaysAnswersNearest_iff
    (valid : Geofencing.utm2wgs84 geometry coordinateX coordinateY zone =
      .ok point) :
    AlwaysAnswersNearest geometry calls point coordinateX coordinateY zone ↔
      Fits (givenPolygons calls) ∧
        Distinguished geometry calls point coordinateX coordinateY :=
  ⟨fun always => ⟨always.fits, always.distinguished valid⟩,
    fun holds => .of_distinguished valid holds.1 holds.2⟩

end Answer

/-! ## Two units -/

/-- Grids of rectangles, and one place of zone 51. -/
def rectangles : Geometry ExactDouble where
  gridTest polygon point :=
    polygon.any (fun corner => corner.1 ≤ point.1) &&
      polygon.any (fun corner => point.1 ≤ corner.1) &&
      polygon.any (fun corner => corner.2 ≤ point.2) &&
      polygon.any (fun corner => point.2 ≤ corner.2)
  gridToGeographic _ _ _ := (123, 27)
  uninitialised := (0, 0)

/-- Two units with the same rectangle, at two positions. -/
def twoUnits (first second : ExactDouble) : List (Call ExactDouble) :=
  let rectangle : Polygon ExactDouble :=
    [(122, 26), (122, 28), (124, 28), (124, 26)]
  [.initConfig [⟨1, [rectangle]⟩, ⟨2, [rectangle]⟩],
    .addDrsuPos 1 ⟨first, 3000000, 0⟩,
    .addDrsuPos 2 ⟨second, 3000000, 0⟩]

/-- Both units of the example hold the point. -/
theorem owner_twoUnits_iff {first second : ExactDouble} {id : UInt32} :
    Owner rectangles (twoUnits first second) (123, 27) id ↔
      id = 1 ∨ id = 2 := by
  have isInside : rectangles.gridTest
      [(122, 26), (122, 28), (124, 28), (124, 26)] (123, 27) = true := by
    decide +kernel
  have isGiven : givenPolygons (twoUnits first second) =
      [(1, [(122, 26), (122, 28), (124, 28), (124, 26)]),
        (2, [(122, 26), (122, 28), (124, 28), (124, 26)])] := rfl
  unfold Owner
  rw [isGiven]
  constructor
  · rintro ⟨polygon, isMember, -⟩
    simp only [List.mem_cons, Prod.mk.injEq, List.not_mem_nil, or_false]
      at isMember
    exact isMember.imp And.left And.left
  · rintro (rfl | rfl)
    · exact ⟨_, List.mem_cons_self, isInside⟩
    · exact ⟨_, List.mem_cons_of_mem _ List.mem_cons_self, isInside⟩

/-- Two units at ten and twenty kilometres from a point of both. -/
theorem not_alwaysAnswersNearest_twoUnits :
    ¬AlwaysAnswersNearest rectangles (twoUnits 510000 520000) (123, 27)
      500000 3000000 51 := by
  intro always
  have isLess : unitDistance (twoUnits 510000 520000) 500000 3000000 1 ≤
      unitDistance (twoUnits 510000 520000) 500000 3000000 2 := by
    decide +kernel
  have nearest : Nearest rectangles (twoUnits 510000 520000) (123, 27)
      500000 3000000 1 := by
    refine ⟨owner_twoUnits_iff.mpr (.inl rfl), ?_⟩
    intro other owner
    obtain rfl | rfl := owner_twoUnits_iff.mp owner
    · exact le_rfl
    · exact isLess
  have valid : Geofencing.utm2wgs84 rectangles 500000 3000000 51 =
      .ok (123, 27) := rfl
  obtain isNear | isAlone := (always.distinguished valid 1 nearest).2
  · exact absurd isNear (by decide +kernel)
  · exact absurd (isAlone 2 (owner_twoUnits_iff.mpr (.inr rfl))) (by decide)

/-- Two units at three and four kilometres from a point of both. -/
theorem alwaysAnswersNearest_twoUnits :
    AlwaysAnswersNearest rectangles (twoUnits 503000 504000) (123, 27)
      500000 3000000 51 := by
  refine (alwaysAnswersNearest_iff rfl).mpr ⟨by decide, ?_⟩
  intro id nearest
  obtain rfl | rfl := owner_twoUnits_iff.mp nearest.1
  · exact ⟨by decide, .inl (by decide +kernel)⟩
  · exact ⟨by decide, .inl (by decide +kernel)⟩

end Drc
end Pilot2Cloud
