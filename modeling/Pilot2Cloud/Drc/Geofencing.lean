import Mathlib.Algebra.Order.Field.Rat
import Mathlib.Data.List.AList
import Mathlib.Data.Rat.Cast.Order

/-!
# Geofences of the units

Every unit has polygons, which are set up as grids in one array; an index of the
hash map lists the grids of a unit.  A point belongs to the units that have a
grid around it, and among several the nearest one is chosen.
-/

namespace Pilot2Cloud
namespace Drc

/-- The arithmetic of doubles that are numbers.  Nothing is asked of the
rounding. -/
class F64 (D : Type) extends LinearOrder D, Zero D, Add D, Sub D, NatCast D where
  /-- `pow(value, 2)` -/
  square : D → D
  sqrt : D → D

/-- Numbers without rounding, with the roots of the squares. -/
def ExactDouble := ℚ

instance : LinearOrder ExactDouble := inferInstanceAs (LinearOrder ℚ)

instance : Zero ExactDouble := inferInstanceAs (Zero ℚ)

instance : Add ExactDouble := inferInstanceAs (Add ℚ)

instance : Sub ExactDouble := inferInstanceAs (Sub ℚ)

instance : NatCast ExactDouble := inferInstanceAs (NatCast ℚ)

instance : F64 ExactDouble where
  square := fun value : ℚ => (value * value : ℚ)
  sqrt := fun value : ℚ =>
    ((Nat.sqrt value.num.toNat : ℚ) / (Nat.sqrt value.den : ℚ) : ℚ)

variable {D : Type}

/-- A place in the plane. -/
abbrev Point (D : Type) := D × D

/-- The vertices of an area, in their order. -/
abbrev Polygon (D : Type) := List (Point D)

/-- `DrcVector3d`. -/
structure DrcVector3d (D : Type) where
  dbx : D
  dby : D
  dbz : D

/-- What is computed elsewhere: whether a grid has a point inside, the
conversion from a zone to longitude and latitude, and what two locals hold that
nothing was written to. -/
structure Geometry (D : Type) where
  gridTest : Polygon D → Point D → Bool
  gridToGeographic : Int → D → D → Point D
  uninitialised : Point D

/-- `DrsuRangeConfigData`: a unit and its areas. -/
structure DrsuRangeConfigData (D : Type) where
  uldrsuId : UInt32
  polygonGeofencingList : List (Polygon D)

/-- The configuration of `drsu_cfg_file`. -/
abbrev DrsuCfgFile (D : Type) := List (DrsuRangeConfigData D)

/-- The number of points an area may have. -/
def pointMaxNumbers : Nat := 200

/-- The number of areas there may be. -/
def polygonMaxNumbers : Nat := 15010

/-- The grids that were set up, the grids of each unit and the positions of the
units. -/
structure Geofencing (D : Type) where
  drsuPolygonIndex : AList fun _ : UInt32 => List Nat
  polyGrid : List (Polygon D)
  stDrsuPosMap : AList fun _ : UInt32 => DrcVector3d D

/-- The results of a query. -/
inductive Allocation
  | allocationSuccess
  | parameterError
  | outOfRange
  | coordinateSystemError
  | errorOther
  deriving DecidableEq

namespace Geofencing

/-- A fence without units. -/
def new : Geofencing D where
  drsuPolygonIndex := ∅
  polyGrid := []
  stDrsuPosMap := ∅

/-- `AddDrsuPos`. -/
def addDrsuPos (fence : Geofencing D) (ulDrsuId : UInt32)
    (pos : DrcVector3d D) : Geofencing D :=
  { fence with stDrsuPosMap := fence.stDrsuPosMap.insert ulDrsuId pos }

/-- Add a grid to those of a unit. -/
def pushIndex (drsuPolygonIndex : AList fun _ : UInt32 => List Nat)
    (ulDrsuId : UInt32) (polyCnt : Nat) : AList fun _ : UInt32 => List Nat :=
  match drsuPolygonIndex.lookup ulDrsuId with
  | none => drsuPolygonIndex.insert ulDrsuId [polyCnt]
  | some vp => drsuPolygonIndex.insert ulDrsuId (vp ++ [polyCnt])

/-- Nothing when the points are written behind `pgon` or the grid is set up
behind `PolyGrid`. -/
def addPolygon (fence : Geofencing D) (ulDrsuId : UInt32)
    (polygon : Polygon D) : Option (Geofencing D) :=
  let polyCnt := fence.polyGrid.length
  if pointMaxNumbers < polygon.length then none
  else if polygonMaxNumbers ≤ polyCnt then none
  else
    some
      { fence with
        polyGrid := fence.polyGrid ++ [polygon]
        drsuPolygonIndex :=
          pushIndex fence.drsuPolygonIndex ulDrsuId polyCnt }

/-- `analysisDrsuRangeCfgData`: enter the areas of a unit, if it has any. -/
def analysisDrsuRangeCfgData (fence : Geofencing D)
    (drsuRangeCfgData : DrsuRangeConfigData D) : Option (Geofencing D) :=
  let geofencingSize := drsuRangeCfgData.polygonGeofencingList.length
  if geofencingSize = 0 then some fence
  else
    drsuRangeCfgData.polygonGeofencingList.foldlM
      (fun fence polygon => fence.addPolygon drsuRangeCfgData.uldrsuId polygon)
      fence

/-- `InitConfig`, which goes on to `InitPolygonList`. -/
def initConfig (fence : Geofencing D) (pbConfig : DrsuCfgFile D) :
    Option (Geofencing D) :=
  pbConfig.foldlM analysisDrsuRangeCfgData fence

/-- `FindPolygonID`. -/
def findPolygonID (fence : Geofencing D) (ulID : UInt32) : Bool :=
  (fence.drsuPolygonIndex.lookup ulID).isSome

variable (geometry : Geometry D) (fence : Geofencing D)

/-- Is the point in one of the areas of a unit? -/
def queryPoint (point : Point D) (ulDrsuID : UInt32) : Allocation :=
  match fence.drsuPolygonIndex.lookup ulDrsuID with
  | some indices =>
      if indices.any fun i => geometry.gridTest (fence.polyGrid.getD i []) point
      then .allocationSuccess
      else .outOfRange
  | none => .outOfRange

variable [F64 D]

/-- The point, or the error of the arguments. -/
def utm2wgs84 (utmEast utmNorth : D) (zone : Int) : Except Int (Point D) :=
  if utmEast ≤ 0 ∨ utmNorth ≤ 0 then .error (-1)
  else if zone < 1 ∨ 60 < zone then .error (-2)
  else .ok (geometry.gridToGeographic zone utmNorth utmEast)

/-- `QueryLocationArea` of a place that is given in UTM coordinates. -/
def queryLocationArea (coordinateX coordinateY : D) (zone : Int)
    (ulDrsuId : UInt32) : Allocation :=
  match utm2wgs84 geometry coordinateX coordinateY zone with
  | .error _ => .parameterError
  | .ok point =>
      match fence.queryPoint geometry point ulDrsuId with
      | .allocationSuccess => .allocationSuccess
      | .outOfRange => .outOfRange
      | _ => .errorOther

/-- `operator[]`: a unit without a position gets the zero vector. -/
def subscript (stDrsuPosMap : AList fun _ : UInt32 => DrcVector3d D)
    (key : UInt32) : DrcVector3d D × AList fun _ : UInt32 => DrcVector3d D :=
  match stDrsuPosMap.lookup key with
  | some pos => (pos, stDrsuPosMap)
  | none => (⟨0, 0, 0⟩, stDrsuPosMap.insert key ⟨0, 0, 0⟩)

/-- The distance to a position in the plane. -/
def dis (coordinateX coordinateY : D) (pos : DrcVector3d D) : D :=
  F64.sqrt (F64.square (pos.dbx - coordinateX) +
    F64.square (pos.dby - coordinateY))

/-- The locals of the choice among several units. -/
structure Choice (D : Type) where
  stDrsuPosMap : AList fun _ : UInt32 => DrcVector3d D
  ulBestDrsuId : UInt32
  dBestDistance : D

/-- One round of the loop that looks for the nearest unit. -/
def Choice.next (coordinateX coordinateY : D) (choice : Choice D)
    (data : Int32) : Choice D :=
  let (pos, stDrsuPosMap) := subscript choice.stDrsuPosMap data.toUInt32
  let dis := dis coordinateX coordinateY pos
  if dis < choice.dBestDistance then
    { stDrsuPosMap := stDrsuPosMap
      ulBestDrsuId := data.toUInt32
      dBestDistance := dis }
  else { choice with stDrsuPosMap := stDrsuPosMap }

/-- The unit of a point and what is left of the positions.  The units are asked
in the order `walk` in which the hash map has them.  The result of the
conversion is not looked at. -/
def queryPointInDrsu (walk : List UInt32) (coordinateX coordinateY : D)
    (zone : Int) : UInt32 × Geofencing D :=
  let point :=
    match utm2wgs84 geometry coordinateX coordinateY zone with
    | .ok point => point
    | .error _ => geometry.uninitialised
  let drsuIdVec :=
    (walk.map UInt32.toInt32).filter fun ulDrsuId =>
      fence.queryPoint geometry point ulDrsuId.toUInt32 = .allocationSuccess
  match drsuIdVec with
  | [] => (-1, fence)
  | [ulDrsuId] => (ulDrsuId.toUInt32, fence)
  | _ :: _ :: _ =>
      let choice :=
        drsuIdVec.foldl (Choice.next coordinateX coordinateY)
          { stDrsuPosMap := fence.stDrsuPosMap
            ulBestDrsuId := -1
            dBestDistance := ((9999 : Nat) : D) }
      (choice.ulBestDrsuId, { fence with stDrsuPosMap := choice.stDrsuPosMap })

end Geofencing

/-- What other modules call, with the order of the hash map at a query. -/
inductive Call (D : Type)
  | initConfig (pbConfig : DrsuCfgFile D)
  | addDrsuPos (ulDrsuId : UInt32) (pos : DrcVector3d D)
  | queryPointInDrsu (walk : List UInt32) (coordinateX coordinateY : D)
      (zone : Int)

variable [F64 D] (geometry : Geometry D)

/-- What a call makes of the fence. -/
def Call.run (fence : Geofencing D) : Call D → Option (Geofencing D)
  | .initConfig pbConfig => fence.initConfig pbConfig
  | .addDrsuPos ulDrsuId pos => some (fence.addDrsuPos ulDrsuId pos)
  | .queryPointInDrsu walk coordinateX coordinateY zone =>
      some (fence.queryPointInDrsu geometry walk coordinateX coordinateY zone).2

/-- The geofences after some calls. -/
def runCalls (calls : List (Call D)) : Option (Geofencing D) :=
  calls.foldlM (Call.run geometry) Geofencing.new

end Drc
end Pilot2Cloud
