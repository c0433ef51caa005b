import Mathlib
import Pilot2Cloud.Foundation.SlotCache
import Pilot2Cloud.Foundation.Truncation
import Pilot2Cloud.Hdmap.NearestEdge

/-!
# The lane look-up

`pf_map_get_ID_by_utm` takes the block of a coordinate from a table, and looks
among its connections, its no-run zones and its lanes for one that holds the
coordinate.  The sides of the lane markers are kept in a cache for one call.
-/

namespace Pilot2Cloud
namespace Hdmap

open Foundation

/-! ## The map -/

/-- `PF_MAP_LINE_INFO_ST` with its nodes. -/
structure MapLine (K : Type) where
  ID : ℤ
  insideMode : ℤ
  nodes : List (MapNodeLine K)

/-- `PF_MAP_NORUNZONE_INFO_ST`. -/
structure NoRunZone (K : Type) where
  ID : ℤ
  polygon : MapPolygon K
  angle : ℤ
  roadSide : ℤ

/-- What is read of `PF_MAP_LANE_ST`. -/
structure MapLane where
  ID : ℤ
  s32angle : ℤ
  laneNumber : ℤ

/-- The part of a lane marker that belongs to a block. -/
structure MarkerRange where
  lanemarker_i : ℤ
  nodeLine_i : ℤ
  nodeLineCount : ℤ
  deriving DecidableEq

/-- `PF_BLOCK_LNAE_ST`, with its fields for the left and the right marker. -/
structure BlockLane where
  lane_i : ℤ
  left : MarkerRange
  right : MarkerRange

/-- `PF_BLOCK_CONNECTION_ST`. -/
structure BlockConnection where
  connection_i : ℤ
  extrapoint_i : ℤ
  nodeLineCount : ℤ
  nodeLine_i : ℤ

/-- `PF_MAP_BLOCK_INFO_ST` with what follows it. -/
structure BlockInfo where
  connections : List BlockConnection
  lanes : List BlockLane
  noRunZone_i : List ℤ
  /-- The count is of type `S8`. -/
  connectionsFit : connections.length < 2 ^ 7
  /-- The count is of type `S16`. -/
  lanesFit : lanes.length < 2 ^ 15
  threeZones : noRunZone_i.length = 3

/-- The block table and the elements that its blocks refer to. -/
structure BlockTable (K : Type) where
  gu32BlockCount_x : UInt32
  gu32BlockCount_y : UInt32
  gu32Block_w : UInt32
  gu32Block_h : UInt32
  gdbUtmOffset_x : K
  gdbUtmOffset_y : K
  /-- The number of pointers is computed with the type `U32`. -/
  countFits : gu32BlockCount_x.toNat * gu32BlockCount_y.toNat < 2 ^ 32
  pastMapBlock : ℕ → Option BlockInfo
  /-- The `ID` of a connection. -/
  pstConnection : ℤ → ℤ
  pastExtrapoint : ℤ → MapLine K
  pastLanemarker : ℤ → MapLine K
  pastNoRunZone : ℤ → NoRunZone K
  pstLane : ℤ → MapLane
  /-- `pf_map_get_drivingDirection_by_utm`, if it succeeds. -/
  drivingDirection : K → K → ℤ → Option K
  /-- `pf_map_get_connection_lane_i`. -/
  connectionLane : ℤ → K → K → ℤ

/-- The type of what is found. -/
inductive MapType
  | MAP_LANE
  | MAP_CONNECTION
  | MAP_NO_RUN_ZONE
  deriving DecidableEq

/-- What is written through the arguments. -/
structure MapElement (K : Type) where
  type : MapType
  s32ID : ℤ
  index : ℤ
  dbtheta : K
  laneNumber : ℤ

/-- What is returned, with what is written. -/
inductive IDResult (K : Type)
  | PF_MAP_ERR
  | PF_MAP_SUCCESS (found : MapElement K)

/-- `INVALID_VALUE`. -/
def INVALID_VALUE : ℤ := -5

section Definitions

variable {K : Type} [Field K] [LinearOrder K]

/-- `PAI`. -/
def PAI : K := ((31415926 : ℕ) : K) / ((10000000 : ℕ) : K)

/-- An angle in degrees as one in radian. -/
def radian (angle : ℤ) : K := (angle : K) * PAI / ((180 : ℕ) : K)

namespace BlockTable

variable (map : BlockTable K)

/-! ## Connections and no-run zones -/

/-- The result for a connection. -/
def connectionElement (utm_x utm_y : K) (connection : BlockConnection) :
    MapElement K where
  type := .MAP_CONNECTION
  s32ID := map.pstConnection connection.connection_i
  index := connection.connection_i
  dbtheta := (map.drivingDirection utm_x utm_y connection.connection_i).getD
    (INVALID_VALUE : K)
  laneNumber :=
    let lane_i := map.connectionLane connection.connection_i utm_x utm_y
    if 0 ≤ lane_i then (map.pstLane lane_i).laneNumber else INVALID_VALUE

/-- The block is in a connection as a whole. -/
def wholeConnection (block : BlockInfo) : Option BlockConnection :=
  if block.connections.length = 1 ∧ block.lanes.length = 0 then
    block.connections.head?.filter (·.nodeLineCount = 0)
  else none

/-- The side of the border of a connection is its inside. -/
def InConnection (utm_x utm_y : K) (connection : BlockConnection) : Prop :=
  let line := map.pastExtrapoint connection.extrapoint_i
  let lineside := (checkLineSide utm_x utm_y line.nodes connection.nodeLine_i
    connection.nodeLineCount 0 true).1
  line.insideMode = lineside.toS32 ∨ lineside = .ON_LINE

instance (utm_x utm_y : K) (connection : BlockConnection) :
    Decidable (map.InConnection utm_x utm_y connection) :=
  inferInstanceAs (Decidable (_ ∨ _))

/-- The loop for the connections. -/
def searchConnections (utm_x utm_y : K) (block : BlockInfo) :
    Option (MapElement K) :=
  (block.connections.find? (map.InConnection utm_x utm_y ·)).map
    (map.connectionElement utm_x utm_y)

/-- The result for a no-run zone. -/
def zoneElement (noRunZone_i : ℤ) : MapElement K where
  type := .MAP_NO_RUN_ZONE
  s32ID := (map.pastNoRunZone noRunZone_i).ID
  index := noRunZone_i
  dbtheta := radian (map.pastNoRunZone noRunZone_i).angle
  laneNumber := (map.pastNoRunZone noRunZone_i).roadSide

/-- The loop for the no-run zones, which ends at a negative index. -/
def searchZones (utm_x utm_y : K) : List ℤ → Option (MapElement K)
  | [] => none
  | noRunZone_i :: zones =>
      if 0 ≤ noRunZone_i then
        if (checkUtmInPolygon utm_x utm_y
            (map.pastNoRunZone noRunZone_i).polygon).1 = 1 then
          some (map.zoneElement noRunZone_i)
        else searchZones utm_x utm_y zones
      else none

/-- What comes before the lanes. -/
def searchAreas (utm_x utm_y : K) (block : BlockInfo) :
    Option (MapElement K) :=
  ((wholeConnection block).map (map.connectionElement utm_x utm_y)).or
    ((map.searchConnections utm_x utm_y block).or
      (map.searchZones utm_x utm_y block.noRunZone_i))

end BlockTable

/-! ## Lanes -/

/-- The state of a lane marker and the distance from it. -/
abbrev MarkerSide (K : Type) := LineSide × K

/-- A row of `lanemarkerstate` and of `lanemarkerdistance`. -/
structure MarkerEntry (K : Type) where
  ID : ℤ
  state : LineSide
  distance : K

/-- The row has not been written. -/
def MarkerEntry.Free (entry : MarkerEntry K) : Prop := entry.ID = 0

instance : DecidablePred (MarkerEntry.Free : MarkerEntry K → Prop) :=
  fun entry => inferInstanceAs (Decidable (entry.ID = 0))

/-- The rows before the call is answered. -/
def emptyRows : List (MarkerEntry K) := List.replicate 64 ⟨0, .ON_LINE, 0⟩

/-- The variables `leftlanemarker_state`, `dbdistance_left` and those for the
right, where nothing stands for the state -1. -/
structure FoundSides (K : Type) where
  left : Option (MarkerSide K)
  right : Option (MarkerSide K)

/-- The rows after a marker is recorded, the index of the next row, and the side
of the marker. -/
structure Recorded (K : Type) where
  rows : List (MarkerEntry K)
  j : ℕ
  side : MarkerSide K

/-- The variables `dbdistance` and `s32lane_i`. -/
structure LaneSearch (K : Type) where
  dbdistance : K
  s32lane_i : ℤ

/-- A marker is recorded unless it was found. -/
def recordSide (rows : List (MarkerEntry K)) (j : ℕ) (ID : ℤ)
    (fresh : MarkerSide K) : Option (MarkerSide K) → Option (Recorded K)
  | some side => some ⟨rows, j, side⟩
  | none => (SlotCache.store rows j ⟨ID, fresh.1, fresh.2⟩).map
      fun rows => ⟨rows, j + 1, fresh⟩

namespace LaneSearch

/-- The lane is taken if the distance is less than that of the lane before. -/
def compare (search : LaneSearch K) (lane_i : ℤ) (distance : K) :
    LaneSearch K :=
  if 0 ≤ distance ∧ distance < search.dbdistance ∨ search.dbdistance < 0 then
    ⟨distance, lane_i⟩
  else search

/-- What the sides of the markers of a lane change. -/
def consider (search : LaneSearch K) (lane_i : ℤ)
    (left right : MarkerSide K) : LaneSearch K :=
  if right.1 = .LEFT_SIDE ∧ left.1 = .RIGHT_SIDE ∨ right.1 = .ON_LINE ∨
      left.1 = .ON_LINE then
    (search.compare lane_i right.2).compare lane_i left.2
  else search

end LaneSearch

namespace BlockTable

variable (map : BlockTable K)

/-- The ID of the marker of a range. -/
def markerID (range : MarkerRange) : ℤ :=
  (map.pastLanemarker range.lanemarker_i).ID

/-- The row is for a marker that is in the block. -/
def Shows (range : MarkerRange) (entry : MarkerEntry K) : Prop :=
  0 < range.nodeLineCount ∧ entry.ID = map.markerID range

instance (range : MarkerRange) : DecidablePred (map.Shows range) :=
  fun _ => inferInstanceAs (Decidable (_ ∧ _))

/-- One round of the loop over the rows. -/
def look (lane : BlockLane) (found : FoundSides K) (entry : MarkerEntry K) :
    FoundSides K :=
  if map.Shows lane.right entry then
    { found with right := some (entry.state, entry.distance) }
  else if map.Shows lane.left entry then
    { found with left := some (entry.state, entry.distance) }
  else found

/-- The side of a marker, where `absent` is for one that is not in the
block. -/
def markerSide (utm_x utm_y : K) (absent : LineSide) (range : MarkerRange) :
    MarkerSide K :=
  if range.nodeLineCount = 0 then (absent, -1)
  else
    checkLineSide utm_x utm_y (map.pastLanemarker range.lanemarker_i).nodes
      range.nodeLine_i range.nodeLineCount (-1) false

/-- The check of the left marker of a lane. -/
def leftSide (utm_x utm_y : K) (lane : BlockLane) : MarkerSide K :=
  map.markerSide utm_x utm_y .RIGHT_SIDE lane.left

/-- The check of the right marker of a lane. -/
def rightSide (utm_x utm_y : K) (lane : BlockLane) : MarkerSide K :=
  map.markerSide utm_x utm_y .LEFT_SIDE lane.right

/-- The loop over the lanes, not defined where a row beyond the last one is
written. -/
def searchLanes (utm_x utm_y : K) :
    List BlockLane → List (MarkerEntry K) → LaneSearch K →
      Option (LaneSearch K)
  | [], _, search => some search
  | lane :: lanes, rows, search =>
      let found := SlotCache.scan MarkerEntry.Free (map.look lane) rows
        ⟨none, none⟩
      (recordSide rows found.1 (map.markerID lane.left)
        (map.leftSide utm_x utm_y lane) found.2.left).bind fun left =>
      (recordSide left.rows left.j (map.markerID lane.right)
        (map.rightSide utm_x utm_y lane) found.2.right).bind fun right =>
      searchLanes utm_x utm_y lanes right.rows
        (search.consider lane.lane_i left.side right.side)

/-- The result of the loop. -/
def laneResult (search : LaneSearch K) : IDResult K :=
  if 0 ≤ search.s32lane_i then
    .PF_MAP_SUCCESS
      { type := .MAP_LANE
        s32ID := (map.pstLane search.s32lane_i).ID
        index := search.s32lane_i
        dbtheta := radian (map.pstLane search.s32lane_i).s32angle
        laneNumber := (map.pstLane search.s32lane_i).laneNumber }
  else .PF_MAP_ERR

/-- The search in a block. -/
def searchBlock (utm_x utm_y : K) (block : BlockInfo) : Option (IDResult K) :=
  match map.searchAreas utm_x utm_y block with
  | some found => some (.PF_MAP_SUCCESS found)
  | none => (map.searchLanes utm_x utm_y block.lanes emptyRows ⟨-1, -1⟩).map
      map.laneResult

/-- The search in a block, which may be missing. -/
def searchEntry (utm_x utm_y : K) : Option BlockInfo → Option (IDResult K)
  | none => some .PF_MAP_ERR
  | some block => map.searchBlock utm_x utm_y block

/-! ## The table -/

variable [FloorRing K]

/-- `U32((utm - offset)/size)`, not defined for the size zero. -/
def quotient (utm offset : K) (size : UInt32) : Option UInt32 :=
  if size = 0 then none else toUnsigned32 ((utm - offset) / (size.toNat : K))

/-- The number of a block, of type `U32` before it becomes one of type
`S32`. -/
def blockNumber (utm_x utm_y : K) : Option UInt32 :=
  (quotient utm_y map.gdbUtmOffset_y map.gu32Block_h).bind fun row =>
  (quotient utm_x map.gdbUtmOffset_x map.gu32Block_w).map fun column =>
    map.gu32BlockCount_x * row + column

/-- The block with a number, unless the number is refused. -/
def blockAt (number : UInt32) : Option BlockInfo :=
  let block_i := number.toInt32
  if block_i < 0 ∨
      map.gu32BlockCount_x * map.gu32BlockCount_y ≤ block_i.toUInt32 then none
  else map.pastMapBlock number.toNat

/-- `pf_map_get_ID_by_utm`. -/
def getIDByUtm (utm_x utm_y : K) : Option (IDResult K) :=
  (map.blockNumber utm_x utm_y).bind fun number =>
    map.searchEntry utm_x utm_y (map.blockAt number)

end BlockTable
end Definitions
end Hdmap
end Pilot2Cloud
