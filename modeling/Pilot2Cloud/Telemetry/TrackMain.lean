import Mathlib.Algebra.Notation.Defs
import Pilot2Cloud.Telemetry.Json

/-!
# The telemetry of the aircraft

Every OSD message of the aircraft is parsed into a record, which other modules
ask for the position and the camera.  The mode code in a message tells whether
the aircraft is in the air.  No caller of the parser catches an exception, so
that one ends the process.
-/

namespace Pilot2Cloud
namespace Telemetry

/-- The battery. -/
structure BatteryInfo where
  capacityPercent : Int := 0
  remainFlightTime : Int := 0

/-- The camera, with numbers of type `float`. -/
structure CameraInfo (F : Type) [Zero F] where
  payloadIndex : String := "99-0-0"
  zoomFactor : F := 0

/-- The gimbal, with numbers of type `double`. -/
structure GimbalInfo (D : Type) [Zero D] where
  pitch : D := 0
  yaw : D := 0

/-- The record that a message is parsed into. -/
structure FlightInfo (D F : Type) [Zero D] [Zero F] where
  deviceId : String := ""
  longitude : D := 0
  latitude : D := 0
  seaaltitude : D := 0
  earthaltitude : D := 0
  speed : D := 0
  course : D := 0
  battery : BatteryInfo := {}
  gimbal : GimbalInfo D := {}
  camera : CameraInfo F := {}

/-- `Point`. -/
structure Point (D : Type) where
  lon : D
  lat : D
  alt : D
  course : D

/-- The members of the module that OSD messages change, and how many reports of
the end of a flight (`STATE_WAYPOINT_END`) were sent. -/
structure TrackMain (D F : Type) [Zero D] [Zero F] where
  flightInfo : FlightInfo D F := {}
  uavModeCode : Int := -1
  airborne : Bool := false
  waypointEndReports : Nat := 0

/-- An OSD message: a null pointer, or a text. -/
inductive OsdMessage
  | nullPointer
  | text (msg : String)

/-! ## Reading a message -/

section Reading

variable {Value D F : Type} [Zero D] [Zero F] (library : Library Value D F)

/-- The value in a text, if it is JSON. -/
def parseText (msg : String) : Except JsonError (Option Value) := do
  let (parsingSuccessful, root, errs) ← library.parse msg
  if !parsingSuccessful || errs ≠ "" then return none
  else return some root

/-- `data.isMember(name) ? data[name].asDouble() : 0.0`. -/
def doubleMember (data : Value) (name : String) : Except JsonError D := do
  if ← library.isMember data name then
    library.asDouble (← library.get data name)
  else return 0

/-- The record with the name of the gateway. -/
def readDeviceId (root : Value) (info : FlightInfo D F) :
    Except JsonError (FlightInfo D F) := do
  if ← library.isMember root "gateway" then
    return { info with
      deviceId := ← library.asString (← library.get root "gateway") }
  else return info

/-- The record with the position and the movement. -/
def readPosition (data : Value) (info : FlightInfo D F) :
    Except JsonError (FlightInfo D F) := do
  return { info with
    longitude := ← doubleMember library data "longitude"
    latitude := ← doubleMember library data "latitude"
    seaaltitude := ← doubleMember library data "height"
    earthaltitude := ← doubleMember library data "elevation"
    speed := ← doubleMember library data "horizontal_speed"
    course := ← doubleMember library data "attitude_head" }

/-- The mode code, -1 if there is none. -/
def readModeCode (data : Value) : Except JsonError Int := do
  if ← library.isMember data "mode_code" then
    library.asInt (← library.get data "mode_code")
  else return -1

/-- The members of the battery, if it is an object. -/
def readBattery (data : Value) (info : BatteryInfo) :
    Except JsonError BatteryInfo := do
  let battery ← library.get data "battery"
  if library.isObject battery then
    let mut info := info
    if ← library.isMember battery "capacity_percent" then
      info := { info with
        capacityPercent :=
          ← library.asInt (← library.get battery "capacity_percent") }
    if ← library.isMember battery "remain_flight_time" then
      info := { info with
        remainFlightTime :=
          ← library.asInt (← library.get battery "remain_flight_time") }
    return info
  else return info

/-- The first object among the cameras, and whether it names its payload. -/
def readCamera (data : Value) (info : CameraInfo F) :
    Except JsonError (CameraInfo F × Bool) := do
  let camera ← library.get data "cameras"
  if library.isArray camera then
    match (library.elements camera).find? library.isObject with
    | none => return (info, false)
    | some camInfo =>
        let mut info := info
        let mut cameraFound := false
        if ← library.isMember camInfo "payload_index" then
          info := { info with
            payloadIndex :=
              ← library.asString (← library.get camInfo "payload_index") }
          cameraFound := true
        if ← library.isMember camInfo "zoom_factor" then
          info := { info with
            zoomFactor := library.toFloat
              (← library.asDouble (← library.get camInfo "zoom_factor")) }
        return (info, cameraFound)
  else return (info, false)

/-- The gimbal is described by the member named like the payload. -/
def readGimbal (data : Value) (camera : CameraInfo F) (cameraFound : Bool)
    (info : GimbalInfo D) : Except JsonError (GimbalInfo D) := do
  if cameraFound && (← library.isMember data camera.payloadIndex) then
    let gimbalInfo ← library.get data camera.payloadIndex
    if library.isObject gimbalInfo then
      let mut info := info
      if ← library.isMember gimbalInfo "gimbal_pitch" then
        info := { info with
          pitch :=
            ← library.asDouble (← library.get gimbalInfo "gimbal_pitch") }
      if ← library.isMember gimbalInfo "gimbal_yaw" then
        info := { info with
          yaw := ← library.asDouble (← library.get gimbalInfo "gimbal_yaw") }
      return info
    else return info
  else return info

/-- The members up to the mode code, if `data` is an object. -/
def readFlight (root : Value) :
    Except JsonError (FlightInfo D F × Option (Value × Int)) := do
  let info ← readDeviceId library root {}
  let data ← library.get root "data"
  if library.isObject data then
    let info ← readPosition library data info
    return (info, some (data, ← readModeCode library data))
  else return (info, none)

/-- The members after the mode code. -/
def readPayload (data : Value) (info : FlightInfo D F) :
    Except JsonError (FlightInfo D F) := do
  let battery ← readBattery library data info.battery
  let (camera, cameraFound) ← readCamera library data info.camera
  let gimbal ← readGimbal library data camera cameraFound info.gimbal
  return { info with battery := battery, camera := camera, gimbal := gimbal }

end Reading

/-! ## The module -/

/-- The codes of an aircraft on the ground. -/
def isGround (code : Int) : Bool :=
  0 ≤ code && code ≤ 2

/-- The codes of an aircraft in the air. -/
def isAirborne (code : Int) : Bool :=
  (3 ≤ code && code ≤ 12) || (15 ≤ code && code ≤ 20)

@[simp] theorem isGround_iff {code : Int} :
    isGround code = true ↔ 0 ≤ code ∧ code ≤ 2 := by
  unfold isGround
  rw [Bool.and_eq_true, decide_eq_true_iff, decide_eq_true_iff]

@[simp] theorem isAirborne_iff {code : Int} :
    isAirborne code = true ↔ 3 ≤ code ∧ code ≤ 12 ∨ 15 ≤ code ∧ code ≤ 20 := by
  simp [isAirborne]

namespace TrackMain

variable {Value D F : Type} [Zero D] [Zero F]

/-- A ground code reports the end of the flight if the aircraft was in the
air. -/
def detectLanding (track : TrackMain D F) (modeCode : Int) : TrackMain D F :=
  if isAirborne modeCode then { track with airborne := true }
  else if isGround modeCode && track.airborne then
    { track with
      airborne := false
      waypointEndReports := track.waypointEndReports + 1 }
  else track

/-- `m_uavModeCode.exchange(modeCode)`, and what follows when it changed. -/
def exchangeModeCode (track : TrackMain D F) (modeCode : Int) :
    TrackMain D F :=
  let prevModeCode := track.uavModeCode
  let track := { track with uavModeCode := modeCode }
  if modeCode ≠ prevModeCode then track.detectLanding modeCode else track

/-- The record is cleared before the text is parsed. -/
def clear (track : TrackMain D F) : TrackMain D F :=
  { track with flightInfo := {} }

/-- The module after a JSON value, and whether the message could be parsed. -/
def parseRoot (library : Library Value D F) (track : TrackMain D F)
    (root : Value) : TrackMain D F × Except JsonError Bool :=
  match readFlight library root with
  | .error error => (track, .error error)
  | .ok (info, none) => ({ track with flightInfo := info }, .ok false)
  | .ok (info, some (data, modeCode)) =>
      let track :=
        { track with flightInfo := info }.exchangeModeCode modeCode
      match readPayload library data info with
      | .error error => (track, .error error)
      | .ok info => ({ track with flightInfo := info }, .ok true)

/-- The module after a text, and whether the message could be parsed.  What is
in the record after an exception is never asked for. -/
def parseOsdMsg (library : Library Value D F) (track : TrackMain D F)
    (msg : String) : TrackMain D F × Except JsonError Bool :=
  match parseText library msg with
  | .error error => (track.clear, .error error)
  | .ok none => (track.clear, .ok false)
  | .ok (some root) => track.clear.parseRoot library root

/-- The position of the aircraft. -/
def getUavPoint (track : TrackMain D F) : Point D :=
  ⟨track.flightInfo.longitude, track.flightInfo.latitude,
    track.flightInfo.seaaltitude, track.flightInfo.course⟩

/-- The name of the camera. -/
def getPayloadIndex (track : TrackMain D F) : String :=
  track.flightInfo.camera.payloadIndex

/-- The zoom factor of the camera. -/
def getZoomFactor (track : TrackMain D F) : F :=
  track.flightInfo.camera.zoomFactor

end TrackMain

/-- The module as long as the process runs. -/
structure Process (D F : Type) [Zero D] [Zero F] where
  track : TrackMain D F
  running : Bool

namespace Process

variable {Value D F : Type} [Zero D] [Zero F]

/-- The start of the process. -/
def initial : Process D F :=
  ⟨{}, true⟩

/-- `handleOsdMsg`. -/
def handleOsdMsg (library : Library Value D F) (process : Process D F) :
    OsdMessage → Process D F
  | .nullPointer => process
  | .text msg =>
      if process.running then
        match process.track.parseOsdMsg library msg with
        | (track, .ok _) => ⟨track, true⟩
        | (track, .error _) => ⟨track, false⟩
      else process

end Process
end Telemetry
end Pilot2Cloud
