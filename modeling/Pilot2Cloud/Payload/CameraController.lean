import Pilot2Cloud.Foundation.Rounding

/-!
# Zooming the camera

Commands step the zoom factor, set it to a limit, or step it until they are
stopped.  Each command first takes over the factor that telemetry shows.  The
gimbal controller sets a factor directly.  A session records the values that are
assigned to the factor, those that are sent, and the steps.
-/

namespace Pilot2Cloud
namespace Payload

open Foundation

/-- Single precision: the limits of the factor are numbers of the format. -/
structure SinglePrecision extends Rounding ℚ where
  two : round 2 = 2
  fourHundred : round 400 = 400

/-- `float`. -/
abbrev Single (format : SinglePrecision) := Rounded format.toRounding

section Constants

variable (format : SinglePrecision)

/-- A literal such as `0.1f`. -/
def single (value : ℚ) : Single format :=
  Rounded.ofExact format.toRounding value

/-- `m_zoomFactorMin`. -/
def zoomFactorMin : Single format := ⟨2, format.two⟩

/-- `m_zoomFactorMax`. -/
def zoomFactorMax : Single format := ⟨400, format.fourHundred⟩

end Constants

variable {format : SinglePrecision}

/-- A step of the factor in one direction. -/
structure ZoomStep (format : SinglePrecision) where
  isZoomIn : Bool
  before : Single format
  after : Single format

/-- What happens at one pass of the loop of a continuous zoom: whether it is
stopped or out of time, and whether the request is answered with success. -/
structure Moment where
  stopped : Bool
  success : Bool

/-- The controller, and what it has done. -/
structure CameraController (format : SinglePrecision) where
  currentZoomFactor : Single format
  assigned : List (Single format)
  sent : List (Single format)
  steps : List (ZoomStep format)
  /-- How many messages each continuous zoom has sent. -/
  continuousSends : List Nat

namespace CameraController

/-- Nothing has been requested. -/
def initial (format : SinglePrecision) : CameraController format where
  currentZoomFactor := zoomFactorMin format
  assigned := [zoomFactorMin format]
  sent := []
  steps := []
  continuousSends := []

/-- `m_currentZoomFactor = factor`. -/
def assign (camera : CameraController format) (factor : Single format) :
    CameraController format :=
  { camera with
    currentZoomFactor := factor
    assigned := camera.assigned ++ [factor] }

/-- `commonZoomDataPackage` and `sendRequest`. -/
def sendRequest (camera : CameraController format) : CameraController format :=
  { camera with sent := camera.sent ++ [camera.currentZoomFactor] }

/-- Assign the next factor in a direction. -/
def step (camera : CameraController format) (isZoomIn : Bool)
    (factor : Single format) : CameraController format :=
  { camera.assign factor with
    steps := camera.steps ++ [⟨isZoomIn, camera.currentZoomFactor, factor⟩] }

/-- `specifyZoomFator`. -/
def specifyZoomFator (camera : CameraController format)
    (zoomFactor : Single format) : CameraController format :=
  (camera.assign zoomFactor).sendRequest

/-- `cameraZoomOut`. -/
def cameraZoomOut (camera : CameraController format) :
    CameraController format :=
  if camera.currentZoomFactor ≤ zoomFactorMin format then camera
  else
    let step := max (single format (1 / 10))
      (camera.currentZoomFactor.mul (single format (1 / 5)))
    (camera.step false
      (max (camera.currentZoomFactor.sub step) (zoomFactorMin format))).sendRequest

/-- `cameraZoomIn`. -/
def cameraZoomIn (camera : CameraController format) :
    CameraController format :=
  if zoomFactorMax format ≤ camera.currentZoomFactor then camera
  else
    let step := max (single format (1 / 10))
      (camera.currentZoomFactor.mul (single format (1 / 5)))
    (camera.step true
      (min (camera.currentZoomFactor.add step) (zoomFactorMax format))).sendRequest

/-- `cameraZoomMin`. -/
def cameraZoomMin (camera : CameraController format) :
    CameraController format :=
  (camera.assign (zoomFactorMin format)).sendRequest

/-- `cameraZoomMax`. -/
def cameraZoomMax (camera : CameraController format) :
    CameraController format :=
  (camera.assign (zoomFactorMax format)).sendRequest

/-- The number of messages of a continuous zoom. -/
def maxIterations : Nat := 20

/-- The loop of `continuousZoom`, if the fuel lasts. -/
def continuousLoop (isZoomIn : Bool) (moments : Nat → Moment) :
    Nat → Nat → CameraController format → Option (CameraController format)
  | 0, _, _ => none
  | fuel + 1, iterations, camera =>
      if (moments iterations).stopped then some camera
      else
        let currentZoomFactor := camera.currentZoomFactor
        if isZoomIn = true ∧ zoomFactorMax format ≤ currentZoomFactor then
          some (camera.step true (zoomFactorMax format))
        else if isZoomIn = false ∧
            currentZoomFactor ≤ zoomFactorMin format then
          some (camera.step false (zoomFactorMin format))
        else
          let step := max (single format (1 / 10))
            (currentZoomFactor.mul (single format (1 / 10)))
          let camera :=
            if isZoomIn then
              (camera.step true (min (currentZoomFactor.add step)
                (zoomFactorMax format))).sendRequest
            else
              (camera.step false (max (currentZoomFactor.sub step)
                (zoomFactorMin format))).sendRequest
          if (moments iterations).success = false then some camera
          else if maxIterations ≤ iterations + 1 then some camera
          else continuousLoop isZoomIn moments fuel (iterations + 1) camera

/-- `startZoomOperation`. -/
def continuousZoom (fuel : Nat) (isZoomIn : Bool) (moments : Nat → Moment)
    (camera : CameraController format) : Option (CameraController format) := do
  let after ← continuousLoop isZoomIn moments fuel 0 camera
  return { after with
    continuousSends :=
      after.continuousSends ++ [after.sent.length - camera.sent.length] }

/-- `Type`. -/
inductive ZoomType
  | zoomOut
  | zoomIn
  | zoomMin
  | zoomMax
  | zoomInContinue
  | zoomOutContinue
  | zoomStop
  deriving DecidableEq

/-- `m_typeHandler.find(camera_zoom_direction)`. -/
def ZoomType.find : Int → Option ZoomType
  | 0 => some .zoomOut
  | 1 => some .zoomIn
  | 2 => some .zoomMin
  | 3 => some .zoomMax
  | 4 => some .zoomInContinue
  | 5 => some .zoomOutContinue
  | 6 => some .zoomStop
  | _ => none

/-- A command, or no command where its message could not be parsed.  `shown` is
the factor that telemetry shows. -/
def handleCameraControl (fuel : Nat) (camera : CameraController format)
    (direction : Option Int) (shown : Single format)
    (moments : Nat → Moment) : Option (CameraController format) :=
  match direction with
  | none => some camera
  | some direction =>
      let camera := camera.assign shown
      if camera.currentZoomFactor < single format 1 then some camera
      else
        match ZoomType.find direction with
        | some .zoomOut => some camera.cameraZoomOut
        | some .zoomIn => some camera.cameraZoomIn
        | some .zoomMin => some camera.cameraZoomMin
        | some .zoomMax => some camera.cameraZoomMax
        | some .zoomInContinue => camera.continuousZoom fuel true moments
        | some .zoomOutContinue => camera.continuousZoom fuel false moments
        | some .zoomStop => some camera
        | none => some camera

/-- A request to the controller. -/
inductive Request (format : SinglePrecision)
  | cameraControl (direction : Option Int) (shown : Single format)
      (moments : Nat → Moment)
  | specifyZoom (zoomFactor : Single format)

/-- What a request makes of the camera. -/
def perform (fuel : Nat) (camera : CameraController format) :
    Request format → Option (CameraController format)
  | .cameraControl direction shown moments =>
      camera.handleCameraControl fuel direction shown moments
  | .specifyZoom zoomFactor => some (camera.specifyZoomFator zoomFactor)

end CameraController
end Payload
end Pilot2Cloud
