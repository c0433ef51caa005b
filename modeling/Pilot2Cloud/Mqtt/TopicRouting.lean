import Pilot2Cloud.Foundation.Separated

/-!
# Subscribed topics and their routes

The topics that are subscribed come from a file of templates, in which the
serial number of a device takes the place of a wildcard.  A message that arrives
is copied to modules by strings that are searched in its whole topic.
-/

namespace Pilot2Cloud
namespace Mqtt

open Foundation

/-- The characters of a topic or of a serial number. -/
abbrev Text := List Char

/-- `text.find(string) != std::string::npos`. -/
abbrev Finds (text string : Text) : Prop :=
  string <:+: text

/-! ## Templates -/

/-- `buffer.replace(pos, 1, serial)`. -/
def replaceAt (buffer : Text) (pos : Nat) (serial : Text) : Text :=
  buffer.take pos ++ serial ++ buffer.drop (pos + 1)

/-- `buffer.find(wildcard)`. -/
def findChar (buffer : Text) (wildcard : Char) : Option Nat :=
  buffer.findIdx? fun character => character = wildcard

/-- The topics for a word of the file, from the loop of `loadSubTopics`. -/
def topicsOf (dockSn aircraftSn buffer : Text) : List Text :=
  match findChar buffer '#' with
  | some pos => [replaceAt buffer pos dockSn]
  | none =>
      match findChar buffer '+' with
      | none => [buffer]
      | some pos =>
          if Finds buffer "osd".toList then
            [replaceAt buffer pos aircraftSn, replaceAt buffer pos dockSn]
          else if Finds buffer "state".toList then
            [replaceAt buffer pos aircraftSn]
          else [replaceAt buffer pos dockSn]

/-- `loadSubTopics` on the words of the file. -/
def loadSubTopics (dockSn aircraftSn : Text) (words : List Text) :
    List Text :=
  words.flatMap (topicsOf dockSn aircraftSn)

/-! ## Routes -/

/-- The messages that are sent on. -/
inductive MsgId
  | COMMON_REG_IND
  | TRACK_STATE_DATA_IND
  | PAYLOAD_GIMBAL_DATA_IND
  | PAYLOAD_CAMERA_DATA_IND
  | FLYTO_RESULT_DATA_IND
  | FLYTO_PROGRESS_DATA_IND
  | PAYLOAD_RESULT_DATA_IND
  deriving DecidableEq

/-- The modules that get them. -/
inductive Module
  | MODULE_TRACK
  | MODULE_DEVICE
  | MODULE_FLYTO
  | MODULE_PAYLOAD
  deriving DecidableEq

/-- The copies of the payload that are sent. -/
abbrev Copies := List (MsgId × Module)

/-- `handleFlytoResult`: both modules get the result. -/
def handleFlytoResult : Copies :=
  [(.FLYTO_RESULT_DATA_IND, .MODULE_FLYTO),
    (.PAYLOAD_RESULT_DATA_IND, .MODULE_PAYLOAD)]

/-- `handleFlytoProgress`. -/
def handleFlytoProgress : Copies :=
  [(.FLYTO_PROGRESS_DATA_IND, .MODULE_FLYTO)]

/-- `handlePayloadResult`. -/
def handlePayloadResult : Copies :=
  [(.PAYLOAD_RESULT_DATA_IND, .MODULE_PAYLOAD)]

/-- `m_topicHandlers`. -/
def topicHandlers : List (String × Copies) :=
  [("takeoff_to_point", handleFlytoResult),
    ("return_home", handleFlytoResult),
    ("return_home_cancel", handleFlytoResult),
    ("fly_to_point_stop", handleFlytoResult),
    ("fly_to_point", handleFlytoResult),
    ("fly_to_point_update", handleFlytoResult),
    ("fly_to_point_progress", handleFlytoProgress),
    ("drc_gimbal_reset", handlePayloadResult),
    ("drc_camera_screen_drag", handlePayloadResult),
    ("drc_camera_aim", handlePayloadResult),
    ("drc_camera_frame_zoom", handlePayloadResult),
    ("drc_camera_focal_length_set", handlePayloadResult)]

/-- The copies for the method that `parseMethod` has found, which is empty if
there is none. -/
def handleMethod (method : String) : Copies :=
  (topicHandlers.lookup method).getD []

/-- The topic is one whose messages have a method. -/
def HasMethod (topic : Text) : Prop :=
  Finds topic "services_reply".toList ∨ Finds topic "/events".toList ∨
    Finds topic "/requests".toList ∨ Finds topic "/drc/up".toList

instance (topic : Text) : Decidable (HasMethod topic) :=
  inferInstanceAs (Decidable (_ ∨ _ ∨ _ ∨ _))

/-- `onRead`, for a payload with a method. -/
def onRead (dockSn aircraftSn : Text) (method : String) (topic : Text) :
    Copies :=
  if HasMethod topic then handleMethod method
  else if Finds topic (aircraftSn ++ "/osd".toList) then
    [(.COMMON_REG_IND, .MODULE_TRACK)]
  else if Finds topic (aircraftSn ++ "/state".toList) then
    [(.TRACK_STATE_DATA_IND, .MODULE_TRACK)]
  else if Finds topic (dockSn ++ "/osd".toList) then
    [(.COMMON_REG_IND, .MODULE_DEVICE)]
  else if Finds topic "flight/control".toList then
    [(.COMMON_REG_IND, .MODULE_FLYTO)]
  else if Finds topic "gimbal/control".toList then
    [(.PAYLOAD_GIMBAL_DATA_IND, .MODULE_PAYLOAD)]
  else if Finds topic "camera/zoom".toList then
    [(.PAYLOAD_CAMERA_DATA_IND, .MODULE_PAYLOAD)]
  else []

/-! ## The names of topics -/

/-- What a topic is for. -/
inductive TopicName
  | servicesReply
  | events
  | requests
  | drcUp
  | osd
  | state
  | flightControl
  | gimbalControl
  | cameraZoom
  deriving DecidableEq

namespace TopicName

/-- The segments behind the serial number. -/
def segments : TopicName → List Text
  | servicesReply => ["services_reply".toList]
  | events => ["events".toList]
  | requests => ["requests".toList]
  | drcUp => ["drc".toList, "up".toList]
  | osd => ["osd".toList]
  | state => ["state".toList]
  | flightControl => ["flight".toList, "control".toList]
  | gimbalControl => ["gimbal".toList, "control".toList]
  | cameraZoom => ["camera".toList, "zoom".toList]

/-- The wildcard of the template. -/
def wildcard : TopicName → Char
  | osd | state => '+'
  | _ => '#'

/-- Where the messages of the topics for a template belong: those of the
aircraft in front of those of the dock. -/
def destinations (method : String) : TopicName → List Copies
  | servicesReply | events | requests | drcUp => [handleMethod method]
  | osd => [[(.COMMON_REG_IND, .MODULE_TRACK)],
      [(.COMMON_REG_IND, .MODULE_DEVICE)]]
  | state => [[(.TRACK_STATE_DATA_IND, .MODULE_TRACK)]]
  | flightControl => [[(.COMMON_REG_IND, .MODULE_FLYTO)]]
  | gimbalControl => [[(.PAYLOAD_GIMBAL_DATA_IND, .MODULE_PAYLOAD)]]
  | cameraZoom => [[(.PAYLOAD_CAMERA_DATA_IND, .MODULE_PAYLOAD)]]

end TopicName

/-- The segments of a topic joined. -/
def topic (prior : List Text) (last serial : Text) (name : TopicName) : Text :=
  ['/'].intercalate (prior ++ last :: serial :: name.segments)

/-- The template of a topic. -/
def template (prior : List Text) (last : Text) (name : TopicName) : Text :=
  topic prior last [name.wildcard] name

end Mqtt
end Pilot2Cloud
