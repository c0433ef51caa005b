import Pilot2Cloud.Foundation.BinaryFloat
import Pilot2Cloud.Foundation.Outcome
import Pilot2Cloud.Foundation.Transitions
import Pilot2Cloud.Telemetry.Landing

/-!
# The values of the last message

The parser clears the record before it looks at a message.  A message that
cannot be parsed therefore leaves the default values, not those of the last
message that could be parsed.
-/

namespace Pilot2Cloud
namespace Telemetry

open Foundation

section Records

variable {D F : Type} [Zero D] [Zero F]

/-- What other modules are told: `getUavPoint`, `getPayloadIndex` and
`getZoomFactor`. -/
def TrackMain.shown (track : TrackMain D F) : Point D × String × F :=
  (track.getUavPoint, track.getPayloadIndex, track.getZoomFactor)

/-- The values that a record stands for. -/
def FlightInfo.shown (info : FlightInfo D F) : Point D × String × F :=
  ({ flightInfo := info } : TrackMain D F).shown

end Records

section Messages

variable {Value D F : Type} [Zero D] [Zero F] (library : Library Value D F)

/-- The record of a JSON value that is parsed. -/
def rootParsed (root : Value) : Option (FlightInfo D F) :=
  match readFlight library root with
  | .ok (info, some (data, _)) => (readPayload library data info).toOption
  | _ => none

/-- The parser returns that a JSON value has no object in `data`. -/
def rootFails (root : Value) : Bool :=
  match readFlight library root with
  | .ok (_, none) => true
  | _ => false

/-- The record of a message that is parsed. -/
def OsdMessage.parsed : OsdMessage → Option (FlightInfo D F)
  | .nullPointer => none
  | .text msg =>
      match parseText library msg with
      | .ok (some root) => rootParsed library root
      | _ => none

/-- The parser returns that a message could not be parsed. -/
def OsdMessage.fails : OsdMessage → Bool
  | .nullPointer => false
  | .text msg =>
      match parseText library msg with
      | .ok (some root) => rootFails library root
      | .ok none => true
      | .error _ => false

/-- The process, and the record of the last message that was parsed. -/
structure Session (D F : Type) [Zero D] [Zero F] where
  process : Process D F
  last : FlightInfo D F

namespace Session

/-- The start of the process. -/
def initial : Session D F :=
  ⟨.initial, {}⟩

/-- The process handles a message. -/
def handleOsdMsg (session : Session D F) (message : OsdMessage) :
    Session D F :=
  ⟨session.process.handleOsdMsg library message,
    (message.parsed library).getD session.last⟩

/-- One more message. -/
def Step (session : Session D F) (message : OsdMessage)
    (after : Session D F) : Prop :=
  session.handleOsdMsg library message = after

/-- The process runs, and other modules are told the values of the last message
that was parsed. -/
def Current (session : Session D F) : Prop :=
  session.process.running = true ∧
    session.process.track.shown = session.last.shown

/-- The parser throws no exception for a message, and if it cannot be parsed the
last values are the default ones. -/
def Harmless (session : Session D F) (message : OsdMessage) : Prop :=
  message.throws library = false ∧
    (message.fails library = true →
      session.last.shown = ({} : FlightInfo D F).shown)

end Session

variable {library}

/-- Without an object in `data` no value is read. -/
theorem shown_of_readFlight_none {root : Value} {info : FlightInfo D F}
    (read : readFlight library root = .ok (info, none)) :
    info.shown = ({} : FlightInfo D F).shown := by
  obtain ⟨named, readName, rest⟩ := bind_eq_ok_iff.mp read
  have same : named.shown = ({} : FlightInfo D F).shown := by
    obtain ⟨isNamed, -, readMember⟩ := bind_eq_ok_iff.mp readName
    cases isNamed with
    | false =>
        obtain rfl := Except.ok.inj readMember
        rfl
    | true =>
        obtain ⟨value, -, readValue⟩ := bind_eq_ok_iff.mp readMember
        obtain ⟨name, -, isNamed⟩ := bind_eq_ok_iff.mp readValue
        obtain rfl := Except.ok.inj isNamed
        rfl
  obtain ⟨data, -, readData⟩ := bind_eq_ok_iff.mp rest
  split at readData
  · obtain ⟨position, -, readRest⟩ := bind_eq_ok_iff.mp readData
    obtain ⟨modeCode, -, isSome⟩ := bind_eq_ok_iff.mp readRest
    have different := (Prod.mk.inj (Except.ok.inj isSome)).2
    contradiction
  · obtain rfl := (Prod.mk.inj (Except.ok.inj readData)).1
    exact same

/-- The values after a JSON value for which no exception is thrown. -/
theorem TrackMain.shown_parseRoot (track : TrackMain D F) (root : Value)
    (regular : rootThrows library root = false) :
    (track.parseRoot library root).1.shown =
        ((rootParsed library root).getD {}).shown ∧
      (rootParsed library root).isNone = rootFails library root := by
  unfold parseRoot rootParsed rootFails
  unfold rootThrows at regular
  cases read : readFlight library root with
  | error error =>
      rw [read] at regular
      cases regular
  | ok flight =>
      rw [read] at regular
      obtain ⟨info, _ | ⟨data, modeCode⟩⟩ := flight
      · exact ⟨shown_of_readFlight_none read, rfl⟩
      · simp only at regular ⊢
        cases payload : readPayload library data info with
        | error error =>
            rw [payload] at regular
            cases regular
        | ok info => exact ⟨rfl, rfl⟩

/-- The values after a text for which no exception is thrown are those that were
parsed, and the default ones if it could not be parsed. -/
theorem TrackMain.shown_parseOsdMsg (track : TrackMain D F) (msg : String)
    (regular : (OsdMessage.text msg).throws library = false) :
    (track.parseOsdMsg library msg).1.shown =
        (((OsdMessage.text msg).parsed library).getD {}).shown ∧
      ((OsdMessage.text msg).parsed library).isNone =
        (OsdMessage.text msg).fails library := by
  unfold parseOsdMsg OsdMessage.parsed OsdMessage.fails
  unfold OsdMessage.throws at regular
  simp only at regular ⊢
  cases read : parseText library msg with
  | error error =>
      rw [read] at regular
      cases regular
  | ok value =>
      rw [read] at regular
      cases value with
      | none => exact ⟨rfl, rfl⟩
      | some root => exact track.clear.shown_parseRoot root regular

theorem Session.current_iff {track : TrackMain D F} {running : Bool}
    {last : FlightInfo D F} :
    (⟨⟨track, running⟩, last⟩ : Session D F).Current ↔
      running = true ∧ track.shown = last.shown :=
  .rfl

/-- A message leaves the current values exactly when it is harmless. -/
theorem Session.Current.harmless_iff {session : Session D F}
    (current : session.Current) (message : OsdMessage) :
    session.Harmless library message ↔
      (session.handleOsdMsg library message).Current := by
  obtain ⟨⟨track, running⟩, last⟩ := session
  obtain ⟨isRunning, same⟩ := current_iff.mp current
  subst isRunning
  cases message with
  | nullPointer =>
      exact iff_of_true ⟨rfl, fun fails => by contradiction⟩ ⟨rfl, same⟩
  | text msg =>
      unfold Harmless handleOsdMsg
      rw [Process.handleOsdMsg_text, current_iff, Bool.not_eq_true']
      apply and_congr_right
      intro regular
      obtain ⟨shown, isNone⟩ := track.shown_parseOsdMsg msg regular
      rw [shown, ← isNone]
      cases (OsdMessage.text msg).parsed library with
      | none => exact ⟨fun default => (default rfl).symm, fun same _ => same.symm⟩
      | some info => exact iff_of_true (fun isNone => by contradiction) rfl

/-- The values of the last message are shown after every message of a sequence
exactly when each message is harmless: the parser throws no exception, and a
message that cannot be parsed does not follow one with values of its own. -/
theorem current_iff_harmless
    (library : Library Value D F) (messages : List OsdMessage) :
    Along (Session.Step library) (Session.Harmless library)
        Session.initial messages ↔
      ∀ session, Reached (Session.Step library) Session.initial messages
        session → session.Current := by
  have run : Run (Session.Step library) Session.initial messages
      (messages.foldl (Session.handleOsdMsg library) Session.initial) :=
    Run.of_foldl
  apply Along.iff_reached (fun _ => True) _ _ _ trivial ⟨rfl, rfl⟩ run
  · rintro session message next other rfl rfl
    rfl
  · intro _ _ _ _ _
    trivial
  · rintro session message next - current rfl
    exact current.harmless_iff message

end Messages

/-! ## A text that is not JSON -/

/-- Values that are enough for one message. -/
inductive SampleValue
  | null
  | string (value : String)
  | array (elements : List SampleValue)
  | object (members : List (String × SampleValue))

/-- The value of a message that names the camera of the aircraft. -/
def cameraValue : SampleValue :=
  .object [("data", .object [("cameras",
    .array [.object [("payload_index", .string "53-0-0")]])])]

/-- The text of the message. -/
def cameraText : String :=
  "\x7b\"data\":\x7b\"cameras\":[\x7b\"payload_index\":\"53-0-0\"\x7d]\x7d\x7d"

/-- A library that parses this text and reads its value as the real one does.
There are no numbers in the text. -/
def sampleLibrary : Library SampleValue Binary64 Binary32 where
  parse msg := .ok
    (if msg = cameraText then (true, cameraValue, "")
    else (false, .null, "* Line 1, Column 1"))
  isMember
    | .null, _ => .ok false
    | .object members, name => .ok (members.lookup name).isSome
    | _, _ => .error .logicError
  get
    | .null, _ => .ok .null
    | .object members, name => .ok ((members.lookup name).getD .null)
    | _, _ => .error .logicError
  isObject
    | .object _ => true
    | _ => false
  isArray
    | .array _ => true
    | _ => false
  elements
    | .array elements => elements
    | _ => []
  asDouble
    | .null => .ok 0
    | _ => .error .logicError
  asInt
    | .null => .ok 0
    | _ => .error .logicError
  asString
    | .null => .ok ""
    | .string value => .ok value
    | _ => .error .logicError
  toFloat value := .ofExact value.toRat

/-- A text that is not JSON makes the payload index the default one again. -/
theorem notJson_not_current :
    ∃ session, Run (Session.Step sampleLibrary) Session.initial
        [.text cameraText, .text "not JSON"] session ∧
      ¬session.Current := by
  refine ⟨_, .cons rfl (.cons rfl (.nil _)), ?_⟩
  intro current
  have payloadIndex : "99-0-0" = "53-0-0" :=
    congrArg (fun shown => shown.2.1) current.2
  exact absurd payloadIndex (by decide)

end Telemetry
end Pilot2Cloud
