import Mathlib.Data.Finset.Card
import Pilot2Cloud.Telemetry.TrackMain

/-!
# Landings

A landing is a ground mode code that arrives after an airborne one, with no
ground code between them.  The airborne flag remembers whether the next ground
code is a landing, and it does so although the module only looks at a mode code
when it differs from the one before.
-/

namespace Pilot2Cloud
namespace Telemetry

/-! ## Landings in a list of mode codes -/

section Codes

variable {codes : List Int} {position : Nat}

/-- A mode code of some kind is at a position. -/
def CodeAt (kind : Int → Bool) (codes : List Int) (position : Nat) : Prop :=
  (codes[position]?).any kind = true

instance (kind : Int → Bool) : Decidable (CodeAt kind codes position) :=
  inferInstanceAs (Decidable (_ = _))

/-- Before a position the last code of the ground or of the air is one of the
air. -/
def AirborneBefore (codes : List Int) (position : Nat) : Prop :=
  ∃ earlier < position, CodeAt isAirborne codes earlier ∧
    ∀ between < position, earlier < between → ¬CodeAt isGround codes between

instance : Decidable (AirborneBefore codes position) :=
  inferInstanceAs (Decidable (∃ earlier < position, _ ∧ ∀ between < position, _))

/-- The aircraft lands with the code at a position. -/
def LandsAt (codes : List Int) (position : Nat) : Prop :=
  CodeAt isGround codes position ∧ AirborneBefore codes position

instance : Decidable (LandsAt codes position) :=
  inferInstanceAs (Decidable (_ ∧ _))

/-- How often the aircraft lands. -/
def landings (codes : List Int) : Nat :=
  ((Finset.range codes.length).filter (LandsAt codes)).card

/-- Two landings; neutral and repeated codes do not matter. -/
example : landings [0, 4, 14, 5, 5, 0, 0, -1, 3, 13, 2] = 2 := by decide

theorem not_isGround_of_isAirborne {code : Int}
    (airborne : isAirborne code = true) : isGround code = false := by
  rw [isAirborne_iff] at airborne
  rw [← Bool.not_eq_true, isGround_iff]
  omega

theorem codeAt_append_of_lt {kind : Int → Bool} {last : Int}
    (inside : position < codes.length) :
    CodeAt kind (codes ++ [last]) position ↔ CodeAt kind codes position := by
  unfold CodeAt
  rw [List.getElem?_append_left inside]

theorem codeAt_append_length {kind : Int → Bool} {last : Int} :
    CodeAt kind (codes ++ [last]) codes.length ↔ kind last = true := by
  unfold CodeAt
  rw [List.getElem?_concat_length, Option.any_some]

theorem airborneBefore_append {last : Int} (inside : position ≤ codes.length) :
    AirborneBefore (codes ++ [last]) position ↔
      AirborneBefore codes position := by
  unfold AirborneBefore
  apply exists_congr
  intro earlier
  apply and_congr_right
  intro isEarlier
  rw [codeAt_append_of_lt (by omega)]
  apply and_congr_right
  intro _
  apply forall_congr'
  intro between
  apply forall_congr'
  intro isBetween
  rw [codeAt_append_of_lt (by omega)]

/-- The code that comes last decides, unless it is neutral. -/
theorem airborneBefore_concat {last : Int} :
    AirborneBefore (codes ++ [last]) (codes.length + 1) ↔
      isAirborne last = true ∨
        isGround last = false ∧ AirborneBefore codes codes.length := by
  constructor
  · rintro ⟨earlier, bound, airborne, noGround⟩
    obtain isLast | isEarlier : earlier = codes.length ∨
        earlier < codes.length := by omega
    · rw [isLast, codeAt_append_length] at airborne
      exact .inl airborne
    · refine .inr ⟨?_, earlier, isEarlier, ?_, ?_⟩
      · have notGround := noGround codes.length (by omega) isEarlier
        rw [codeAt_append_length] at notGround
        exact Bool.eq_false_iff.mpr notGround
      · exact (codeAt_append_of_lt isEarlier).mp airborne
      · intro between isBetween later ground
        exact noGround between (by omega) later
          ((codeAt_append_of_lt isBetween).mpr ground)
  · rintro (airborne | ⟨notGround, earlier, isEarlier, airborne, noGround⟩)
    · refine ⟨codes.length, by omega, codeAt_append_length.mpr airborne, ?_⟩
      intro between bound later
      omega
    · refine ⟨earlier, by omega, (codeAt_append_of_lt isEarlier).mpr airborne,
        ?_⟩
      intro between bound later ground
      obtain isLast | isBetween : between = codes.length ∨
          between < codes.length := by omega
      · rw [isLast, codeAt_append_length, notGround] at ground
        contradiction
      · exact noGround between isBetween later
          ((codeAt_append_of_lt isBetween).mp ground)

theorem landsAt_append {last : Int} (inside : position < codes.length) :
    LandsAt (codes ++ [last]) position ↔ LandsAt codes position := by
  unfold LandsAt
  rw [codeAt_append_of_lt inside, airborneBefore_append inside.le]

theorem landings_concat (last : Int) :
    landings (codes ++ [last]) = landings codes +
      if isGround last = true ∧ AirborneBefore codes codes.length then 1
      else 0 := by
  have earlier : ((Finset.range codes.length).filter
        (LandsAt (codes ++ [last]))) =
      (Finset.range codes.length).filter (LandsAt codes) := by
    apply Finset.filter_congr
    intro position inside
    exact landsAt_append (Finset.mem_range.mp inside)
  have atLast : LandsAt (codes ++ [last]) codes.length ↔
      isGround last = true ∧ AirborneBefore codes codes.length := by
    unfold LandsAt
    rw [codeAt_append_length, airborneBefore_append le_rfl]
  unfold landings
  rw [List.length_append, List.length_singleton, Finset.range_add_one,
    Finset.filter_insert, earlier]
  by_cases lands : LandsAt (codes ++ [last]) codes.length
  · rw [if_pos lands, if_pos (atLast.mp lands), Finset.card_insert_of_notMem]
    intro member
    exact Finset.notMem_range_self (Finset.mem_filter.mp member).1
  · rw [if_neg lands, if_neg (fun both => lands (atLast.mpr both)), Nat.add_zero]

end Codes

/-! ## The airborne flag -/

namespace TrackMain

variable {D F : Type} [Zero D] [Zero F]

/-- What the module remembers of the mode codes that have arrived. -/
structure Follows (track : TrackMain D F) (codes : List Int) : Prop where
  airborne : track.airborne = true ↔ AirborneBefore codes codes.length
  reports : track.waypointEndReports = landings codes
  lastAirborne : isAirborne track.uavModeCode = true → track.airborne = true
  lastGround : isGround track.uavModeCode = true → track.airborne = false

theorem Follows.initial : Follows ({} : TrackMain D F) [] where
  airborne := by
    constructor
    · intro airborne
      contradiction
    · rintro ⟨_, bound, _⟩
      contradiction
  reports := rfl
  lastAirborne airborne := by contradiction
  lastGround := fun _ => rfl

/-- A repeated mode code changes nothing. -/
theorem Follows.detectLanding_same {track : TrackMain D F} {codes : List Int}
    (follows : track.Follows codes) :
    track.detectLanding track.uavModeCode = track := by
  unfold detectLanding
  split
  case isTrue airborne =>
    obtain ⟨info, code, flag, reports⟩ := track
    have same : flag = true := follows.lastAirborne airborne
    subst same
    rfl
  case isFalse =>
    split
    case isTrue landing =>
      rw [Bool.and_eq_true] at landing
      have onGround := follows.lastGround landing.1
      rw [landing.2] at onGround
      contradiction
    case isFalse =>
      rfl

theorem detectLanding_uavModeCode (track : TrackMain D F) (code modeCode : Int) :
    { track with uavModeCode := code }.detectLanding modeCode =
      { track.detectLanding modeCode with uavModeCode := code } := by
  unfold detectLanding
  split
  · rfl
  · split <;> rfl

/-- The filter for changes does not matter. -/
theorem Follows.exchangeModeCode {track : TrackMain D F} {codes : List Int}
    (follows : track.Follows codes) (modeCode : Int) :
    track.exchangeModeCode modeCode =
      { track.detectLanding modeCode with uavModeCode := modeCode } := by
  by_cases same : modeCode = track.uavModeCode
  · subst same
    rw [follows.detectLanding_same]
    exact if_neg (not_not.mpr rfl)
  · apply (if_pos same).trans
    exact track.detectLanding_uavModeCode modeCode modeCode

/-- One more mode code. -/
theorem Follows.concat {track : TrackMain D F} {codes : List Int}
    (follows : track.Follows codes) (modeCode : Int) :
    (track.exchangeModeCode modeCode).Follows (codes ++ [modeCode]) := by
  have flag_iff : (track.detectLanding modeCode).airborne = true ↔
      isAirborne modeCode = true ∨
        isGround modeCode = false ∧ track.airborne = true := by
    unfold detectLanding
    split
    · simp_all
    · split
      · simp_all
      · cases ground : isGround modeCode <;> simp_all
  have count : (track.detectLanding modeCode).waypointEndReports =
      track.waypointEndReports +
        if isGround modeCode = true ∧ track.airborne = true then 1 else 0 := by
    unfold detectLanding
    split
    case isTrue airborne =>
      rw [not_isGround_of_isAirborne airborne]
      simp
    case isFalse =>
      split
      · simp_all
      · simp_all
  rw [follows.exchangeModeCode]
  refine ⟨?_, ?_, ?_, ?_⟩
  · rw [List.length_append, List.length_singleton, airborneBefore_concat,
      ← follows.airborne]
    exact flag_iff
  · rw [landings_concat, ← follows.reports]
    simp only [← follows.airborne]
    exact count
  · intro airborne
    exact flag_iff.mpr (.inl airborne)
  · intro ground
    apply Bool.eq_false_iff.mpr
    intro airborne
    obtain isAir | ⟨notGround, -⟩ := flag_iff.mp airborne
    · rw [not_isGround_of_isAirborne isAir] at ground
      contradiction
    · rw [notGround] at ground
      contradiction

theorem Follows.withFlightInfo {track : TrackMain D F} {codes : List Int}
    (follows : track.Follows codes) (info : FlightInfo D F) :
    { track with flightInfo := info }.Follows codes :=
  ⟨follows.airborne, follows.reports, follows.lastAirborne,
    follows.lastGround⟩

end TrackMain

/-! ## The messages -/

section Messages

variable {Value D F : Type} [Zero D] [Zero F] (library : Library Value D F)

/-- The mode code that is read from a JSON value. -/
def rootModeCode (root : Value) : Option Int :=
  match readFlight library root with
  | .ok (_, some (_, modeCode)) => some modeCode
  | _ => none

/-- The parser throws an exception for a JSON value. -/
def rootThrows (root : Value) : Bool :=
  match readFlight library root with
  | .ok (info, some (data, _)) => !(readPayload library data info).isOk
  | .ok (_, none) => false
  | .error _ => true

/-- The mode code that is read from a message; -1 if it has none. -/
def OsdMessage.modeCode : OsdMessage → Option Int
  | .nullPointer => none
  | .text msg =>
      match parseText library msg with
      | .ok (some root) => rootModeCode library root
      | _ => none

/-- A message is nested too deep, or a member of it has a type that the parser
does not expect. -/
def OsdMessage.throws : OsdMessage → Bool
  | .nullPointer => false
  | .text msg =>
      match parseText library msg with
      | .ok (some root) => rootThrows library root
      | .ok none => false
      | .error _ => true

/-- The messages up to the one that ends the process. -/
def processed : List OsdMessage → List OsdMessage
  | [] => []
  | message :: messages =>
      if message.throws library then [message]
      else message :: processed messages

/-- The mode codes that arrive with the messages. -/
def arrivals (messages : List OsdMessage) : List Int :=
  (processed library messages).filterMap (·.modeCode library)

variable {library}

/-- The mode code of a value is followed, whatever else is in it. -/
theorem TrackMain.Follows.parseRoot {track : TrackMain D F}
    {codes : List Int} (follows : track.Follows codes) (root : Value) :
    (track.parseRoot library root).1.Follows
      (codes ++ (rootModeCode library root).toList) := by
  unfold TrackMain.parseRoot rootModeCode
  cases readFlight library root with
  | error error =>
      rw [Option.toList_none, List.append_nil]
      exact follows
  | ok flight =>
      obtain ⟨info, _ | ⟨data, modeCode⟩⟩ := flight
      · rw [Option.toList_none, List.append_nil]
        exact follows.withFlightInfo info
      · have observed := (follows.withFlightInfo info).concat modeCode
        simp only
        cases readPayload library data info with
        | error error => exact observed
        | ok info => exact observed.withFlightInfo info

theorem TrackMain.Follows.parseOsdMsg {track : TrackMain D F}
    {codes : List Int} (follows : track.Follows codes) (msg : String) :
    (track.parseOsdMsg library msg).1.Follows
      (codes ++ ((OsdMessage.text msg).modeCode library).toList) := by
  have cleared : track.clear.Follows codes := follows.withFlightInfo {}
  unfold TrackMain.parseOsdMsg OsdMessage.modeCode
  simp only
  cases parseText library msg with
  | error error =>
      rw [Option.toList_none, List.append_nil]
      exact cleared
  | ok parsed =>
      cases parsed with
      | none =>
          rw [Option.toList_none, List.append_nil]
          exact cleared
      | some root => exact cleared.parseRoot root

@[simp]
theorem TrackMain.isOk_parseRoot (track : TrackMain D F) (root : Value) :
    (track.parseRoot library root).2.isOk = !rootThrows library root := by
  unfold parseRoot rootThrows
  cases readFlight library root with
  | error error => rfl
  | ok flight =>
      obtain ⟨info, _ | ⟨data, modeCode⟩⟩ := flight
      · rfl
      · simp only
        cases readPayload library data info <;> rfl

@[simp]
theorem TrackMain.isOk_parseOsdMsg (track : TrackMain D F) (msg : String) :
    (track.parseOsdMsg library msg).2.isOk =
      !(OsdMessage.text msg).throws library := by
  unfold parseOsdMsg OsdMessage.throws
  simp only
  cases parseText library msg with
  | error error => rfl
  | ok parsed =>
      cases parsed with
      | none => rfl
      | some root => exact track.clear.isOk_parseRoot root

theorem Process.handleOsdMsg_text (track : TrackMain D F) (msg : String) :
    (⟨track, true⟩ : Process D F).handleOsdMsg library (.text msg) =
      ⟨(track.parseOsdMsg library msg).1,
        !(OsdMessage.text msg).throws library⟩ := by
  rw [← track.isOk_parseOsdMsg, handleOsdMsg]
  simp only [if_true]
  rcases track.parseOsdMsg library msg with ⟨track, error | parsed⟩ <;> rfl

@[simp] theorem Process.handleOsdMsg_running (track : TrackMain D F)
    (message : OsdMessage) :
    ((⟨track, true⟩ : Process D F).handleOsdMsg library message).running =
      !message.throws library := by
  cases message with
  | nullPointer => rfl
  | text msg => rw [handleOsdMsg_text]

@[simp] theorem Process.handleOsdMsg_stopped (track : TrackMain D F)
    (message : OsdMessage) :
    (⟨track, false⟩ : Process D F).handleOsdMsg library message =
      ⟨track, false⟩ := by
  cases message <;> rfl

/-- The mode code of a message is followed, whatever else is in it. -/
theorem TrackMain.Follows.handleOsdMsg {track : TrackMain D F}
    {codes : List Int} (follows : track.Follows codes)
    (message : OsdMessage) :
    ((⟨track, true⟩ : Process D F).handleOsdMsg library
        message).track.Follows
      (codes ++ (message.modeCode library).toList) := by
  cases message with
  | nullPointer =>
      have none : OsdMessage.nullPointer.modeCode library = none := rfl
      rw [none, Option.toList_none, List.append_nil]
      exact follows
  | text msg =>
      rw [Process.handleOsdMsg_text]
      exact follows.parseOsdMsg msg

@[simp] theorem Process.foldl_stopped (track : TrackMain D F)
    (messages : List OsdMessage) :
    messages.foldl (handleOsdMsg library) ⟨track, false⟩ =
      ⟨track, false⟩ := by
  induction messages with
  | nil => rfl
  | cons message messages inductionHypothesis =>
      rw [List.foldl_cons, handleOsdMsg_stopped, inductionHypothesis]

theorem arrivals_cons (message : OsdMessage) (messages : List OsdMessage) :
    arrivals library (message :: messages) =
      (message.modeCode library).toList ++
        if message.throws library then [] else
          arrivals library messages := by
  have split_filterMap : ∀ messages : List OsdMessage,
      (message :: messages).filterMap (·.modeCode library) =
        (message.modeCode library).toList ++
          messages.filterMap (·.modeCode library) := by
    intro messages
    rw [List.filterMap_cons]
    cases message.modeCode library <;> rfl
  rw [arrivals, processed]
  split
  · rw [split_filterMap, List.filterMap_nil]
  · rw [split_filterMap, arrivals]

/-- The messages are followed until one ends the process. -/
theorem TrackMain.Follows.foldl
    {track : TrackMain D F} {codes : List Int} (follows : track.Follows codes)
    (messages : List OsdMessage) :
    (messages.foldl (Process.handleOsdMsg library)
        ⟨track, true⟩).track.Follows
      (codes ++ arrivals library messages) := by
  induction messages generalizing track codes with
  | nil =>
      rw [arrivals, processed, List.filterMap_nil, List.append_nil]
      exact follows
  | cons message messages inductionHypothesis =>
      have next : ((⟨track, true⟩ : Process D F).handleOsdMsg library
          message).track.Follows
            (codes ++ (message.modeCode library).toList) :=
        follows.handleOsdMsg message
      have running : ((⟨track, true⟩ : Process D F).handleOsdMsg library
          message).running = !message.throws library :=
        Process.handleOsdMsg_running track message
      rw [List.foldl_cons, arrivals_cons, ← List.append_assoc]
      cases after : Process.handleOsdMsg library ⟨track, true⟩ message with
      | mk track stillRunning =>
          rw [after] at next running
          cases throws : message.throws library with
          | true =>
              rw [throws] at running
              obtain rfl : stillRunning = false := running
              rw [Process.foldl_stopped, if_pos rfl, List.append_nil]
              exact next
          | false =>
              rw [throws] at running
              obtain rfl : stillRunning = true := running
              exact inductionHypothesis next

/-- The reports of the end of a flight count the landings. -/
theorem waypointEndReports_eq_landings
    (library : Library Value D F) (messages : List OsdMessage) :
    (messages.foldl (Process.handleOsdMsg library)
        Process.initial).track.waypointEndReports =
      landings (arrivals library messages) :=
  (TrackMain.Follows.initial.foldl messages).reports

end Messages
end Telemetry
end Pilot2Cloud
