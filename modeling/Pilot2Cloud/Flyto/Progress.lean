import Pilot2Cloud.Foundation.Transitions
import Pilot2Cloud.Flyto.Control

/-!
# Tracking the flight to a point

`handleFlytoProgress` records the status and the id of every progress event,
`handleFlytoPoint` records the id of every flight it issues and decides by the
recorded status whether to issue a new flight or to update the one in progress.
The record is the one of the flight issued last as long as events of other
flights only repeat it.
-/

namespace Pilot2Cloud
namespace Flyto

open Foundation

/-- The mode code of a flight to a point. -/
@[simp] abbrev uavModeCommandFlight : Int := 17

/-- The members of `data` in a progress event that are used for more than the
log. -/
structure Progress where
  status : String
  flyToId : String
  result : Int
  deriving DecidableEq, Repr

/-- A flight that was issued, with the status that the events of this flight
have reported. -/
structure Flight where
  flyToId : String
  status : String
  deriving DecidableEq, Repr

/-- Where a worker stands in `handleFlytoPoint`. -/
inductive FlytoWorker
  | idle
  /-- The status is queried: `inProgress` is the flight to be updated. -/
  | checking (inProgress : Option String)
  | waiting
  deriving DecidableEq, Repr

/-- What is recorded of the flight.  `issued` is the flight issued last, which
the program does not store. -/
structure FlytoState where
  lastSentFlyToId : String
  lastFlytoStatus : String
  lastFlytoResult : Int
  mode : UavControlMode
  worker : Nat → FlytoWorker
  issued : Option Flight

/-- No flight has been commanded. -/
def FlytoState.initial : FlytoState where
  lastSentFlyToId := ""
  lastFlytoStatus := ""
  lastFlytoResult := 0
  mode := .idle
  worker _ := .idle
  issued := none

/-- The message is a failure of the flight. -/
def Progress.Failed (progress : Progress) : Prop :=
  progress.status = "wayline_failed" ∨ progress.result ≠ 0

instance : DecidablePred Progress.Failed := fun _ =>
  inferInstanceAs (Decidable (_ ∨ _))

/-- The event is one of the flight issued last. -/
def FlytoState.Concerns (state : FlytoState) (progress : Progress) : Prop :=
  state.issued.map Flight.flyToId = some progress.flyToId

instance (state : FlytoState) : DecidablePred state.Concerns := fun _ =>
  inferInstanceAs (Decidable (_ = _))

/-- What the observer learns of the flight issued last. -/
def FlytoState.observe (state : FlytoState) (progress : Progress) :
    Option Flight :=
  if state.Concerns progress then
    some ⟨progress.flyToId, progress.status⟩
  else state.issued

/-- `handleFlytoProgress` of an event that can be parsed. -/
def handleFlytoProgress (state : FlytoState) (progress : Progress) :
    FlytoState :=
  let state := { state with
    lastFlytoStatus := progress.status
    lastSentFlyToId :=
      if progress.flyToId = "" then state.lastSentFlyToId
      else progress.flyToId
    lastFlytoResult := progress.result
    issued := state.observe progress }
  if progress.Failed then { state with mode := .idle } else state

/-- The first part of `handleFlytoPoint`: a flight in progress is updated if
the aircraft still executes a command. -/
def queryFlyto (state : FlytoState) (worker : Nat) (uavMode : Int) :
    FlytoState :=
  let flytoInProgress : Bool := state.lastFlytoStatus = "wayline_progress"
  let stale := flytoInProgress && uavMode ≠ uavModeCommandFlight
  let inProgress :=
    if flytoInProgress && !stale then some state.lastSentFlyToId else none
  { state with
    mode := .flytoMode
    lastFlytoStatus := if stale then "ok" else state.lastFlytoStatus
    issued := state.issued.map fun flight =>
      if stale then { flight with status := "ok" } else flight
    worker := Function.update state.worker worker (.checking inProgress) }

/-- The last part of `handleFlytoPoint` when the checks have passed: issue the
flight `flyToId`, or update the one in progress. -/
def issueFlyto (state : FlytoState) (worker : Nat) (flyToId : String) :
    FlytoState :=
  let state' := { state with
    worker := Function.update state.worker worker .waiting }
  match state.worker worker with
  | .checking none =>
      { state' with
        lastSentFlyToId := flyToId
        lastFlytoStatus := "sent"
        issued := some ⟨flyToId, "sent"⟩ }
  | _ => state'

/-- `sendResult`, and the handler returns. -/
def finishFlyto (state : FlytoState) (worker : Nat) (ret : Bool) :
    FlytoState :=
  { state with
    mode := if ret then state.mode else .idle
    worker := Function.update state.worker worker .idle }

/-- An event from the device, or a step of a worker. -/
inductive FlytoAction
  | progress (event : Option Progress)
  | query (worker : Nat) (uavMode : Int)
  | issue (worker : Nat) (flyToId : String)
  | finish (worker : Nat) (ret : Bool)
  /-- Another command changes the mode. -/
  | setMode (mode : UavControlMode)
  deriving DecidableEq, Repr

/-- One step of a worker or of a progress event. -/
def flytoStep (state : FlytoState) : FlytoAction → Option FlytoState
  | .progress none => some state
  | .progress (some event) => some (handleFlytoProgress state event)
  | .query worker uavMode =>
      if state.worker worker = .idle then
        some (queryFlyto state worker uavMode)
      else none
  | .issue worker flyToId =>
      match state.worker worker with
      | .checking _ => some (issueFlyto state worker flyToId)
      | _ => none
  | .finish worker ret =>
      match state.worker worker, ret with
      | .waiting, _ | .checking _, false =>
          some (finishFlyto state worker ret)
      | _, _ => none
  | .setMode mode => some { state with mode }

/-- One step leads to a state. -/
def FlytoStep (state : FlytoState) (action : FlytoAction)
    (next : FlytoState) : Prop :=
  flytoStep state action = some next

/-- Events of other flights change neither the record nor the mode, and a
flight is only updated while it is the one issued last and in progress. -/
def Tracks (state : FlytoState) : FlytoAction → Prop
  | .progress (some event) =>
      ¬state.Concerns event →
        (handleFlytoProgress state event).lastFlytoStatus =
            state.lastFlytoStatus ∧
          (handleFlytoProgress state event).lastSentFlyToId =
            state.lastSentFlyToId ∧
          (handleFlytoProgress state event).mode = state.mode
  | .issue worker _ =>
      ∀ named, state.worker worker = .checking (some named) →
        state.issued = some ⟨named, "wayline_progress"⟩
  | _ => True

/-- An event of another flight repeats the recorded status and id, if it has an
id, and is no failure unless the mode is idle; and when a flight is updated,
the record is still the one that was queried. -/
def Repeats (state : FlytoState) : FlytoAction → Prop
  | .progress (some event) =>
      ¬state.Concerns event →
        event.status = state.lastFlytoStatus ∧
          (event.flyToId = "" ∨ event.flyToId = state.lastSentFlyToId) ∧
          (event.Failed → state.mode = .idle)
  | .issue worker _ =>
      ∀ named, state.worker worker = .checking (some named) →
        state.lastSentFlyToId = named ∧
          state.lastFlytoStatus = "wayline_progress"
  | _ => True

/-- The record is the one of the flight issued last. -/
def FlytoState.Recorded (state : FlytoState) : Prop :=
  match state.issued with
  | none => state.lastSentFlyToId = "" ∧ state.lastFlytoStatus = ""
  | some flight => state.lastSentFlyToId = flight.flyToId ∧
      state.lastFlytoStatus = flight.status

section Events

variable (state : FlytoState) (event : Progress)

/-- The status of an event is remembered. -/
@[simp] theorem handleFlytoProgress_lastFlytoStatus :
    (handleFlytoProgress state event).lastFlytoStatus = event.status := by
  by_cases failed : event.Failed <;> simp [handleFlytoProgress, failed]

/-- The ID of an event is remembered if it has one. -/
@[simp] theorem handleFlytoProgress_lastSentFlyToId :
    (handleFlytoProgress state event).lastSentFlyToId =
      if event.flyToId = "" then state.lastSentFlyToId
      else event.flyToId := by
  by_cases failed : event.Failed <;> simp [handleFlytoProgress, failed]

/-- The last issued flight observes the event. -/
@[simp] theorem handleFlytoProgress_issued :
    (handleFlytoProgress state event).issued = state.observe event := by
  by_cases failed : event.Failed <;> simp [handleFlytoProgress, failed]

/-- A failure resets the mode. -/
@[simp] theorem handleFlytoProgress_mode :
    (handleFlytoProgress state event).mode =
      if event.Failed then .idle else state.mode := by
  by_cases failed : event.Failed <;> simp [handleFlytoProgress, failed]

/-- What the event says of the record is what it writes there. -/
theorem repeats_progress_iff :
    Repeats state (.progress (some event)) ↔
      Tracks state (.progress (some event)) := by
  have sameMode : (event.Failed → state.mode = .idle) ↔
      (if event.Failed then .idle else state.mode) = state.mode := by
    split
    · next failed => simp [failed, eq_comm]
    · next fine => simp [fine]
  have sameId : event.flyToId = "" ∨ event.flyToId = state.lastSentFlyToId ↔
      (if event.flyToId = "" then state.lastSentFlyToId
        else event.flyToId) = state.lastSentFlyToId := by
    split
    · next unnamed => simp [unnamed]
    · next named => simp [named]
  simp only [Repeats, Tracks, handleFlytoProgress_lastFlytoStatus,
    handleFlytoProgress_lastSentFlyToId, handleFlytoProgress_mode, sameMode,
    sameId]

end Events

/-- Nothing is recorded at the start. -/
theorem FlytoState.recorded_initial : FlytoState.initial.Recorded :=
  ⟨rfl, rfl⟩

namespace FlytoState.Recorded

variable {state : FlytoState}

/-- Before the first flight no status says that a flight is in progress. -/
theorem exists_issued (recorded : state.Recorded)
    (inProgress : state.lastFlytoStatus = "wayline_progress") :
    ∃ flight, state.issued = some flight := by
  cases issued : state.issued with
  | some flight => exact ⟨flight, rfl⟩
  | none =>
      rw [Recorded, issued] at recorded
      rw [recorded.2] at inProgress
      exact absurd inProgress (by decide)

/-- A flight in progress is remembered by its ID and status. -/
theorem issued_iff (recorded : state.Recorded) (named : String) :
    state.issued = some ⟨named, "wayline_progress"⟩ ↔
      state.lastSentFlyToId = named ∧
        state.lastFlytoStatus = "wayline_progress" := by
  constructor
  · intro issued
    rw [Recorded, issued] at recorded
    exact recorded
  · rintro ⟨sentId, inProgress⟩
    obtain ⟨flight, issued⟩ := recorded.exists_issued inProgress
    rw [Recorded, issued] at recorded
    rw [issued, ← sentId, recorded.1, ← inProgress, recorded.2]

/-- An event of the flight issued last is recorded; one of another flight that
repeats the record leaves it. -/
theorem handleFlytoProgress (recorded : state.Recorded) (event : Progress)
    (repeats : Repeats state (.progress (some event))) :
    (handleFlytoProgress state event).Recorded := by
  by_cases concerns : state.Concerns event
  · obtain ⟨flight, issued, sameId⟩ := Option.map_eq_some_iff.mp concerns
    rw [Recorded, issued] at recorded
    simp only [Recorded, handleFlytoProgress_issued, observe, if_pos concerns,
      handleFlytoProgress_lastSentFlyToId, handleFlytoProgress_lastFlytoStatus]
    simp [recorded.1, sameId]
  · obtain ⟨sameStatus, sameId, -⟩ :=
      (repeats_progress_iff state event).mp repeats concerns
    rw [Recorded, handleFlytoProgress_issued, observe, if_neg concerns,
      sameStatus, sameId]
    exact recorded

/-- A query leaves the record right. -/
theorem queryFlyto (recorded : state.Recorded) (worker : Nat)
    (uavMode : Int) : (queryFlyto state worker uavMode).Recorded := by
  cases issued : state.issued with
  | none =>
      rw [Recorded, issued] at recorded
      simp [Recorded, Flyto.queryFlyto, issued, recorded]
  | some flight =>
      rw [Recorded, issued] at recorded
      simp only [Recorded, Flyto.queryFlyto, issued, Option.map_some]
      constructor
      · rw [recorded.1]
        split <;> rfl
      · rw [recorded.2]
        split <;> rfl

/-- A new flight is recorded. -/
theorem issueFlyto (recorded : state.Recorded) (worker : Nat)
    (flyToId : String) : (issueFlyto state worker flyToId).Recorded := by
  rw [Flyto.issueFlyto]
  split
  · exact ⟨rfl, rfl⟩
  · exact recorded

/-- Every step that repeats the record keeps it the record of the flight issued
last. -/
theorem step (recorded : state.Recorded) (action : FlytoAction)
    {next : FlytoState} (repeats : Repeats state action)
    (first : FlytoStep state action next) : next.Recorded := by
  rw [FlytoStep] at first
  cases action with
  | progress event =>
      cases event with
      | none =>
          cases first
          exact recorded
      | some event =>
          cases first
          exact recorded.handleFlytoProgress event repeats
  | query worker uavMode =>
      rw [flytoStep, Option.ite_none_right_eq_some] at first
      cases first.2
      exact recorded.queryFlyto worker uavMode
  | issue worker flyToId =>
      rw [flytoStep] at first
      split at first <;> cases first
      exact recorded.issueFlyto worker flyToId
  | finish worker ret =>
      simp only [flytoStep] at first
      split at first <;> cases first <;> exact recorded
  | setMode mode =>
      cases first
      exact recorded

/-- An update is sent again exactly when the record tracks the flight. -/
theorem repeats_iff (recorded : state.Recorded) (action : FlytoAction) :
    Repeats state action ↔ Tracks state action := by
  cases action with
  | progress event =>
      cases event with
      | none => exact .rfl
      | some event => exact repeats_progress_iff state event
  | issue worker flyToId =>
      refine forall_congr' fun named => forall_congr' fun updates => ?_
      exact (recorded.issued_iff named).symm
  | query worker uavMode => exact .rfl
  | finish worker ret => exact .rfl
  | setMode mode => exact .rfl

end FlytoState.Recorded

/-- The record follows the flight issued last, from the start and through all
steps, exactly when events of other flights repeat it. -/
theorem tracks_iff_repeats (actions : List FlytoAction) :
    Along FlytoStep Tracks .initial actions ↔
      Along FlytoStep Repeats .initial actions := by
  constructor
  · intro tracks
    refine tracks.of_invariant ?_ ?_ FlytoState.recorded_initial
    · intro state action next recorded here first
      exact recorded.step action ((recorded.repeats_iff action).mpr here) first
    · intro state action recorded here
      exact (recorded.repeats_iff action).mpr here
  · intro repeats
    refine repeats.of_invariant ?_ ?_ FlytoState.recorded_initial
    · intro state action next recorded here first
      exact recorded.step action here first
    · intro state action recorded here
      exact (recorded.repeats_iff action).mp here

/-- After two flights a late event of the first one is taken for one of the
second, and the update that follows is one of the first. -/
def lateEvent : List FlytoAction :=
  [.query 0 uavModeCommandFlight, .issue 0 "first", .finish 0 true,
    .query 0 uavModeCommandFlight, .issue 0 "second", .finish 0 true,
    .progress (some ⟨"wayline_progress", "first", 0⟩),
    .query 0 uavModeCommandFlight, .issue 0 "", .finish 0 true]

/-- A late event of an earlier flight is recorded for the later one. -/
theorem not_tracks_of_lateEvent :
    (∃ state, Run FlytoStep .initial lateEvent state ∧
      state.lastSentFlyToId = "first" ∧
      state.issued.map Flight.flyToId = some "second") ∧
    ¬Along FlytoStep Tracks .initial lateEvent := by
  refine ⟨⟨_, Run.iff_foldlM.mpr rfl, rfl, rfl⟩, fun tracks => ?_⟩
  obtain ⟨-, issues⟩ := tracks
  obtain ⟨-, finishes⟩ := issues _ rfl
  obtain ⟨-, queries⟩ := finishes _ rfl
  obtain ⟨-, issuesAgain⟩ := queries _ rfl
  obtain ⟨-, finishesAgain⟩ := issuesAgain _ rfl
  obtain ⟨-, receives⟩ := finishesAgain _ rfl
  obtain ⟨ignored, -⟩ := receives _ rfl
  exact absurd (ignored (by decide)).1 (by decide)

end Flyto
end Pilot2Cloud
