import Pilot2Cloud.Foundation.Transitions
import Mathlib.Logic.Function.Basic
import Mathlib.Tactic.Common
import Mathlib.Tactic.Simps.Basic

/-!
# Flight control commands and the continuous move

Every worker of the flight module runs one command at a time, and a continuous
move has a thread of its own.  A worker is described by the statements it still
has to execute, one at a time; the threads meet in the control mode and in the
fields `m_continuousParams` and `m_continuousMoveThread`.
-/

namespace Pilot2Cloud
namespace Flyto

open Foundation

/-- `FlightControlOffset`. -/
structure FlightControlOffset where
  throttle : Int := 0
  roll : Int := 0
  pitch : Int := 0
  yaw : Int := 0
  deriving DecidableEq, Repr

/-- A `stick_control` message. -/
structure StickControl where
  throttle : Int
  roll : Int
  pitch : Int
  yaw : Int
  deriving DecidableEq, Repr

/-- The value of a stick that is not moved. -/
@[simp] abbrev stickControlCenter : Int := 1024

/-- The message that `commonControlSend` publishes for an offset. -/
def StickControl.ofOffset (offset : FlightControlOffset) : StickControl where
  throttle := stickControlCenter + offset.throttle
  roll := stickControlCenter + offset.roll
  pitch := stickControlCenter + offset.pitch
  yaw := stickControlCenter + offset.yaw

/-- Every channel is in the middle. -/
def StickControl.Neutral (message : StickControl) : Prop :=
  message.throttle = stickControlCenter ∧ message.roll = stickControlCenter ∧
    message.pitch = stickControlCenter ∧ message.yaw = stickControlCenter

instance (message : StickControl) : Decidable message.Neutral := by
  unfold StickControl.Neutral
  infer_instance

/-- Only the neutral offset makes a neutral message. -/
theorem StickControl.ofOffset_neutral_iff {offset : FlightControlOffset} :
    (StickControl.ofOffset offset).Neutral ↔ offset = {} := by
  cases offset
  simp only [StickControl.Neutral, StickControl.ofOffset,
    FlightControlOffset.mk.injEq]
  omega

/-- `UavControlMode`. -/
inductive UavControlMode
  | idle
  | waypointMode
  | flytoMode
  deriving DecidableEq, Repr

/-- The mode code of manual flight. -/
@[simp] abbrev uavModeManual : Int := 3

/-- The mode code of ADS-B avoidance. -/
@[simp] abbrev uavModeAdsbAvoid : Int := 8

/-- The mode code of the APAS. -/
@[simp] abbrev uavModeApas : Int := 15

/-- `isUavUnderManualControl`. -/
def isUavUnderManualControl (modeCode : Int) : Bool :=
  modeCode = uavModeManual ∨ modeCode = uavModeAdsbAvoid ∨
    modeCode = uavModeApas

/-- The time between two messages of a timed move. -/
@[simp] abbrev cycleDurationMs : Int := 143

/-- `ContinuousMoveParams`. -/
structure ContinuousMoveParams where
  offset : FlightControlOffset
  direction : Int
  active : Bool
  deriving DecidableEq, Repr

/-- A command with a valid action.  Those that move the aircraft come with the
offset, and the time or the direction, that their handlers compute. -/
inductive Command
  | takeoff
  | gohome
  | move (offset : FlightControlOffset) (totalMs : Int)
  | turn (offset : FlightControlOffset) (totalMs : Int)
  | flytoPoint
  | continuousMove (direction : Int) (offset : FlightControlOffset)
  | stopMove
  | flytoPointStop
  | returnHomeCancel
  deriving DecidableEq, Repr

/-- What a worker does at a time. -/
inductive Statement
  | setUavControlMode (mode : UavControlMode)
  /-- `ensureFlightControlAndMode` and the checks of the parameters. -/
  | ensureFlightControlAndMode
  /-- One message of `executeTimedControl`. -/
  | commonControlSend (offset : FlightControlOffset)
  /-- A request to the device, with `sendResult`. -/
  | sendRequestAndWait
  /-- Does a move in this direction go on already? -/
  | compareDirection (direction : Int) (offset : FlightControlOffset)
  | updateOffset (offset : FlightControlOffset)
  /-- Is there a thread to be replaced? -/
  | stopPreviousThread
  | deactivate
  | join
  /-- The neutral message between two continuous moves. -/
  | centre
  | makeParams (direction : Int) (offset : FlightControlOffset)
  | activate
  | startThread
  /-- Is there a thread to wait for? -/
  | joinThread
  /-- The neutral message of `handleStopMove`. -/
  | sendStop
  | stopReturned
  deriving DecidableEq, Repr

/-- The number of full and partial cycles of a timed move. -/
def timedCycles (totalMs : Int) : Nat :=
  let fullCycles := totalMs.tdiv cycleDurationMs
  let remainingMs := totalMs.tmod cycleDurationMs
  fullCycles.toNat + if remainingMs > 0 then 1 else 0

/-- The messages of `executeTimedControl`. -/
def executeTimedControl (offset : FlightControlOffset) (totalMs : Int) :
    List Statement :=
  List.replicate (timedCycles totalMs) (.commonControlSend offset) ++
    [.commonControlSend {}]

/-- `handleMove` and `handleTurn`. -/
def handleTimed (offset : FlightControlOffset) (totalMs : Int) :
    List Statement :=
  [.ensureFlightControlAndMode] ++ executeTimedControl offset totalMs ++
    [.setUavControlMode .idle]

/-- `handleContinuousMove`. -/
def handleContinuousMove (direction : Int) (offset : FlightControlOffset) :
    List Statement :=
  [.ensureFlightControlAndMode, .compareDirection direction offset,
    .stopPreviousThread, .makeParams direction offset, .activate, .startThread]

/-- `handleStopMove`. -/
def handleStopMove : List Statement :=
  [.deactivate, .joinThread, .sendStop, .stopReturned]

/-- Take-off and fly-to leave the mode to what follows. -/
def handleRequest : List Statement :=
  [.sendRequestAndWait]

/-- Going home, stopping a flight and cancelling a return reset the mode. -/
def handleResettingRequest : List Statement :=
  [.sendRequestAndWait, .setUavControlMode .idle]

/-- The handler of a command. -/
def Command.handler : Command → List Statement
  | .takeoff | .flytoPoint => handleRequest
  | .gohome | .flytoPointStop | .returnHomeCancel => handleResettingRequest
  | .move offset totalMs | .turn offset totalMs => handleTimed offset totalMs
  | .continuousMove direction offset => handleContinuousMove direction offset
  | .stopMove => handleStopMove

/-- `handleFlightControl` of a command with a valid action. -/
def handleFlightControl (command : Command) : List Statement :=
  .setUavControlMode .flytoMode :: command.handler

/-- A MOVE, TURN or continuous-move command. -/
def Command.Moves : Command → Prop
  | .move _ _ | .turn _ _ | .continuousMove _ _ => True
  | _ => False

instance : DecidablePred Command.Moves := fun command => by
  cases command <;> unfold Command.Moves <;> infer_instance

/-- Where a continuous-move thread stands in its loop, with `enteredManual`. -/
inductive Mover
  | absent
  | checkingActive (enteredManual : Bool)
  | checkingMode (enteredManual : Bool)
  | checkingUav (enteredManual : Bool)
  | reading (enteredManual : Bool)
  | sending (enteredManual : Bool) (offset : FlightControlOffset)
  /-- It clears `active` and ends. -/
  | quitting
  /-- It clears `active`, resets the mode and ends. -/
  | leaving
  | resetting
  | ended
  deriving DecidableEq, Repr

/-- What an observer of the module sees. -/
inductive Event
  | stick (message : StickControl)
  | moveBegun
  | stopReturned
  deriving DecidableEq, Repr

/-- The shared fields and the threads.  `moveThread` is the thread in
`m_continuousMoveThread` if it is joinable, `log` has the latest event first. -/
structure State where
  mode : UavControlMode
  params : Option ContinuousMoveParams
  moveThread : Option Nat
  spawned : Nat
  mover : Nat → Mover
  worker : Nat → List Statement
  log : List Event
  terminated : Bool

/-- Nothing has been commanded. -/
def State.initial : State where
  mode := .idle
  params := none
  moveThread := none
  spawned := 0
  mover _ := .absent
  worker _ := []
  log := []
  terminated := false

/-- A worker has these statements left. -/
@[simps]
def State.setWorker (state : State) (worker : Nat) (rest : List Statement) :
    State :=
  { state with worker := Function.update state.worker worker rest }

/-- A continuous-move thread stands here. -/
@[simps]
def State.setMover (state : State) (thread : Nat) (mover : Mover) : State :=
  { state with mover := Function.update state.mover thread mover }

/-- Another event is seen. -/
@[simps]
def State.record (state : State) (event : Event) : State :=
  { state with log := event :: state.log }

/-- `setUavControlMode`. -/
@[simps]
def State.setMode (state : State) (mode : UavControlMode) : State :=
  { state with mode }

/-- Change what `m_continuousParams` points to, if anything. -/
@[simps]
def State.modifyParams (state : State)
    (change : ContinuousMoveParams → ContinuousMoveParams) : State :=
  { state with params := state.params.map change }

/-- `m_continuousParams->active.store(active)`. -/
@[simps!]
def State.storeActive (state : State) (active : Bool) : State :=
  state.modifyParams fun params => { params with active }

/-- `m_continuousMoveThread` is a new thread. -/
@[simps]
def State.startThread (state : State) : State :=
  { state with
    moveThread := some state.spawned
    spawned := state.spawned + 1
    mover := Function.update state.mover state.spawned
      (.checkingActive false) }

/-- The thread in `m_continuousMoveThread` has been joined. -/
@[simps]
def State.clearThread (state : State) : State :=
  { state with moveThread := none }

/-- `m_continuousParams` points to new parameters. -/
@[simps]
def State.setParams (state : State) (params : ContinuousMoveParams) : State :=
  { state with params := some params }

/-- The program ends. -/
@[simps]
def State.terminate (state : State) : State :=
  { state with terminated := true }

/-- A message is sent if it can be serialised. -/
@[simps]
def State.send (state : State) (sent : Bool) (offset : FlightControlOffset) :
    State :=
  { state with
    log := if sent then .stick (.ofOffset offset) :: state.log
      else state.log }

/-- `sendResult` of a failure resets the mode; then the handler returns. -/
def failed : List Statement :=
  [.setUavControlMode .idle]

/-- Execute a statement of a worker.  `good` says whether checks pass, a request
succeeds or a message can be serialised. -/
def execute (state : State) (worker : Nat) (good : Bool)
    (rest : List Statement) : Statement → Option State
  | .setUavControlMode mode =>
      some <| (state.setMode mode).setWorker worker rest
  | .ensureFlightControlAndMode =>
      some <| state.setWorker worker (if good then rest else failed)
  | .commonControlSend offset =>
      some <| (state.send good offset).setWorker worker
        (if good then rest else failed)
  | .sendRequestAndWait =>
      some <| state.setWorker worker (if good then rest else failed ++ rest)
  | .compareDirection direction offset =>
      some <| state.setWorker worker <| match state.params with
        | some params =>
            if params.active ∧ params.direction = direction then
              [.updateOffset offset]
            else rest
        | none => rest
  | .updateOffset offset =>
      some <| (state.modifyParams fun params =>
        { params with offset }).setWorker worker rest
  | .stopPreviousThread =>
      some <| state.setWorker worker <| match state.moveThread with
        | some _ => [.deactivate, .join, .centre] ++ rest
        | none => rest
  | .deactivate =>
      some <| (state.storeActive false).setWorker worker rest
  | .join =>
      match state.moveThread with
      -- `join` throws, and `dispatchMessage` drops the rest of the handler
      | none => some <| state.setWorker worker []
      | some thread =>
          if state.mover thread = .ended then
            some <| state.clearThread.setWorker worker rest
          else none
  | .centre => some <| (state.send good {}).setWorker worker rest
  | .makeParams direction offset =>
      some <| (state.setParams ⟨offset, direction, false⟩).setWorker worker rest
  | .activate => some <| (state.storeActive true).setWorker worker rest
  | .startThread =>
      match state.moveThread with
      -- the destructor of a joinable thread terminates the program
      | some _ => some state.terminate
      | none => some <| state.startThread.setWorker worker rest
  | .joinThread =>
      some <| state.setWorker worker <| match state.moveThread with
        | some _ => .join :: rest
        | none => rest
  | .sendStop =>
      some <| (state.send good {}).setWorker worker
        (if good then rest else failed ++ rest)
  | .stopReturned =>
      some <| (state.record .stopReturned).setWorker worker rest

/-- One step of a continuous-move thread.  `uavMode` is the aircraft's mode in
the telemetry, `sent` says whether a message can be serialised. -/
def advance (state : State) (thread : Nat) (uavMode : Int) (sent : Bool) :
    Option State :=
  match state.mover thread with
  | .absent | .ended => none
  | .checkingActive enteredManual =>
      match state.params with
      | some params =>
          some <| state.setMover thread
            (if params.active then .checkingMode enteredManual else .ended)
      | none => some state.terminate
  | .checkingMode enteredManual =>
      some <| state.setMover thread
        (if state.mode = .flytoMode then .checkingUav enteredManual
          else .quitting)
  | .checkingUav enteredManual =>
      let enteredManual := enteredManual || decide (uavMode = uavModeManual)
      some <| state.setMover thread
        (if enteredManual && !isUavUnderManualControl uavMode then .leaving
          else .reading enteredManual)
  | .reading enteredManual =>
      match state.params with
      | some params =>
          some <| state.setMover thread (.sending enteredManual params.offset)
      | none => some state.terminate
  | .sending enteredManual offset =>
      some <| (state.send sent offset).setMover thread
        (if sent then .checkingActive enteredManual else .quitting)
  | .quitting => some <| (state.storeActive false).setMover thread .ended
  | .leaving => some <| (state.storeActive false).setMover thread .resetting
  | .resetting => some <| (state.setMode .idle).setMover thread .ended

/-- A step of a worker or of a continuous-move thread. -/
inductive Action
  | begin (worker : Nat) (command : Command)
  | work (worker : Nat) (good : Bool)
  | advance (thread : Nat) (uavMode : Int) (sent : Bool)
  deriving DecidableEq, Repr

/-- A worker without a command takes one from the pool. -/
def begin (state : State) (worker : Nat) (command : Command) : State :=
  let state := if command.Moves then state.record .moveBegun else state
  state.setWorker worker (handleFlightControl command)

/-- One step of one thread, if it can take it. -/
def step (state : State) (action : Action) : Option State :=
  if state.terminated then none else
  match action with
  | .begin worker command =>
      if state.worker worker = [] then some (begin state worker command)
      else none
  | .work worker good =>
      match state.worker worker with
      | [] => none
      | statement :: rest => execute state worker good rest statement
  | .advance thread uavMode sent => advance state thread uavMode sent

/-- One step leads to a state. -/
def Step (state : State) (action : Action) (next : State) : Prop :=
  step state action = some next

end Flyto
end Pilot2Cloud
