import Pilot2Cloud.Flyto.Execution

/-!
# Stopping the aircraft

`handleStopMove` ends the continuous move, waits for its thread and sends a
neutral message.  Workers run at once, and a timed move in another worker goes
on sending.  The aircraft stays put after a stop that does not run together
with a continuous-move command and finds no timed move left when it returns.
-/

namespace Pilot2Cloud
namespace Flyto

open Foundation

/-- A stop has returned and no command to move has been begun since. -/
def Quiet : List Event → Prop
  | [] => False
  | .stick _ :: older => Quiet older
  | .moveBegun :: _ => False
  | .stopReturned :: _ => True

/-- Every message sent while the aircraft should be quiet is neutral. -/
def StopsMotion : List Event → Prop
  | [] => True
  | .stick message :: older =>
      (Quiet older → message.Neutral) ∧ StopsMotion older
  | .moveBegun :: older => StopsMotion older
  | .stopReturned :: older => StopsMotion older

/-- A worker is going to start a continuous-move thread. -/
def State.Starting (state : State) (worker : Nat) : Prop :=
  .startThread ∈ state.worker worker

/-- A worker executes a stop. -/
def State.Stopping (state : State) (worker : Nat) : Prop :=
  .stopReturned ∈ state.worker worker

/-- A worker executes a timed move and is going to send a message that is not
neutral. -/
def State.Moving (state : State) (worker : Nat) : Prop :=
  ∃ offset ≠ {}, .commonControlSend offset ∈ state.worker worker

/-- What is left of a stop that is still going to see to the thread. -/
def stopUnjoined : List (List Statement) :=
  [handleFlightControl .stopMove, handleStopMove,
    [.joinThread, .sendStop, .stopReturned], [.join, .sendStop, .stopReturned]]

/-- What is left of a stop that has seen to the thread. -/
def stopJoined : List (List Statement) :=
  [[.sendStop, .stopReturned], failed ++ [.stopReturned], [.stopReturned]]

/-- Stops and continuous-move commands are not executed at once, and when a stop
returns no timed move has anything but neutral messages left to send. -/
def Separate (state : State) : Action → Prop
  | .begin _ .stopMove => ∀ other, ¬state.Starting other
  | .begin _ (.continuousMove _ _) => ∀ other, ¬state.Stopping other
  | .work worker _ =>
      (state.worker worker).head? = some .stopReturned →
        ∀ other, ¬state.Moving other
  | _ => True

/-- What holds as long as commands are separate. -/
structure Separated (state : State) : Prop where
  joinable : Joinable state
  apart : ∀ worker other, state.Starting worker → ¬state.Stopping other
  stop_phase : ∀ worker, state.Stopping worker →
    state.worker worker ∈ stopUnjoined ∨
      state.worker worker ∈ stopJoined ∧ state.moveThread = none
  quiet : Quiet state.log → state.moveThread = none ∧
    ∀ worker, ¬state.Starting worker ∧ ¬state.Moving worker
  stops : StopsMotion state.log

variable {state next final : State} {worker thread : Nat}
  {good sent : Bool} {statement : Statement} {rest : List Statement}
  {uavMode : Int}

/-- No thread runs and no command is executed. -/
theorem Separated.initial : Separated State.initial where
  joinable := by simp [Joinable, State.initial]
  apart := by simp [State.initial, State.Starting]
  stop_phase := by simp [State.initial, State.Stopping]
  quiet := by simp [State.initial, Quiet]
  stops := trivial

/-- Executing a statement makes no worker start, stop or move that did not. -/
theorem of_execute_mem {member : Statement} {other : Nat}
    (body : state.worker worker = statement :: rest)
    (step : execute state worker good rest statement = some next)
    (mem : member ∈ next.worker other) (own : ¬member.Auxiliary) :
    member ∈ state.worker other := by
  by_cases same : other = worker
  · subst same
    exact (mem_of_execute body step mem).resolve_right own
  · rwa [execute_worker_of_ne step same] at mem

/-- A statement leaves another worker's start alone. -/
theorem State.Starting.of_execute {other : Nat}
    (body : state.worker worker = statement :: rest)
    (step : execute state worker good rest statement = some next)
    (starting : next.Starting other) : state.Starting other :=
  of_execute_mem body step starting id

/-- A statement leaves another worker's stop alone. -/
theorem State.Stopping.of_execute {other : Nat}
    (body : state.worker worker = statement :: rest)
    (step : execute state worker good rest statement = some next)
    (stopping : next.Stopping other) : state.Stopping other :=
  of_execute_mem body step stopping id

/-- A statement leaves another worker's move alone. -/
theorem State.Moving.of_execute {other : Nat}
    (body : state.worker worker = statement :: rest)
    (step : execute state worker good rest statement = some next)
    (moving : next.Moving other) : state.Moving other := by
  obtain ⟨offset, different, mem⟩ := moving
  exact ⟨offset, different, of_execute_mem body step mem id⟩

/-- A stop goes on from checking for a thread only when there is none or when
it is going to join it. -/
theorem stop_phase_of_execute
    (body : state.worker worker = statement :: rest)
    (step : execute state worker good rest statement = some next)
    (phase : state.worker worker ∈ stopUnjoined ∨
      state.worker worker ∈ stopJoined ∧ state.moveThread = none)
    (stopping : next.Stopping worker) :
    next.worker worker ∈ stopUnjoined ∨
      next.worker worker ∈ stopJoined ∧ next.moveThread = none := by
  rw [body] at phase
  rw [State.Stopping] at stopping
  simp only [stopUnjoined, stopJoined, handleFlightControl, Command.handler,
    handleStopMove, failed, List.mem_cons, List.cons.injEq, List.not_mem_nil,
    or_false, List.cons_append, List.nil_append] at phase ⊢
  obtain (⟨rfl, rfl⟩ | ⟨rfl, rfl⟩ | ⟨rfl, rfl⟩ | ⟨rfl, rfl⟩) |
    ⟨⟨rfl, rfl⟩ | ⟨rfl, rfl⟩ | ⟨rfl, rfl⟩, free⟩ := phase
  case inl.inr.inr.inl =>
    obtain rfl := Option.some_inj.mp step
    cases joinable : state.moveThread <;> simp [joinable]
  case inl.inr.inr.inr =>
    obtain ⟨-, rfl⟩ | ⟨_, -, -, rfl⟩ := execute_join.mp step
    · simp at stopping
    · simp
  all_goals
    obtain rfl := Option.some_inj.mp step
    cases good <;> simp_all [failed]

/-- A statement of a worker keeps the commands separate. -/
theorem Separated.execute
    (separated : Separated state)
    (body : state.worker worker = statement :: rest)
    (still : statement = .stopReturned → ∀ other, ¬state.Moving other)
    (step : execute state worker good rest statement = some next) :
    Separated next := by
  have stoppingNow (returned : statement = .stopReturned) :
      state.Stopping worker := by
    rw [State.Stopping, body, returned]
    exact List.mem_cons_self
  have startingNow (starts : statement = .startThread) :
      state.Starting worker := by
    rw [State.Starting, body, starts]
    exact List.mem_cons_self
  constructor
  case joinable => exact separated.joinable.execute step
  case apart =>
    intro one other starting stopping
    exact separated.apart one other (starting.of_execute body step)
      (stopping.of_execute body step)
  case stop_phase =>
    intro other stopping
    have before := stopping.of_execute body step
    by_cases same : other = worker
    · subst same
      exact stop_phase_of_execute body step
        (separated.stop_phase other before) stopping
    · rw [execute_worker_of_ne step same]
      refine (separated.stop_phase other before).imp_right ?_
      rintro ⟨phase, free⟩
      refine ⟨phase, ?_⟩
      obtain ⟨-, sameThread⟩ | ⟨-, -, none, -⟩ | ⟨starts, -⟩ :=
        threads_of_execute step
      · rw [sameThread]
        exact free
      · exact none
      · exact absurd before (separated.apart worker other (startingNow starts))
  case quiet =>
    intro quietNext
    have calm : state.moveThread = none ∧
        ∀ other, ¬state.Starting other ∧ ¬state.Moving other := by
      obtain same | ⟨offset, -, sends⟩ | ⟨returned, -⟩ := log_of_execute step
      · rw [same] at quietNext
        exact separated.quiet quietNext
      · rw [sends] at quietNext
        exact separated.quiet quietNext
      · have stopping := stoppingNow returned
        obtain unjoined | ⟨-, free⟩ := separated.stop_phase worker stopping
        · rw [body, returned] at unjoined
          simp [stopUnjoined, handleFlightControl, handleStopMove] at unjoined
        · exact ⟨free, fun other =>
            ⟨fun starting => separated.apart other worker starting stopping,
              still returned other⟩⟩
    refine ⟨?_, fun other => ⟨?_, ?_⟩⟩
    · obtain ⟨-, sameThread⟩ | ⟨-, -, none, -⟩ | ⟨starts, -⟩ :=
        threads_of_execute step
      · rw [sameThread]
        exact calm.1
      · exact none
      · exact absurd (startingNow starts) (calm.2 worker).1
    · intro starting
      exact (calm.2 other).1 (starting.of_execute body step)
    · intro moving
      exact (calm.2 other).2 (moving.of_execute body step)
  case stops =>
    obtain same | ⟨offset, which, sends⟩ | ⟨-, returns⟩ := log_of_execute step
    · rw [same]
      exact separated.stops
    · rw [sends]
      refine ⟨fun quietNow => ?_, separated.stops⟩
      rw [StickControl.ofOffset_neutral_iff]
      obtain neutral | sending := which
      · exact neutral
      · by_contra different
        refine ((separated.quiet quietNow).2 worker).2 ⟨offset, different, ?_⟩
        rw [body, sending]
        exact List.mem_cons_self
    · rw [returns]
      exact separated.stops

/-- Only a stop reports that it has returned. -/
theorem stopReturned_mem_handler {command : Command}
    (mem : .stopReturned ∈ handleFlightControl command) :
    command = .stopMove := by
  cases command <;>
    simp [handleFlightControl, Command.handler, handleRequest,
      handleResettingRequest, handleTimed, executeTimedControl,
      handleContinuousMove, handleStopMove] at mem ⊢

/-- Only a continuous move starts a thread. -/
theorem startThread_mem_handler {command : Command}
    (mem : .startThread ∈ handleFlightControl command) :
    ∃ direction offset, command = .continuousMove direction offset := by
  cases command <;>
    simp [handleFlightControl, Command.handler, handleRequest,
      handleResettingRequest, handleTimed, executeTimedControl,
      handleContinuousMove, handleStopMove] at mem ⊢

/-- Only a move sends messages with an offset. -/
theorem moves_of_commonControlSend_mem
    {command : Command} {offset : FlightControlOffset}
    (mem : .commonControlSend offset ∈ handleFlightControl command) :
    command.Moves := by
  cases command <;>
    simp [handleFlightControl, Command.handler, handleRequest,
      handleResettingRequest, handleTimed, executeTimedControl,
      handleContinuousMove, handleStopMove, Command.Moves] at mem ⊢

/-- A command that is begun apart from the others keeps them separate. -/
theorem Separated.begin {command : Command}
    (separated : Separated state)
    (separate : Separate state (.begin worker command)) :
    Separated (Flyto.begin state worker command) := by
  have own : (Flyto.begin state worker command).worker worker =
      handleFlightControl command := by
    simp [Flyto.begin]
  have others (other : Nat) (different : other ≠ worker) :
      (Flyto.begin state worker command).worker other = state.worker other := by
    simp only [Flyto.begin, State.setWorker_worker]
    rw [Function.update_of_ne different]
    split <;> rfl
  have sameThread :
      (Flyto.begin state worker command).moveThread = state.moveThread := by
    simp only [Flyto.begin, State.setWorker_moveThread]
    split <;> rfl
  have sameMover : (Flyto.begin state worker command).mover = state.mover := by
    simp only [Flyto.begin]
    split <;> rfl
  constructor
  case joinable =>
    rw [Joinable, sameMover, sameThread]
    exact separated.joinable
  case apart =>
    intro one other starting stopping
    by_cases starts : one = worker
    · rw [State.Starting, starts, own] at starting
      obtain ⟨direction, offset, rfl⟩ := startThread_mem_handler starting
      by_cases stops : other = worker
      · rw [State.Stopping, stops, own] at stopping
        simp [handleFlightControl, Command.handler, handleContinuousMove]
          at stopping
      · rw [State.Stopping, others other stops] at stopping
        exact separate other stopping
    · rw [State.Starting, others one starts] at starting
      by_cases stops : other = worker
      · rw [State.Stopping, stops, own] at stopping
        obtain rfl := stopReturned_mem_handler stopping
        exact separate one starting
      · rw [State.Stopping, others other stops] at stopping
        exact separated.apart one other starting stopping
  case stop_phase =>
    intro other stopping
    rw [sameThread]
    by_cases stops : other = worker
    · rw [State.Stopping, stops, own] at stopping
      obtain rfl := stopReturned_mem_handler stopping
      rw [stops, own]
      exact .inl List.mem_cons_self
    · rw [State.Stopping, others other stops] at stopping
      rw [others other stops]
      exact separated.stop_phase other stopping
  case quiet =>
    intro quiet
    have still : ¬command.Moves := by
      intro moves
      simp [Flyto.begin, moves, Quiet] at quiet
    have before : Quiet state.log := by
      simpa [Flyto.begin, still] using quiet
    obtain ⟨free, calm⟩ := separated.quiet before
    refine ⟨sameThread.trans free, fun other => ?_⟩
    by_cases begins : other = worker
    · rw [State.Starting, State.Moving, begins, own]
      constructor
      · intro starting
        obtain ⟨direction, offset, rfl⟩ := startThread_mem_handler starting
        exact still trivial
      · rintro ⟨offset, -, sending⟩
        exact still (moves_of_commonControlSend_mem sending)
    · rw [State.Starting, State.Moving, others other begins]
      exact calm other
  case stops =>
    by_cases moves : command.Moves
    · simpa [Flyto.begin, moves, StopsMotion] using separated.stops
    · simpa [Flyto.begin, moves] using separated.stops

/-- A step of a continuous-move thread keeps the commands separate: while the
aircraft should be quiet there is no such thread. -/
theorem Separated.advance
    (separated : Separated state)
    (step : advance state thread uavMode sent = some next) :
    Separated next := by
  obtain ⟨present, running, sameWorker, sameThread, -, log⟩ :=
    of_advance step
  have joinable := separated.joinable thread present running
  have loud : ¬Quiet state.log := by
    intro quiet
    have free := (separated.quiet quiet).1
    simp [free] at joinable
  have loudNext : ¬Quiet next.log := by
    obtain same | ⟨_, _, -, sends⟩ := log
    · rwa [same]
    · rwa [sends]
  constructor
  case joinable => exact separated.joinable.advance step
  case apart =>
    simpa only [State.Starting, State.Stopping, sameWorker] using
      separated.apart
  case stop_phase =>
    simpa only [State.Stopping, sameWorker, sameThread] using
      separated.stop_phase
  case quiet => exact fun quiet => absurd quiet loudNext
  case stops =>
    obtain same | ⟨_, _, -, sends⟩ := log
    · rw [same]
      exact separated.stops
    · rw [sends]
      exact ⟨fun quiet => absurd quiet loud, separated.stops⟩

/-- Every separate step keeps the invariant. -/
theorem Separated.step {action : Action}
    (separated : Separated state) (separate : Separate state action)
    (step : Step state action next) : Separated next := by
  simp only [Step, Flyto.step] at step
  split at step
  · simp at step
  cases action with
  | begin worker command =>
      rw [Option.ite_none_right_eq_some, Option.some_inj] at step
      obtain ⟨-, rfl⟩ := step
      exact separated.begin separate
  | work worker good =>
      cases body : state.worker worker with
      | nil => simp [body] at step
      | cons statement rest =>
          simp only [body] at step
          refine separated.execute body ?_ step
          rintro rfl
          exact separate (by rw [body, List.head?_cons])
  | advance thread uavMode sent => exact separated.advance step

/-- The aircraft does not move after a stop, in any run that keeps stops and
other commands separate. -/
theorem stopsMotion_of_separate {actions : List Action}
    (separate : Along Step Separate State.initial actions)
    (reached : Reached Step State.initial actions final) :
    StopsMotion final.log :=
  (separate.of_reached Separated
    (fun _ _ _ separated here step => separated.step here step)
    .initial reached).stops

/-- A short move, then a stop. -/
def moveThenStop : List Action :=
  [.begin 0 (.move { pitch := 300 } 100), .work 0 true, .work 0 true,
    .work 0 true, .work 0 true, .work 0 true, .begin 1 .stopMove,
    .work 1 true, .work 1 true, .work 1 true, .work 1 true, .work 1 true]

/-- The aircraft is moved and stopped, and it is quiet then. -/
theorem stopsMotion_of_moveThenStop :
    ∃ final, Run Step State.initial moveThenStop final ∧ Quiet final.log ∧
      StopsMotion final.log := by
  refine ⟨_, Run.iff_foldlM.mpr rfl, trivial,
    stopsMotion_of_separate ?_
      ⟨moveThenStop, [], rfl, Run.iff_foldlM.mpr rfl⟩⟩
  refine ⟨trivial, ?_⟩
  rintro _ ⟨⟩
  refine ⟨nofun, ?_⟩
  rintro _ ⟨⟩
  refine ⟨nofun, ?_⟩
  rintro _ ⟨⟩
  refine ⟨nofun, ?_⟩
  rintro _ ⟨⟩
  refine ⟨nofun, ?_⟩
  rintro _ ⟨⟩
  refine ⟨nofun, ?_⟩
  rintro _ ⟨⟩
  refine ⟨?_, ?_⟩
  · rintro (_ | other) starting
    · exact List.not_mem_nil starting
    · exact List.not_mem_nil starting
  rintro _ ⟨⟩
  refine ⟨nofun, ?_⟩
  rintro _ ⟨⟩
  refine ⟨nofun, ?_⟩
  rintro _ ⟨⟩
  refine ⟨nofun, ?_⟩
  rintro _ ⟨⟩
  refine ⟨nofun, ?_⟩
  rintro _ ⟨⟩
  refine ⟨?_, fun _ _ => trivial⟩
  rintro - (_ | _ | other) ⟨offset, -, sending⟩
  · exact List.not_mem_nil sending
  · exact absurd sending (by simp [State.setWorker])
  · exact List.not_mem_nil sending

/-- A stop is executed in the middle of a timed move. -/
theorem not_stopsMotion_of_timed_move :
    ¬∀ actions final, Run Step State.initial actions final →
      StopsMotion final.log := by
  intro stops
  have moved := stops [.begin 0 (.move { pitch := 300 } 286), .work 0 true,
    .work 0 true, .work 0 true, .begin 1 .stopMove, .work 1 true,
    .work 1 true, .work 1 true, .work 1 true, .work 1 true, .work 0 true] _
    (Run.iff_foldlM.mpr rfl)
  exact absurd (moved.1 trivial) (by decide)

end Flyto
end Pilot2Cloud
