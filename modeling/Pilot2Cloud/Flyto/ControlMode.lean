import Pilot2Cloud.Flyto.Execution

/-!
# The control mode after commands

`handleFlightControl` sets the mode for a command, and the command's handler or
the continuous-move thread is to reset it.  With one command after the other the
mode is idle again whenever nothing runs, unless a stop succeeds, a
continuous-move thread ends on a message that could not be sent, or a command
updates a thread that is about to end.
-/

namespace Pilot2Cloud
namespace Flyto

open Foundation

/-- No command is executed and no continuous-move thread runs. -/
def Quiescent (state : State) : Prop :=
  (∀ worker, state.worker worker = []) ∧
    ∀ thread, state.mover thread = .absent ∨ state.mover thread = .ended

/-- Commands are executed one after another, and requests to the device
fail. -/
def OneByOne (state : State) : Action → Prop
  | .begin _ _ => ∀ other, state.worker other = []
  | .work worker good =>
      (state.worker worker).head? = some .sendRequestAndWait → good = false
  | .advance _ _ _ => True

/-- A statement after which the mode is reset, or a thread runs that is going
to reset it. -/
def Statement.Resets (statement : Statement) : Prop :=
  statement = .setUavControlMode .idle ∨ statement = .startThread ∨
    statement = .sendStop ∨ statement = .sendRequestAndWait

/-- The command that is executed is still going to see to the mode. -/
def State.Pending (state : State) : Prop :=
  ∃ worker, ∃ statement ∈ state.worker worker, statement.Resets

/-- No stop succeeds unless the mode is idle already, no command updates a
thread that is about to end, and no thread ends on a failed message unless the
mode is idle or a command is still going to see to it. -/
def Restores (state : State) : Action → Prop
  | .begin _ _ => True
  | .work worker good =>
      ((state.worker worker).head? = some .sendStop → good = true →
        state.mode = .idle) ∧
      ∀ direction offset params,
        (state.worker worker).head? =
          some (.compareDirection direction offset) →
        state.params = some params → params.active = true →
        params.direction = direction →
          ∀ thread, state.mover thread ≠ .quitting
  | .advance thread _ sent =>
      ∀ enteredManual offset,
        state.mover thread = .sending enteredManual offset → sent = false →
          state.mode = .idle ∨ state.Pending

/-- Statements of commands that do not touch the continuous move, or no longer
do. -/
def Statement.Simple : Statement → Prop
  | .setUavControlMode mode => mode = .idle
  | .ensureFlightControlAndMode | .commonControlSend _ | .sendRequestAndWait
  | .updateOffset _ | .stopReturned => True
  | _ => False

/-- A continuous move goes on. -/
def State.Active (state : State) : Prop :=
  ∃ params, state.params = some params ∧ params.active = true

/-- The end of `handleContinuousMove`. -/
def startNewThread (direction : Int) (offset : FlightControlOffset) :
    List Statement :=
  [.makeParams direction offset, .activate, .startThread]

/-- What is left of the one command that is executed, with what its next
statements rely on. -/
inductive Phase (state : State) : List Statement → Prop
  | simple (body : List Statement) (all : ∀ own ∈ body, own.Simple) :
      Phase state body
  | dispatching (command : Command) :
      Phase state (handleFlightControl command)
  | ensuring (direction : Int) (offset : FlightControlOffset) :
      Phase state (handleContinuousMove direction offset)
  | comparing (direction : Int) (offset : FlightControlOffset) :
      Phase state (.compareDirection direction offset :: .stopPreviousThread ::
        startNewThread direction offset)
  | replacing (direction : Int) (offset : FlightControlOffset) :
      Phase state (.stopPreviousThread :: startNewThread direction offset)
  | deactivating (direction : Int) (offset : FlightControlOffset)
      (occupied : state.moveThread ≠ none) :
      Phase state (.deactivate :: .join :: .centre ::
        startNewThread direction offset)
  | joining (direction : Int) (offset : FlightControlOffset)
      (occupied : state.moveThread ≠ none) :
      Phase state (.join :: .centre :: startNewThread direction offset)
  | centring (direction : Int) (offset : FlightControlOffset)
      (free : state.moveThread = none) :
      Phase state (.centre :: startNewThread direction offset)
  | making (direction : Int) (offset : FlightControlOffset)
      (free : state.moveThread = none) :
      Phase state (startNewThread direction offset)
  | activating (free : state.moveThread = none)
      (made : state.params ≠ none) :
      Phase state [.activate, .startThread]
  | starting (free : state.moveThread = none) (active : state.Active) :
      Phase state [.startThread]
  | stopDeactivating : Phase state handleStopMove
  | stopChecking : Phase state [.joinThread, .sendStop, .stopReturned]
  | stopJoining (occupied : state.moveThread ≠ none) :
      Phase state [.join, .sendStop, .stopReturned]
  | stopSending : Phase state [.sendStop, .stopReturned]

/-- A thread runs that is going to reset the mode if it leaves, and otherwise
runs on. -/
def State.Healthy (state : State) (thread : Nat) : Prop :=
  state.mover thread ≠ .absent ∧ state.mover thread ≠ .ended ∧
    state.mover thread ≠ .quitting ∧
    (state.mover thread = .leaving ∨ state.mover thread = .resetting ∨
      state.Active)

/-- The mode is reset, or somebody is going to reset it. -/
def State.Settled (state : State) : Prop :=
  state.mode ≠ .flytoMode ∨ state.Pending ∨
    ∃ thread, state.Healthy thread

/-- What holds as long as commands are executed one after another and nothing
goes wrong. -/
structure Orderly (state : State) : Prop where
  alone : ∀ worker other, state.worker worker ≠ [] →
    state.worker other ≠ [] → worker = other
  joinable : Joinable state
  phase : ∀ worker, Phase state (state.worker worker)
  mode : state.mode ≠ .waypointMode
  alive : state.Active →
    (∃ thread, state.mover thread ≠ .absent ∧ state.mover thread ≠ .ended ∧
      state.mover thread ≠ .resetting) ∨
    ∃ worker, state.worker worker = [.startThread]
  settled : state.Settled

variable {state next final : State} {worker thread : Nat}
  {good sent : Bool} {statement : Statement} {rest : List Statement}
  {uavMode : Int}

theorem Phase.nil : Phase state [] :=
  .simple [] (by simp)

/-- The invariant holds at the start. -/
theorem Orderly.initial : Orderly State.initial where
  alone := by simp [State.initial]
  joinable := by simp [Joinable, State.initial]
  phase _ := .nil
  mode := by simp [State.initial]
  alive := by simp [State.Active, State.initial]
  settled := .inl (by simp [State.initial])

/-- When nothing runs the mode is idle. -/
theorem Orderly.mode_of_quiescent
    (orderly : Orderly state) (quiescent : Quiescent state) :
    state.mode = .idle := by
  have notFlyto : state.mode ≠ .flytoMode := by
    obtain reset | ⟨worker, statement, mem, -⟩ | ⟨thread, present, running,
      -⟩ := orderly.settled
    · exact reset
    · rw [quiescent.1 worker] at mem
      exact absurd mem List.not_mem_nil
    · obtain absent | ended := quiescent.2 thread
      · exact absurd absent present
      · exact absurd ended running
  have notWaypoint := orderly.mode
  cases mode : state.mode with
  | idle => rfl
  | waypointMode => exact absurd mode notWaypoint
  | flytoMode => exact absurd mode notFlyto

/-- Executing a statement keeps the order if it does so for its own worker. -/
theorem Orderly.of_execute
    (orderly : Orderly state)
    (body : state.worker worker = statement :: rest)
    (step : execute state worker good rest statement = some next)
    (phase : Phase next (next.worker worker))
    (mode : next.mode ≠ .waypointMode)
    (alive : next.Active →
      (∃ thread, next.mover thread ≠ .absent ∧ next.mover thread ≠ .ended ∧
        next.mover thread ≠ .resetting) ∨
      next.worker worker = [.startThread])
    (settled : next.Settled) : Orderly next := by
  have others (other : Nat) (different : other ≠ worker) :
      next.worker other = [] := by
    rw [execute_worker_of_ne step different]
    by_contra busy
    exact different (orderly.alone other worker busy (by simp [body]))
  constructor
  case alone =>
    intro one other busy otherBusy
    have first : one = worker := by
      by_contra different
      exact busy (others one different)
    have second : other = worker := by
      by_contra different
      exact otherBusy (others other different)
    rw [first, second]
  case joinable => exact orderly.joinable.execute step
  case phase =>
    intro other
    by_cases same : other = worker
    · rw [same]
      exact phase
    · rw [others other same]
      exact .nil
  case mode => exact mode
  case alive => exact fun active => (alive active).imp_right (⟨worker, ·⟩)
  case settled => exact settled

/-- If the parameters are active and no thread is about to be started, one
runs. -/
theorem Orderly.thread_of_active
    (orderly : Orderly state)
    (body : state.worker worker = statement :: rest)
    (different : statement :: rest ≠ [.startThread])
    (active : state.Active) :
    ∃ thread, state.mover thread ≠ .absent ∧ state.mover thread ≠ .ended ∧
      state.mover thread ≠ .resetting := by
  obtain running | ⟨other, starts⟩ := orderly.alive active
  · exact running
  · have same := orderly.alone worker other (by simp [body]) (by simp [starts])
    rw [← same, body] at starts
    exact absurd starts different

theorem State.Settled.of_mem (worker : Nat) (statement : Statement)
    (mem : statement ∈ state.worker worker) (resets : statement.Resets) :
    state.Settled :=
  .inr (.inl ⟨worker, statement, mem, resets⟩)

/-- A state stays settled under a change that the mode, the threads and the
pending statements do not notice. -/
theorem State.Settled.mono
    (settled : state.Settled) (mode : next.mode = state.mode)
    (mover : next.mover = state.mover)
    (active : state.Active → next.Active)
    (pending : state.Pending → next.Pending) : next.Settled := by
  obtain reset | waits | ⟨thread, present, running, stays, healthy⟩ := settled
  · exact .inl (mode ▸ reset)
  · exact .inr (.inl (pending waits))
  · refine .inr (.inr ⟨thread, ?_⟩)
    rw [State.Healthy, mover]
    exact ⟨present, running, stays, healthy.imp_right (.imp_right active)⟩

/-- A statement that does not reset the mode leaves those behind it. -/
theorem Orderly.pending_rest
    (orderly : Orderly state)
    (body : state.worker worker = statement :: rest)
    (own : next.worker worker = rest) (plain : ¬statement.Resets)
    (pending : state.Pending) : next.Pending := by
  obtain ⟨other, member, mem, resets⟩ := pending
  have same : other = worker :=
    orderly.alone other worker (List.ne_nil_of_mem mem) (by simp [body])
  rw [same, body, List.mem_cons] at mem
  obtain rfl | mem := mem
  · exact absurd resets plain
  · exact ⟨worker, member, own ▸ mem, resets⟩

/-- What is left after a failure is simple. -/
theorem simple_failed : ∀ own ∈ failed, own.Simple := by
  simp [failed, Statement.Simple]

/-- A failure leaves only the reset of the mode to be executed. -/
theorem Orderly.of_failed
    (orderly : Orderly state)
    (body : state.worker worker = statement :: rest)
    (step : execute state worker good rest statement = some next)
    (own : next.worker worker = failed)
    (mode : next.mode = state.mode)
    (running : next.Active → ∃ thread, next.mover thread ≠ .absent ∧
      next.mover thread ≠ .ended ∧ next.mover thread ≠ .resetting) :
    Orderly next := by
  refine orderly.of_execute body step ?_ (mode ▸ orderly.mode)
    (fun active => .inl (running active)) ?_
  · rw [own]
    exact .simple failed simple_failed
  · have mem : Statement.setUavControlMode .idle ∈ next.worker worker := by
      simp [own, failed]
    exact .of_mem _ _ mem (.inl rfl)

/-- A simple statement keeps the order. -/
theorem Orderly.execute_simple
    (orderly : Orderly state)
    (body : state.worker worker = statement :: rest)
    (simple : ∀ own ∈ statement :: rest, own.Simple)
    (request : statement = .sendRequestAndWait → good = false)
    (step : execute state worker good rest statement = some next) :
    Orderly next := by
  have restSimple : ∀ own ∈ rest, own.Simple :=
    fun own mem => simple own (List.mem_cons_of_mem _ mem)
  have running := orderly.thread_of_active body
    (by rintro ⟨⟩; exact simple .startThread List.mem_cons_self)
  have head := simple statement List.mem_cons_self
  cases statement <;> simp only [Statement.Simple] at head
  case setUavControlMode mode =>
    subst head
    obtain rfl := Option.some_inj.mp step
    refine orderly.of_execute body step ?_ (by simp)
      (fun active => .inl (running active)) (.inl (by simp))
    simpa using Phase.simple rest restSimple
  case ensureFlightControlAndMode =>
    obtain rfl := Option.some_inj.mp step
    cases good with
    | false => exact orderly.of_failed body step (by simp) rfl running
    | true =>
        have own : (state.setWorker worker rest).worker worker = rest := by
          simp
        refine orderly.of_execute body step ?_ orderly.mode
          (fun active => .inl (running active))
          (orderly.settled.mono rfl rfl id
            (orderly.pending_rest body own (by simp [Statement.Resets])))
        simpa using Phase.simple rest restSimple
  case commonControlSend offset =>
    obtain rfl := Option.some_inj.mp step
    cases good with
    | false => exact orderly.of_failed body step (by simp) rfl running
    | true =>
        have own : ((state.send true offset).setWorker worker rest).worker
            worker = rest := by
          simp
        refine orderly.of_execute body step ?_ orderly.mode
          (fun active => .inl (running active))
          (orderly.settled.mono rfl rfl id
            (orderly.pending_rest body own (by simp [Statement.Resets])))
        simpa using Phase.simple rest restSimple
  case sendRequestAndWait =>
    obtain rfl := request rfl
    obtain rfl := Option.some_inj.mp step
    have mem : Statement.setUavControlMode .idle ∈
        (state.setWorker worker (failed ++ rest)).worker worker := by
      simp [failed]
    refine orderly.of_execute body step ?_ orderly.mode
      (fun active => .inl (running active)) (.of_mem _ _ mem (.inl rfl))
    have all : ∀ own ∈ failed ++ rest, own.Simple := by
      intro own mem
      exact (List.mem_append.mp mem).elim (simple_failed own) (restSimple own)
    simpa using Phase.simple (failed ++ rest) all
  case updateOffset offset =>
    obtain rfl := Option.some_inj.mp step
    have own : ((state.modifyParams fun params =>
        { params with offset }).setWorker worker rest).worker worker =
          rest := by
      simp
    have sameActive : ((state.modifyParams fun params =>
        { params with offset }).setWorker worker rest).Active ↔
          state.Active := by
      simp [State.Active]
    refine orderly.of_execute body step ?_ orderly.mode
      (fun active => .inl (running (sameActive.mp active)))
      (orderly.settled.mono rfl rfl sameActive.mpr
        (orderly.pending_rest body own (by simp [Statement.Resets])))
    simpa using Phase.simple rest restSimple
  case stopReturned =>
    obtain rfl := Option.some_inj.mp step
    have own : ((state.record .stopReturned).setWorker worker rest).worker
        worker = rest := by
      simp
    refine orderly.of_execute body step ?_ orderly.mode
      (fun active => .inl (running active))
      (orderly.settled.mono rfl rfl id
        (orderly.pending_rest body own (by simp [Statement.Resets])))
    simpa using Phase.simple rest restSimple

/-- Every handler sees to the mode. -/
theorem exists_resets_handler (command : Command) :
    ∃ own ∈ command.handler, own.Resets := by
  cases command <;>
    simp [Command.handler, handleRequest, handleResettingRequest, handleTimed,
      handleContinuousMove, handleStopMove, Statement.Resets]

/-- The handler of a command begins in one of the phases. -/
theorem Phase.handler (command : Command) : Phase state command.handler := by
  cases command with
  | continuousMove direction offset => exact .ensuring direction offset
  | stopMove => exact .stopDeactivating
  | _ =>
      refine .simple _ ?_
      simp [Command.handler, handleRequest, handleResettingRequest,
        handleTimed, executeTimedControl, Statement.Simple, or_imp,
        forall_and, List.mem_replicate]

/-- A statement that is executed under the conditions keeps the order. -/
theorem Orderly.execute
    (orderly : Orderly state)
    (body : state.worker worker = statement :: rest)
    (single : OneByOne state (.work worker good))
    (restores : Restores state (.work worker good))
    (step : execute state worker good rest statement = some next) :
    Orderly next := by
  have phase := orderly.phase worker
  rw [body] at phase
  have head : (state.worker worker).head? = some statement := by simp [body]
  have startsLater (mem : .startThread ∈ next.worker worker) : next.Settled :=
    .of_mem _ _ mem (.inr (.inl rfl))
  have stopsLater (mem : .sendStop ∈ next.worker worker) : next.Settled :=
    .of_mem _ _ mem (.inr (.inr (.inl rfl)))
  have running := orderly.thread_of_active body
  cases phase with
  | simple _ all =>
      refine orderly.execute_simple body all ?_ step
      rintro rfl
      exact single head
  | dispatching command =>
      obtain rfl := Option.some_inj.mp step
      obtain ⟨own, mem, resets⟩ := exists_resets_handler command
      refine orderly.of_execute body step ?_ (by simp)
        (fun active => .inl (running (by simp) active))
        (.of_mem worker _ (by simpa using mem) resets)
      simpa using Phase.handler command
  | ensuring direction offset =>
      obtain rfl := Option.some_inj.mp step
      cases good with
      | false =>
          exact orderly.of_failed body step (by simp) rfl
            (running (by simp))
      | true =>
          refine orderly.of_execute body step ?_ orderly.mode
            (fun active => .inl (running (by simp) active))
            (startsLater (by simp))
          simp only [State.setWorker_worker, Function.update_self]
          exact .comparing direction offset
  | comparing direction offset =>
      obtain ⟨params, present, active, towards, rfl⟩ | rfl :=
        of_execute_compareDirection step
      · have isActive : state.Active := ⟨params, present, active⟩
        obtain ⟨thread, here, runs, -⟩ := running (by simp) isActive
        refine orderly.of_execute body step ?_ orderly.mode
          (fun active => .inl (running (by simp) active)) ?_
        · simp only [State.setWorker_worker, Function.update_self]
          exact .simple _ (by simp [Statement.Simple])
        · refine .inr (.inr ⟨thread, here, runs, ?_, .inr (.inr isActive)⟩)
          exact restores.2 direction offset params head present active
            towards thread
      · refine orderly.of_execute body step ?_ orderly.mode
          (fun active => .inl (running (by simp) active))
          (startsLater (by simp [startNewThread]))
        simp only [State.setWorker_worker, Function.update_self]
        exact .replacing direction offset
  | replacing direction offset =>
      obtain rfl := Option.some_inj.mp step
      refine orderly.of_execute body step ?_ orderly.mode
        (fun active => .inl (running (by simp [startNewThread]) active)) ?_
      · cases joinable : state.moveThread with
        | none =>
            simp only [State.setWorker_worker, Function.update_self]
            exact .making direction offset joinable
        | some thread =>
            simp only [State.setWorker_worker, Function.update_self]
            exact .deactivating direction offset (by simp [joinable])
      · refine startsLater ?_
        cases state.moveThread <;> simp [startNewThread]
  | deactivating direction offset occupied =>
      obtain rfl := Option.some_inj.mp step
      refine orderly.of_execute body step ?_ orderly.mode ?_
        (startsLater (by simp [startNewThread]))
      · simpa using Phase.joining direction offset (by simpa using occupied)
      · simp [State.Active]
  | joining direction offset occupied =>
      obtain ⟨free, -⟩ | ⟨thread, -, -, rfl⟩ := execute_join.mp step
      · exact absurd free occupied
      refine orderly.of_execute body step ?_ orderly.mode
        (fun active => .inl (running (by simp) active))
        (startsLater (by simp [startNewThread]))
      simpa using Phase.centring direction offset (by simp)
  | centring direction offset free =>
      obtain rfl := Option.some_inj.mp step
      refine orderly.of_execute body step ?_ orderly.mode
        (fun active => .inl (running (by simp [startNewThread]) active))
        (startsLater (by simp [startNewThread]))
      simpa using Phase.making direction offset (by simpa using free)
  | making direction offset free =>
      obtain rfl := Option.some_inj.mp step
      refine orderly.of_execute body step ?_ orderly.mode ?_
        (startsLater (by simp))
      · simpa using Phase.activating (by simpa using free) (by simp)
      · simp [State.Active]
  | activating free made =>
      obtain rfl := Option.some_inj.mp step
      refine orderly.of_execute body step ?_ orderly.mode
        (fun _ => .inr (by simp)) (startsLater (by simp))
      have active : (state.storeActive true).Active := by
        cases params : state.params with
        | none => exact absurd params made
        | some values => simp [State.Active, params]
      simp only [State.setWorker_worker, Function.update_self]
      exact .starting free active
  | starting free active =>
      obtain ⟨⟨thread, occupied⟩, -⟩ | ⟨-, rfl⟩ :=
        execute_startThread.mp step
      · simp [free] at occupied
      refine orderly.of_execute body step (by simpa using Phase.nil)
        orderly.mode (fun _ => .inl ⟨state.spawned, by simp⟩) ?_
      refine .inr (.inr ⟨state.spawned, by simp, by simp, by simp, ?_⟩)
      exact .inr (.inr active)
  | stopDeactivating =>
      obtain rfl := Option.some_inj.mp step
      refine orderly.of_execute body step ?_ orderly.mode ?_
        (stopsLater (by simp))
      · simpa using Phase.stopChecking
      · simp [State.Active]
  | stopChecking =>
      obtain rfl := Option.some_inj.mp step
      refine orderly.of_execute body step ?_ orderly.mode
        (fun active => .inl (running (by simp) active)) ?_
      · cases joinable : state.moveThread with
        | none => simpa using Phase.stopSending
        | some thread => simpa using Phase.stopJoining (by simp [joinable])
      · refine stopsLater ?_
        cases state.moveThread <;> simp
  | stopJoining occupied =>
      obtain ⟨free, -⟩ | ⟨thread, -, -, rfl⟩ := execute_join.mp step
      · exact absurd free occupied
      refine orderly.of_execute body step (by simpa using Phase.stopSending)
        orderly.mode (fun active => .inl (running (by simp) active))
        (stopsLater (by simp))
  | stopSending =>
      obtain rfl := Option.some_inj.mp step
      cases good with
      | true =>
          have reset := restores.1 head rfl
          refine orderly.of_execute body step ?_ orderly.mode
            (fun active => .inl (running (by simp) active))
            (.inl (by simp [reset]))
          simp only [State.setWorker_worker, Function.update_self, if_true]
          exact .simple _ (by simp [Statement.Simple])
      | false =>
          refine orderly.of_execute body step ?_ orderly.mode
            (fun active => .inl (running (by simp) active))
            (.of_mem worker (.setUavControlMode .idle)
              (by simp [failed]) (.inl rfl))
          simp only [State.setWorker_worker, Function.update_self]
          exact .simple _ (by simp [failed, Statement.Simple])

/-- A command that is begun when no other one is executed keeps the order. -/
theorem Orderly.begin {command : Command}
    (orderly : Orderly state) (single : OneByOne state (.begin worker command)) :
    Orderly (Flyto.begin state worker command) := by
  have own : (Flyto.begin state worker command).worker worker =
      handleFlightControl command := by
    simp [Flyto.begin]
  have others (other : Nat) (different : other ≠ worker) :
      (Flyto.begin state worker command).worker other = [] := by
    simp only [Flyto.begin, State.setWorker_worker]
    rw [Function.update_of_ne different]
    split <;> exact single other
  have sameMover : (Flyto.begin state worker command).mover = state.mover := by
    simp only [Flyto.begin]
    split <;> rfl
  have sameThread :
      (Flyto.begin state worker command).moveThread = state.moveThread := by
    simp only [Flyto.begin, State.setWorker_moveThread]
    split <;> rfl
  have sameParams :
      (Flyto.begin state worker command).params = state.params := by
    simp only [Flyto.begin, State.setWorker_params]
    split <;> rfl
  have sameMode : (Flyto.begin state worker command).mode = state.mode := by
    simp only [Flyto.begin, State.setWorker_mode]
    split <;> rfl
  constructor
  case alone =>
    intro one other busy otherBusy
    have first : one = worker := by
      by_contra different
      exact busy (others one different)
    have second : other = worker := by
      by_contra different
      exact otherBusy (others other different)
    rw [first, second]
  case joinable =>
    rw [Joinable, sameMover, sameThread]
    exact orderly.joinable
  case phase =>
    intro other
    by_cases same : other = worker
    · rw [same, own]
      exact .dispatching command
    · rw [others other same]
      exact .nil
  case mode => exact sameMode ▸ orderly.mode
  case alive =>
    intro active
    rw [State.Active, sameParams] at active
    obtain running | ⟨other, starts⟩ := orderly.alive active
    · rw [sameMover]
      exact .inl running
    · simp [single other] at starts
  case settled =>
    obtain ⟨later, mem, resets⟩ := exists_resets_handler command
    refine .of_mem worker later ?_ resets
    rw [own]
    exact List.mem_cons_of_mem _ mem

/-- While a thread runs, no worker is about to start one. -/
theorem Orderly.not_starting
    (orderly : Orderly state) (present : state.mover thread ≠ .absent)
    (running : state.mover thread ≠ .ended) :
    state.worker worker ≠ [.startThread] := by
  intro starts
  have phase := orderly.phase worker
  have occupied := orderly.joinable thread present running
  rw [starts] at phase
  cases phase with
  | simple _ all => exact all _ List.mem_cons_self
  | starting free => simp [free] at occupied

/-- A thread's step keeps the phases, as no worker is about to start one. -/
theorem Phase.advance {body : List Statement}
    (phase : Phase state body) (sameThread : next.moveThread = state.moveThread)
    (kept : state.params ≠ none → next.params ≠ none)
    (notStarting : body ≠ [.startThread]) : Phase next body := by
  cases phase with
  | simple _ all => exact .simple _ all
  | dispatching command => exact .dispatching command
  | ensuring direction offset => exact .ensuring direction offset
  | comparing direction offset => exact .comparing direction offset
  | replacing direction offset => exact .replacing direction offset
  | deactivating direction offset occupied =>
      exact .deactivating direction offset (sameThread ▸ occupied)
  | joining direction offset occupied =>
      exact .joining direction offset (sameThread ▸ occupied)
  | centring direction offset free =>
      exact .centring direction offset (sameThread ▸ free)
  | making direction offset free =>
      exact .making direction offset (sameThread ▸ free)
  | activating free made => exact .activating (sameThread ▸ free) (kept made)
  | starting => exact absurd rfl notStarting
  | stopDeactivating => exact .stopDeactivating
  | stopChecking => exact .stopChecking
  | stopJoining occupied => exact .stopJoining (sameThread ▸ occupied)
  | stopSending => exact .stopSending

/-- The step of a thread keeps the order if the thread runs on while it is
active, and if it leaves the mode to somebody when it ends. -/
theorem Orderly.of_advance
    (orderly : Orderly state)
    (step : advance state thread uavMode sent = some next)
    (kept : state.params ≠ none → next.params ≠ none)
    (mode : next.mode = state.mode ∨ next.mode = .idle)
    (alive : next.Active → next.mover thread ≠ .absent ∧
      next.mover thread ≠ .ended ∧ next.mover thread ≠ .resetting)
    (settled : state.mode = .flytoMode → state.Healthy thread →
      next.Settled) : Orderly next := by
  obtain ⟨present, running, sameWorker, sameThread, -, -⟩ :=
    Flyto.of_advance step
  constructor
  case alone =>
    rw [sameWorker]
    exact orderly.alone
  case joinable => exact orderly.joinable.advance step
  case phase =>
    intro worker
    rw [sameWorker]
    exact (orderly.phase worker).advance sameThread kept
      (orderly.not_starting present running)
  case mode =>
    obtain same | idle := mode
    · rw [same]
      exact orderly.mode
    · simp [idle]
  case alive => exact fun active => .inl ⟨thread, alive active⟩
  case settled =>
    obtain reset | ⟨worker, later, mem, resets⟩ | ⟨other, healthy⟩ :=
      orderly.settled
    · refine .inl ?_
      obtain same | idle := mode
      · rwa [same]
      · simp [idle]
    · exact .of_mem worker _ (by rwa [sameWorker]) resets
    · have same := orderly.joinable other healthy.1 healthy.2.1
      rw [orderly.joinable thread present running, Option.some_inj] at same
      subst same
      by_cases flyto : state.mode = .flytoMode
      · exact settled flyto healthy
      · refine .inl ?_
        obtain same | idle := mode
        · rwa [same]
        · simp [idle]

/-- The parameters are not active while the only thread resets the mode. -/
theorem Orderly.not_active_of_resetting
    (orderly : Orderly state) (resetting : state.mover thread = .resetting) :
    ¬state.Active := by
  intro active
  have occupied := orderly.joinable thread (by simp [resetting])
    (by simp [resetting])
  obtain ⟨other, present, running, stays⟩ | ⟨worker, starts⟩ :=
    orderly.alive active
  · have same := orderly.joinable other present running
    rw [occupied, Option.some_inj] at same
    exact stays (same ▸ resetting)
  · have phase := orderly.phase worker
    rw [starts] at phase
    cases phase with
    | simple _ all => exact all _ List.mem_cons_self
    | starting free => simp [free] at occupied

/-- A thread that runs on keeps the order. -/
theorem Orderly.of_running {base : State} {mover : Mover}
    (orderly : Orderly state)
    (step : Flyto.advance state thread uavMode sent =
      some (base.setMover thread mover))
    (params : base.params = state.params) (mode : base.mode = state.mode)
    (before : state.mover thread ≠ .leaving ∧
      state.mover thread ≠ .resetting)
    (after : mover ≠ .absent ∧ mover ≠ .ended ∧ mover ≠ .resetting ∧
      mover ≠ .quitting) :
    Orderly (base.setMover thread mover) := by
  refine orderly.of_advance step ?_ (.inl mode) ?_ ?_
  · rw [State.setMover_params, params]
    exact id
  · intro
    simp [after]
  · rintro - ⟨-, -, -, leaving | resetting | active⟩
    · exact absurd leaving before.1
    · exact absurd resetting before.2
    · refine .inr (.inr ⟨thread, by simp [after], by simp [after],
        by simp [after], .inr (.inr ?_)⟩)
      rwa [State.Active, State.setMover_params, params]

/-- A thread's step that is taken under the conditions keeps the order. -/
theorem Orderly.advance
    (orderly : Orderly state)
    (restores : Restores state (.advance thread uavMode sent))
    (step : advance state thread uavMode sent = some next) :
    Orderly next := by
  have inversion := step
  unfold Flyto.advance at inversion
  cases here : state.mover thread <;> simp only [here] at inversion
  case absent | ended => simp at inversion
  case checkingActive manual =>
    cases present : state.params with
    | none =>
        simp only [present, Option.some_inj] at inversion
        subst inversion
        refine orderly.of_advance step id (.inl rfl) ?_
          fun _ healthy => .inr (.inr ⟨thread, healthy⟩)
        simp [State.Active, present]
    | some params =>
        simp only [present, Option.some_inj] at inversion
        subst inversion
        by_cases active : params.active = true
        · rw [if_pos active] at step ⊢
          exact orderly.of_running step rfl rfl (by simp [here]) (by simp)
        · refine orderly.of_advance step id (.inl rfl) ?_ ?_
          · simp [State.Active, present, active]
          · rintro - ⟨-, -, -, leaving | resetting | isActive⟩
            · simp [here] at leaving
            · simp [here] at resetting
            · simp [State.Active, present, active] at isActive
  case checkingMode manual =>
    obtain rfl := Option.some_inj.mp inversion
    by_cases flyto : state.mode = .flytoMode
    · rw [if_pos flyto] at step ⊢
      exact orderly.of_running step rfl rfl (by simp [here]) (by simp)
    · refine orderly.of_advance step id (.inl rfl) ?_
        fun same => absurd same flyto
      simp [flyto]
  case checkingUav manual =>
    obtain rfl := Option.some_inj.mp inversion
    refine orderly.of_running step rfl rfl (by simp [here]) ?_
    split <;> simp
  case reading manual =>
    cases present : state.params with
    | none =>
        simp only [present, Option.some_inj] at inversion
        subst inversion
        refine orderly.of_advance step id (.inl rfl) ?_
          fun _ healthy => .inr (.inr ⟨thread, healthy⟩)
        simp [State.Active, present]
    | some params =>
        simp only [present, Option.some_inj] at inversion
        subst inversion
        exact orderly.of_running step rfl rfl (by simp [here]) (by simp)
  case sending manual offset =>
    obtain rfl := Option.some_inj.mp inversion
    cases sent with
    | true => exact orderly.of_running step rfl rfl (by simp [here]) (by simp)
    | false =>
        refine orderly.of_advance step id (.inl rfl) (by simp) ?_
        intro flyto _
        obtain idle | ⟨worker, later, mem, resets⟩ :=
          restores manual offset here rfl
        · simp [flyto] at idle
        · exact .of_mem worker _ mem resets
  case quitting =>
    obtain rfl := Option.some_inj.mp inversion
    refine orderly.of_advance step (by simp) (.inl rfl) ?_ ?_
    · simp [State.Active]
    · rintro - ⟨-, -, stays, -⟩
      exact absurd here stays
  case leaving =>
    obtain rfl := Option.some_inj.mp inversion
    refine orderly.of_advance step (by simp) (.inl rfl) ?_ ?_
    · simp [State.Active]
    · rintro - -
      exact .inr (.inr ⟨thread, by simp [State.Healthy]⟩)
  case resetting =>
    obtain rfl := Option.some_inj.mp inversion
    refine orderly.of_advance step id (.inr rfl) ?_
      fun _ _ => .inl (by simp)
    exact fun active => absurd active (orderly.not_active_of_resetting here)

/-- Every step that meets the conditions keeps the invariant. -/
theorem Orderly.step {action : Action}
    (orderly : Orderly state)
    (conditions : OneByOne state action ∧ Restores state action)
    (step : Step state action next) : Orderly next := by
  simp only [Step, Flyto.step] at step
  split at step
  · simp at step
  cases action with
  | begin worker command =>
      rw [Option.ite_none_right_eq_some, Option.some_inj] at step
      obtain ⟨-, rfl⟩ := step
      exact orderly.begin conditions.1
  | work worker good =>
      cases body : state.worker worker with
      | nil => simp [body] at step
      | cons statement rest =>
          simp only [body] at step
          exact orderly.execute body conditions.1 conditions.2 step
  | advance thread uavMode sent => exact orderly.advance conditions.2 step

/-- The mode is idle whenever nothing runs, in every run of one command after
another whose steps all restore it. -/
theorem mode_idle_of_restores {actions : List Action}
    (along : Along Step
      (fun state action => OneByOne state action ∧ Restores state action)
      State.initial actions)
    (reached : Reached Step State.initial actions final)
    (quiescent : Quiescent final) : final.mode = .idle :=
  (along.of_reached Orderly
    (fun _ _ _ orderly here step => orderly.step here step)
    .initial reached).mode_of_quiescent quiescent

/-- A continuous move sends a message, and it ends when the device has refused
to bring the aircraft home. -/
def moveThenHome : List Action :=
  [.begin 0 (.continuousMove 1 { pitch := 300 }), .work 0 true, .work 0 true,
    .work 0 true, .work 0 true, .work 0 true, .work 0 true, .work 0 true,
    .advance 0 3 true, .advance 0 3 true, .advance 0 3 true, .advance 0 3 true,
    .advance 0 3 true, .begin 1 .gohome, .work 1 true, .work 1 false,
    .work 1 true, .work 1 true, .advance 0 3 true, .advance 0 3 true,
    .advance 0 3 true]

/-- The two commands come one after the other, and both see to the mode. -/
theorem along_moveThenHome :
    Along Step
      (fun state action => OneByOne state action ∧ Restores state action)
      State.initial moveThenHome := by
  unfold moveThenHome
  iterate 13
    constructor
    · simp [OneByOne, Restores, State.initial]
    intro next step
    simp [Step, Flyto.step, execute, advance, begin, State.initial,
      handleFlightControl, Command.handler, handleContinuousMove,
      Command.Moves, isUavUnderManualControl] at step
    obtain rfl := step
  constructor
  · refine ⟨?_, trivial⟩
    intro other
    by_cases first : other = 0 <;> simp [first]
  intro next step
  simp [Step, Flyto.step, begin, handleFlightControl, Command.handler,
    handleResettingRequest, Command.Moves] at step
  obtain rfl := step
  iterate 7
    constructor
    · simp [OneByOne, Restores]
    intro next step
    simp [Step, Flyto.step, execute, advance, failed] at step
    obtain rfl := step
  trivial

/-- The mode is idle when both commands and the thread have ended. -/
theorem mode_idle_of_moveThenHome :
    ∃ final, Run Step State.initial moveThenHome final ∧ Quiescent final ∧
      final.mode = .idle := by
  have run : Run Step State.initial moveThenHome _ := Run.iff_foldlM.mpr rfl
  refine ⟨_, run, ?quiescent, mode_idle_of_restores along_moveThenHome
    ⟨moveThenHome, [], rfl, run⟩ ?quiescent⟩
  case quiescent =>
    constructor
    · rintro (_ | _ | worker) <;> rfl
    · rintro (_ | thread)
      · exact .inr rfl
      · exact .inl rfl

/-- A stop succeeds and leaves the mode as it was set for it. -/
theorem not_mode_idle_of_stop :
    ¬∀ actions final, Along Step OneByOne State.initial actions →
      Run Step State.initial actions final → Quiescent final →
        final.mode = .idle := by
  intro idle
  have stopped := idle [.begin 0 .stopMove, .work 0 true, .work 0 true,
    .work 0 true, .work 0 true, .work 0 true] _ ?_ (Run.iff_foldlM.mpr rfl) ?_
  · exact absurd stopped (by decide)
  · refine ⟨fun _ => rfl, ?_⟩
    rintro _ ⟨⟩
    refine ⟨nofun, ?_⟩
    rintro _ ⟨⟩
    refine ⟨nofun, ?_⟩
    rintro _ ⟨⟩
    refine ⟨nofun, ?_⟩
    rintro _ ⟨⟩
    refine ⟨nofun, ?_⟩
    rintro _ ⟨⟩
    exact ⟨nofun, fun _ _ => trivial⟩
  · constructor
    · rintro (_ | worker) <;> rfl
    · intro thread
      exact .inl rfl

end Flyto
end Pilot2Cloud
