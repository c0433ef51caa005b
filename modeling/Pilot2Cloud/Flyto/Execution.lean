import Pilot2Cloud.Flyto.Control

/-!
# What the steps of the flight threads do

A statement changes its own worker's rest, and what it changes of the shared
fields is one of a few things.
-/

namespace Pilot2Cloud
namespace Flyto

variable {state next : State} {worker thread : Nat} {good sent : Bool}
  {statement : Statement} {rest : List Statement} {uavMode : Int}

/-- A join drops the rest of the handler, or it waits for its thread. -/
theorem execute_join :
    execute state worker good rest .join = some next ↔
      state.moveThread = none ∧ next = state.setWorker worker [] ∨
      ∃ thread, state.moveThread = some thread ∧
        state.mover thread = .ended ∧
        next = state.clearThread.setWorker worker rest := by
  rw [execute]
  cases state.moveThread with
  | none => simp [eq_comm]
  | some thread => simp [eq_comm]

/-- A thread is started, or the program ends. -/
theorem execute_startThread :
    execute state worker good rest .startThread = some next ↔
      (∃ thread, state.moveThread = some thread) ∧ next = state.terminate ∨
      state.moveThread = none ∧
        next = state.startThread.setWorker worker rest := by
  rw [execute]
  cases state.moveThread with
  | none => simp [eq_comm]
  | some thread => simp [eq_comm]

/-- A continuous move updates the one that goes on, or goes on to replace it. -/
theorem of_execute_compareDirection
    {direction : Int} {offset : FlightControlOffset}
    (step : execute state worker good rest
      (.compareDirection direction offset) = some next) :
    (∃ params, state.params = some params ∧ params.active = true ∧
      params.direction = direction ∧
      next = state.setWorker worker [.updateOffset offset]) ∨
    next = state.setWorker worker rest := by
  obtain rfl := Option.some_inj.mp step
  cases present : state.params with
  | none => exact .inr rfl
  | some params =>
      by_cases same : params.active = true ∧ params.direction = direction
      · exact .inl ⟨params, rfl, same.1, same.2, by simp only [if_pos same]⟩
      · exact .inr (by simp only [if_neg same])

/-- A statement leaves the other workers alone. -/
theorem execute_worker_of_ne {other : Nat}
    (step : execute state worker good rest statement = some next)
    (different : other ≠ worker) :
    next.worker other = state.worker other := by
  cases statement
  case join =>
    obtain ⟨-, rfl⟩ | ⟨_, -, -, rfl⟩ := execute_join.mp step <;>
      simp [different]
  case startThread =>
    obtain ⟨-, rfl⟩ | ⟨-, rfl⟩ := execute_startThread.mp step <;>
      simp [different]
  all_goals
    obtain rfl := Option.some_inj.mp step
    simp [different]

/-- Statements that the execution of others brings in. -/
def Statement.Auxiliary : Statement → Prop
  | .setUavControlMode .idle | .updateOffset _ | .deactivate | .join
  | .centre => True
  | _ => False

/-- What is left to execute was left before, or it is brought in. -/
theorem mem_of_execute {member : Statement}
    (body : state.worker worker = statement :: rest)
    (step : execute state worker good rest statement = some next)
    (mem : member ∈ next.worker worker) :
    member ∈ state.worker worker ∨ member.Auxiliary := by
  cases statement
  case join =>
    obtain ⟨-, rfl⟩ | ⟨_, -, -, rfl⟩ := execute_join.mp step <;>
      simp [body] at mem ⊢
    grind
  case startThread =>
    obtain ⟨-, rfl⟩ | ⟨-, rfl⟩ := execute_startThread.mp step <;>
      simp [body] at mem ⊢ <;> grind
  all_goals
    obtain rfl := Option.some_inj.mp step
    simp [body] at mem ⊢
    grind [failed, Statement.Auxiliary]

/-- Only joining and starting change which thread can be joined. -/
theorem threads_of_execute
    (step : execute state worker good rest statement = some next) :
    (next.mover = state.mover ∧ next.moveThread = state.moveThread) ∨
    (statement = .join ∧ next.mover = state.mover ∧ next.moveThread = none ∧
      ∃ thread, state.moveThread = some thread ∧
        state.mover thread = .ended) ∨
    (statement = .startThread ∧ state.moveThread = none ∧
      next = state.startThread.setWorker worker rest) := by
  cases statement
  case join =>
    obtain ⟨-, rfl⟩ | ⟨thread, joinable, ended, rfl⟩ := execute_join.mp step
    · exact .inl ⟨rfl, rfl⟩
    · exact .inr (.inl ⟨rfl, rfl, rfl, thread, joinable, ended⟩)
  case startThread =>
    obtain ⟨-, rfl⟩ | ⟨free, rfl⟩ := execute_startThread.mp step
    · exact .inl ⟨rfl, rfl⟩
    · exact .inr (.inr ⟨rfl, free, rfl⟩)
  all_goals
    obtain rfl := Option.some_inj.mp step
    exact .inl ⟨rfl, rfl⟩

/-- A statement sends at most one message, a neutral one unless it belongs to a
timed move. -/
theorem log_of_execute
    (step : execute state worker good rest statement = some next) :
    next.log = state.log ∨
    (∃ offset, (offset = {} ∨ statement = .commonControlSend offset) ∧
      next.log = .stick (.ofOffset offset) :: state.log) ∨
    (statement = .stopReturned ∧ next.log = .stopReturned :: state.log) := by
  cases statement
  case join =>
    obtain ⟨-, rfl⟩ | ⟨_, -, -, rfl⟩ := execute_join.mp step <;>
      exact .inl rfl
  case startThread =>
    obtain ⟨-, rfl⟩ | ⟨-, rfl⟩ := execute_startThread.mp step <;>
      exact .inl rfl
  case commonControlSend offset =>
    obtain rfl := Option.some_inj.mp step
    cases good with
    | true => exact .inr (.inl ⟨offset, .inr rfl, rfl⟩)
    | false => exact .inl rfl
  case centre | sendStop =>
    obtain rfl := Option.some_inj.mp step
    cases good with
    | true => exact .inr (.inl ⟨{}, .inl rfl, rfl⟩)
    | false => exact .inl rfl
  case stopReturned =>
    obtain rfl := Option.some_inj.mp step
    exact .inr (.inr ⟨rfl, rfl⟩)
  all_goals
    obtain rfl := Option.some_inj.mp step
    exact .inl rfl

/-- A continuous-move thread that takes a step is alive.  It leaves the workers
and the other threads alone and sends the offset it has read. -/
theorem of_advance
    (step : advance state thread uavMode sent = some next) :
    state.mover thread ≠ .absent ∧ state.mover thread ≠ .ended ∧
      next.worker = state.worker ∧ next.moveThread = state.moveThread ∧
      (∀ other ≠ thread, next.mover other = state.mover other) ∧
      (next.log = state.log ∨ ∃ manual offset,
        state.mover thread = .sending manual offset ∧
          next.log = .stick (.ofOffset offset) :: state.log) := by
  have other_mover (base : State) (mover : Mover)
      (same : base.mover = state.mover) :
      ∀ other ≠ thread,
        (base.setMover thread mover).mover other = state.mover other := by
    intro other different
    simp [different, same]
  unfold advance at step
  cases here : state.mover thread <;> simp only [here] at step
  case absent | ended => simp at step
  case checkingActive | reading =>
    refine ⟨by simp, by simp, ?_⟩
    cases params : state.params with
    | none =>
        simp only [params, Option.some_inj] at step
        subst step
        exact ⟨rfl, rfl, fun _ _ => rfl, .inl rfl⟩
    | some values =>
        simp only [params, Option.some_inj] at step
        subst step
        exact ⟨rfl, rfl, other_mover _ _ rfl, .inl rfl⟩
  case sending manual offset =>
    obtain rfl := Option.some_inj.mp step
    refine ⟨by simp, by simp, rfl, rfl, other_mover _ _ rfl, ?_⟩
    cases sent with
    | true => exact .inr ⟨manual, offset, rfl, rfl⟩
    | false => exact .inl rfl
  all_goals
    obtain rfl := Option.some_inj.mp step
    exact ⟨by simp, by simp, rfl, rfl, other_mover _ _ rfl, .inl rfl⟩

/-- A continuous-move thread that runs is the one that can be joined. -/
def Joinable (state : State) : Prop :=
  ∀ thread, state.mover thread ≠ .absent → state.mover thread ≠ .ended →
    state.moveThread = some thread

/-- A statement leaves the running thread joinable. -/
theorem Joinable.execute
    (joinable : Joinable state)
    (step : execute state worker good rest statement = some next) :
    Joinable next := by
  intro thread present running
  obtain ⟨sameMover, sameThread⟩ | ⟨-, sameMover, -, joined, here, ended⟩ |
    ⟨-, free, rfl⟩ := threads_of_execute step
  · rw [sameMover] at present running
    rw [sameThread]
    exact joinable thread present running
  · rw [sameMover] at present running
    have own := joinable thread present running
    rw [here, Option.some_inj] at own
    exact absurd (own ▸ ended) running
  · by_cases new : thread = state.spawned
    · exact congrArg some new.symm
    · simp [new] at present running
      have own := joinable thread present running
      simp [free] at own

/-- A step of a thread leaves the running thread joinable. -/
theorem Joinable.advance
    (joinable : Joinable state)
    (step : advance state thread uavMode sent = some next) :
    Joinable next := by
  obtain ⟨present, running, -, sameThread, others, -⟩ := of_advance step
  intro other presentNext runningNext
  rw [sameThread]
  by_cases same : other = thread
  · rw [same]
    exact joinable thread present running
  · rw [others other same] at presentNext runningNext
    exact joinable other presentNext runningNext

end Flyto
end Pilot2Cloud
