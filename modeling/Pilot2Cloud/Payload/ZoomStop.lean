import Mathlib.Logic.Function.Basic
import Mathlib.Data.List.Basic
import Pilot2Cloud.Foundation.Transitions

/-!
# Stopping a continuous zoom

A call of `startZoomOperation` sets `m_stopZoom`, waits for `m_operationMutex`,
clears the flag and runs the loop of `continuousZoom`, which looks at the flag
before each step.  `cameraZoomStop` sets the flag without the mutex.  A stop
reaches a call exactly if the call has cleared the flag before.
-/

namespace Pilot2Cloud
namespace Payload
namespace ZoomStop

open Foundation

/-- How far a call of `startZoomOperation` is. -/
inductive ZoomPhase
  | notCalled
  | entered
  /-- It has set the flag. -/
  | waiting
  /-- It has acquired the mutex. -/
  | locked
  /-- It is at the head of the loop, after some rounds. -/
  | checking (iterations : ℕ)
  /-- It has passed the check. -/
  | stepping (iterations : ℕ)
  /-- It has left the loop. -/
  | leaving
  | returned
  deriving DecidableEq

namespace ZoomPhase

/-- The call is accepted and has not cleared the flag. -/
def Pending (phase : ZoomPhase) : Prop :=
  phase = .entered ∨ phase = .waiting ∨ phase = .locked

/-- The call has the mutex. -/
def HasMutex : ZoomPhase → Prop
  | locked | checking _ | stepping _ | leaving => True
  | notCalled | entered | waiting | returned => False

/-- How many steps are in progress. -/
def inProgress : ZoomPhase → ℕ
  | stepping _ => 1
  | _ => 0

end ZoomPhase

/-- The flag, the mutex and the calls of `startZoomOperation`. -/
structure ZoomState (θ : Type) where
  m_stopZoom : Bool
  m_operationMutex : Option θ
  phase : θ → ZoomPhase

/-- What a thread does next. -/
inductive ZoomAction (θ : Type)
  | enter (call : θ)
  | setStop (call : θ)
  | lock (call : θ)
  | clearStop (call : θ)
  /-- The head of the loop, and whether there are time and room to zoom. -/
  | check (call : θ) (goesOn : Bool)
  /-- `sendRequest`, and whether it succeeds. -/
  | sendRequest (call : θ) (ret : Bool)
  | unlock (call : θ)
  | cameraZoomStop
  deriving DecidableEq

/-- The number of rounds of the loop. -/
def maxIterations : ℕ := 20

variable {θ : Type} [DecidableEq θ]

namespace ZoomAction

/-- The call that an action belongs to. -/
def call : ZoomAction θ → Option θ
  | enter call | setStop call | lock call | clearStop call | check call _
  | sendRequest call _ | unlock call => some call
  | cameraZoomStop => none

/-- The action accepts a command. -/
def Enters (action : ZoomAction θ) : Prop := ∃ call, action = .enter call

/-- The action sends a message for a call. -/
def sends (call : θ) : ZoomAction θ → Bool
  | sendRequest other _ => other = call
  | _ => false

/-- The action belongs to a call. -/
def isOf (call : θ) (action : ZoomAction θ) : Bool := action.call = some call

end ZoomAction

namespace ZoomState

/-- Nothing has been called. -/
def initial (stop : Bool) : ZoomState θ := ⟨stop, none, fun _ => .notCalled⟩

/-- A call goes on to another phase. -/
def move (state : ZoomState θ) (call : θ) (phase : ZoomPhase) : ZoomState θ :=
  { state with phase := Function.update state.phase call phase }

/-- `m_stopZoom = true`. -/
def stop (state : ZoomState θ) : ZoomState θ :=
  { state with m_stopZoom := true }

end ZoomState

open ZoomState

/-- One action of `startZoomOperation`, of the loop of `continuousZoom` or of
`cameraZoomStop`. -/
inductive Step : ZoomState θ → ZoomAction θ → ZoomState θ → Prop
  | enter {state : ZoomState θ} {call : θ}
      (here : state.phase call = .notCalled) :
      Step state (.enter call) (state.move call .entered)
  | setStop {state : ZoomState θ} {call : θ}
      (here : state.phase call = .entered) :
      Step state (.setStop call) (state.stop.move call .waiting)
  | lock {state : ZoomState θ} {call : θ}
      (here : state.phase call = .waiting)
      (free : state.m_operationMutex = none) :
      Step state (.lock call)
        { state.move call .locked with m_operationMutex := some call }
  | clearStop {state : ZoomState θ} {call : θ}
      (here : state.phase call = .locked) :
      Step state (.clearStop call)
        { state.move call (.checking 0) with m_stopZoom := false }
  | check {state : ZoomState θ} {call : θ} {iterations : ℕ} {goesOn : Bool}
      (here : state.phase call = .checking iterations) :
      Step state (.check call goesOn)
        (state.move call
          (if goesOn = true ∧ state.m_stopZoom = false then
            .stepping iterations else .leaving))
  | sendRequest {state : ZoomState θ} {call : θ} {iterations : ℕ} {ret : Bool}
      (here : state.phase call = .stepping iterations) :
      Step state (.sendRequest call ret)
        (state.move call
          (if ret = true ∧ iterations + 1 < maxIterations then
            .checking (iterations + 1) else .leaving))
  | unlock {state : ZoomState θ} {call : θ}
      (here : state.phase call = .leaving) :
      Step state (.unlock call)
        { state.move call .returned with m_operationMutex := none }
  | cameraZoomStop {state : ZoomState θ} :
      Step state .cameraZoomStop state.stop

/-- The actions send at most the step of the call that is in progress, the call
has no more actions than one with a single step, and it can return. -/
structure StopsWithin (state : ZoomState θ) (call : θ)
    (late : List (ZoomAction θ)) (final : ZoomState θ) : Prop where
  sends : late.countP (ZoomAction.sends call) ≤ (state.phase call).inProgress
  acts : late.countP (ZoomAction.isOf call) ≤ 6
  returns : ∃ more after, Run Step final more after ∧
    (∀ action ∈ more, ¬action.Enters) ∧ after.phase call = .returned

/-- A stop that is handled in the state ends a call, whatever follows but
another command. -/
def Stops (state : ZoomState θ) (call : θ) : Prop :=
  ∀ late final, Run Step state.stop late final →
    (∀ action ∈ late, ¬action.Enters) →
    StopsWithin state call late final

/-! ## The mutex -/

/-- The mutex belongs to the call that is between acquiring and releasing
it. -/
def Owned (state : ZoomState θ) : Prop :=
  ∀ call, (state.phase call).HasMutex ↔ state.m_operationMutex = some call

variable {state next final : ZoomState θ} {action : ZoomAction θ} {call : θ}
  {labels : List (ZoomAction θ)}

omit [DecidableEq θ] in
theorem Owned.unique {other : θ} (owned : Owned state)
    (first : (state.phase call).HasMutex)
    (second : (state.phase other).HasMutex) : call = other :=
  Option.some_inj.mp
    (((owned call).mp first).symm.trans ((owned other).mp second))

@[simp] theorem ZoomState.move_self (phase : ZoomPhase) :
    (state.move call phase).phase call = phase :=
  Function.update_self _ _ _

theorem ZoomState.move_of_ne {other : θ} (phase : ZoomPhase)
    (ne : other ≠ call) :
    (state.move call phase).phase other = state.phase other :=
  Function.update_of_ne ne _ _

/-- A call that goes on with or without the mutex as before. -/
theorem Owned.move {phase : ZoomPhase} (owned : Owned state)
    (same : phase.HasMutex ↔ (state.phase call).HasMutex) :
    Owned (state.move call phase) := by
  intro other
  by_cases ne : other = call
  · subst ne
    rw [move_self, same]
    exact owned other
  · rw [move_of_ne phase ne]
    exact owned other

omit [DecidableEq θ] in
theorem Owned.of_same (owned : Owned state) (samePhase : next.phase = state.phase)
    (sameMutex : next.m_operationMutex = state.m_operationMutex) :
    Owned next := by
  intro call
  rw [samePhase, sameMutex]
  exact owned call

theorem Owned.step (owned : Owned state) (step : Step state action next) :
    Owned next := by
  cases step with
  | enter here => exact owned.move (by rw [here]; rfl)
  | setStop here =>
      have stopped : Owned state.stop := owned.of_same rfl rfl
      apply stopped.move
      change _ ↔ (state.phase _).HasMutex
      rw [here]
      rfl
  | @lock call here free =>
      intro other
      change ((state.move call .locked).phase other).HasMutex ↔
        some call = some other
      by_cases ne : other = call
      · subst ne
        rw [move_self]
        exact iff_of_true trivial rfl
      · rw [move_of_ne _ ne, owned other, free]
        simp [Ne.symm ne]
  | @clearStop call here =>
      have moved : Owned (state.move call (.checking 0)) :=
        owned.move (by rw [here]; rfl)
      exact moved.of_same rfl rfl
  | check here =>
      apply owned.move
      rw [here]
      split <;> rfl
  | sendRequest here =>
      apply owned.move
      rw [here]
      split <;> rfl
  | @unlock call here =>
      have holds : (state.phase call).HasMutex := by
        rw [here]
        trivial
      intro other
      change ((state.move call .returned).phase other).HasMutex ↔
        none = some other
      by_cases ne : other = call
      · subst ne
        rw [move_self]
        exact iff_of_false id nofun
      · rw [move_of_ne _ ne]
        refine iff_of_false ?_ nofun
        intro otherHolds
        exact ne (owned.unique otherHolds holds)
  | cameraZoomStop => exact owned.of_same rfl rfl

theorem owned_of_run {stop : Bool}
    (run : Run Step (initial stop) labels state) : Owned state := by
  apply run.preserves (fun _ _ _ owned step => owned.step step)
  intro call
  exact iff_of_false id nofun

/-! ## A stop that reaches a call -/

/-- Another thread leaves the phase of a call, and the flag too while the call
has the mutex. -/
theorem Step.other (step : Step state action next)
    (apart : action.call ≠ some call) :
    next.phase call = state.phase call ∧
      (Owned state → (state.phase call).HasMutex →
        state.m_stopZoom = true → next.m_stopZoom = true) := by
  cases step with
  | @clearStop owner here =>
      have ne : call ≠ owner := fun same => apart (congrArg some same.symm)
      refine ⟨move_of_ne _ ne, ?_⟩
      intro owned holds
      have otherHolds : (state.phase owner).HasMutex := by
        rw [here]
        trivial
      exact absurd (owned.unique holds otherHolds) ne
  | setStop here =>
      have ne : call ≠ _ := fun same => apart (congrArg some same.symm)
      exact ⟨move_of_ne _ ne, fun _ _ _ => rfl⟩
  | cameraZoomStop => exact ⟨rfl, fun _ _ _ => rfl⟩
  | _ =>
      have ne : call ≠ _ := fun same => apart (congrArg some same.symm)
      exact ⟨move_of_ne _ ne, fun _ _ isStopped => isStopped⟩

theorem Step.of_stepping {iterations : ℕ} (step : Step state action next)
    (isOwn : action.call = some call)
    (here : state.phase call = .stepping iterations) :
    ∃ ret, action = .sendRequest call ret ∧
      next = state.move call
        (if ret = true ∧ iterations + 1 < maxIterations then
          .checking (iterations + 1) else .leaving) := by
  cases step with
  | sendRequest there =>
      obtain rfl := Option.some_inj.mp isOwn
      obtain rfl := ZoomPhase.stepping.inj (there.symm.trans here)
      exact ⟨_, rfl, rfl⟩
  | cameraZoomStop => cases isOwn
  | _ there =>
      obtain rfl := Option.some_inj.mp isOwn
      cases there.symm.trans here

theorem Step.of_checking {iterations : ℕ} (step : Step state action next)
    (isOwn : action.call = some call)
    (here : state.phase call = .checking iterations) :
    ∃ goesOn, action = .check call goesOn ∧
      next = state.move call
        (if goesOn = true ∧ state.m_stopZoom = false then
          .stepping iterations else .leaving) := by
  cases step with
  | check there =>
      obtain rfl := Option.some_inj.mp isOwn
      obtain rfl := ZoomPhase.checking.inj (there.symm.trans here)
      exact ⟨_, rfl, rfl⟩
  | cameraZoomStop => cases isOwn
  | _ there =>
      obtain rfl := Option.some_inj.mp isOwn
      cases there.symm.trans here

theorem Step.of_leaving (step : Step state action next)
    (isOwn : action.call = some call) (here : state.phase call = .leaving) :
    action = .unlock call ∧
      next = { state.move call .returned with m_operationMutex := none } := by
  cases step with
  | unlock there =>
      obtain rfl := Option.some_inj.mp isOwn
      exact ⟨rfl, rfl⟩
  | cameraZoomStop => cases isOwn
  | _ there =>
      obtain rfl := Option.some_inj.mp isOwn
      cases there.symm.trans here

theorem Step.not_of_returned (step : Step state action next)
    (isOwn : action.call = some call) (here : state.phase call = .returned) :
    False := by
  cases step with
  | cameraZoomStop => cases isOwn
  | _ there =>
      obtain rfl := Option.some_inj.mp isOwn
      cases there.symm.trans here

/-- What remains of a call after a stop: at most the step that is in
progress. -/
inductive Remains (started : ℕ) (state : ZoomState θ) (call : θ) :
    ℕ → ℕ → Prop
  | stepping {iterations : ℕ} (here : state.phase call = .stepping iterations)
      (stopped : state.m_stopZoom = true) (isStarted : started = 1) :
      Remains started state call 0 0
  | checking {iterations sends acts : ℕ}
      (here : state.phase call = .checking iterations)
      (stopped : state.m_stopZoom = true) (few : sends ≤ started)
      (short : acts ≤ 1) :
      Remains started state call sends acts
  | leaving {sends acts : ℕ} (here : state.phase call = .leaving)
      (few : sends ≤ started) (short : acts ≤ 2) :
      Remains started state call sends acts
  | returned {sends acts : ℕ} (here : state.phase call = .returned)
      (few : sends ≤ started) (short : acts ≤ 3) :
      Remains started state call sends acts

namespace Remains

variable {started sends acts : ℕ}

omit [DecidableEq θ] in
theorem bounds (remains : Remains started state call sends acts) :
    sends ≤ started ∧ acts ≤ 3 := by
  cases remains with
  | stepping => exact ⟨Nat.zero_le _, by omega⟩
  | checking _ _ few short => exact ⟨few, by omega⟩
  | leaving _ few short => exact ⟨few, by omega⟩
  | returned _ few short => exact ⟨few, short⟩

omit [DecidableEq θ] in
/-- A call that has cleared the flag remains for the step in progress. -/
theorem start (accepted : state.phase call ≠ .notCalled)
    (notPending : ¬(state.phase call).Pending) :
    Remains (state.phase call).inProgress state.stop call 0 0 := by
  cases here : state.phase call with
  | notCalled => exact absurd here accepted
  | entered => exact absurd (.inl here) notPending
  | waiting => exact absurd (.inr (.inl here)) notPending
  | locked => exact absurd (.inr (.inr here)) notPending
  | checking iterations => exact .checking here rfl (Nat.le_refl _) (by omega)
  | stepping iterations => exact .stepping here rfl rfl
  | leaving => exact .leaving here (Nat.le_refl _) (by omega)
  | returned => exact .returned here (Nat.le_refl _) (by omega)

/-- Nothing changes by another thread. -/
theorem other (remains : Remains started state call sends acts)
    (owned : Owned state) (step : Step state action next)
    (apart : action.call ≠ some call) :
    Remains started next call sends acts := by
  obtain ⟨samePhase, keepsFlag⟩ := step.other apart
  cases remains with
  | stepping here stopped isStarted =>
      refine .stepping (samePhase.trans here) (keepsFlag owned ?_ stopped)
        isStarted
      rw [here]
      trivial
  | checking here stopped few short =>
      refine .checking (samePhase.trans here) (keepsFlag owned ?_ stopped) few
        short
      rw [here]
      trivial
  | leaving here few short => exact .leaving (samePhase.trans here) few short
  | returned here few short => exact .returned (samePhase.trans here) few short

/-- The call itself comes nearer to its end. -/
theorem own (remains : Remains started state call sends acts)
    (step : Step state action next) (isOwn : action.call = some call) :
    Remains started next call
      (sends + if action.sends call then 1 else 0) (acts + 1) := by
  cases remains with
  | stepping here stopped isStarted =>
      obtain ⟨ret, rfl, rfl⟩ := step.of_stepping isOwn here
      have few : 0 + (if (ZoomAction.sendRequest call ret).sends call then 1
          else 0) ≤ started := by
        rw [isStarted]
        split <;> omega
      split
      · exact .checking (move_self _) stopped few (by omega)
      · exact .leaving (move_self _) few (by omega)
  | checking here stopped few short =>
      obtain ⟨goesOn, rfl, rfl⟩ := step.of_checking isOwn here
      rw [if_neg]
      · exact .leaving (move_self _) few (by omega)
      · rintro ⟨-, notStopped⟩
        rw [stopped] at notStopped
        cases notStopped
  | leaving here few short =>
      obtain ⟨rfl, rfl⟩ := step.of_leaving isOwn here
      exact .returned (move_self _) few (by omega)
  | returned here few short => exact (step.not_of_returned isOwn here).elim

/-- The run after a stop. -/
theorem run {sends acts : ℕ} {late : List (ZoomAction θ)}
    (remains : Remains started state call sends acts) (owned : Owned state)
    (run : Run Step state late final) :
    Remains started final call (sends + late.countP (ZoomAction.sends call))
      (acts + late.countP (ZoomAction.isOf call)) := by
  induction run generalizing sends acts with
  | nil => exact remains
  | @cons state next final action late first rest inductionHypothesis =>
      have ownedNext := owned.step first
      rw [List.countP_cons, List.countP_cons]
      by_cases isOwn : action.call = some call
      · have remainsNext := inductionHypothesis (remains.own first isOwn)
          ownedNext
        have isOf : action.isOf call = true := decide_eq_true isOwn
        rw [if_pos isOf]
        convert remainsNext using 1 <;> omega
      · have remainsNext := inductionHypothesis
          (remains.other owned first isOwn) ownedNext
        have notOf : ¬action.isOf call = true := by
          unfold ZoomAction.isOf
          simpa using isOwn
        have noSend : ¬action.sends call = true := by
          cases action with
          | sendRequest owner ret =>
              intro isSame
              exact isOwn (congrArg some (of_decide_eq_true isSame))
          | _ => exact nofun
        rw [if_neg notOf, if_neg noSend]
        exact remainsNext

end Remains

/-! ## Returning -/

/-- The call can give the mutex back, and the others do nothing meanwhile. -/
def CanReturn (state : ZoomState θ) (call : θ) : Prop :=
  ∃ more after, Run Step state more after ∧
    (∀ action ∈ more, action.call = some call ∧ ¬action.Enters) ∧
    after.phase call = .returned ∧ after.m_operationMutex = none ∧
    ∀ other, other ≠ call → after.phase other = state.phase other

theorem CanReturn.cons (rest : CanReturn next call)
    (first : Step state action next) (isOwn : action.call = some call)
    (notEnters : ¬action.Enters) : CanReturn state call := by
  obtain ⟨more, after, run, isCall, returned, free, others⟩ := rest
  refine ⟨action :: more, after, .cons first run,
    List.forall_mem_cons.mpr ⟨⟨isOwn, notEnters⟩, isCall⟩, returned, free, ?_⟩
  intro other ne
  have apart : action.call ≠ some other := by
    rw [isOwn]
    exact fun same => ne (Option.some_inj.mp same).symm
  rw [others other ne, (first.other apart).1]

theorem canReturn_of_leaving (here : state.phase call = .leaving) :
    CanReturn state call := by
  refine ⟨[.unlock call], _, .cons (.unlock here) (.nil _), ?_, move_self _,
    rfl, fun other ne => move_of_ne _ ne⟩
  intro action isAction
  rw [List.mem_singleton.mp isAction]
  exact ⟨rfl, nofun⟩

theorem canReturn_of_checking {iterations : ℕ}
    (here : state.phase call = .checking iterations) :
    CanReturn state call := by
  have first : Step state (.check call false) (state.move call .leaving) :=
    .check here
  apply (canReturn_of_leaving (move_self _)).cons first rfl
  rintro ⟨_, ⟨⟩⟩

theorem canReturn_of_stepping {iterations : ℕ}
    (here : state.phase call = .stepping iterations) :
    CanReturn state call := by
  have first : Step state (.sendRequest call false)
      (state.move call .leaving) := .sendRequest here
  apply (canReturn_of_leaving (move_self _)).cons first rfl
  rintro ⟨_, ⟨⟩⟩

theorem canReturn_of_locked (here : state.phase call = .locked) :
    CanReturn state call := by
  have first := Step.clearStop here
  have rest : CanReturn
      { state.move call (.checking 0) with m_stopZoom := false } call :=
    canReturn_of_checking (move_self _)
  apply rest.cons first rfl
  rintro ⟨_, ⟨⟩⟩

theorem canReturn_of_hasMutex (holds : (state.phase call).HasMutex) :
    CanReturn state call := by
  cases here : state.phase call with
  | locked => exact canReturn_of_locked here
  | checking => exact canReturn_of_checking here
  | stepping => exact canReturn_of_stepping here
  | leaving => exact canReturn_of_leaving here
  | _ =>
      rw [here] at holds
      exact holds.elim

theorem Remains.returns {started sends acts : ℕ}
    (remains : Remains started state call sends acts) :
    ∃ more after, Run Step state more after ∧
      (∀ action ∈ more, ¬action.Enters) ∧ after.phase call = .returned := by
  have canReturn : state.phase call = .returned ∨ CanReturn state call := by
    cases remains with
    | stepping here => exact .inr (canReturn_of_stepping here)
    | checking here => exact .inr (canReturn_of_checking here)
    | leaving here => exact .inr (canReturn_of_leaving here)
    | returned here => exact .inl here
  obtain here | ⟨more, after, run, isCall, returned, -⟩ := canReturn
  · exact ⟨[], state, .nil state, List.forall_mem_nil _, here⟩
  · exact ⟨more, after, run, fun action isAction => (isCall action isAction).2,
      returned⟩

/-- A stop ends a call that has cleared the flag. -/
theorem stops_of_not_pending (owned : Owned state)
    (accepted : state.phase call ≠ .notCalled)
    (notPending : ¬(state.phase call).Pending) : Stops state call := by
  intro late final run _
  have ownedStop : Owned state.stop := owned.of_same rfl rfl
  have remains := (Remains.start accepted notPending).run ownedStop run
  rw [Nat.zero_add, Nat.zero_add] at remains
  obtain ⟨few, short⟩ := remains.bounds
  exact ⟨few, by omega, remains.returns⟩

/-! ## A stop that is lost -/

/-- Actions that take a step of a call. -/
def StillSends (state : ZoomState θ) (call : θ) : Prop :=
  ∃ late after, Run Step state late after ∧
    (∀ action ∈ late, ¬action.Enters) ∧
    0 < late.countP (ZoomAction.sends call)

theorem StillSends.cons (rest : StillSends next call)
    (first : Step state action next) (notEnters : ¬action.Enters) :
    StillSends state call := by
  obtain ⟨late, after, run, noEnter, positive⟩ := rest
  refine ⟨action :: late, after, .cons first run,
    List.forall_mem_cons.mpr ⟨notEnters, noEnter⟩, ?_⟩
  rw [List.countP_cons]
  omega

theorem StillSends.append {early : List (ZoomAction θ)}
    (rest : StillSends next call) (run : Run Step state early next)
    (noEnter : ∀ action ∈ early, ¬action.Enters) : StillSends state call := by
  induction run with
  | nil => exact rest
  | cons first _ inductionHypothesis =>
      obtain ⟨notEnters, noEnter⟩ := List.forall_mem_cons.mp noEnter
      exact (inductionHypothesis rest noEnter).cons first notEnters

theorem stillSends_of_stepping {iterations : ℕ}
    (here : state.phase call = .stepping iterations) :
    StillSends state call := by
  refine ⟨[.sendRequest call true], _, .cons (.sendRequest here) (.nil _),
    ?_, ?_⟩
  · intro action isAction
    rw [List.mem_singleton.mp isAction]
    rintro ⟨_, ⟨⟩⟩
  · rw [List.countP_singleton]
    simp [ZoomAction.sends]

/-- With the mutex, a call clears the flag and takes a step. -/
theorem stillSends_of_locked (here : state.phase call = .locked) :
    StillSends state call := by
  let cleared : ZoomState θ :=
    { state.move call (.checking 0) with m_stopZoom := false }
  have clears : Step state (.clearStop call) cleared := .clearStop here
  have checks : Step cleared (.check call true)
      (cleared.move call (.stepping 0)) := .check (move_self _)
  have steps : StillSends (cleared.move call (.stepping 0)) call :=
    stillSends_of_stepping (move_self _)
  apply (steps.cons checks _).cons clears
  · rintro ⟨_, ⟨⟩⟩
  · rintro ⟨_, ⟨⟩⟩

theorem stillSends_of_free (here : state.phase call = .waiting)
    (free : state.m_operationMutex = none) : StillSends state call := by
  let taken : ZoomState θ :=
    { state.move call .locked with m_operationMutex := some call }
  have takes : Step state (.lock call) taken := .lock here free
  have still : StillSends taken call := stillSends_of_locked (move_self _)
  apply still.cons takes
  rintro ⟨_, ⟨⟩⟩

/-- A call that waits gets the mutex, once the one that has it returns. -/
theorem stillSends_of_waiting (owned : Owned state)
    (here : state.phase call = .waiting) : StillSends state call := by
  cases holder : state.m_operationMutex with
  | none => exact stillSends_of_free here holder
  | some other =>
      have holds := (owned other).mpr holder
      have ne : call ≠ other := by
        rintro rfl
        rw [here] at holds
        exact holds
      obtain ⟨early, next, run, isOther, -, free, others⟩ :=
        canReturn_of_hasMutex holds
      have waits : next.phase call = .waiting := (others call ne).trans here
      exact (stillSends_of_free waits free).append run fun action isAction =>
        (isOther action isAction).2

/-- A stop is lost for a call that has not cleared the flag. -/
theorem not_stops_of_pending (owned : Owned state)
    (pending : (state.phase call).Pending) : ¬Stops state call := by
  intro stops
  have ownedStop : Owned state.stop := owned.of_same rfl rfl
  have still : StillSends state.stop call := by
    obtain here | here | here := pending
    · have entered : Step state.stop (.setStop call)
          (state.stop.stop.move call .waiting) := .setStop here
      have waits := stillSends_of_waiting (ownedStop.step entered) (move_self _)
      apply waits.cons entered
      rintro ⟨_, ⟨⟩⟩
    · exact stillSends_of_waiting ownedStop here
    · exact stillSends_of_locked here
  obtain ⟨late, after, run, noEnter, positive⟩ := still
  have few := (stops late after run noEnter).sends
  have none : (state.phase call).inProgress = 0 := by
    obtain here | here | here := pending <;> rw [here] <;> rfl
  omega

/-! ## Every stop -/

/-- A stop ends a call that was accepted before it exactly if the call has
cleared the flag. -/
theorem stops_iff {stop : Bool} (run : Run Step (initial stop) labels state)
    (accepted : state.phase call ≠ .notCalled) :
    Stops state call ↔ ¬(state.phase call).Pending := by
  have owned := owned_of_run run
  constructor
  · intro stops pending
    exact not_stops_of_pending owned pending stops
  · exact stops_of_not_pending owned accepted

/-- The stop of a call that runs. -/
theorem stops_iff_running :
    ∃ state : ZoomState Unit, state.phase () = .checking 0 ∧
      (Stops state () ↔ ¬(state.phase ()).Pending) := by
  have run : Run Step (initial false : ZoomState Unit)
      [.enter (), .setStop (), .lock (), .clearStop ()] _ :=
    .cons (.enter rfl) (.cons (.setStop rfl) (.cons (.lock rfl rfl)
      (.cons (.clearStop rfl) (.nil _))))
  refine ⟨_, ?_, stops_iff run ?_⟩
  · exact rfl
  · intro notCalled
    have here : ZoomPhase.checking 0 = .notCalled := notCalled
    cases here

/-- A stop that is handled right after the command was accepted is lost. -/
theorem not_stops_entered :
    ∃ state : ZoomState Unit, Run Step (initial false) [.enter ()] state ∧
      state.phase () ≠ .notCalled ∧ ¬Stops state () := by
  have run : Run Step (initial false : ZoomState Unit) [.enter ()] _ :=
    .cons (.enter rfl) (.nil _)
  refine ⟨_, run, ?_, not_stops_of_pending (owned_of_run run)
    (.inl (move_self _))⟩
  intro notCalled
  cases (move_self _).symm.trans notCalled

end ZoomStop
end Payload
end Pilot2Cloud
