import Pilot2Cloud.Requests.Bookkeeping

/-!
# Whose entry is in the table

Registering overwrites and cleaning up erases whatever is in the table under
the key of a request, be it the request's own entry or not.  Requests that wait
keep their entries as long as a key is not used again before the clean-up of
its last request is over.
-/

namespace Pilot2Cloud
namespace Requests

open Foundation

/-- A request is registered, has no answer and has not given up. -/
def State.Waiting (state : State) (call : Nat) : Prop :=
  (state.worker call = .publishing ∨ state.worker call = .locking ∨
    state.worker call = .waiting) ∧
  (state.context call).finished = false

/-- Every waiting request is the one found under its key. -/
def Owned (calls : Nat → Call) (state : State) : Prop :=
  ∀ call, state.Waiting call →
    state.pendingRequests (calls call).entry = some call

/-- A request waits, or it is still going to erase its key. -/
def State.InProgress (calls : Nat → Call) (state : State) (call : Nat) :
    Prop :=
  state.Waiting call ∨ state.worker call = .abandoning ∨
    state.worker call = .timedOut ∨
    state.worker call = .publishing ∧
      (calls call).purpose = .sendRequestAndWait ""

/-- A request is only registered when no other one with its key is in
progress. -/
def Disjoint (calls : Nat → Call) (state : State) : Action → Prop
  | .register call =>
      ∀ other, (calls other).entry = (calls call).entry →
        ¬state.InProgress calls other
  | _ => True

/-- Of the requests with one key, a waiting one is the only one in progress. -/
def Alone (calls : Nat → Call) (state : State) : Prop :=
  ∀ call other, state.Waiting call → state.InProgress calls other →
    (calls other).entry = (calls call).entry → other = call

variable {calls : Nat → Call} {state next final : State} {action : Action}
  {actions : List Action}

theorem State.Waiting.inProgress {call : Nat} (waiting : state.Waiting call) :
    state.InProgress calls call :=
  .inl waiting

theorem Alone.step
    (alone : Alone calls state) (disjoint : Disjoint calls state action)
    (step : Step calls state action next) : Alone calls next := by
  cases step.effect
  case spurious => exact alone
  all_goals
    simp only [Alone, State.InProgress, State.Waiting, Disjoint] at *
    simp [Function.update_apply]
    grind

/-- Where waiting requests are alone, they keep their entries. -/
theorem Owned.step
    (owned : Owned calls state) (kept : Bookkeeping calls state)
    (alone : Alone calls state) (disjoint : Disjoint calls state action)
    (step : Step calls state action next) : Owned calls next := by
  have entry_eq := kept.entry_eq
  have found_pending := kept.found_pending
  cases step.effect
  case spurious => exact owned
  all_goals
    simp only [Owned, Alone, State.InProgress, State.Waiting, Disjoint] at *
    simp [Function.update_apply]
    grind

/-- A request in progress that no longer waits is going to erase its key. -/
theorem State.InProgress.erases {call : Nat}
    (inProgress : state.InProgress calls call)
    (free : state.requestMutex (calls call).manager = none)
    (silent : ¬state.Waiting call) :
    ∃ more final, Run (Step calls) state more final ∧
      final.pendingRequests (calls call).entry = none ∧
      ∀ other ≠ call, final.worker other = state.worker other ∧
        final.context other = state.context other := by
  have abandons (state : State)
      (abandoning : state.worker call = .abandoning)
      (free : state.requestMutex (calls call).manager = none) :
      Step calls state (.abandon call)
        ((eraseEntry calls state call).setWorker call (.returned false)) :=
    if_pos ⟨abandoning, free⟩
  obtain waiting | abandoning | timedOut | ⟨publishing, empty⟩ := inProgress
  · exact absurd waiting silent
  · refine ⟨_, _, .cons (abandons state abandoning free) (.nil _), by simp, ?_⟩
    intro other different
    simp [different]
  · have cleans : Step calls state (.cleanup call) _ :=
      if_pos ⟨timedOut, free⟩
    refine ⟨_, _, .cons cleans (.nil _), by simp, ?_⟩
    intro other different
    simp [different]
  · have gives_up : Step calls state (.publish call)
        (state.setWorker call .abandoning) := by
      rw [Step, Requests.step, publish, if_pos publishing, if_pos empty]
    have erases := abandons (state.setWorker call .abandoning) (by simp)
      (by simpa using free)
    refine ⟨_, _, .cons gives_up (.cons erases (.nil _)), by simp, ?_⟩
    intro other different
    simp [different]

/-- A request that is registered while another one with its key is in progress
takes that one's entry, or loses its own to that one's clean-up. -/
theorem exists_not_owned_of_overlap {call other : Nat}
    (step : Step calls state (.register call) next)
    (sameEntry : (calls other).entry = (calls call).entry)
    (inProgress : state.InProgress calls other) :
    ∃ more final, Run (Step calls) next more final ∧ ¬Owned calls final := by
  have sameManager : (calls other).manager = (calls call).manager :=
    congrArg Prod.fst sameEntry
  cases step.effect with
  | answered _ _ acts => simp at acts
  | register _ registering free started kind =>
    generalize reached : ((state.setContext call {}).setEntry
      (calls call).entry (some call)).setWorker call started = next at step ⊢
    have different : other ≠ call := by
      rintro rfl
      simp [State.InProgress, State.Waiting, registering] at inProgress
    have waits : next.Waiting call := by
      subst reached
      simp only [State.Waiting, State.setWorker_worker, State.setWorker_context]
      simp
      grind
    have present :
        next.pendingRequests (calls other).entry = some call := by
      simp [← reached, sameEntry]
    have freeNext : next.requestMutex (calls other).manager = none := by
      simpa [← reached, sameManager] using free
    have inProgressNext : next.InProgress calls other := by
      simpa [← reached, State.InProgress, State.Waiting,
        Function.update_apply, different] using inProgress
    by_cases waiting : next.Waiting other
    · refine ⟨[], next, .nil next, fun owned => different ?_⟩
      have own := owned other waiting
      exact Option.some_inj.mp (own.symm.trans present)
    · obtain ⟨more, final, run, erased, kept⟩ :=
        inProgressNext.erases freeNext waiting
      obtain ⟨sameWorker, sameContext⟩ := kept call (Ne.symm different)
      refine ⟨more, final, run, fun owned => ?_⟩
      have own := owned call (by
        rwa [State.Waiting, sameWorker, sameContext])
      rw [← sameEntry, erased] at own
      simp at own

/-- As long as requests with one key are registered one after the other, every
waiting request is found under its key.  The first time that they overlap, some
continuation makes a waiting request lose its entry. -/
theorem owned_of_disjoint (calls : Nat → Call) :
    (∀ actions, Along (Step calls) (Disjoint calls) State.initial actions →
      ∀ middle, Reached (Step calls) State.initial actions middle →
        Owned calls middle) ∧
    (∀ state action next, Step calls state action next →
      ¬Disjoint calls state action →
        ∃ more final, Run (Step calls) next more final ∧
          ¬Owned calls final) := by
  constructor
  · intro actions disjoint middle reached
    refine (disjoint.of_reached (fun state =>
      Bookkeeping calls state ∧ Alone calls state ∧ Owned calls state)
      ?_ ?_ reached).2.2
    · rintro state action next ⟨kept, alone, owned⟩ disjoint step
      exact ⟨kept.step step, alone.step disjoint step,
        owned.step kept alone disjoint step⟩
    · refine ⟨.initial, ?_, ?_⟩
      · intro call other waiting
        simp [State.Waiting, State.initial] at waiting
      · intro call waiting
        simp [State.Waiting, State.initial] at waiting
  · intro state action next step overlap
    cases action with
    | register call =>
        simp only [Disjoint, not_forall, not_not] at overlap
        obtain ⟨other, sameEntry, inProgress⟩ := overlap
        exact exists_not_owned_of_overlap step sameEntry inProgress
    | _ => exact absurd trivial overlap

/-- Two zoom commands are sent at once. -/
theorem not_owned_of_overlap :
    ¬∀ calls actions final, Run (Step calls) State.initial actions final →
      Owned calls final := by
  intro owned
  have lost := owned (fun _ => zoomRequest) [.register 0, .register 1] _
    (Run.iff_foldlM.mpr rfl) 0 ⟨.inl rfl, rfl⟩
  revert lost
  decide

end Requests
end Pilot2Cloud
