import Pilot2Cloud.Requests.Bookkeeping

/-!
# The order in which the mutexes are taken

A reply thread takes a context's mutex while it owns the table's, and a worker
that timed out takes the table's while it owns its context's.  The two threads
block each other exactly when a reply is matched to a request at the moment
when the request times out.
-/

namespace Pilot2Cloud
namespace Requests

open Foundation

/-- A thread owns a mutex. -/
def State.Holds (state : State) (thread : Thread) : Lock → Prop
  | .request manager => state.requestMutex manager = some thread
  | .context call => (state.context call).mtx = some thread

/-- The next step of a thread takes a mutex. -/
def State.WaitsFor (calls : Nat → Call) (state : State) :
    Thread → Lock → Prop
  | .worker call, lock =>
      match state.worker call with
      | .registering | .abandoning | .timedOut =>
          lock = .request (calls call).manager
      | .locking | .waiting => lock = .context call
      | .publishing | .returned _ => False
  | .replier reply, lock =>
      match state.replier reply with
      | .arrived answers _ => lock = .request (calls answers).manager
      | .found call _ _ => lock = .context call
      | .idle | .returned _ => False

/-- Two threads each hold the mutex the other waits for. -/
def State.Deadlocked (calls : Nat → Call) (state : State) : Prop :=
  ∃ thread other lock second, thread ≠ other ∧
    state.Holds thread lock ∧ state.WaitsFor calls thread second ∧
    state.Holds other second ∧ state.WaitsFor calls other lock

/-- A reply thread has found the context of a call that timed out. -/
def State.Crossed (state : State) : Prop :=
  ∃ reply call answers result,
    state.replier reply = .found call answers result ∧
      state.worker call = .timedOut

/-- No request times out while a reply thread is about to update it, and no
reply is matched to a request that timed out and is about to be erased. -/
def InTime (calls : Nat → Call) (state : State) : Action → Prop
  | .wake call true =>
      (state.context call).finished = true ∨
        ∀ reply answers result,
          state.replier reply ≠ .found call answers result
  | .find reply =>
      ∀ answers result call,
        state.replier reply = .arrived answers result →
        state.pendingRequests (calls answers).entry = some call →
        state.worker call ≠ .timedOut
  | _ => True

variable {calls : Nat → Call} {state next final : State} {action : Action}
  {actions : List Action}

theorem deadlocked_iff_crossed (kept : Bookkeeping calls state) :
    state.Deadlocked calls ↔ state.Crossed := by
  constructor
  · rintro ⟨thread, other, lock, second, -, holds, waits, holdsSecond,
      waitsBack⟩
    cases lock with
    | request manager =>
        obtain ⟨reply, call, answers, result, rfl, found, -⟩ :=
          kept.request_held manager thread holds
        simp only [State.WaitsFor, found] at waits
        subst waits
        obtain ⟨-, timedOut⟩ := kept.context_held call other holdsSecond
        exact ⟨reply, call, answers, result, found, timedOut⟩
    | context call =>
        obtain ⟨rfl, timedOut⟩ := kept.context_held call thread holds
        simp only [State.WaitsFor, timedOut] at waits
        subst waits
        obtain ⟨reply, target, answers, result, rfl, found, -⟩ :=
          kept.request_held _ other holdsSecond
        simp only [State.WaitsFor, found] at waitsBack
        obtain rfl := Lock.context.inj waitsBack
        exact ⟨reply, call, answers, result, found, timedOut⟩
  · rintro ⟨reply, call, answers, result, found, timedOut⟩
    have sameEntry : (calls call).entry = (calls answers).entry :=
      kept.entry_eq _ _ (kept.found_pending _ _ _ _ found)
    have sameManager : (calls call).manager = (calls answers).manager :=
      congrArg Prod.fst sameEntry
    refine ⟨.worker call, .replier reply, .context call,
      .request (calls call).manager, by simp, ?_, ?_, ?_, ?_⟩
    · exact kept.timedOut_holds call timedOut
    · simp [State.WaitsFor, timedOut]
    · rw [sameManager]
      exact kept.found_holds _ _ _ _ found
    · simp [State.WaitsFor, found]

/-- A step crosses a reply and a timeout exactly when it is not in time. -/
theorem inTime_iff_not_crossed
    (uncrossed : ¬state.Crossed) (step : Step calls state action next) :
    InTime calls state action ↔ ¬next.Crossed := by
  simp only [State.Crossed, not_exists, not_and] at uncrossed ⊢
  cases step.effect with
  | timeout call waiting free unfinished =>
      constructor
      · intro inTime reply target answers result found timedOut
        simp only [State.setWorker_worker, Function.update_apply,
          State.setContext_worker] at timedOut
        by_cases same : target = call
        · subst same
          obtain finished | notFound := inTime
          · simp [unfinished] at finished
          · exact notFound reply answers result found
        · rw [if_neg same] at timedOut
          exact uncrossed reply target answers result found timedOut
      · intro notCrossed
        refine .inr fun reply answers result found => ?_
        exact notCrossed reply call answers result found (by simp)
  | find reply call answers result arrived free present =>
      constructor
      · intro inTime other target origin value found timedOut
        simp only [State.setReplier_replier, Function.update_apply,
          State.setMutex_replier] at found
        by_cases same : other = reply
        · rw [if_pos same] at found
          obtain ⟨rfl, -, -⟩ := ReplierState.found.inj found
          exact inTime answers result call arrived present timedOut
        · rw [if_neg same] at found
          exact uncrossed other target origin value found timedOut
      · intro notCrossed origin value target arrivedAgain presentAgain
        rw [arrived] at arrivedAgain
        obtain ⟨rfl, rfl⟩ := ReplierState.arrived.inj arrivedAgain
        rw [present] at presentAgain
        obtain rfl := Option.some_inj.mp presentAgain
        exact notCrossed reply call answers result (by simp)
  | answered call _ acts waits free finished =>
      refine iff_of_true ?_ ?_
      · obtain rfl | ⟨timeout, rfl⟩ := acts
        · trivial
        · cases timeout
          · trivial
          · exact .inl finished
      · simp [Function.update_apply]
        grind
  | spurious => exact iff_of_true trivial uncrossed
  | unmatched reply answers result arrived free absent =>
      refine iff_of_true ?_ ?_
      · intro origin value target arrivedAgain present
        rw [arrived] at arrivedAgain
        obtain ⟨rfl, rfl⟩ := ReplierState.arrived.inj arrivedAgain
        simp [absent] at present
      · simp [Function.update_apply]
        grind
  | _ =>
      refine iff_of_true trivial ?_
      simp [Function.update_apply]
      grind

theorem functional {other : State}
    (step : Step calls state action next)
    (again : Step calls state action other) : next = other :=
  Option.some_inj.mp (step.symm.trans again)

/-- No deadlock in any state of a run, exactly when no reply meets a timeout. -/
theorem never_deadlocked_iff
    (run : Run (Step calls) State.initial actions final) :
    Along (Step calls) (InTime calls) State.initial actions ↔
      ∀ middle, Reached (Step calls) State.initial actions middle →
        ¬middle.Deadlocked calls := by
  refine Along.iff_reached (Bookkeeping calls)
    (fun _ _ _ _ => functional) (fun _ _ _ => Bookkeeping.step) ?_
    .initial ?_ run
  · intro state action next kept safe step
    rw [deadlocked_iff_crossed (kept.step step)]
    rw [deadlocked_iff_crossed kept] at safe
    exact inTime_iff_not_crossed safe step
  · rw [deadlocked_iff_crossed .initial]
    simp [State.Crossed, State.initial]

/-- A zoom command that is answered while it waits. -/
def zoomActions : List Action :=
  [.register 0, .publish 0, .lockContext 0, .arrive 0 0 0, .find 0, .update 0,
    .wake 0 false]

/-- A zoom command waits for its reply and gets it in time. -/
theorem never_deadlocked_zoom :
    Along (Step fun _ => zoomRequest) (InTime fun _ => zoomRequest)
        State.initial zoomActions ∧
      ∀ middle, Reached (Step fun _ => zoomRequest) State.initial zoomActions
          middle →
        ¬middle.Deadlocked fun _ => zoomRequest := by
  refine and_iff_left_of_imp
    (never_deadlocked_iff (Run.iff_foldlM.mpr rfl)).mp |>.mpr ?_
  refine ⟨trivial, ?_⟩
  rintro _ ⟨⟩
  refine ⟨trivial, ?_⟩
  rintro _ ⟨⟩
  refine ⟨trivial, ?_⟩
  rintro _ ⟨⟩
  refine ⟨trivial, ?_⟩
  rintro _ ⟨⟩
  refine ⟨?_, ?_⟩
  · rintro answers result call ⟨⟩ ⟨⟩ ⟨⟩
  rintro _ ⟨⟩
  refine ⟨trivial, ?_⟩
  rintro _ ⟨⟩
  exact ⟨trivial, fun _ _ => trivial⟩

/-- The reply to a zoom command is looked up when the command times out. -/
theorem not_never_deadlocked :
    ¬∀ calls actions final, Run (Step calls) State.initial actions final →
      ¬final.Deadlocked calls := by
  intro safe
  refine safe (fun _ => zoomRequest) [.register 0, .publish 0, .lockContext 0,
    .arrive 0 0 0, .find 0, .wake 0 true] _ (Run.iff_foldlM.mpr rfl) ?_
  refine ⟨.worker 0, .replier 0, .context 0, .request .payload, ?_, ?_, ?_,
    ?_, ?_⟩
  · decide
  · rfl
  · rfl
  · rfl
  · rfl

end Requests
end Pilot2Cloud
