import Pilot2Cloud.Requests.RequestContext

/-!
# What the steps of the request managers do

Each step is taken under its guard and changes what it names.  Reply threads
own a table's mutex exactly between finding a context and updating it, workers
own a context's mutex exactly between timing out and cleaning up, and a table's
entries are calls registered under their own keys.
-/

namespace Pilot2Cloud
namespace Requests

open Foundation

/-- The ways in which a step can go, with what each of them requires. -/
inductive Effect (calls : Nat → Call) (state : State) : Action → State → Prop
  | register (call : Nat)
      (registering : state.worker call = .registering)
      (free : state.requestMutex (calls call).manager = none)
      (started : WorkerState)
      (kind : started = .publishing ∨ started = .locking ∧
        (calls call).purpose = .waitForDockNotice) :
      Effect calls state (.register call)
        (((state.setContext call {}).setEntry (calls call).entry
          (some call)).setWorker call started)
  | publish (call : Nat)
      (publishing : state.worker call = .publishing)
      (published : (calls call).purpose ≠ .sendRequestAndWait "") :
      Effect calls state (.publish call) (state.setWorker call .locking)
  | unpublished (call : Nat)
      (publishing : state.worker call = .publishing)
      (empty : (calls call).purpose = .sendRequestAndWait "") :
      Effect calls state (.publish call) (state.setWorker call .abandoning)
  | abandon (call : Nat)
      (abandoning : state.worker call = .abandoning)
      (free : state.requestMutex (calls call).manager = none) :
      Effect calls state (.abandon call)
        ((eraseEntry calls state call).setWorker call (.returned false))
  | lockContext (call : Nat)
      (locking : state.worker call = .locking)
      (free : (state.context call).mtx = none)
      (unfinished : (state.context call).finished = false) :
      Effect calls state (.lockContext call) (state.setWorker call .waiting)
  | answered (call : Nat) (action : Action)
      (acts : action = .lockContext call ∨
        ∃ timeout, action = .wake call timeout)
      (waits : state.worker call = .locking ∨ state.worker call = .waiting)
      (free : (state.context call).mtx = none)
      (finished : (state.context call).finished = true) :
      Effect calls state action (state.setWorker call
        (.returned ((calls call).purpose.success (state.context call))))
  | spurious (call : Nat)
      (waiting : state.worker call = .waiting)
      (free : (state.context call).mtx = none)
      (unfinished : (state.context call).finished = false) :
      Effect calls state (.wake call false) state
  | timeout (call : Nat)
      (waiting : state.worker call = .waiting)
      (free : (state.context call).mtx = none)
      (unfinished : (state.context call).finished = false) :
      Effect calls state (.wake call true)
        ((state.setContext call { state.context call with
          mtx := some (.worker call) }).setWorker call .timedOut)
  | cleanup (call : Nat)
      (timedOut : state.worker call = .timedOut)
      (free : state.requestMutex (calls call).manager = none) :
      Effect calls state (.cleanup call)
        (((eraseEntry calls state call).setContext call
          { state.context call with mtx := none }).setWorker call
            (.returned false))
  | arrive (reply answers : Nat) (result : Int)
      (idle : state.replier reply = .idle)
      (published : state.Published calls answers) :
      Effect calls state (.arrive reply answers result)
        (state.setReplier reply (.arrived answers result))
  | unmatched (reply answers : Nat) (result : Int)
      (arrived : state.replier reply = .arrived answers result)
      (free : state.requestMutex (calls answers).manager = none)
      (absent : state.pendingRequests (calls answers).entry = none) :
      Effect calls state (.find reply)
        (state.setReplier reply (.returned false))
  | find (reply call answers : Nat) (result : Int)
      (arrived : state.replier reply = .arrived answers result)
      (free : state.requestMutex (calls answers).manager = none)
      (present : state.pendingRequests (calls answers).entry = some call) :
      Effect calls state (.find reply)
        ((state.setMutex (calls answers).manager
          (some (.replier reply))).setReplier reply
            (.found call answers result))
  | update (reply call answers : Nat) (result : Int)
      (found : state.replier reply = .found call answers result)
      (free : (state.context call).mtx = none) :
      Effect calls state (.update reply)
        ((((state.setContext call ⟨true, result, none⟩).setEntry
          (calls answers).entry none).setMutex (calls answers).manager
            none).setReplier reply (.returned true))

variable {calls : Nat → Call} {state next : State} {action : Action}

/-- A step goes one of these ways. -/
theorem Step.effect (step : Step calls state action next) :
    Effect calls state action next := by
  cases action with
  | register call =>
      simp only [Step, Requests.step, register,
        Option.ite_none_right_eq_some, Option.some_inj] at step
      obtain ⟨⟨registering, free⟩, rfl⟩ := step
      refine .register call registering free _ ?_
      cases purpose : (calls call).purpose with
      | sendRequestAndWait jsonStr => exact .inl rfl
      | waitForDockNotice => exact .inr ⟨rfl, rfl⟩
  | publish call =>
      simp only [Step, Requests.step, publish,
        Option.ite_none_right_eq_some, Option.some_inj] at step
      obtain ⟨publishing, rfl⟩ := step
      split
      · next empty => exact .unpublished call publishing empty
      · next published => exact .publish call publishing published
  | abandon call =>
      simp only [Step, Requests.step, abandon,
        Option.ite_none_right_eq_some, Option.some_inj] at step
      obtain ⟨⟨abandoning, free⟩, rfl⟩ := step
      exact .abandon call abandoning free
  | lockContext call =>
      simp only [Step, Requests.step, lockContext,
        Option.ite_none_right_eq_some, Option.some_inj] at step
      obtain ⟨⟨locking, free⟩, rfl⟩ := step
      cases finished : (state.context call).finished with
      | true => exact .answered call _ (.inl rfl) (.inl locking) free finished
      | false => exact .lockContext call locking free finished
  | wake call timeout =>
      simp only [Step, Requests.step, wake,
        Option.ite_none_right_eq_some] at step
      obtain ⟨⟨waiting, free⟩, step⟩ := step
      cases finished : (state.context call).finished with
      | true =>
          rw [if_pos finished, Option.some_inj] at step
          subst step
          exact .answered call _ (.inr ⟨timeout, rfl⟩) (.inr waiting) free
            finished
      | false =>
          rw [if_neg (by simp [finished])] at step
          cases timeout with
          | true =>
              obtain rfl := Option.some_inj.mp step
              exact .timeout call waiting free finished
          | false =>
              obtain rfl := Option.some_inj.mp step
              exact .spurious call waiting free finished
  | cleanup call =>
      simp only [Step, Requests.step, cleanup,
        Option.ite_none_right_eq_some, Option.some_inj] at step
      obtain ⟨⟨timedOut, free⟩, rfl⟩ := step
      exact .cleanup call timedOut free
  | arrive reply answers result =>
      simp only [Step, Requests.step, arrive,
        Option.ite_none_right_eq_some, Option.some_inj] at step
      obtain ⟨⟨idle, published⟩, rfl⟩ := step
      exact .arrive reply answers result idle published
  | find reply =>
      simp only [Step, Requests.step, find] at step
      cases arrived : state.replier reply with
      | arrived answers result =>
          simp only [arrived, Option.ite_none_right_eq_some] at step
          obtain ⟨free, step⟩ := step
          cases present : state.pendingRequests (calls answers).entry with
          | none =>
              rw [present] at step
              obtain rfl := Option.some_inj.mp step
              exact .unmatched reply answers result arrived free present
          | some call =>
              rw [present] at step
              obtain rfl := Option.some_inj.mp step
              exact .find reply call answers result arrived free present
      | _ => simp [arrived] at step
  | update reply =>
      simp only [Step, Requests.step, update] at step
      cases found : state.replier reply with
      | found call answers result =>
          simp only [found, Option.ite_none_right_eq_some,
            Option.some_inj] at step
          obtain ⟨free, rfl⟩ := step
          exact .update reply call answers result found free
      | _ => simp [found] at step

/-- Who holds which mutex, and what a table's entries are. -/
structure Bookkeeping (calls : Nat → Call) (state : State) : Prop where
  entry_eq : ∀ entry call, state.pendingRequests entry = some call →
    (calls call).entry = entry
  request_held : ∀ manager thread,
    state.requestMutex manager = some thread →
      ∃ reply call answers result, thread = .replier reply ∧
        state.replier reply = .found call answers result ∧
        (calls answers).manager = manager
  found_holds : ∀ reply call answers result,
    state.replier reply = .found call answers result →
      state.requestMutex (calls answers).manager = some (.replier reply)
  found_pending : ∀ reply call answers result,
    state.replier reply = .found call answers result →
      state.pendingRequests (calls answers).entry = some call
  context_held : ∀ call thread, (state.context call).mtx = some thread →
    thread = .worker call ∧ state.worker call = .timedOut
  timedOut_holds : ∀ call, state.worker call = .timedOut →
    (state.context call).mtx = some (.worker call)

theorem Bookkeeping.initial : Bookkeeping calls State.initial where
  entry_eq := by simp [State.initial]
  request_held := by simp [State.initial]
  found_holds := by simp [State.initial]
  found_pending := by simp [State.initial]
  context_held := by simp [State.initial]
  timedOut_holds := by simp [State.initial]

/-- Every step keeps the books: the only mutexes a step changes are free or
owned by its own thread. -/
theorem Bookkeeping.step
    (kept : Bookkeeping calls state) (step : Step calls state action next) :
    Bookkeeping calls next := by
  cases step.effect
  case spurious => exact kept
  all_goals
    obtain ⟨entry_eq, request_held, found_holds, found_pending, context_held,
      timedOut_holds⟩ := kept
    constructor <;> simp [Function.update_apply] <;> grind [Call.entry]

end Requests
end Pilot2Cloud
