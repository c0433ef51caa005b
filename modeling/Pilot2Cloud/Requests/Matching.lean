import Pilot2Cloud.Requests.Bookkeeping

/-!
# Which reply makes a request succeed

Replies are matched by key: the method of a payload command, the `tid` of a
flight command.  A request succeeds on a reply with result 0 under its key that
is looked up while it waits.  The reply is to the request's own message if no
other message was published under the key.
-/

namespace Pilot2Cloud
namespace Requests

open Foundation

/-- The step in which a call finds its context finished and returns. -/
def Action.Returns (call : Nat) (action : Action) : Prop :=
  action = .lockContext call ∨ ∃ timeout, action = .wake call timeout

variable {calls : Nat → Call} {state next final : State} {action : Action}
  {actions : List Action} {call reply answers : Nat} {result : Int}

theorem concat_sublist {events early late : List Action}
    (sublist : events.Sublist early) :
    (events ++ [action]).Sublist (early ++ action :: late) :=
  sublist.append ((List.nil_sublist late).cons_cons action)

theorem State.published_iff :
    state.Published calls call ↔
      ∃ jsonStr, (calls call).purpose = .sendRequestAndWait jsonStr ∧
        jsonStr ≠ "" ∧ state.worker call ≠ .registering ∧
        state.worker call ≠ .publishing := by
  unfold State.Published
  split <;> simp_all

namespace Step

/-- A call begins to return success on a finished context. -/
theorem of_returned
    (step : Step calls state action next)
    (before : ¬state.worker call = .returned true)
    (after : next.worker call = .returned true) :
    action.Returns call ∧ (state.context call).finished = true ∧
      (calls call).purpose.success (state.context call) = true := by
  cases step.effect
  case spurious => exact absurd after before
  all_goals
    simp [Function.update_apply] at after
    grind [Action.Returns]

/-- Only updates finish a context. -/
theorem of_finished
    (step : Step calls state action next)
    (before : ¬((state.context call).finished = true ∧
      (state.context call).result = result))
    (after : (next.context call).finished = true ∧
      (next.context call).result = result) :
    ∃ reply answers, action = .update reply ∧
      state.replier reply = .found call answers result := by
  cases step.effect
  case spurious => exact absurd after before
  all_goals
    simp [Function.update_apply] at after
    grind

theorem of_found
    (step : Step calls state action next)
    (before : ¬state.replier reply = .found call answers result)
    (after : next.replier reply = .found call answers result) :
    action = .find reply ∧ state.replier reply = .arrived answers result ∧
      state.pendingRequests (calls answers).entry = some call := by
  cases step.effect
  case spurious => exact absurd after before
  all_goals
    simp [Function.update_apply] at after
    grind

theorem of_pending {entry : Manager × String}
    (step : Step calls state action next)
    (before : ¬state.pendingRequests entry = some call)
    (after : next.pendingRequests entry = some call) :
    action = .register call ∧ (calls call).entry = entry := by
  cases step.effect
  case spurious => exact absurd after before
  all_goals
    simp [Function.update_apply] at after
    grind

theorem of_arrived
    (step : Step calls state action next)
    (before : ¬state.replier reply = .arrived answers result)
    (after : next.replier reply = .arrived answers result) :
    action = .arrive reply answers result ∧ state.Published calls answers := by
  cases step.effect
  case spurious => exact absurd after before
  all_goals
    simp [Function.update_apply] at after
    grind

theorem of_published
    (step : Step calls state action next)
    (before : ¬state.Published calls call)
    (after : next.Published calls call) :
    action = .publish call ∧ state.worker call = .publishing := by
  rw [State.published_iff] at before after
  cases step.effect
  case spurious => exact absurd after before
  all_goals
    simp [Function.update_apply] at after
    grind

theorem of_publishing
    (step : Step calls state action next)
    (before : ¬state.worker call = .publishing)
    (after : next.worker call = .publishing) :
    action = .register call := by
  cases step.effect
  case spurious => exact absurd after before
  all_goals
    simp [Function.update_apply] at after
    grind

end Step

/-- A published message was registered, then published. -/
theorem sublist_of_published
    (run : Run (Step calls) State.initial actions state)
    (published : state.Published calls call) :
    [.register call, .publish call].Sublist actions := by
  obtain ⟨early, label, late, middle, next, rfl, front, step, before, after,
    -⟩ := run.exists_change (fun state => state.Published calls call)
      (by simp [State.published_iff, State.initial]) published
  obtain ⟨rfl, publishing⟩ := step.of_published before after
  obtain ⟨first, label, rest, middle, next, rfl, -, step, before, after, -⟩ :=
    front.exists_change (fun state => state.worker call = .publishing)
      (by simp [State.initial]) publishing
  obtain rfl := step.of_publishing before after
  exact concat_sublist (concat_sublist (List.nil_sublist first))

/-- A call that returned success was answered while it waited: by a reply with
result 0 to a message that was published under the call's key. -/
theorem answered_of_returned {jsonStr : String}
    (run : Run (Step calls) State.initial actions final)
    (request : (calls call).purpose = .sendRequestAndWait jsonStr)
    (success : final.worker call = .returned true) :
    ∃ reply answers last, last.Returns call ∧
      (calls answers).entry = (calls call).entry ∧
      [.register call, .find reply, .update reply, last].Sublist actions ∧
      [.register answers, .publish answers, .arrive reply answers 0,
        .find reply, .update reply, last].Sublist actions := by
  obtain ⟨beforeLast, last, afterLast, state, next, rfl, toLast, step,
    before, after, -⟩ := run.exists_change
      (fun state => state.worker call = .returned true)
      (by simp [State.initial]) success
  obtain ⟨returns, finished, succeeds⟩ := step.of_returned before after
  have zero : (state.context call).result = 0 := by
    simpa [Purpose.success, request] using succeeds
  -- the context was finished by an update with result 0
  obtain ⟨beforeUpdate, updates, afterUpdate, state, next, rfl, toUpdate, step,
    before, after, -⟩ := toLast.exists_change
      (fun state => (state.context call).finished = true ∧
        (state.context call).result = 0)
      (by simp [State.initial]) ⟨finished, zero⟩
  obtain ⟨reply, answers, rfl, found⟩ := step.of_finished before after
  -- the updating thread had found the call's entry
  obtain ⟨beforeFind, finds, afterFind, state, next, rfl, toFind, step, before,
    after, -⟩ := toUpdate.exists_change
      (fun state => state.replier reply = .found call answers 0)
      (by simp [State.initial]) found
  obtain ⟨rfl, arrived, present⟩ := step.of_found before after
  refine ⟨reply, answers, last, returns, ?_⟩
  have lookedUp {events : List Action}
      (sublist : events.Sublist beforeFind) :
      List.Sublist (events ++ [.find reply] ++ [.update reply] ++ [last])
        (beforeFind ++ .find reply :: afterFind ++ .update reply :: afterUpdate
          ++ last :: afterLast) :=
    concat_sublist (concat_sublist (concat_sublist sublist))
  obtain ⟨early, registers, _, _, _, rfl, -, step, before, after, -⟩ :=
    toFind.exists_change (fun state =>
      state.pendingRequests (calls answers).entry = some call)
      (by simp [State.initial]) present
  obtain ⟨rfl, sameEntry⟩ := step.of_pending before after
  refine ⟨sameEntry.symm, lookedUp (concat_sublist early.nil_sublist), ?_⟩
  obtain ⟨early, arrives, _, _, _, split, toArrive, step, before, after, -⟩ :=
    toFind.exists_change
      (fun state => state.replier reply = .arrived answers 0)
      (by simp [State.initial]) arrived
  obtain ⟨rfl, published⟩ := step.of_arrived before after
  rw [split] at lookedUp ⊢
  exact lookedUp (concat_sublist (sublist_of_published toArrive published))

/-- A call succeeds only on a reply with result 0 under its key that is looked
up after the call registered and before it returns.  The reply is to the call's
own message unless another message was published under the key. -/
theorem answered_itself_of_returned {jsonStr : String}
    (run : Run (Step calls) State.initial actions final)
    (request : (calls call).purpose = .sendRequestAndWait jsonStr)
    (success : final.worker call = .returned true) :
    ∃ reply answers last, last.Returns call ∧
      (calls answers).entry = (calls call).entry ∧
      [.register call, .find reply, .update reply, last].Sublist actions ∧
      [.register answers, .publish answers, .arrive reply answers 0,
        .find reply, .update reply, last].Sublist actions ∧
      ((∀ other ≠ call, (calls other).entry = (calls call).entry →
        .publish other ∉ actions) → answers = call) := by
  obtain ⟨reply, answers, last, returns, sameEntry, whileWaiting, sent⟩ :=
    answered_of_returned run request success
  refine ⟨reply, answers, last, returns, sameEntry, whileWaiting, sent, ?_⟩
  intro unshared
  by_contra different
  exact unshared answers different sameEntry (sent.subset (by simp))

/-- Take-off, return and further commands, each with a `tid` of its own. -/
def flightRequests (call : Nat) : Call :=
  FlytoController.sendRequest (fun _ => "\x7b\"tid\":\"8f2a\"\x7d")
    (if call = 0 then "8f2a" else "5c41") "1b7d" "return_home" ()

/-- Two flight commands wait at once.  The first one is answered, and the second
one times out in between. -/
def flightActions : List Action :=
  [.register 0, .register 1, .publish 1, .publish 0, .lockContext 1,
    .lockContext 0, .arrive 0 0 0, .find 0, .update 0, .wake 1 true,
    .cleanup 1, .wake 0 false]

/-- A flight command succeeds on the reply to its own message. -/
theorem answered_itself_of_flight :
    ∃ reply answers last, last.Returns 0 ∧
      (flightRequests answers).entry = (flightRequests 0).entry ∧
      [.register 0, .find reply, .update reply, last].Sublist flightActions ∧
      [.register answers, .publish answers, .arrive reply answers 0,
        .find reply, .update reply, last].Sublist flightActions ∧
      ((∀ other ≠ 0,
        (flightRequests other).entry = (flightRequests 0).entry →
          .publish other ∉ flightActions) → answers = 0) :=
  answered_itself_of_returned (Run.iff_foldlM.mpr rfl) rfl rfl

/-- The reply to a zoom command that timed out comes while the next one waits,
which returns success without a reply to its own message. -/
theorem not_answered_itself :
    ¬∀ calls actions final call jsonStr,
      Run (Step calls) State.initial actions final →
      (calls call).purpose = .sendRequestAndWait jsonStr →
      final.worker call = .returned true →
        ∃ reply, .arrive reply call 0 ∈ actions := by
  intro answered
  obtain ⟨reply, arrives⟩ := answered (fun _ => zoomRequest)
    [.register 0, .publish 0, .lockContext 0, .wake 0 true, .cleanup 0,
      .register 1, .publish 1, .lockContext 1, .arrive 0 0 0, .find 0,
      .update 0, .wake 1 false] _ 1 _ (Run.iff_foldlM.mpr rfl) rfl rfl
  simp at arrives

end Requests
end Pilot2Cloud
