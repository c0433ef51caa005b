import Pilot2Cloud.Foundation.Transitions
import Pilot2Cloud.Timers.TimerService

/-!
# Abstract timers

A timer counts ticks down.  At its last one its timeout is offered to the
receiver, and again at every tick until it is accepted.  Then a one-shot timer
has ended, and a cyclic one counts down again.
-/

namespace Pilot2Cloud
namespace Timers

open Foundation

/-- The state of the timer with one number. -/
inductive AbstractTimer
  | absent
  | waiting (timer : Started) (remaining : Nat)
  | ended
  deriving DecidableEq

/-- The ticks from the start of a timer to its timeout: those of its duration,
and one more for a one-shot timer. -/
def ticksOf (timer : Started) : Nat :=
  if timer.cyclic then timer.duration.toNat else timer.duration.toNat + 1

/-- The timeouts of one timer. -/
def timeoutsOf (serial : Nat) (timeouts : List (Nat × Timeout)) :
    List Timeout :=
  (timeouts.filter fun timeout => timeout.1 = serial).map Prod.snd

section Timeouts

variable {serial : Nat} {serialOf : Nat → Nat} {timeout : Nat → Timeout}
  {due : List Nat}

theorem timeoutsOf_map :
    timeoutsOf serial (due.map fun unit => (serialOf unit, timeout unit)) =
      (due.filter fun unit => serialOf unit = serial).map timeout := by
  rw [timeoutsOf, List.filter_map, List.map_map]
  rfl

/-- A unit that is due alone has the timeouts of its serial number. -/
theorem timeoutsOf_eq_singleton
    {unit : Nat} (distinct : due.Nodup) (member : unit ∈ due)
    (alone : ∀ other ∈ due, serialOf other = serialOf unit → other = unit) :
    timeoutsOf (serialOf unit)
        (due.map fun unit => (serialOf unit, timeout unit)) =
      [timeout unit] := by
  have only : (due.filter fun other => serialOf other = serialOf unit) =
      [unit] := by
    refine List.perm_singleton.mp ?_
    refine (List.perm_ext_iff_of_nodup (distinct.filter _)
      (List.nodup_singleton unit)).mpr fun other => ?_
    rw [List.mem_filter, List.mem_singleton, decide_eq_true_iff]
    constructor
    · rintro ⟨isDue, same⟩
      exact alone other isDue same
    · rintro rfl
      exact ⟨member, rfl⟩
  rw [timeoutsOf_map, only, List.map_singleton]

theorem timeoutsOf_eq_nil
    (none : ∀ unit ∈ due, serialOf unit ≠ serial) :
    timeoutsOf serial (due.map fun unit => (serialOf unit, timeout unit)) =
      [] := by
  rw [timeoutsOf_map, List.map_eq_nil_iff, List.filter_eq_nil_iff]
  intro unit member
  rw [decide_eq_true_iff]
  exact none unit member

end Timeouts

namespace AbstractTimer

section Steps

variable (ticks : Started → Nat)

/-- A tick at which a timer is offered its timeouts.  Only a timer at its last
tick is, once, and it is offered its own. -/
def tick : AbstractTimer → List Timeout → Option AbstractTimer
  | .waiting timer remaining, [] =>
      if 1 < remaining then some (.waiting timer (remaining - 1)) else none
  | .waiting timer remaining, [timeout] =>
      if remaining = 1 ∧ timeout.moduleId = timer.moduleId ∧
          timeout.message = timer.message then
        if timeout.sent = false then
          some (.waiting timer 1)
        else if timer.cyclic then
          some (.waiting timer (ticks timer))
        else
          some .ended
      else
        none
  | .waiting _ _, _ :: _ :: _ => none
  | .absent, timeouts => if timeouts = [] then some .absent else none
  | .ended, timeouts => if timeouts = [] then some .ended else none

/-- A timer that is absent can be started. -/
def start : AbstractTimer → Started → Option AbstractTimer
  | .absent, timer => some (.waiting timer (ticks timer))
  | .waiting _ _, _ => none
  | .ended, _ => none

/-- A timer that waits can be stopped. -/
def stop : AbstractTimer → Option AbstractTimer
  | .absent => none
  | .waiting _ _ => some .ended
  | .ended => none

/-- A timer that waits can be restarted with its time. -/
def restart : AbstractTimer → Option AbstractTimer
  | .absent => none
  | .waiting timer _ => some (.waiting timer (ticks timer))
  | .ended => none

/-- What an event means for the timer with one number, if the timer allows
it. -/
def observe (serial : Nat) (state : AbstractTimer) :
    Event → Option AbstractTimer
  | .started other timer =>
      if other = serial then state.start ticks timer else some state
  | .stopped other => if other = serial then state.stop else some state
  | .restarted other =>
      if other = serial then state.restart ticks else some state
  | .refused => some state
  | .ticked timeouts => state.tick ticks (timeoutsOf serial timeouts)

/-- Events that the timer with one number allows one after the other. -/
def Allows (serial : Nat) (events : List Event) (state : AbstractTimer) :
    Prop :=
  Run (fun before event after => before.observe ticks serial event = some after)
    .absent events state

theorem allows_nil {serial : Nat} : Allows ticks serial [] .absent :=
  Run.nil _

end Steps

section Reading

variable {ticks : Started → Nat} {serial remaining : Nat} {timer : Started}
  {state next : AbstractTimer}

/-- A timer that waits is silent before its last tick. -/
theorem tick_of_lt
    {timeouts : List Timeout} (early : 1 < remaining)
    (ticked : (waiting timer remaining).tick ticks timeouts = some next) :
    timeouts = [] ∧ next = .waiting timer (remaining - 1) := by
  match timeouts with
  | [] =>
      rw [tick, if_pos early] at ticked
      exact ⟨rfl, (Option.some_inj.mp ticked).symm⟩
  | [timeout] =>
      rw [tick, if_neg fun last => Nat.ne_of_gt early last.1] at ticked
      contradiction
  | _ :: _ :: _ => contradiction

/-- Before as many ticks as a timer waits for have passed, it is silent. -/
theorem silent_before
    {clock : List (List (Nat × Timeout))} (early : clock.length < remaining)
    (run : Run (fun before event after =>
      before.observe ticks serial event = some after)
      (.waiting timer remaining) (clock.map .ticked) state) :
    state = .waiting timer (remaining - clock.length) ∧
      ∀ timeouts ∈ clock, timeoutsOf serial timeouts = [] := by
  induction clock generalizing remaining with
  | nil =>
      cases run
      exact ⟨rfl, nofun⟩
  | cons timeouts clock inductionHypothesis =>
      rw [List.length_cons] at early
      obtain _ | ⟨ticked, rest⟩ := run
      obtain ⟨silent, rfl⟩ := tick_of_lt (by omega) ticked
      obtain ⟨rfl, later⟩ := inductionHypothesis (by omega) rest
      refine ⟨?_, List.forall_mem_cons.mpr ⟨silent, later⟩⟩
      rw [List.length_cons, Nat.sub_add_eq, Nat.sub_right_comm]

/-- At its last tick a timer is offered its timeout.  It has then ended, or
counts down again, or is offered the timeout at the next tick again. -/
theorem offered_at
    {timeouts : List Timeout}
    (ticked : (waiting timer 1).tick ticks timeouts = some next) :
    ∃ sent, timeouts = [⟨timer.moduleId, timer.message, sent⟩] ∧
      next =
        if sent = false then .waiting timer 1
        else if timer.cyclic then .waiting timer (ticks timer)
        else .ended := by
  match timeouts with
  | [] => contradiction
  | [timeout] =>
      rw [tick] at ticked
      by_cases own : 1 = 1 ∧ timeout.moduleId = timer.moduleId ∧
          timeout.message = timer.message
      · rw [if_pos own] at ticked
        refine ⟨timeout.sent, by rw [← own.2.1, ← own.2.2], ?_⟩
        split_ifs at ticked ⊢ <;> exact (Option.some_inj.mp ticked).symm
      · rw [if_neg own] at ticked
        contradiction
  | _ :: _ :: _ => contradiction

/-- A timer that has ended stays so. -/
theorem ended_of_observe
    {event : Event} (observed : ended.observe ticks serial event = some next) :
    next = .ended ∧ ∀ timeouts, event = .ticked timeouts →
      timeoutsOf serial timeouts = [] := by
  cases event with
  | started other timer =>
      simp only [observe, start] at observed
      split_ifs at observed
      exact ⟨(Option.some_inj.mp observed).symm, nofun⟩
  | stopped other =>
      simp only [observe, stop] at observed
      split_ifs at observed
      exact ⟨(Option.some_inj.mp observed).symm, nofun⟩
  | restarted other =>
      simp only [observe, restart] at observed
      split_ifs at observed
      exact ⟨(Option.some_inj.mp observed).symm, nofun⟩
  | refused => exact ⟨(Option.some_inj.mp observed).symm, nofun⟩
  | ticked timeouts =>
      simp only [observe, tick] at observed
      split_ifs at observed with silent
      refine ⟨(Option.some_inj.mp observed).symm, ?_⟩
      rintro _ ⟨⟩
      exact silent

/-- No timeout of a timer that has ended is ever offered. -/
theorem silent_after
    {events : List Event}
    (run : Run (fun before event after =>
      before.observe ticks serial event = some after) .ended events state) :
    state = .ended ∧ ∀ timeouts, .ticked timeouts ∈ events →
      timeoutsOf serial timeouts = [] := by
  induction events with
  | nil =>
      cases run
      exact ⟨rfl, nofun⟩
  | cons event events inductionHypothesis =>
      obtain _ | ⟨observed, rest⟩ := run
      obtain ⟨rfl, silent⟩ := ended_of_observe observed
      obtain ⟨final, later⟩ := inductionHypothesis rest
      refine ⟨final, fun timeouts member => ?_⟩
      rcases List.mem_cons.mp member with same | inRest
      · exact silent timeouts same.symm
      · exact later timeouts inRest

/-- A timer that is started is silent before the last of its ticks, and then it
is offered its timeout. -/
theorem offered_of_allows {events : List Event}
    {clock : List (List (Nat × Timeout))} {timeouts : List (Nat × Timeout)}
    (allowed : Allows ticks serial (events ++ .started serial timer ::
      (clock.map .ticked ++ [.ticked timeouts])) state)
    (onTime : clock.length + 1 = ticks timer) :
    (∀ earlier ∈ clock, timeoutsOf serial earlier = []) ∧
      ∃ sent, timeoutsOf serial timeouts =
        [⟨timer.moduleId, timer.message, sent⟩] := by
  obtain ⟨before, -, run⟩ := Run.append_iff.mp allowed
  obtain _ | ⟨started, run⟩ := run
  obtain ⟨middle, counted, run⟩ := Run.append_iff.mp run
  obtain _ | ⟨ticked, -⟩ := run
  rw [observe, if_pos rfl] at started
  cases before with
  | absent =>
      obtain rfl := Option.some_inj.mp started
      obtain ⟨rfl, silent⟩ := silent_before (by omega) counted
      rw [← onTime, Nat.add_sub_cancel_left] at ticked
      obtain ⟨sent, isOffered, -⟩ := offered_at ticked
      exact ⟨silent, sent, isOffered⟩
  | waiting _ _ | ended => cases started

/-- A timer that was stopped is never offered its timeout. -/
theorem silent_of_stopped {early late : List Event}
    (allowed : Allows ticks serial (early ++ .stopped serial :: late) state)
    (timeouts : List (Nat × Timeout)) (isLater : .ticked timeouts ∈ late) :
    timeoutsOf serial timeouts = [] := by
  obtain ⟨before, -, run⟩ := Run.append_iff.mp allowed
  obtain _ | ⟨stopped, rest⟩ := run
  rw [observe, if_pos rfl] at stopped
  cases before with
  | waiting _ _ =>
      obtain rfl := Option.some_inj.mp stopped
      exact (silent_after rest).2 timeouts isLater
  | absent | ended => cases stopped

end Reading

end AbstractTimer
end Timers
end Pilot2Cloud
