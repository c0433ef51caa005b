import Mathlib.Data.List.Count
import Mathlib.Logic.Function.Basic
import Pilot2Cloud.Foundation.Transitions

/-!
# The monitor of the threads

The thread of a module counts once before and once after it handles a message.
A check looks at the counters of all modules one after another: it ends the
process when a counter is odd and still the one that the last check recorded,
and records all counters otherwise.  The threads go on while it looks.
-/

namespace Pilot2Cloud
namespace Platform

open Foundation

/-- `THREAD_MON_S`, without the addresses of the stack and of the log. -/
structure ThreadMon where
  ulCurMsgCnt : UInt32
  ulLastMsgCnt : UInt32
  ulMsgSrc : UInt32
  ulMsgId : UInt32
  ulMsgDst : UInt32
  ulMonFlag : Bool

namespace ThreadMon

/-- `pf_thread_mon_init`, with the flag that it leaves. -/
def init (ulMonFlag : Bool) : ThreadMon where
  ulCurMsgCnt := 0
  ulLastMsgCnt := 0
  ulMsgSrc := 0
  ulMsgId := 0
  ulMsgDst := 0
  ulMonFlag := ulMonFlag

/-- `pf_thread_mon_update`. -/
def update (mon : ThreadMon) (src msgID dst : UInt32) : ThreadMon :=
  { mon with
    ulCurMsgCnt := mon.ulCurMsgCnt + 1
    ulMsgSrc := src
    ulMsgId := msgID
    ulMsgDst := dst }

/-- `pf_thread_mon_update_count`. -/
def updateCount (mon : ThreadMon) : ThreadMon :=
  { mon with ulCurMsgCnt := mon.ulCurMsgCnt + 1 }

/-- `pf_thread_mon_start` and `pf_thread_mon_stop`. -/
def setFlag (mon : ThreadMon) (ulMonFlag : Bool) : ThreadMon :=
  { mon with ulMonFlag := ulMonFlag }

/-- The assignment in the last loop of `pf_thread_mon_check`. -/
def record (mon : ThreadMon) : ThreadMon :=
  { mon with ulLastMsgCnt := mon.ulCurMsgCnt }

/-- The counter is odd. -/
def IsOdd (mon : ThreadMon) : Prop :=
  mon.ulCurMsgCnt &&& 1 ≠ 0

instance (mon : ThreadMon) : Decidable mon.IsOdd :=
  inferInstanceAs (Decidable (_ ≠ _))

end ThreadMon

/-- How far `pf_thread_mon_check` has come: what it looks at next. -/
inductive CheckPoint
  | idle
  | flag (mid : Nat)
  | parity (mid : Nat)
  | equality (mid : Nat)
  | recording (mid : Nat)
  | exited
  deriving DecidableEq

/-- `gThreadMon` and `gulThreadMonSuccFlag`, with what the threads do: a thread
is in the handler of its module or waits for a message. -/
structure Watchdog where
  gThreadMon : Nat → ThreadMon
  isHandling : Nat → Bool
  point : CheckPoint
  gulThreadMonSuccFlag : Bool

/-- What happens next, in a thread or in the check. -/
inductive WatchdogEvent
  | update (mid : Nat) (src msgID dst : UInt32)
  | updateCount (mid : Nat)
  | setFlag (mid : Nat) (ulMonFlag : Bool)
  /-- `pf_thread_mon_check` is called. -/
  | check
  | notMonitored (mid : Nat)
  | monitored (mid : Nat)
  | even (mid : Nat)
  | odd (mid : Nat)
  | moved (mid : Nat)
  /-- `pl_thread_mon_abnormal_dump`. -/
  | abnormal (mid : Nat)
  /-- All modules were looked at. -/
  | leaveLoop
  | record (mid : Nat)
  | finish
  deriving DecidableEq

namespace Watchdog

open WatchdogEvent

/-- Before any thread has a message, with the flags of the modules. -/
def initial (flags : Nat → Bool) : Watchdog where
  gThreadMon := fun mid => .init (flags mid)
  isHandling := fun _ => false
  point := .idle
  gulThreadMonSuccFlag := true

/-- The watchdog with other counters for a module. -/
def withMon (watchdog : Watchdog) (mid : Nat) (mon : ThreadMon) : Watchdog :=
  { watchdog with
    gThreadMon := Function.update watchdog.gThreadMon mid mon }

/-- The watchdog with another flag for a module. -/
def withHandling (watchdog : Watchdog) (mid : Nat) (isHandling : Bool) :
    Watchdog :=
  { watchdog with
    isHandling := Function.update watchdog.isHandling mid isHandling }

/-- The watchdog at another place of its loop. -/
def goTo (watchdog : Watchdog) (point : CheckPoint) : Watchdog :=
  { watchdog with point := point }

/-- One access of a thread or of the check to the counters, if it can be next.
A thread that waits in `msg_entry` gets a message; a thread that handles one
comes to the end of its handler. -/
def next (moduleTaskMax : Nat) (watchdog : Watchdog) :
    WatchdogEvent → Option Watchdog
  | .update mid src msgID dst =>
      if watchdog.point ≠ .exited ∧ mid < moduleTaskMax ∧
          watchdog.isHandling mid = false then
        some ((watchdog.withMon mid
          ((watchdog.gThreadMon mid).update src msgID dst)).withHandling mid
            true)
      else none
  | .updateCount mid =>
      if watchdog.point ≠ .exited ∧ watchdog.isHandling mid = true then
        some ((watchdog.withMon mid
          (watchdog.gThreadMon mid).updateCount).withHandling mid false)
      else none
  | .setFlag mid ulMonFlag =>
      if watchdog.point ≠ .exited ∧ mid < moduleTaskMax then
        some (watchdog.withMon mid
          ((watchdog.gThreadMon mid).setFlag ulMonFlag))
      else none
  | .check =>
      if watchdog.point = .idle then some (watchdog.goTo (.flag 0)) else none
  | .notMonitored mid =>
      if watchdog.point = .flag mid ∧ mid < moduleTaskMax ∧
          (watchdog.gThreadMon mid).ulMonFlag = false then
        some (watchdog.goTo (.flag (mid + 1)))
      else none
  | .monitored mid =>
      if watchdog.point = .flag mid ∧ mid < moduleTaskMax ∧
          (watchdog.gThreadMon mid).ulMonFlag = true then
        some (watchdog.goTo (.parity mid))
      else none
  | .even mid =>
      if watchdog.point = .parity mid ∧ ¬(watchdog.gThreadMon mid).IsOdd then
        some (watchdog.goTo (.flag (mid + 1)))
      else none
  | .odd mid =>
      if watchdog.point = .parity mid ∧ (watchdog.gThreadMon mid).IsOdd then
        some (watchdog.goTo (.equality mid))
      else none
  | .moved mid =>
      if watchdog.point = .equality mid ∧
          (watchdog.gThreadMon mid).ulLastMsgCnt ≠
            (watchdog.gThreadMon mid).ulCurMsgCnt then
        some (watchdog.goTo (.flag (mid + 1)))
      else none
  | .abnormal mid =>
      if watchdog.point = .equality mid ∧
          (watchdog.gThreadMon mid).ulLastMsgCnt =
            (watchdog.gThreadMon mid).ulCurMsgCnt then
        some { watchdog with
          point := .flag (mid + 1)
          gulThreadMonSuccFlag := false }
      else none
  | .leaveLoop =>
      if watchdog.point = .flag moduleTaskMax then
        some (watchdog.goTo
          (if watchdog.gulThreadMonSuccFlag then .recording 0 else .exited))
      else none
  | .record mid =>
      if watchdog.point = .recording mid ∧ mid < moduleTaskMax then
        some ((watchdog.withMon mid
          (watchdog.gThreadMon mid).record).goTo (.recording (mid + 1)))
      else none
  | .finish =>
      if watchdog.point = .recording moduleTaskMax then
        some (watchdog.goTo .idle)
      else none

/-- One event leads to a state. -/
def Step (moduleTaskMax : Nat) (watchdog : Watchdog) (event : WatchdogEvent)
    (after : Watchdog) : Prop :=
  watchdog.next moduleTaskMax event = some after

/-! ## What a step does to one thread -/

/-- The thread of a module begins to handle a message. -/
def IsUpdate (mid : Nat) : WatchdogEvent → Bool
  | .update other _ _ _ => other == mid
  | _ => false

/-- The thread of a module has handled a message. -/
def IsUpdateCount (mid : Nat) : WatchdogEvent → Bool
  | .updateCount other => other == mid
  | _ => false

/-- The thread of a module counts. -/
def Counts (mid : Nat) (event : WatchdogEvent) : Bool :=
  IsUpdate mid event || IsUpdateCount mid event

variable {moduleTaskMax mid : Nat} {watchdog after : Watchdog}
  {event : WatchdogEvent}

/-- What an event does to the counter and to the thread of a module. -/
structure Moves (mid : Nat) (watchdog : Watchdog) (event : WatchdogEvent)
    (after : Watchdog) : Prop where
  counter : (after.gThreadMon mid).ulCurMsgCnt =
    (watchdog.gThreadMon mid).ulCurMsgCnt +
      if Counts mid event then 1 else 0
  recorded : (after.gThreadMon mid).ulLastMsgCnt =
    if event = .record mid then (watchdog.gThreadMon mid).ulCurMsgCnt
    else (watchdog.gThreadMon mid).ulLastMsgCnt
  handling : after.isHandling mid =
    (IsUpdate mid event ||
      (watchdog.isHandling mid && !IsUpdateCount mid event))
  waited : IsUpdate mid event → watchdog.isHandling mid = false
  handled : IsUpdateCount mid event → watchdog.isHandling mid = true

theorem Step.moves (step : Step moduleTaskMax watchdog event after)
    (mid : Nat) : Moves mid watchdog event after := by
  unfold Step at step
  cases event with
  | update other src msgID dst =>
      simp only [next, Option.ite_none_right_eq_some, Option.some_inj] at step
      obtain ⟨⟨-, -, waits⟩, rfl⟩ := step
      by_cases same : other = mid
      · subst same
        constructor <;>
          simp [Counts, IsUpdate, IsUpdateCount, withMon, withHandling,
            ThreadMon.update, waits]
      · have other := Ne.symm same
        constructor <;>
          simp [Counts, IsUpdate, IsUpdateCount, withMon, withHandling, same,
            other]
  | updateCount other =>
      simp only [next, Option.ite_none_right_eq_some, Option.some_inj] at step
      obtain ⟨⟨-, handles⟩, rfl⟩ := step
      by_cases same : other = mid
      · subst same
        constructor <;>
          simp [Counts, IsUpdate, IsUpdateCount, withMon, withHandling,
            ThreadMon.updateCount, handles]
      · have other := Ne.symm same
        constructor <;>
          simp [Counts, IsUpdate, IsUpdateCount, withMon, withHandling, same,
            other]
  | setFlag other ulMonFlag =>
      simp only [next, Option.ite_none_right_eq_some, Option.some_inj] at step
      obtain ⟨-, rfl⟩ := step
      by_cases same : other = mid
      · subst same
        constructor <;>
          simp [Counts, IsUpdate, IsUpdateCount, withMon, ThreadMon.setFlag]
      · have other := Ne.symm same
        constructor <;>
          simp [Counts, IsUpdate, IsUpdateCount, withMon, other]
  | record other =>
      simp only [next, Option.ite_none_right_eq_some, Option.some_inj] at step
      obtain ⟨-, rfl⟩ := step
      by_cases same : other = mid
      · subst same
        constructor <;>
          simp [Counts, IsUpdate, IsUpdateCount, withMon, goTo,
            ThreadMon.record]
      · have other := Ne.symm same
        constructor <;>
          simp [Counts, IsUpdate, IsUpdateCount, withMon, goTo, same, other]
  | check | notMonitored other | monitored other | even other | odd other
  | moved other | abnormal other | leaveLoop | finish =>
      simp only [next, Option.ite_none_right_eq_some, Option.some_inj] at step
      obtain ⟨-, rfl⟩ := step
      constructor <;> simp [Counts, IsUpdate, IsUpdateCount, goTo]

/-! ## How far a step takes the check -/

/-- The event is not one of the check. -/
def IsThread : WatchdogEvent → Bool
  | .update _ _ _ _ | .updateCount _ | .setFlag _ _ => true
  | _ => false

/-- What an event does to the check, with what the check has seen. -/
inductive Scans (moduleTaskMax : Nat) (watchdog : Watchdog) :
    WatchdogEvent → CheckPoint → Bool → Prop
  | thread {event : WatchdogEvent} (running : watchdog.point ≠ .exited)
      (isThread : IsThread event) :
      Scans moduleTaskMax watchdog event watchdog.point
        watchdog.gulThreadMonSuccFlag
  | check (isIdle : watchdog.point = .idle) :
      Scans moduleTaskMax watchdog .check (.flag 0)
        watchdog.gulThreadMonSuccFlag
  | notMonitored {mid : Nat} (here : watchdog.point = .flag mid)
      (inRange : mid < moduleTaskMax) :
      Scans moduleTaskMax watchdog (.notMonitored mid) (.flag (mid + 1))
        watchdog.gulThreadMonSuccFlag
  | monitored {mid : Nat} (here : watchdog.point = .flag mid)
      (inRange : mid < moduleTaskMax) :
      Scans moduleTaskMax watchdog (.monitored mid) (.parity mid)
        watchdog.gulThreadMonSuccFlag
  | even {mid : Nat} (here : watchdog.point = .parity mid)
      (isEven : ¬(watchdog.gThreadMon mid).IsOdd) :
      Scans moduleTaskMax watchdog (.even mid) (.flag (mid + 1))
        watchdog.gulThreadMonSuccFlag
  | odd {mid : Nat} (here : watchdog.point = .parity mid)
      (isOdd : (watchdog.gThreadMon mid).IsOdd) :
      Scans moduleTaskMax watchdog (.odd mid) (.equality mid)
        watchdog.gulThreadMonSuccFlag
  | moved {mid : Nat} (here : watchdog.point = .equality mid)
      (differs : (watchdog.gThreadMon mid).ulLastMsgCnt ≠
        (watchdog.gThreadMon mid).ulCurMsgCnt) :
      Scans moduleTaskMax watchdog (.moved mid) (.flag (mid + 1))
        watchdog.gulThreadMonSuccFlag
  | abnormal {mid : Nat} (here : watchdog.point = .equality mid)
      (same : (watchdog.gThreadMon mid).ulLastMsgCnt =
        (watchdog.gThreadMon mid).ulCurMsgCnt) :
      Scans moduleTaskMax watchdog (.abnormal mid) (.flag (mid + 1)) false
  | leaveLoop (here : watchdog.point = .flag moduleTaskMax) :
      Scans moduleTaskMax watchdog .leaveLoop
        (if watchdog.gulThreadMonSuccFlag then .recording 0 else .exited)
        watchdog.gulThreadMonSuccFlag
  | record {mid : Nat} (here : watchdog.point = .recording mid)
      (inRange : mid < moduleTaskMax) :
      Scans moduleTaskMax watchdog (.record mid) (.recording (mid + 1))
        watchdog.gulThreadMonSuccFlag
  | finish (here : watchdog.point = .recording moduleTaskMax) :
      Scans moduleTaskMax watchdog .finish .idle
        watchdog.gulThreadMonSuccFlag

theorem Step.scans (step : Step moduleTaskMax watchdog event after) :
    Scans moduleTaskMax watchdog event after.point
      after.gulThreadMonSuccFlag := by
  unfold Step at step
  cases event <;>
    simp only [next, Option.ite_none_right_eq_some, Option.some_inj] at step <;>
    obtain ⟨guard, rfl⟩ := step
  case update => exact .thread guard.1 rfl
  case updateCount => exact .thread guard.1 rfl
  case setFlag => exact .thread guard.1 rfl
  case check => exact .check guard
  case notMonitored => exact .notMonitored guard.1 guard.2.1
  case monitored => exact .monitored guard.1 guard.2.1
  case even => exact .even guard.1 guard.2
  case odd => exact .odd guard.1 guard.2
  case moved => exact .moved guard.1 guard.2
  case abnormal => exact .abnormal guard.1 guard.2
  case leaveLoop => exact .leaveLoop guard
  case record => exact .record guard.1 guard.2
  case finish => exact .finish guard

end Watchdog
end Platform
end Pilot2Cloud
