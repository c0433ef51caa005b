import Mathlib.Algebra.Ring.Parity
import Pilot2Cloud.Platform.ThreadMon

/-!
# The monitor reports the stuck threads

A counter is odd exactly while its thread handles a message.  A check therefore
reports a module exactly when its thread is still in the handler that it was in
when the last check recorded the counter, as long as no thread counts 2 ^ 32
times between two records.
-/

namespace Pilot2Cloud
namespace Platform
namespace Watchdog

open Foundation WatchdogEvent

variable {moduleTaskMax mid : Nat} {flags : Nat → Bool}
  {watchdog after : Watchdog} {event : WatchdogEvent}
  {events : List WatchdogEvent}

/-! ## The counter of one thread -/

/-- How often the thread of a module counted. -/
def steps (mid : Nat) (events : List WatchdogEvent) : Nat :=
  events.countP (Counts mid)

@[simp]
theorem steps_nil : steps mid [] = 0 :=
  rfl

@[simp]
theorem steps_append (early late : List WatchdogEvent) :
    steps mid (early ++ late) = steps mid early + steps mid late :=
  List.countP_append

theorem steps_singleton :
    steps mid [event] = if Counts mid event then 1 else 0 :=
  List.countP_singleton

@[simp] theorem steps_record : steps mid [.record mid] = 0 :=
  rfl

theorem steps_eq_zero (idle : steps mid events = 0) :
    ∀ event ∈ events, ¬IsUpdateCount mid event := by
  intro event isEvent counted
  have apart := List.countP_eq_zero.mp idle event isEvent
  apply apart
  rw [Counts, counted, Bool.or_true]

/-- The counter is odd after an odd number of steps, even if it wrapped. -/
theorem isOdd_iff {mon : ThreadMon} {count : Nat}
    (counter : mon.ulCurMsgCnt = UInt32.ofNat count) :
    mon.IsOdd ↔ Odd count := by
  unfold ThreadMon.IsOdd
  rw [counter, ne_eq, ← UInt32.toNat_inj, UInt32.toNat_and,
    UInt32.toNat_ofNat', UInt32.toNat_one, UInt32.toNat_zero,
    Nat.and_one_is_mod, Nat.odd_iff]
  omega

/-- The counter comes to the same value again after 2 ^ 32 steps only. -/
theorem ofNat_add_eq_iff {count more : Nat} (few : more < 2 ^ 32) :
    UInt32.ofNat count = UInt32.ofNat (count + more) ↔ more = 0 := by
  rw [← UInt32.toNat_inj, UInt32.toNat_ofNat', UInt32.toNat_ofNat']
  omega

/-- What a run says about one thread.  The recorded counter is that of the last
record, or of the start, and when the equality is looked at the counter was odd
after that. -/
structure Tracked (mid : Nat) (events : List WatchdogEvent)
    (watchdog : Watchdog) : Prop where
  counter : (watchdog.gThreadMon mid).ulCurMsgCnt =
    UInt32.ofNat (steps mid events)
  handling : watchdog.isHandling mid = true ↔ Odd (steps mid events)
  recorded : ∃ early late, events = early ++ late ∧ .record mid ∉ late ∧
    (watchdog.gThreadMon mid).ulLastMsgCnt = UInt32.ofNat (steps mid early) ∧
    (early = [] ∨ ∃ front, early = front ++ [.record mid])
  seenOdd : watchdog.point = .equality mid →
    ∃ early late, events = early ++ late ∧ .record mid ∉ late ∧
      Odd (steps mid early)

/-- The check comes to the equality from the parity, and stays there while the
threads run. -/
theorem Scans.of_equality {point : CheckPoint} {flag : Bool}
    (scans : Scans moduleTaskMax watchdog event point flag)
    (here : point = .equality mid) :
    (watchdog.point = .equality mid ∧ event ≠ .record mid) ∨
      (event = .odd mid ∧ (watchdog.gThreadMon mid).IsOdd) := by
  cases scans with
  | thread _ isThread =>
      refine .inl ⟨here, ?_⟩
      rintro rfl
      contradiction
  | odd _ isOdd =>
      obtain rfl := CheckPoint.equality.inj here
      exact .inr ⟨rfl, isOdd⟩
  | leaveLoop =>
      split at here <;> contradiction
  | _ => contradiction

theorem Tracked.initial : Tracked mid [] (.initial flags) where
  counter := rfl
  handling := by simp [Watchdog.initial]
  recorded := ⟨[], [], rfl, List.not_mem_nil, rfl, .inl rfl⟩
  seenOdd := by simp [Watchdog.initial]

theorem Tracked.step (tracked : Tracked mid events watchdog)
    (step : Step moduleTaskMax watchdog event after) :
    Tracked mid (events ++ [event]) after := by
  have moves := step.moves mid
  refine ⟨?_, ?_, ?_, ?_⟩
  · rw [moves.counter, tracked.counter, steps_append, steps_singleton]
    split
    · exact (UInt32.ofNat_add _ 1).symm
    · exact UInt32.add_zero _
  · rw [moves.handling, steps_append, steps_singleton, Counts]
    have waited := moves.waited
    have handled := moves.handled
    have parity := tracked.handling
    cases began : IsUpdate mid event <;>
      cases ended : IsUpdateCount mid event <;>
      simp_all [Nat.odd_add_one]
  · by_cases isRecord : event = .record mid
    · refine ⟨events ++ [event], [], (List.append_nil _).symm,
        List.not_mem_nil, ?_, .inr ⟨events, by rw [isRecord]⟩⟩
      rw [moves.recorded, if_pos isRecord, tracked.counter, steps_append,
        isRecord, steps_record, Nat.add_zero]
    · obtain ⟨early, late, rfl, unrecorded, last, start⟩ := tracked.recorded
      refine ⟨early, late ++ [event], List.append_assoc _ _ _, ?_, ?_, start⟩
      · rw [List.mem_append, List.mem_singleton]
        exact not_or.mpr ⟨unrecorded, Ne.symm isRecord⟩
      · rw [moves.recorded, if_neg isRecord, last]
  · intro here
    obtain ⟨already, notRecord⟩ | ⟨rfl, isOdd⟩ := step.scans.of_equality here
    · obtain ⟨early, late, rfl, unrecorded, seen⟩ := tracked.seenOdd already
      refine ⟨early, late ++ [event], List.append_assoc _ _ _, ?_, seen⟩
      rw [List.mem_append, List.mem_singleton]
      exact not_or.mpr ⟨unrecorded, Ne.symm notRecord⟩
    · refine ⟨events, [.odd mid], rfl, by simp, ?_⟩
      exact (isOdd_iff tracked.counter).mp isOdd

theorem tracked_of_run
    (run : Run (Step moduleTaskMax) (initial flags) events watchdog)
    (mid : Nat) : Tracked mid events watchdog :=
  run.history (fun _ _ _ _ _ tracked step => tracked.step step) .initial

/-! ## One and the same handler -/

/-- A thread that does not leave its handler does not count, and the recorded
counter is only changed by a record. -/
theorem still (run : Run (Step moduleTaskMax) watchdog events after)
    (handles : watchdog.isHandling mid = true)
    (stays : ∀ event ∈ events, ¬IsUpdateCount mid event) :
    after.isHandling mid = true ∧
      (after.gThreadMon mid).ulCurMsgCnt =
        (watchdog.gThreadMon mid).ulCurMsgCnt ∧
      (.record mid ∉ events →
        (after.gThreadMon mid).ulLastMsgCnt =
          (watchdog.gThreadMon mid).ulLastMsgCnt) := by
  induction run with
  | nil => exact ⟨handles, rfl, fun _ => rfl⟩
  | @cons watchdog middle after event events first rest inductionHypothesis =>
      have moves := Step.moves first mid
      obtain ⟨here, later⟩ := List.forall_mem_cons.mp stays
      have notBegun : ¬IsUpdate mid event := by
        intro begins
        have waits := moves.waited begins
        rw [handles] at waits
        contradiction
      have notCounted : ¬Counts mid event := by
        rw [Counts, Bool.or_eq_true]
        exact not_or.mpr ⟨notBegun, here⟩
      have handling := moves.handling
      rw [handles, Bool.eq_false_iff.mpr here, Bool.not_false, Bool.and_true,
        Bool.or_true] at handling
      obtain ⟨handlesStill, same, unrecorded⟩ :=
        inductionHypothesis handling later
      refine ⟨handlesStill, ?_, ?_⟩
      · rw [same, moves.counter, if_neg notCounted, UInt32.add_zero]
      · intro notRecord
        rw [List.mem_cons, not_or] at notRecord
        obtain ⟨notHere, notLater⟩ := notRecord
        rw [unrecorded notLater, moves.recorded, if_neg (Ne.symm notHere)]

theorem Step.recorded
    (step : Step moduleTaskMax watchdog (.record mid) after) :
    after.isHandling mid = watchdog.isHandling mid ∧
      (after.gThreadMon mid).ulLastMsgCnt =
        (after.gThreadMon mid).ulCurMsgCnt := by
  have moves := step.moves mid
  constructor
  · simpa [IsUpdate, IsUpdateCount] using moves.handling
  · rw [moves.recorded, moves.counter, if_pos rfl]
    simp [Counts, IsUpdate, IsUpdateCount]

/-- The thread of a module has begun to handle a message and has not come to
the end of it. -/
def Inside (mid : Nat) (events : List WatchdogEvent) : Prop :=
  ∃ before begin middle, events = before ++ begin :: middle ∧
    IsUpdate mid begin ∧ ∀ event ∈ middle, ¬IsUpdateCount mid event

theorem inside_of_handling
    (run : Run (Step moduleTaskMax) (initial flags) events watchdog)
    (handles : watchdog.isHandling mid = true) : Inside mid events := by
  revert handles
  apply run.history
  · intro early middle label next _ inside step handles
    have moves := Step.moves step mid
    obtain begins | waits := Bool.eq_false_or_eq_true (IsUpdate mid label)
    · exact ⟨early, label, [], rfl, begins, by simp⟩
    · have handling := moves.handling.symm.trans handles
      rw [waits, Bool.false_or, Bool.and_eq_true] at handling
      obtain ⟨before, begin, rest, rfl, begins, stays⟩ := inside handling.1
      refine ⟨before, begin, rest ++ [label], by simp, begins, ?_⟩
      intro event isEvent
      rw [List.mem_append, List.mem_singleton] at isEvent
      obtain earlier | rfl := isEvent
      · exact stays event earlier
      · simpa using handling.2
  · simp [initial]

/-- Since the last record of its counter the thread of a module has been in one
and the same handler. -/
def StuckSince (mid : Nat) (events : List WatchdogEvent) : Prop :=
  ∃ before begin middle late,
    events = before ++ begin :: middle ++ .record mid :: late ∧
      IsUpdate mid begin ∧ .record mid ∉ late ∧
      ∀ event ∈ middle ++ late, ¬IsUpdateCount mid event

/-- Between two records of its counter no thread counts 2 ^ 32 times. -/
def Paced (mid : Nat) (events : List WatchdogEvent) : Prop :=
  ∀ early middle late, events = early ++ middle ++ late →
    .record mid ∉ middle → steps mid middle < 2 ^ 32

/-- The counter of a stuck thread is odd and the recorded one. -/
theorem StuckSince.counter (stuck : StuckSince mid events)
    (run : Run (Step moduleTaskMax) (initial flags) events watchdog) :
    (watchdog.gThreadMon mid).IsOdd ∧
      (watchdog.gThreadMon mid).ulLastMsgCnt =
        (watchdog.gThreadMon mid).ulCurMsgCnt := by
  have tracked := tracked_of_run run mid
  obtain ⟨before, begin, middle, late, rfl, begins, unrecorded, stays⟩ := stuck
  obtain ⟨atRecord, toRecord, _ | ⟨record, fromRecord⟩⟩ :=
    Run.append_iff.mp run
  obtain ⟨waiting, -, _ | ⟨first, within⟩⟩ := Run.append_iff.mp toRecord
  have begun := (Step.moves first mid).handling
  rw [begins, Bool.true_or] at begun
  obtain ⟨handlesThere, -, -⟩ := still within begun
    fun event isEvent => stays event (List.mem_append_left late isEvent)
  obtain ⟨handlesAfter, same⟩ := Step.recorded record
  rw [handlesThere] at handlesAfter
  obtain ⟨handles, counter, last⟩ := still fromRecord handlesAfter
    fun event isEvent => stays event (List.mem_append_right middle isEvent)
  refine ⟨(isOdd_iff tracked.counter).mpr (tracked.handling.mp handles), ?_⟩
  rw [last unrecorded, counter]
  exact same

/-- Where the counter was odd and is the recorded one, the thread is stuck, as
the counter did not come to the same value again. -/
theorem stuckSince_of_same (paced : Paced mid events)
    (run : Run (Step moduleTaskMax) (initial flags) events watchdog)
    (here : watchdog.point = .equality mid)
    (same : (watchdog.gThreadMon mid).ulLastMsgCnt =
      (watchdog.gThreadMon mid).ulCurMsgCnt) :
    StuckSince mid events := by
  have tracked := tracked_of_run run mid
  obtain ⟨front, back, split, unseen, seen⟩ := tracked.seenOdd here
  obtain ⟨early, late, rfl, unrecorded, last, start⟩ := tracked.recorded
  have few := paced early late [] (List.append_nil _).symm unrecorded
  have idle : steps mid late = 0 := by
    rw [last, tracked.counter, steps_append, ofNat_add_eq_iff few] at same
    exact same
  have wasOdd : Odd (steps mid early) := by
    obtain ⟨between, rfl, rfl⟩ | ⟨between, rfl, rfl⟩ :=
      List.append_eq_append_iff.mp split
    · rw [steps_append] at idle seen
      rwa [Nat.eq_zero_of_add_eq_zero_right idle, Nat.add_zero] at seen
    · -- nothing was recorded after the counter was seen to be odd
      obtain rfl | ⟨rest, final, rfl⟩ := List.eq_nil_or_concat between
      · rwa [List.append_nil]
      · exfalso
        obtain isNil | ⟨front, isRecord⟩ := start
        · simp at isNil
        · rw [List.concat_eq_append, ← List.append_assoc] at isRecord
          obtain ⟨-, isRecord⟩ := List.append_inj' isRecord rfl
          apply unseen
          simp [List.singleton_inj.mp isRecord]
  obtain rfl | ⟨before, rfl⟩ := start
  · simp at wasOdd
  rw [steps_append, steps_record, Nat.add_zero] at wasOdd
  rw [List.append_assoc, List.singleton_append] at run ⊢
  obtain ⟨atRecord, toRecord, -⟩ := Run.append_iff.mp run
  obtain ⟨others, begin, middle, rfl, begins, stays⟩ :=
    inside_of_handling toRecord
      ((tracked_of_run toRecord mid).handling.mpr wasOdd)
  refine ⟨others, begin, middle, late, rfl, begins, unrecorded, ?_⟩
  intro event isEvent
  obtain earlier | later := List.mem_append.mp isEvent
  · exact stays event earlier
  · exact steps_eq_zero idle event later

/-! ## One check -/

/-- The module that the loop of a check looks at. -/
def looksAt : CheckPoint → Option Nat
  | .flag mid | .parity mid | .equality mid => some mid
  | _ => none

/-- The check is done with a module whose flag is set. -/
def IsVerdict (mid : Nat) : WatchdogEvent → Bool
  | .even other | .moved other | .abnormal other => other == mid
  | _ => false

/-- The flag of a module was set, and then this was seen of its counters. -/
def Sees (mid : Nat) (scan front : List WatchdogEvent)
    (verdict : WatchdogEvent) : Prop :=
  ∃ back, scan = front ++ verdict :: back ∧ .monitored mid ∈ front

theorem Sees.append {scan front : List WatchdogEvent}
    {verdict : WatchdogEvent} (sees : Sees mid scan front verdict)
    (more : List WatchdogEvent) : Sees mid (scan ++ more) front verdict := by
  obtain ⟨back, rfl, isMonitored⟩ := sees
  exact ⟨back ++ more, by simp, isMonitored⟩

/-- The check is done with a module. -/
def Judged (mid : Nat) (scan : List WatchdogEvent) : Prop :=
  .notMonitored mid ∈ scan ∨
    ∃ front verdict, IsVerdict mid verdict ∧ Sees mid scan front verdict

theorem Judged.append {scan : List WatchdogEvent} (judged : Judged mid scan)
    (more : List WatchdogEvent) : Judged mid (scan ++ more) := by
  obtain notMonitored | ⟨front, verdict, isVerdict, sees⟩ := judged
  · exact .inl (List.mem_append_left more notMonitored)
  · exact .inr ⟨front, verdict, isVerdict, sees.append more⟩

/-- How far a check has come, and what it has found. -/
structure Scanned (moduleTaskMax : Nat) (scan : List WatchdogEvent)
    (point : CheckPoint) (flag : Bool) : Prop where
  judged : ∀ mid current, looksAt point = some current → mid < current →
    Judged mid scan
  current : ∀ mid, point = .parity mid ∨ point = .equality mid →
    mid < moduleTaskMax ∧ .monitored mid ∈ scan
  reported : (looksAt point).isSome → (flag = false ↔
    ∃ mid < moduleTaskMax, ∃ front, Sees mid scan front (.abnormal mid))

/-- What was found is found after one more event that is not a report. -/
theorem reported_append {scan : List WatchdogEvent} {flag : Bool}
    (reported : flag = false ↔
      ∃ mid < moduleTaskMax, ∃ front, Sees mid scan front (.abnormal mid))
    (notAbnormal : ∀ mid, event ≠ .abnormal mid) :
    flag = false ↔ ∃ mid < moduleTaskMax, ∃ front,
      Sees mid (scan ++ [event]) front (.abnormal mid) := by
  rw [reported]
  constructor
  · rintro ⟨mid, inRange, front, sees⟩
    exact ⟨mid, inRange, front, sees.append [event]⟩
  · rintro ⟨mid, inRange, front, back, split, isMonitored⟩
    refine ⟨mid, inRange, front, ?_⟩
    obtain rfl | ⟨rest, last, rfl⟩ := List.eq_nil_or_concat back
    · obtain ⟨-, same⟩ := List.append_inj' split rfl
      exact absurd (List.singleton_inj.mp same) (notAbnormal mid)
    · rw [List.concat_eq_append, ← List.cons_append, ← List.append_assoc]
        at split
      obtain ⟨rfl, -⟩ := List.append_inj' split rfl
      exact ⟨rest, rfl, isMonitored⟩

theorem Scanned.start : Scanned moduleTaskMax [] (.flag 0) true where
  judged := by
    intro mid current isCurrent before
    obtain rfl := Option.some.inj isCurrent
    contradiction
  current := by simp
  reported := by
    intro _
    simp [Sees]

/-- The check is done with one more module. -/
theorem Scanned.next {scan : List WatchdogEvent} {flag found : Bool}
    {point : CheckPoint}
    (scanned : Scanned moduleTaskMax scan point flag)
    (here : looksAt point = some mid) (judged : Judged mid (scan ++ [event]))
    (reported : found = false ↔ ∃ mid < moduleTaskMax, ∃ front,
      Sees mid (scan ++ [event]) front (.abnormal mid)) :
    Scanned moduleTaskMax (scan ++ [event]) (.flag (mid + 1)) found where
  judged := by
    intro other current isCurrent before
    obtain rfl := Option.some.inj isCurrent
    obtain earlier | rfl := Nat.lt_succ_iff_lt_or_eq.mp before
    · exact (scanned.judged other mid here earlier).append [event]
    · exact judged
  current := by simp
  reported := fun _ => reported

/-- The check goes on with the same module. -/
theorem Scanned.stay {scan : List WatchdogEvent} {flag : Bool}
    {point other : CheckPoint}
    (scanned : Scanned moduleTaskMax scan point flag)
    (same : looksAt other = looksAt point)
    (current : ∀ mid, other = .parity mid ∨ other = .equality mid →
      mid < moduleTaskMax ∧ .monitored mid ∈ scan ++ [event])
    (notAbnormal : ∀ mid, event ≠ .abnormal mid) :
    Scanned moduleTaskMax (scan ++ [event]) other flag where
  judged := by
    intro mid current isCurrent before
    rw [same] at isCurrent
    exact (scanned.judged mid current isCurrent before).append [event]
  current := current
  reported := by
    intro inLoop
    rw [same] at inLoop
    exact reported_append (scanned.reported inLoop) notAbnormal

/-- Outside of the loop there is nothing to keep. -/
theorem Scanned.outside {scan : List WatchdogEvent} {flag : Bool}
    {point : CheckPoint} (none : looksAt point = none) :
    Scanned moduleTaskMax scan point flag where
  judged := by
    intro mid current isCurrent
    rw [none] at isCurrent
    contradiction
  current := by
    rintro mid (rfl | rfl) <;> contradiction
  reported := by
    intro inLoop
    rw [none] at inLoop
    contradiction

theorem Scanned.step {scan : List WatchdogEvent} {point : CheckPoint}
    {flag : Bool}
    (scanned : Scanned moduleTaskMax scan watchdog.point
      watchdog.gulThreadMonSuccFlag)
    (scans : Scans moduleTaskMax watchdog event point flag)
    (notCheck : event ≠ .check) :
    Scanned moduleTaskMax (scan ++ [event]) point flag := by
  -- a module whose flag is set gets its verdict
  have verdict : ∀ mid, watchdog.point = .parity mid ∨
      watchdog.point = .equality mid → IsVerdict mid event →
      Sees mid (scan ++ [event]) scan event ∧
        Judged mid (scan ++ [event]) := by
    intro mid here isVerdict
    have sees : Sees mid (scan ++ [event]) scan event :=
      ⟨[], rfl, (scanned.current mid here).2⟩
    exact ⟨sees, .inr ⟨scan, event, isVerdict, sees⟩⟩
  have inLoop : ∀ mid, looksAt watchdog.point = some mid →
      (looksAt watchdog.point).isSome := by
    intro mid here
    rw [here]
    rfl
  cases scans with
  | thread running isThread =>
      apply scanned.stay rfl
      · intro mid here
        obtain ⟨inRange, isMonitored⟩ := scanned.current mid here
        exact ⟨inRange, List.mem_append_left [event] isMonitored⟩
      · rintro mid rfl
        contradiction
  | check => contradiction
  | @notMonitored mid here inRange =>
      have current : looksAt watchdog.point = some mid := by rw [here]; rfl
      apply scanned.next current (.inl (by simp))
      exact reported_append (scanned.reported (inLoop mid current)) (by simp)
  | @monitored mid here inRange =>
      apply scanned.stay (by rw [here]; rfl)
      · intro other there
        simp only [CheckPoint.parity.injEq, reduceCtorEq, or_false] at there
        subst there
        exact ⟨inRange, by simp⟩
      · simp
  | @even mid here isEven =>
      have current : looksAt watchdog.point = some mid := by rw [here]; rfl
      apply scanned.next current (verdict mid (.inl here) (by
        simp [IsVerdict])).2
      exact reported_append (scanned.reported (inLoop mid current)) (by simp)
  | @odd mid here isOdd =>
      apply scanned.stay (by rw [here]; rfl)
      · intro other there
        simp only [reduceCtorEq, CheckPoint.equality.injEq, false_or] at there
        subst there
        obtain ⟨inRange, isMonitored⟩ := scanned.current mid (.inl here)
        exact ⟨inRange, List.mem_append_left _ isMonitored⟩
      · simp
  | @moved mid here differs =>
      have current : looksAt watchdog.point = some mid := by rw [here]; rfl
      apply scanned.next current (verdict mid (.inr here) (by
        simp [IsVerdict])).2
      exact reported_append (scanned.reported (inLoop mid current)) (by simp)
  | @abnormal mid here same =>
      have current : looksAt watchdog.point = some mid := by rw [here]; rfl
      obtain ⟨sees, judged⟩ := verdict mid (.inr here) (by simp [IsVerdict])
      apply scanned.next current judged
      rw [eq_self, true_iff]
      exact ⟨mid, (scanned.current mid (.inr here)).1, scan, sees⟩
  | leaveLoop here =>
      apply Scanned.outside
      split <;> rfl
  | record here inRange => exact .outside rfl
  | finish here => exact .outside rfl

theorem scanned_of_run {scan : List WatchdogEvent} {start : Watchdog}
    (run : Run (Step moduleTaskMax) start scan watchdog)
    (isStart : start.point = .flag 0)
    (normal : start.gulThreadMonSuccFlag = true)
    (oneCheck : .check ∉ scan) :
    Scanned moduleTaskMax scan watchdog.point
      watchdog.gulThreadMonSuccFlag := by
  revert oneCheck
  apply run.history
  · intro early middle label next _ scanned step oneCheck
    rw [List.mem_append, List.mem_singleton, not_or] at oneCheck
    exact (scanned oneCheck.1).step (Step.scans step) (Ne.symm oneCheck.2)
  · intro _
    rw [isStart, normal]
    exact .start

/-- Outside of the loop no thread was reported, or the process has ended. -/
def Normal (point : CheckPoint) (flag : Bool) : Prop :=
  looksAt point = none → point ≠ .exited → flag = true

theorem Scans.normal {point : CheckPoint} {flag : Bool}
    (scans : Scans moduleTaskMax watchdog event point flag)
    (normal : Normal watchdog.point watchdog.gulThreadMonSuccFlag) :
    Normal point flag := by
  cases scans with
  | thread => exact normal
  | leaveLoop =>
      intro _ running
      by_contra abnormal
      rw [if_neg abnormal] at running
      contradiction
  | record here => exact fun _ _ => normal (by rw [here]; rfl) (by simp [here])
  | finish here => exact fun _ _ => normal (by rw [here]; rfl) (by simp [here])
  | _ =>
      intro outside
      contradiction

theorem normal_of_run
    (run : Run (Step moduleTaskMax) (initial flags) events watchdog) :
    Normal watchdog.point watchdog.gulThreadMonSuccFlag := by
  have kept : ∀ (state : Watchdog) (label : WatchdogEvent) (next : Watchdog),
      Normal state.point state.gulThreadMonSuccFlag →
        Step moduleTaskMax state label next →
        Normal next.point next.gulThreadMonSuccFlag := by
    intro state label next normal step
    exact step.scans.normal normal
  exact @Run.preserves _ _ _ (fun state : Watchdog =>
    Normal state.point state.gulThreadMonSuccFlag) _ _ _ kept run
    fun _ _ => rfl

theorem Paced.before {late : List WatchdogEvent}
    (paced : Paced mid (events ++ late)) : Paced mid events := by
  intro early middle rest split
  apply paced early middle (rest ++ late)
  rw [split, List.append_assoc]

/-- A module is reported exactly when its thread is stuck. -/
theorem abnormal_iff_stuckSince {late : List WatchdogEvent}
    (run : Run (Step moduleTaskMax) (initial flags)
      (events ++ event :: late) watchdog)
    (paced : Paced mid (events ++ event :: late))
    (isVerdict : IsVerdict mid event) :
    event = .abnormal mid ↔ StuckSince mid events := by
  obtain ⟨there, before, _ | ⟨step, -⟩⟩ := Run.append_iff.mp run
  have scans := Step.scans step
  constructor
  · rintro rfl
    generalize Watchdog.point _ = point, gulThreadMonSuccFlag _ = flag at scans
    cases scans with
    | thread _ isThread => contradiction
    | abnormal here same =>
        exact stuckSince_of_same paced.before before here same
  · intro stuck
    obtain ⟨isOdd, same⟩ := stuck.counter before
    generalize Watchdog.point _ = point, gulThreadMonSuccFlag _ = flag at scans
    cases scans with
    | even _ isEven =>
        obtain rfl := beq_iff_eq.mp isVerdict
        contradiction
    | moved _ differs =>
        obtain rfl := beq_iff_eq.mp isVerdict
        contradiction
    | abnormal =>
        rw [beq_iff_eq.mp isVerdict]
    | @thread label _ isThread =>
        cases event <;> contradiction
    | _ => contradiction

/-- A check begins with the first module, and nothing was reported before. -/
theorem begins_of_check
    (run : Run (Step moduleTaskMax) (initial flags) events watchdog)
    (check : Step moduleTaskMax watchdog .check after) :
    after.point = .flag 0 ∧ after.gulThreadMonSuccFlag = true := by
  have normal := normal_of_run run
  simp only [Step, next, Option.ite_none_right_eq_some, Option.some_inj]
    at check
  obtain ⟨isIdle, rfl⟩ := check
  rw [isIdle] at normal
  exact ⟨rfl, normal rfl (by simp)⟩

/-- The process ends exactly when something was reported. -/
theorem exited_iff_of_leaveLoop
    (leave : Step moduleTaskMax watchdog .leaveLoop after) :
    watchdog.point = .flag moduleTaskMax ∧
      (after.point = .exited ↔ watchdog.gulThreadMonSuccFlag = false) := by
  simp only [Step, next, Option.ite_none_right_eq_some, Option.some_inj]
    at leave
  obtain ⟨atEnd, rfl⟩ := leave
  refine ⟨atEnd, ?_⟩
  unfold goTo
  cases watchdog.gulThreadMonSuccFlag <;> simp

/-- A check ends the process exactly when, since the last record of its
counter, the thread of a module that it looked at was in one and the same
handler. -/
theorem declares_iff_stuck {past scan : List WatchdogEvent}
    (run : Run (Step moduleTaskMax) (initial flags)
      (past ++ .check :: (scan ++ [.leaveLoop])) watchdog)
    (oneCheck : .check ∉ scan)
    (paced : ∀ mid, Paced mid (past ++ .check :: (scan ++ [.leaveLoop]))) :
    (∀ mid < moduleTaskMax, Judged mid scan) ∧
      (watchdog.point = .exited ↔
        ∃ mid < moduleTaskMax, ∃ front verdict, IsVerdict mid verdict ∧
          Sees mid scan front verdict ∧
          StuckSince mid (past ++ .check :: front)) ∧
      ∀ mid front back, scan = front ++ .abnormal mid :: back →
        StuckSince mid (past ++ .check :: front) := by
  obtain ⟨called, before, _ | ⟨check, fromCheck⟩⟩ := Run.append_iff.mp run
  obtain ⟨left, inScan, _ | ⟨leave, _ | _⟩⟩ := Run.append_iff.mp fromCheck
  -- the check begins with no report, and ends when all modules were seen
  obtain ⟨begun, normal⟩ := begins_of_check before check
  have scanned := scanned_of_run inScan begun normal oneCheck
  obtain ⟨atEnd, isExited⟩ := exited_iff_of_leaveLoop leave
  rw [atEnd] at scanned
  have found : ∀ mid front verdict, IsVerdict mid verdict →
      ∀ back, scan = front ++ verdict :: back →
        (verdict = .abnormal mid ↔
          StuckSince mid (past ++ .check :: front)) := by
    rintro mid front verdict isVerdict back rfl
    have split : past ++ .check :: (front ++ verdict :: back ++ [.leaveLoop]) =
        past ++ .check :: front ++ verdict :: (back ++ [.leaveLoop]) := by
      simp
    rw [split] at run
    exact abnormal_iff_stuckSince run (split ▸ paced mid) isVerdict
  refine ⟨?_, ?_, ?_⟩
  · intro mid inRange
    exact scanned.judged mid moduleTaskMax rfl inRange
  · rw [isExited, scanned.reported rfl]
    constructor
    · rintro ⟨mid, inRange, front, back, isScan, isMonitored⟩
      have isVerdict : IsVerdict mid (.abnormal mid) := by simp [IsVerdict]
      exact ⟨mid, inRange, front, _, isVerdict, ⟨back, isScan, isMonitored⟩,
        (found mid front _ isVerdict back isScan).mp rfl⟩
    · rintro ⟨mid, inRange, front, verdict, isVerdict,
        ⟨back, isScan, isMonitored⟩, stuck⟩
      obtain rfl := (found mid front _ isVerdict back isScan).mpr stuck
      exact ⟨mid, inRange, front, back, isScan, isMonitored⟩
  · intro mid front back isScan
    exact (found mid front _ (by simp [IsVerdict]) back isScan).mp rfl

theorem paced_of_length (short : events.length < 2 ^ 32) :
    Paced mid events := by
  intro early middle late split _
  have few : steps mid middle ≤ middle.length := List.countP_le_length
  have length := congrArg List.length split
  rw [List.length_append, List.length_append] at length
  omega

/-- A thread gets a message, and a first check records its counter. -/
def firstCheck : List WatchdogEvent :=
  [.update 0 1 2 0, .check, .monitored 0, .odd 0, .moved 0, .notMonitored 1,
    .leaveLoop, .record 0, .record 1, .finish]

/-- The second check finds the thread in the same handler. -/
def secondScan : List WatchdogEvent :=
  [.monitored 0, .odd 0, .abnormal 0, .notMonitored 1]

/-- The second check ends the process. -/
theorem declares_iff_stuck_secondCheck :
    ∃ watchdog, Run (Step 2) (initial (· == 0))
        (firstCheck ++ .check :: (secondScan ++ [.leaveLoop])) watchdog ∧
      watchdog.point = .exited ∧
      (∀ mid < 2, Judged mid secondScan) ∧
      (watchdog.point = .exited ↔
        ∃ mid < 2, ∃ front verdict, IsVerdict mid verdict ∧
          Sees mid secondScan front verdict ∧
          StuckSince mid (firstCheck ++ .check :: front)) ∧
      ∀ mid front back, secondScan = front ++ .abnormal mid :: back →
        StuckSince mid (firstCheck ++ .check :: front) := by
  obtain ⟨watchdog, ended, exited⟩ : ∃ watchdog,
      List.foldlM (next 2) (initial (· == 0))
        (firstCheck ++ .check :: (secondScan ++ [.leaveLoop])) =
          some watchdog ∧
      watchdog.point = .exited := ⟨_, rfl, rfl⟩
  have run : Run (Step 2) (initial (· == 0))
      (firstCheck ++ .check :: (secondScan ++ [.leaveLoop])) watchdog :=
    Run.iff_foldlM.mpr ended
  refine ⟨watchdog, run, exited, declares_iff_stuck run (by decide) ?_⟩
  intro mid
  exact paced_of_length (by decide)

end Watchdog
end Platform
end Pilot2Cloud
