import Pilot2Cloud.Timers.AbstractTimer
import Pilot2Cloud.Timers.Due
import Pilot2Cloud.Timers.Initial

/-!
# The timer wheel implements the abstract timers

A unit that runs is linked in the bucket of its expiry tick, which is a number of
ticks ahead of the current one; the abstract timer waits for the same number.
The tick counter wraps, and so does the expiry tick, but no timer is more than
one turn of the counter ahead.
-/

namespace Pilot2Cloud
namespace Timers

open Foundation

/-- The ticks that a counter of 32 bits can tell apart. -/
def counterTurn : Nat := 2 ^ 32

namespace TimerManager

/-- The timer of a unit runs. -/
def Runs (manager : TimerManager) (unit : Nat) : Prop :=
  unit < manager.timerArraySize.toNat ∧
    (manager.timerArray unit).running = true

/-- A unit holds a timer. -/
structure Holds (manager : TimerManager) (unit : Nat) (timer : Started) :
    Prop where
  moduleId : (manager.timerArray unit).moduleId = timer.moduleId
  message : (manager.timerArray unit).tmExpMsg = timer.message
  cycle : (manager.timerArray unit).cycle = 0 ↔ timer.cyclic = false
  duration : (manager.timerArray unit).duration = UInt32.ofNat (ticksOf timer)
  positive : 0 < ticksOf timer
  withinTurn : ticksOf timer ≤ counterTurn

/-- The expiry tick of a unit is some ticks ahead. -/
structure Ahead (manager : TimerManager) (unit remaining : Nat) : Prop where
  tick : (manager.timerArray unit).absExpTick =
    manager.currentTick + UInt32.ofNat remaining
  positive : 0 < remaining
  withinTurn : remaining ≤ counterTurn

end TimerManager

/-- A timer is at its last tick when the counter comes to its expiry tick. -/
theorem TimerManager.Ahead.due_iff
    {manager : TimerManager} {unit remaining : Nat}
    (ahead : manager.Ahead unit remaining) :
    (manager.timerArray unit).absExpTick = manager.currentTick + 1 ↔
      remaining = 1 := by
  have positive := ahead.positive
  have bound : remaining ≤ 4294967296 := ahead.withinTurn
  rw [ahead.tick, UInt32.add_right_inj, ← UInt32.toNat_inj,
    UInt32.toNat_ofNat', UInt32.toNat_one]
  omega

/-- The units that run are the abstract timers that wait. -/
structure Tracks (session : Session) (states : Nat → AbstractTimer) : Prop where
  represented : ∃ lists, Represented session.service.manager lists
  periodic : ∀ unit < session.service.manager.timerArraySize.toNat,
    session.service.manager.Periodic unit
  waiting : ∀ unit, session.service.manager.Runs unit →
    ∃ timer remaining,
      states (session.serialOf unit) = .waiting timer remaining ∧
        session.service.manager.Holds unit timer ∧
        session.service.manager.Ahead unit remaining
  runs : ∀ serial timer remaining, states serial = .waiting timer remaining →
    ∃ unit, session.service.manager.Runs unit ∧
      session.serialOf unit = serial
  distinct : ∀ left right, session.service.manager.Runs left →
    session.service.manager.Runs right →
    session.serialOf left = session.serialOf right → left = right
  absent : ∀ serial > session.timersStarted, states serial = .absent

namespace TimerManager

variable {manager after : TimerManager} {unit remaining : Nat} {timer : Started}

theorem Runs.of_sameTimer
    (same : SameTimer (manager.timerArray unit) (after.timerArray unit))
    (sameSize : after.timerArraySize = manager.timerArraySize)
    (runs : after.Runs unit) : manager.Runs unit :=
  ⟨sameSize ▸ runs.1, same.running runs.2⟩

theorem Holds.of_sameTimer
    (holds : manager.Holds unit timer)
    (same : SameTimer (manager.timerArray unit) (after.timerArray unit)) :
    after.Holds unit timer :=
  ⟨same.moduleId.trans holds.moduleId, same.tmExpMsg.trans holds.message,
    same.cycle ▸ holds.cycle, same.duration.trans holds.duration,
    holds.positive, holds.withinTurn⟩

end TimerManager

theorem Represented.mem_alloc_iff
    {manager : TimerManager} {lists : Lists} {unit : Nat}
    (represented : Represented manager lists) :
    unit ∈ lists.alloc ↔ manager.Runs unit := by
  constructor
  · intro member
    have bound := represented.lt_of_alloc member
    exact ⟨bound, (represented.running unit bound).mpr member⟩
  · rintro ⟨bound, running⟩
    exact (represented.running unit bound).mp running

namespace Tracks

variable {session : Session} {states : Nat → AbstractTimer}
  {service : TimerService}

/-- The state of an abstract timer is right for the units of a manager. -/
def Right (serialOf : Nat → Nat) (manager : TimerManager) (serial : Nat)
    (state : AbstractTimer) : Prop :=
  (∀ unit, manager.Runs unit → serialOf unit = serial →
    ∃ timer remaining, state = .waiting timer remaining ∧
      manager.Holds unit timer ∧ manager.Ahead unit remaining) ∧
  ∀ timer remaining, state = .waiting timer remaining →
    ∃ unit, manager.Runs unit ∧ serialOf unit = serial

/-- A state is right when one unit alone holds the timer. -/
theorem Right.of_alone
    {serialOf : Nat → Nat} {manager : TimerManager}
    {unit serial remaining : Nat} {timer : Started}
    (alone : ∀ other, manager.Runs other → serialOf other = serial →
      other = unit)
    (runs : manager.Runs unit) (isSerial : serialOf unit = serial)
    (holds : manager.Holds unit timer) (ahead : manager.Ahead unit remaining) :
    Right serialOf manager serial (.waiting timer remaining) := by
  constructor
  · intro other otherRuns same
    obtain rfl := alone other otherRuns same
    exact ⟨timer, remaining, rfl, holds, ahead⟩
  · intro _ _ _
    exact ⟨unit, runs, isSerial⟩

theorem right (tracks : Tracks session states) (serial : Nat) :
    Right session.serialOf session.service.manager serial (states serial) := by
  refine ⟨?_, fun timer remaining => tracks.runs serial timer remaining⟩
  rintro unit runs rfl
  exact tracks.waiting unit runs

/-- An event that starts no timer is tracked when each abstract timer allows it
and gets into the right state. -/
theorem of_each
    (tracks : Tracks session states) (service : TimerService) (event : Event)
    (represented : ∃ lists, Represented service.manager lists)
    (sameTimer : ∀ unit, SameTimer (session.service.manager.timerArray unit)
      (service.manager.timerArray unit))
    (sameSize : service.manager.timerArraySize =
      session.service.manager.timerArraySize)
    (each : ∀ serial, ∃ next,
      (states serial).observe ticksOf serial event = some next ∧
        Right session.serialOf service.manager serial next ∧
        (states serial = .absent → next = .absent)) :
    ∃ nexts, (∀ serial, (states serial).observe ticksOf serial event =
        some (nexts serial)) ∧
      Tracks (session.record service event) nexts := by
  choose nexts observed right fresh using each
  refine ⟨nexts, observed, represented, ?_, ?_, ?_, ?_, ?_⟩
  · intro unit bound
    exact (tracks.periodic unit (sameSize ▸ bound)).of_sameTimer
      (sameTimer unit)
  · intro unit runs
    exact (right (session.serialOf unit)).1 unit runs rfl
  · intro serial
    exact (right serial).2
  · intro left other leftRuns otherRuns
    exact tracks.distinct left other
      (leftRuns.of_sameTimer (sameTimer left) sameSize)
      (otherRuns.of_sameTimer (sameTimer other) sameSize)
  · intro serial isLater
    exact fresh serial (tracks.absent serial isLater)

/-- An operation on the unit of one timer leaves the states of all others
right. -/
theorem right_of_ne
    (tracks : Tracks session states) {manager : TimerManager}
    {unit serial : Nat} (different : serial ≠ session.serialOf unit)
    (others : ∀ other ≠ unit, manager.timerArray other =
      session.service.manager.timerArray other)
    (sameSize : manager.timerArraySize =
      session.service.manager.timerArraySize)
    (sameTick : manager.currentTick = session.service.manager.currentTick) :
    Right session.serialOf manager serial (states serial) := by
  have runs_iff : ∀ other ≠ unit, manager.Runs other ↔
      session.service.manager.Runs other := by
    intro other notUnit
    rw [TimerManager.Runs, TimerManager.Runs, others other notUnit, sameSize]
  constructor
  · rintro other runs rfl
    have notUnit : other ≠ unit := by
      rintro rfl
      exact different rfl
    obtain ⟨timer, remaining, waits, holds, ahead⟩ :=
      tracks.waiting other ((runs_iff other notUnit).mp runs)
    have sameUnit := others other notUnit
    refine ⟨timer, remaining, waits,
      holds.of_sameTimer (sameUnit ▸ .refl _), ?_, ahead.positive,
      ahead.withinTurn⟩
    rw [sameUnit, sameTick]
    exact ahead.tick
  · intro timer remaining waits
    obtain ⟨other, runs, isSerial⟩ :=
      tracks.runs serial timer remaining waits
    have notUnit : other ≠ unit := by
      rintro rfl
      exact different isSerial.symm
    exact ⟨other, (runs_iff other notUnit).mpr runs, isSerial⟩

/-- A session goes on with an event that all abstract timers allow. -/
def Step (session : Session) (states : Nat → AbstractTimer) (after : Session) :
    Prop :=
  ∃ event nexts, after.log = session.log ++ [event] ∧
    (∀ serial, (states serial).observe ticksOf serial event =
      some (nexts serial)) ∧
    Tracks after nexts

theorem refused
    (tracks : Tracks session states)
    (sameManager : service.manager = session.service.manager) :
    Step session states (session.record service .refused) := by
  refine ⟨.refused, states, rfl, fun serial => rfl, ?_⟩
  obtain ⟨represented, periodic, waiting, runs, distinct, absent⟩ := tracks
  rw [← sameManager] at represented periodic waiting runs distinct
  exact ⟨represented, periodic, waiting, runs, distinct, absent⟩

/-- An event of one running timer changes its state only. -/
theorem of_one
    {unit : Nat} (tracks : Tracks session states)
    (isRunning : session.service.manager.Runs unit) (event : Event)
    (represented : ∃ lists, Represented service.manager lists)
    (untouched : Untouched session.service.manager service.manager)
    (others : ∀ other ≠ unit, service.manager.timerArray other =
      session.service.manager.timerArray other)
    (silent : ∀ serial ≠ session.serialOf unit, ∀ state : AbstractTimer,
      state.observe ticksOf serial event = some state)
    (own : ∀ timer remaining,
      states (session.serialOf unit) = .waiting timer remaining →
        session.service.manager.Holds unit timer →
        ∃ next, (states (session.serialOf unit)).observe ticksOf
            (session.serialOf unit) event = some next ∧
          Right session.serialOf service.manager (session.serialOf unit)
            next) :
    Step session states (session.record service event) := by
  obtain ⟨timer, remaining, waits, holds, -⟩ := tracks.waiting unit isRunning
  obtain ⟨nexts, observed, followed⟩ := tracks.of_each service event represented
    untouched.sameTimer untouched.timerArraySize (fun serial => by
      by_cases isOwn : serial = session.serialOf unit
      · subst isOwn
        obtain ⟨next, observed, right⟩ := own timer remaining waits holds
        refine ⟨next, observed, right, ?_⟩
        rw [waits]
        nofun
      · exact ⟨states serial, silent serial isOwn _,
          tracks.right_of_ne isOwn others untouched.timerArraySize
            untouched.currentTick, id⟩)
  exact ⟨event, nexts, rfl, observed, followed⟩

theorem stopped
    {unit : Nat} (tracks : Tracks session states)
    (isRunning : session.service.manager.Runs unit)
    (released : service.manager = session.service.manager.release unit) :
    Step session states
      (session.record service (.stopped (session.serialOf unit))) := by
  have untouched : Untouched session.service.manager service.manager :=
    released ▸ TimerManager.untouched_release
  have units : service.manager.timerArray =
      Function.update session.service.manager.timerArray unit
        { session.service.manager.timerArray unit with running := false } := by
    rw [released]
    rfl
  obtain ⟨lists, represented⟩ := tracks.represented
  refine tracks.of_one isRunning _ ?_ untouched ?_ ?_ ?_
  · rw [released]
    exact ⟨_, represented.release (represented.mem_alloc_iff.mpr isRunning)⟩
  · intro other notUnit
    rw [units, Function.update_of_ne notUnit]
  · intro serial different state
    rw [AbstractTimer.observe, if_neg (Ne.symm different)]
  · intro timer remaining waits holds
    refine ⟨.ended, ?_, ?_, ?_⟩
    · rw [AbstractTimer.observe, if_pos rfl, waits, AbstractTimer.stop]
    · -- the unit was the only one with this timer
      intro other runs isSerial
      have same := tracks.distinct other unit
        (runs.of_sameTimer (untouched.sameTimer other)
          untouched.timerArraySize) isRunning isSerial
      have ended := runs.2
      rw [same, units, Function.update_self] at ended
      contradiction
    · intro _ _ isWaiting
      contradiction

theorem restarted
    {unit : Nat} (tracks : Tracks session states)
    (isRunning : session.service.manager.Runs unit)
    (rearmed : service.manager = session.service.manager.rearm unit
      (session.service.manager.currentTick +
        (session.service.manager.timerArray unit).duration)) :
    Step session states
      (session.record service (.restarted (session.serialOf unit))) := by
  have untouched : Untouched session.service.manager service.manager :=
    rearmed ▸ TimerManager.untouched_rearm _
  have units : service.manager.timerArray =
      Function.update session.service.manager.timerArray unit
        { session.service.manager.timerArray unit with
          absExpTick := session.service.manager.currentTick +
            (session.service.manager.timerArray unit).duration } := by
    rw [rearmed]
    rfl
  obtain ⟨lists, represented⟩ := tracks.represented
  refine tracks.of_one isRunning _ ?_ untouched ?_ ?_ ?_
  · rw [rearmed]
    exact ⟨_, represented.rearm (represented.mem_alloc_iff.mpr isRunning) _⟩
  · intro other notUnit
    rw [units, Function.update_of_ne notUnit]
  · intro serial different state
    rw [AbstractTimer.observe, if_neg (Ne.symm different)]
  · intro timer remaining waits holds
    refine ⟨.waiting timer (ticksOf timer), ?_, .of_alone ?_ ?_ rfl
      (holds.of_sameTimer (untouched.sameTimer unit)) ?_⟩
    · rw [AbstractTimer.observe, if_pos rfl, waits, AbstractTimer.restart]
    · intro other runs isSerial
      exact tracks.distinct other unit
        (runs.of_sameTimer (untouched.sameTimer other)
          untouched.timerArraySize) isRunning isSerial
    · refine ⟨untouched.timerArraySize ▸ isRunning.1, ?_⟩
      rw [units, Function.update_self]
      exact isRunning.2
    · refine ⟨?_, holds.positive, holds.withinTurn⟩
      rw [units, Function.update_self, untouched.currentTick, holds.duration]

/-- The serial numbers of the units that run are those of timers started so
far. -/
theorem serialOf_le
    {unit : Nat} (tracks : Tracks session states)
    (runs : session.service.manager.Runs unit) :
    session.serialOf unit ≤ session.timersStarted := by
  by_contra later
  obtain ⟨timer, remaining, waits, -⟩ := tracks.waiting unit runs
  rw [tracks.absent _ (Nat.lt_of_not_le later)] at waits
  contradiction

/-- A timer is started in a free unit. -/
theorem enrolled
    {lists : Lists} {unit : Nat} {timer : Started} {duration : UInt32}
    {cycle : UInt8} (tracks : Tracks session states)
    (represented : Represented session.service.manager lists)
    (isFree : unit ∈ lists.free)
    (started : service.manager = session.service.manager.start unit
      timer.moduleId duration timer.message.typeId timer.message.para cycle)
    (issued : timer.message.timerId =
      issuedId unit (session.service.manager.timerCountHistory + 1))
    (isDuration : duration = UInt32.ofNat (ticksOf timer))
    (positive : 0 < ticksOf timer) (withinTurn : ticksOf timer ≤ counterTurn)
    (isCycle : cycle = 0 ↔ timer.cyclic = false)
    (isPeriodic : cycle ≠ 0 → duration ≠ 0) :
    Step session states (session.enroll service timer) := by
  have bound := represented.lt_of_free isFree
  have index : timerIndex timer.message.timerId = unit := by
    rw [issued]
    exact timerIndex_issuedId (lt_trans bound represented.size_lt)
  have units : service.manager.timerArray =
      Function.update session.service.manager.timerArray unit
        { duration := duration
          absExpTick := session.service.manager.currentTick + duration
          running := true
          cycle := cycle
          moduleId := timer.moduleId
          tmExpMsg := timer.message } := by
    rw [started, TimerManager.timerArray_start, ← issued]
  have sameSize : service.manager.timerArraySize =
      session.service.manager.timerArraySize := by
    rw [started]
    rfl
  have sameTick : service.manager.currentTick =
      session.service.manager.currentTick := by
    rw [started]
    rfl
  have runs_iff : ∀ other ≠ unit, service.manager.Runs other ↔
      session.service.manager.Runs other := by
    intro other notUnit
    rw [TimerManager.Runs, TimerManager.Runs, units,
      Function.update_of_ne notUnit, sameSize]
  have serialOf_self : (session.enroll service timer).serialOf unit =
      session.timersStarted + 1 := by
    rw [Session.serialOf_enroll, index, Function.update_self]
  have serialOf_of_ne : ∀ other ≠ unit,
      (session.enroll service timer).serialOf other =
        session.serialOf other := by
    intro other notUnit
    rw [Session.serialOf_enroll, index, Function.update_of_ne notUnit]
  have earlier : ∀ other ≠ unit, service.manager.Runs other →
      (session.enroll service timer).serialOf other ≠
        session.timersStarted + 1 := by
    intro other notUnit runs
    have atMost := tracks.serialOf_le ((runs_iff other notUnit).mp runs)
    rw [serialOf_of_ne other notUnit]
    omega
  refine ⟨_, Function.update states (session.timersStarted + 1)
    (.waiting timer (ticksOf timer)), rfl, ?_, ?_, ?_, ?_, ?_, ?_, ?_⟩
  · intro serial
    by_cases own : serial = session.timersStarted + 1
    · rw [own, Function.update_self, AbstractTimer.observe, if_pos rfl,
        tracks.absent _ (Nat.lt_succ_self _), AbstractTimer.start]
    · rw [Function.update_of_ne own, AbstractTimer.observe,
        if_neg (Ne.symm own)]
  · rw [Session.enroll, started]
    exact ⟨_, represented.start isFree⟩
  · intro other isBelow
    show service.manager.Periodic other
    rw [TimerManager.Periodic, units]
    by_cases isUnit : other = unit
    · rw [isUnit, Function.update_self]
      exact isPeriodic
    · rw [Function.update_of_ne isUnit]
      exact tracks.periodic other (sameSize ▸ isBelow)
  · intro other runs
    by_cases isUnit : other = unit
    · subst isUnit
      rw [serialOf_self, Function.update_self]
      refine ⟨timer, ticksOf timer, rfl,
        ⟨?_, ?_, ?_, ?_, positive, withinTurn⟩, ?_, positive, withinTurn⟩ <;>
        simp only [Session.enroll, units, Function.update_self, sameTick]
      · exact isCycle
      · exact isDuration
      · rw [isDuration]
    · rw [Function.update_of_ne (earlier other isUnit runs),
        serialOf_of_ne other isUnit]
      obtain ⟨held, remaining, waits, holds, ahead⟩ :=
        tracks.waiting other ((runs_iff other isUnit).mp runs)
      have sameUnit : service.manager.timerArray other =
          session.service.manager.timerArray other := by
        rw [units, Function.update_of_ne isUnit]
      refine ⟨held, remaining, waits,
        holds.of_sameTimer (sameUnit ▸ .refl _), ?_, ahead.positive,
        ahead.withinTurn⟩
      simp only [Session.enroll, sameUnit, sameTick]
      exact ahead.tick
  · intro serial held remaining waits
    by_cases own : serial = session.timersStarted + 1
    · refine ⟨unit, ⟨sameSize ▸ bound, ?_⟩, serialOf_self.trans own.symm⟩
      simp only [Session.enroll, units, Function.update_self]
    · rw [Function.update_of_ne own] at waits
      obtain ⟨other, runs, isSerial⟩ :=
        tracks.runs serial held remaining waits
      have notUnit : other ≠ unit := by
        rintro rfl
        exact represented.not_mem_free (represented.mem_alloc_iff.mpr runs)
          isFree
      exact ⟨other, (runs_iff other notUnit).mpr runs,
        (serialOf_of_ne other notUnit).trans isSerial⟩
  · intro left right leftRuns rightRuns same
    by_cases isLeft : left = unit
    · by_contra different
      subst isLeft
      rw [serialOf_self] at same
      exact earlier right (Ne.symm different) rightRuns same.symm
    · by_cases isRight : right = unit
      · subst isRight
        rw [serialOf_self] at same
        exact absurd same (earlier left isLeft leftRuns)
      · rw [serialOf_of_ne left isLeft, serialOf_of_ne right isRight] at same
        exact tracks.distinct left right ((runs_iff left isLeft).mp leftRuns)
          ((runs_iff right isRight).mp rightRuns) same
  · intro serial isLater
    have notOwn : serial ≠ session.timersStarted + 1 := Nat.ne_of_gt isLater
    rw [Function.update_of_ne notOwn]
    exact tracks.absent serial (lt_trans (Nat.lt_succ_self _) isLater)

section Ticks

variable {after : TimerManager} {unit remaining : Nat} {timer : Started}

/-- A timer that is not due counts down. -/
theorem ahead_of_not_due
    (ahead : session.service.manager.Ahead unit remaining)
    (notLast : remaining ≠ 1)
    (sameUnit : after.timerArray unit =
      session.service.manager.timerArray unit)
    (ticked : after.currentTick = session.service.manager.currentTick + 1) :
    after.Ahead unit (remaining - 1) := by
  have positive := ahead.positive
  have bound := ahead.withinTurn
  refine ⟨?_, by omega, by omega⟩
  have split : UInt32.ofNat remaining =
      1 + UInt32.ofNat (remaining - 1) := by
    rw [show (1 : UInt32) = UInt32.ofNat 1 from rfl, ← UInt32.ofNat_add,
      Nat.add_sub_cancel' positive]
  rw [sameUnit, ahead.tick, ticked, split, UInt32.add_assoc]

/-- A timer that is due is offered its own timeout, and goes on as its abstract
timer does. -/
theorem offered
    {serial : Nat} (sent : Bool)
    (runs : session.service.manager.Runs unit)
    (holds : session.service.manager.Holds unit timer)
    (expired : after.timerArray unit =
      session.service.manager.advance.expired unit sent)
    (ticked : after.currentTick = session.service.manager.currentTick + 1)
    (sameSize : after.timerArraySize =
      session.service.manager.timerArraySize)
    (alone : ∀ other, after.Runs other → session.serialOf other = serial →
      other = unit)
    (isSerial : session.serialOf unit = serial)
    (same : SameTimer (session.service.manager.timerArray unit)
      (after.timerArray unit)) :
    ∃ next, (AbstractTimer.waiting timer 1).tick ticksOf
        [session.service.manager.timeout unit sent] = some next ∧
      Right session.serialOf after serial next := by
  have own : 1 = 1 ∧ (session.service.manager.timeout unit sent).moduleId =
        timer.moduleId ∧
      (session.service.manager.timeout unit sent).message = timer.message :=
    ⟨rfl, holds.moduleId, holds.message⟩
  have stillHolds := holds.of_sameTimer same
  rw [AbstractTimer.tick, if_pos own]
  have goesOn : ∀ (remaining : Nat) (tick : UInt32), 0 < remaining →
      remaining ≤ counterTurn →
      tick = after.currentTick + UInt32.ofNat remaining →
      after.timerArray unit =
        { session.service.manager.timerArray unit with absExpTick := tick } →
      Right session.serialOf after serial (.waiting timer remaining) := by
    intro remaining tick positive withinTurn isTick isUnit
    refine .of_alone alone ⟨sameSize ▸ runs.1, ?_⟩ isSerial stillHolds
      ⟨?_, positive, withinTurn⟩
    · rw [isUnit]
      exact runs.2
    · rw [isUnit, isTick]
  cases sent with
  | false =>
      rw [TimerManager.expired_unsent] at expired
      refine ⟨_, if_pos rfl, goesOn 1 _ Nat.one_pos (by decide) ?_ expired⟩
      rw [ticked]
      rfl
  | true =>
      have wasSent : true ≠ false := Bool.noConfusion
      by_cases once : timer.cyclic = false
      · have isUnit := expired.trans
          (TimerManager.expired_once (holds.cycle.mpr once))
        refine ⟨.ended, (if_neg wasSent).trans (if_neg (by simp [once])), ?_,
          ?_⟩
        · intro other otherRuns isOther
          have running := otherRuns.2
          rw [alone other otherRuns isOther, isUnit] at running
          contradiction
        · intro _ _ isWaiting
          contradiction
      · have isUnit := expired.trans (TimerManager.expired_cyclic
          fun isZero => once (holds.cycle.mp isZero))
        refine ⟨_, (if_neg wasSent).trans (if_pos (by simpa using once)),
          goesOn (ticksOf timer) _ holds.positive holds.withinTurn ?_ isUnit⟩
        rw [ticked]
        exact congrArg _ holds.duration

end Ticks

/-- A tick is tracked: each timer counts down, and those at their last tick are
offered their timeouts. -/
theorem ticked
    {fuel : Nat} (tracks : Tracks session states)
    (enough : 2 * session.service.manager.timerArraySize.toNat < fuel)
    (sends : Nat → Bool) :
    ∃ after, session.perform fuel (.tick sends) = some after ∧
      after.service.manager.timerArraySize =
        session.service.manager.timerArraySize ∧
      Step session states after := by
  obtain ⟨lists, represented⟩ := tracks.represented
  obtain ⟨due, outcome, manager, changed, result, distinct, isDue, kept,
    untouched, units⟩ :=
      represented.tmTick_spec tracks.periodic enough
  have dueRuns : ∀ unit ∈ due, session.service.manager.Runs unit :=
    fun unit member => represented.mem_alloc_iff.mp ((isDue unit).mp member).1
  have sameTimer : ∀ unit, SameTimer
      (session.service.manager.timerArray unit) (manager.timerArray unit) :=
    untouched.sameTimer
  have wasRunning : ∀ unit, manager.Runs unit →
      session.service.manager.Runs unit := fun unit runs =>
    runs.of_sameTimer (sameTimer unit) untouched.timerArraySize
  have seen : (due.map fun unit =>
        session.service.manager.timeout unit (outcome unit)).map
        (fun timeout =>
          (session.serialOfId timeout.message.timerId, timeout)) =
      due.map fun unit => (session.serialOf unit,
        session.service.manager.timeout unit (outcome unit)) := by
    rw [List.map_map]
    apply List.map_congr_left
    intro unit member
    have index := represented.timerIndex_eq unit (dueRuns unit member).1
    simp only [Function.comp, Session.serialOfId, TimerManager.timeout, index]
  have each : ∀ serial, ∃ next,
      (states serial).observe ticksOf serial
          (.ticked (due.map fun unit => (session.serialOf unit,
            session.service.manager.timeout unit (outcome unit)))) =
        some next ∧ Right session.serialOf manager serial next ∧
        (states serial = .absent → next = .absent) := by
    intro serial
    rw [AbstractTimer.observe]
    by_cases held : ∃ unit, session.service.manager.Runs unit ∧
        session.serialOf unit = serial
    · obtain ⟨unit, runs, rfl⟩ := held
      obtain ⟨timer, remaining, waits, holds, ahead⟩ := tracks.waiting unit runs
      have alone : ∀ other, manager.Runs other →
          session.serialOf other = session.serialOf unit → other = unit :=
        fun other otherRuns same =>
          tracks.distinct other unit (wasRunning other otherRuns) runs same
      have due_iff : unit ∈ due ↔ remaining = 1 := by
        rw [isDue, and_iff_right (represented.mem_alloc_iff.mpr runs),
          ahead.due_iff]
      by_cases last : remaining = 1
      · subst last
        have member := due_iff.mpr rfl
        rw [timeoutsOf_eq_singleton distinct member fun other otherDue same =>
          tracks.distinct other unit (dueRuns other otherDue) runs same, waits]
        have expired := units unit
        rw [if_pos member] at expired
        obtain ⟨next, observed, right⟩ := offered (outcome unit) runs holds
          expired untouched.currentTick untouched.timerArraySize alone rfl
          (sameTimer unit)
        refine ⟨next, observed, right, ?_⟩
        intro isAbsent
        contradiction
      · have notMember : unit ∉ due := fun member => last (due_iff.mp member)
        have sameUnit := units unit
        rw [if_neg notMember] at sameUnit
        rw [timeoutsOf_eq_nil, waits, AbstractTimer.tick,
          if_pos (Nat.lt_of_le_of_ne ahead.positive (Ne.symm last))]
        · refine ⟨_, rfl, .of_alone alone ⟨?_, ?_⟩ rfl
            (holds.of_sameTimer (sameTimer unit))
            (ahead_of_not_due ahead last sameUnit untouched.currentTick), ?_⟩
          · exact untouched.timerArraySize ▸ runs.1
          · rw [sameUnit]
            exact runs.2
          · intro isAbsent
            contradiction
        · intro other otherDue same
          exact notMember (tracks.distinct other unit (dueRuns other otherDue)
            runs same ▸ otherDue)
    · rw [timeoutsOf_eq_nil fun unit member isSerial =>
        held ⟨unit, dueRuns unit member, isSerial⟩]
      refine ⟨states serial, ?_, ⟨?_, ?_⟩, id⟩
      · cases state : states serial with
        | absent => rfl
        | waiting timer remaining =>
            exact absurd (tracks.runs serial timer remaining state) held
        | ended => rfl
      · intro unit runs isSerial
        exact absurd ⟨unit, wasRunning unit runs, isSerial⟩ held
      · intro timer remaining waits
        exact absurd (tracks.runs serial timer remaining waits) held
  obtain ⟨nexts, observed, followed⟩ := tracks.of_each
    { session.service with manager := manager } _ ⟨changed, kept⟩ sameTimer
    untouched.timerArraySize each
  refine ⟨_, ?_, untouched.timerArraySize, _, nexts, rfl, observed, followed⟩
  rw [Session.perform, result, ← seen]

/-- A request to start a timer with some duration in ticks starts it, or there
is no free unit. -/
theorem set_or_refused
    (tracks : Tracks session states) (moduleId typeId : UInt32) (para : UInt64)
    (cycle : UInt8) {ticks duration : UInt32} {cyclic : Bool}
    (isTicks : ∀ message, ticks = UInt32.ofNat
      (ticksOf ⟨moduleId, message, duration, cyclic⟩))
    (positive : ∀ message, 0 < ticksOf ⟨moduleId, message, duration, cyclic⟩)
    (withinTurn : ∀ message,
      ticksOf ⟨moduleId, message, duration, cyclic⟩ ≤ counterTurn)
    (isCycle : cycle = 0 ↔ cyclic = false)
    (isPeriodic : cycle ≠ 0 → ticks ≠ 0) :
    session.service.manager.tmSetTimer moduleId ticks typeId para cycle =
        (session.service.manager, .error .noResource) ∨
      ∃ manager timerId,
        session.service.manager.tmSetTimer moduleId ticks typeId para cycle =
            (manager, .ok timerId) ∧
          manager.timerArraySize = session.service.manager.timerArraySize ∧
          Step session states (session.enroll
            { session.service with manager := manager }
            ⟨moduleId, ⟨timerId, typeId, para⟩, duration, cyclic⟩) := by
  obtain ⟨lists, represented⟩ := tracks.represented
  cases isFree : lists.free with
  | nil => exact .inl (represented.tmSetTimer_empty isFree)
  | cons unit rest =>
      refine .inr ⟨_, _, represented.tmSetTimer isFree, rfl, ?_⟩
      exact tracks.enrolled represented (isFree ▸ .head _) rfl rfl (isTicks _)
        (positive _) (withinTurn _) isCycle isPeriodic

/-- Every request is tracked, and every tick ends. -/
theorem perform
    {fuel : Nat} (tracks : Tracks session states)
    (enough : 2 * session.service.manager.timerArraySize.toNat < fuel)
    (request : Request) :
    ∃ after, session.perform fuel request = some after ∧
      after.service.manager.timerArraySize =
        session.service.manager.timerArraySize ∧
      Step session states after := by
  cases request with
  | start srcModuleId duration typeId param hasTimerId =>
      rw [Session.perform, TimerService.pfTimerStart]
      by_cases disabled : session.service.enabled = false
      · rw [if_pos disabled]
        exact ⟨_, rfl, rfl, tracks.refused rfl⟩
      by_cases wrong : session.service.moduleMax ≤ srcModuleId ∨
          hasTimerId = false
      · rw [if_neg disabled, if_pos wrong]
        exact ⟨_, rfl, rfl, tracks.refused rfl⟩
      rw [if_neg disabled, if_neg wrong]
      have small := duration.toNat_lt
      have isTicks : ∀ message, duration + 1 = UInt32.ofNat
          (ticksOf ⟨srcModuleId, message, duration, false⟩) := by
        intro message
        rw [ticksOf, if_neg nofun, UInt32.ofNat_add, UInt32.ofNat_toNat]
        rfl
      rcases tracks.set_or_refused srcModuleId typeId param 0 isTicks
          (fun _ => Nat.succ_pos _) (fun _ => small) (by simp)
          (fun isCycle => absurd rfl isCycle) with
        full | ⟨manager, timerId, isSet, sameSize, step⟩
      · rw [full]
        exact ⟨_, rfl, rfl, tracks.refused rfl⟩
      · rw [isSet]
        exact ⟨_, rfl, sameSize, step⟩
  | cycleStart srcModuleId duration typeId param hasTimerId =>
      rw [Session.perform, TimerService.pfTimerCycleStart]
      by_cases disabled : session.service.enabled = false
      · rw [if_pos disabled]
        exact ⟨_, rfl, rfl, tracks.refused rfl⟩
      by_cases wrong : session.service.moduleMax ≤ srcModuleId ∨
          hasTimerId = false ∨ duration = 0
      · rw [if_neg disabled, if_pos wrong]
        exact ⟨_, rfl, rfl, tracks.refused rfl⟩
      rw [if_neg disabled, if_neg wrong]
      have notZero : duration ≠ 0 := fun isZero => wrong (.inr (.inr isZero))
      have positive : 0 < duration.toNat := Nat.pos_of_ne_zero fun isZero =>
        notZero (UInt32.toNat_inj.mp isZero)
      have small := duration.toNat_lt
      have isTicks : ∀ message, duration = UInt32.ofNat
          (ticksOf ⟨srcModuleId, message, duration, true⟩) := by
        intro message
        rw [ticksOf, if_pos rfl, UInt32.ofNat_toNat]
      rcases tracks.set_or_refused srcModuleId typeId param 1 isTicks
          (fun _ => positive) (fun _ => Nat.le_of_lt small) (by simp)
          (fun _ => notZero) with
        full | ⟨manager, timerId, isSet, sameSize, step⟩
      · rw [full]
        exact ⟨_, rfl, rfl, tracks.refused rfl⟩
      · rw [isSet]
        exact ⟨_, rfl, sameSize, step⟩
  | stop timerId srcModuleId =>
      rw [Session.perform, TimerService.pfTimerStop]
      by_cases disabled : session.service.enabled = false
      · rw [if_pos disabled]
        exact ⟨_, rfl, rfl, tracks.refused rfl⟩
      rw [if_neg disabled, TimerManager.tmKillTimer_eq]
      obtain ⟨lists, represented⟩ := tracks.represented
      cases answer : session.service.manager.tmIsSetTimer timerId srcModuleId with
      | success =>
          have runs := represented.mem_alloc_iff.mp
            (represented.mem_alloc_of_accepted answer)
          exact ⟨_, rfl, rfl, tracks.stopped runs rfl⟩
      | _ => exact ⟨_, rfl, rfl, tracks.refused rfl⟩
  | restart timerId srcModuleId =>
      rw [Session.perform, TimerService.pfTimerRestart]
      by_cases disabled : session.service.enabled = false
      · rw [if_pos disabled]
        exact ⟨_, rfl, rfl, tracks.refused rfl⟩
      rw [if_neg disabled, TimerManager.tmRestartTimer_eq]
      obtain ⟨lists, represented⟩ := tracks.represented
      cases answer : session.service.manager.tmIsSetTimer timerId srcModuleId with
      | success =>
          have runs := represented.mem_alloc_iff.mp
            (represented.mem_alloc_of_accepted answer)
          exact ⟨_, rfl, rfl, tracks.restarted runs rfl⟩
      | _ => exact ⟨_, rfl, rfl, tracks.refused rfl⟩
  | tick sends => exact tracks.ticked enough sends

/-- No timer is there before the first is started. -/
theorem initial
    {lists : Lists}
    (represented : Represented service.manager lists)
    (noneRuns : lists.alloc = [])
    (oneShot : ∀ unit < service.manager.timerArraySize.toNat,
      (service.manager.timerArray unit).cycle = 0) :
    Tracks (.initial service) fun _ => .absent := by
  have none : ∀ unit, ¬service.manager.Runs unit := by
    intro unit runs
    have member := represented.mem_alloc_iff.mpr runs
    rw [noneRuns] at member
    contradiction
  exact
    { represented := ⟨lists, represented⟩
      periodic := fun unit bound cyclic => absurd (oneShot unit bound) cyclic
      waiting := fun unit runs => absurd runs (none unit)
      runs := nofun
      distinct := fun left _ runs => absurd runs (none left)
      absent := fun _ _ => rfl }

/-- Every sequence of requests runs, and all abstract timers allow what is seen
of it. -/
theorem run
    {fuel : Nat} {requests : List Request}
    (tracks : Tracks session states)
    (enough : 2 * session.service.manager.timerArraySize.toNat < fuel)
    (allowed : ∀ serial,
      AbstractTimer.Allows ticksOf serial session.log (states serial)) :
    ∃ after, Run (fun session request after =>
        session.perform fuel request = some after) session requests after ∧
      ∀ serial, ∃ state,
        AbstractTimer.Allows ticksOf serial after.log state := by
  induction requests generalizing session states with
  | nil => exact ⟨session, .nil session, fun serial => ⟨_, allowed serial⟩⟩
  | cons request requests inductionHypothesis =>
      obtain ⟨middle, performed, sameSize, event, nexts, logged, observed,
        followed⟩ := tracks.perform enough request
      have stillAllowed : ∀ serial,
          AbstractTimer.Allows ticksOf serial middle.log (nexts serial) := by
        intro serial
        rw [logged]
        exact (allowed serial).concat (observed serial)
      obtain ⟨after, run, final⟩ :=
        inductionHypothesis followed (sameSize ▸ enough) stillAllowed
      exact ⟨after, .cons performed run, final⟩

end Tracks

/-- The timer wheel implements the abstract timers.  With fuel for two visits of
each unit every tick ends, whatever the requests were, and what is seen of each
timer is what its abstract timer allows: a one-shot timer is offered its timeout
one tick after its duration, a cyclic one at its duration. -/
theorem timers_allowed
    {memory manager : TimerManager}
    {maxTimerNum hashTableSize tickInterval moduleMax : UInt32}
    {timerArrayAllocated hashTableAllocated enabled : Bool} {fuel : Nat}
    (initialized : memory.tmInitTimerManager maxTimerNum hashTableSize
      tickInterval timerArrayAllocated hashTableAllocated =
        (manager, .success))
    (enough : 2 * maxTimerNum.toNat < fuel) (requests : List Request) :
    ∃ session, Run (fun (before : Session) request after =>
        before.perform fuel request = some after)
        (.initial ⟨enabled, moduleMax, manager⟩) requests session ∧
      ∀ serial, ∃ state,
        AbstractTimer.Allows ticksOf serial session.log state := by
  obtain ⟨represented, settings, oneShot⟩ :=
    represented_tmInitTimerManager initialized
  have size : manager.timerArraySize = maxTimerNum :=
    congrArg (·.2.1) settings
  have tracks : Tracks (.initial ⟨enabled, moduleMax, manager⟩)
      fun _ => .absent :=
    .initial represented rfl fun unit bound => oneShot unit (size ▸ bound)
  exact tracks.run (size ▸ enough) fun serial => AbstractTimer.allows_nil ticksOf

/-- The abstract timers allow what is seen of a timer that is started and
expires. -/
theorem timers_allowed_expired :
    ∃ session, Run (fun (before : Session) request after =>
        before.perform 5 request = some after)
        (.initial ⟨true, 10, (blankMemory.tmInitTimerManager 2 4 1 true true).1⟩)
        [.start 7 1 0 0 true, .tick fun _ => true, .tick fun _ => true]
        session ∧
      ∀ serial, ∃ state,
        AbstractTimer.Allows ticksOf serial session.log state :=
  timers_allowed (Prod.ext rfl rfl) (by decide) _

/-- A one-shot timer of one tick is not offered its timeout at the next tick. -/
theorem not_allowed_at_duration :
    ∃ session, Run (fun (before : Session) request after =>
        before.perform 3 request = some after)
        (.initial ⟨true, 10, (blankMemory.tmInitTimerManager 1 1 1 true true).1⟩)
        [.start 7 1 0 0 true, .tick fun _ => true] session ∧
      ¬∃ state, AbstractTimer.Allows (fun timer => timer.duration.toNat) 1
        session.log state := by
  refine ⟨_, Run.iff_foldlM.mpr rfl, ?_⟩
  rintro ⟨state, allowed⟩
  have observed := Run.iff_foldlM.mp allowed
  exact absurd observed nofun

end Timers
end Pilot2Cloud
