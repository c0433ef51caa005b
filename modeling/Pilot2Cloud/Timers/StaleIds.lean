import Pilot2Cloud.Timers.Status

/-!
# IDs of timers that have ended

An ID holds 18 bits of the number of timers set before.  So the ID of a timer
that has ended is not mistaken for that of a later timer, unless the later one
was set in the same unit a multiple of 2 ^ 18 timers later.
-/

namespace Pilot2Cloud
namespace Timers

open Foundation

/-- The manager, the number of timers set so far, the number of the timer last
set in each unit, and the ID of each timer. -/
structure Ledger where
  manager : TimerManager
  timersSet : Nat
  serialOf : Nat → Nat
  issued : Nat → UInt32

namespace Ledger

/-- No timer has been set. -/
def initial (manager : TimerManager) : Ledger :=
  ⟨manager, 0, fun _ => 0, fun _ => 0⟩

/-- Give a timer that was set the next number. -/
def enter (ledger : Ledger) (manager : TimerManager) (timerId : UInt32) :
    Ledger :=
  let serial := ledger.timersSet + 1
  { manager := manager
    timersSet := serial
    serialOf := Function.update ledger.serialOf (timerIndex timerId) serial
    issued := Function.update ledger.issued serial timerId }

@[simp] theorem serialOf_enter
    {ledger : Ledger} {manager : TimerManager} {timerId : UInt32} :
    (ledger.enter manager timerId).serialOf =
      Function.update ledger.serialOf (timerIndex timerId)
        (ledger.timersSet + 1) :=
  rfl

@[simp] theorem issued_enter
    {ledger : Ledger} {manager : TimerManager} {timerId : UInt32} :
    (ledger.enter manager timerId).issued =
      Function.update ledger.issued (ledger.timersSet + 1) timerId :=
  rfl

/-- The ledger after an operation, if the operation ends. -/
def record (ledger : Ledger) : Operation → Option Ledger
  | .set moduleId duration typeId para cycle =>
      match ledger.manager.tmSetTimer moduleId duration typeId para cycle with
      | (manager, .ok timerId) => some (ledger.enter manager timerId)
      | (manager, .error _) => some { ledger with manager := manager }
  | operation =>
      (ledger.manager.perform operation).map fun manager =>
        { ledger with manager := manager }

end Ledger

namespace TimerManager

/-- One of the operations on a timer accepts an ID. -/
def Accepts (manager : TimerManager) (timerId moduleId : UInt32) : Prop :=
  (manager.tmKillTimer timerId moduleId).2 = .success ∨
    manager.tmIsSetTimer timerId moduleId = .success ∨
    (manager.tmRestartTimer timerId moduleId).2 = .success

theorem accepts_iff {manager : TimerManager} {timerId moduleId : UInt32} :
    manager.Accepts timerId moduleId ↔
      manager.tmIsSetTimer timerId moduleId = .success := by
  rw [Accepts, tmKillTimer_eq, tmRestartTimer_eq, or_self, or_self]

end TimerManager

/-- What the ledger says of the units. -/
structure Ledger.Sound (ledger : Ledger) : Prop where
  represented : ∃ lists, Represented ledger.manager lists
  history : ledger.manager.timerCountHistory = UInt32.ofNat ledger.timersSet
  issued : ∀ serial, 0 < serial → serial ≤ ledger.timersSet →
    ∃ unit < ledger.manager.timerArraySize.toNat,
      ledger.issued serial = issuedId unit (UInt32.ofNat serial) ∧
        serial ≤ ledger.serialOf unit
  running : ∀ unit < ledger.manager.timerArraySize.toNat,
    (ledger.manager.timerArray unit).running = true →
      (ledger.manager.timerArray unit).tmExpMsg.timerId =
        issuedId unit (UInt32.ofNat (ledger.serialOf unit))
  serialOf_le : ∀ unit, ledger.serialOf unit ≤ ledger.timersSet

namespace Ledger.Sound

variable {ledger after : Ledger} {manager : TimerManager}

/-- Timers that go on or end keep the ledger sound. -/
theorem of_sameTimer
    (sound : ledger.Sound) (represented : ∃ lists, Represented manager lists)
    (sameTimer : ∀ unit,
      SameTimer (ledger.manager.timerArray unit) (manager.timerArray unit))
    (sameSize : manager.timerArraySize = ledger.manager.timerArraySize)
    (sameHistory : manager.timerCountHistory =
      ledger.manager.timerCountHistory) :
    ({ ledger with manager := manager } : Ledger).Sound where
  represented := represented
  history := sameHistory.trans sound.history
  issued serial positive bound := by
    obtain ⟨unit, isUnit, isIssued, later⟩ := sound.issued serial positive bound
    exact ⟨unit, sameSize ▸ isUnit, isIssued, later⟩
  running unit bound running := by
    have same := sameTimer unit
    rw [same.tmExpMsg]
    exact sound.running unit (sameSize ▸ bound) (same.running running)
  serialOf_le := sound.serialOf_le

/-- A timer set in a free unit keeps the ledger sound. -/
theorem enter
    {lists : Lists} {unit : Nat} {moduleId duration typeId : UInt32}
    {para : UInt64} {cycle : UInt8} (sound : ledger.Sound)
    (represented : Represented ledger.manager lists)
    (isFree : unit ∈ lists.free) :
    (ledger.enter
      (ledger.manager.start unit moduleId duration typeId para cycle)
      (issuedId unit (ledger.manager.timerCountHistory + 1))).Sound := by
  have bound := represented.lt_of_free isFree
  have small := lt_trans bound represented.size_lt
  have next : ledger.manager.timerCountHistory + 1 =
      UInt32.ofNat (ledger.timersSet + 1) := by
    rw [sound.history, UInt32.ofNat_add]
    rfl
  have serials : (ledger.enter
      (ledger.manager.start unit moduleId duration typeId para cycle)
      (issuedId unit (ledger.manager.timerCountHistory + 1))).serialOf =
        Function.update ledger.serialOf unit (ledger.timersSet + 1) := by
    rw [Ledger.serialOf_enter, timerIndex_issuedId small]
  refine ⟨⟨_, represented.start isFree⟩, next, ?_, ?_, ?_⟩
  · intro serial positive isIssued
    rw [serials]
    by_cases own : serial = ledger.timersSet + 1
    · refine ⟨unit, bound, ?_, ?_⟩
      · rw [own, Ledger.issued_enter, Function.update_self, next]
      · rw [own, Function.update_self]
    · have earlier : serial ≤ ledger.timersSet :=
        Nat.le_of_lt_succ (Nat.lt_of_le_of_ne isIssued own)
      obtain ⟨other, isOther, same, later⟩ :=
        sound.issued serial positive earlier
      refine ⟨other, isOther, ?_, ?_⟩
      · rw [Ledger.issued_enter, Function.update_of_ne own]
        exact same
      · by_cases isUnit : other = unit
        · rw [isUnit, Function.update_self]
          exact Nat.le_succ_of_le earlier
        · rw [Function.update_of_ne isUnit]
          exact later
  · intro other isOther running
    rw [serials]
    simp only [Ledger.enter, TimerManager.timerArray_start] at running ⊢
    by_cases isUnit : other = unit
    · rw [isUnit, Function.update_self, Function.update_self, next]
    · rw [Function.update_of_ne isUnit] at running
      rw [Function.update_of_ne isUnit, Function.update_of_ne isUnit]
      exact sound.running other isOther running
  · intro other
    rw [serials]
    by_cases isUnit : other = unit
    · rw [isUnit, Function.update_self]
      exact Nat.le_refl _
    · rw [Function.update_of_ne isUnit]
      exact Nat.le_succ_of_le (sound.serialOf_le other)

/-- Operations other than set keep the ledger sound. -/
theorem perform
    (sound : ledger.Sound) (operation : Operation)
    (notSet : ∀ moduleId duration typeId para cycle,
      operation ≠ .set moduleId duration typeId para cycle)
    (recorded : (ledger.manager.perform operation).map (fun manager =>
      ({ ledger with manager := manager } : Ledger)) = some after) :
    after.Sound := by
  obtain ⟨lists, represented⟩ := sound.represented
  obtain ⟨manager, performed, rfl⟩ := Option.map_eq_some_iff.mp recorded
  obtain ⟨sameTimer, sameSize, sameHistory⟩ :=
    represented.perform_sameTimer notSet performed
  exact sound.of_sameTimer (represented.perform operation performed) sameTimer
    sameSize sameHistory

/-- Every operation keeps the ledger sound. -/
theorem record
    (sound : ledger.Sound) (operation : Operation)
    (recorded : ledger.record operation = some after) : after.Sound := by
  obtain ⟨lists, represented⟩ := sound.represented
  cases operation with
  | set moduleId duration typeId para cycle =>
      cases isFree : lists.free with
      | nil =>
          rw [Ledger.record, represented.tmSetTimer_empty isFree] at recorded
          obtain rfl := Option.some_inj.mp recorded
          exact sound
      | cons unit rest =>
          rw [Ledger.record, represented.tmSetTimer isFree] at recorded
          obtain rfl := Option.some_inj.mp recorded
          exact sound.enter represented (isFree ▸ .head _)
  | kill timerId moduleId =>
      exact sound.perform (.kill timerId moduleId) (fun _ _ _ _ _ => nofun)
        recorded
  | restart timerId moduleId =>
      exact sound.perform (.restart timerId moduleId) (fun _ _ _ _ _ => nofun)
        recorded
  | tick fuel sends =>
      exact sound.perform (.tick fuel sends) (fun _ _ _ _ _ => nofun) recorded

theorem initial
    {lists : Lists} (represented : Represented manager lists)
    (none : lists.alloc = []) (first : manager.timerCountHistory = 0) :
    (Ledger.initial manager).Sound where
  represented := ⟨lists, represented⟩
  history := first
  issued serial positive bound := absurd positive (Nat.not_lt.mpr bound)
  running unit bound running := by
    have member := (represented.running unit bound).mp running
    rw [none] at member
    contradiction
  serialOf_le _ := Nat.le_refl 0

/-- The ID of a timer is accepted when the last timer of its unit runs for the
same module, and was set a multiple of 2 ^ 18 timers later. -/
theorem accepts_iff
    (sound : ledger.Sound) {serial : Nat} (positive : 0 < serial)
    (bound : serial ≤ ledger.timersSet) (moduleId : UInt32) :
    let unit := timerIndex (ledger.issued serial)
    ledger.manager.Accepts (ledger.issued serial) moduleId ↔
      (ledger.manager.timerArray unit).running = true ∧
        (ledger.manager.timerArray unit).moduleId = moduleId ∧
        2 ^ 18 ∣ ledger.serialOf unit - serial := by
  obtain ⟨lists, represented⟩ := sound.represented
  obtain ⟨unit, isUnit, isIssued, later⟩ := sound.issued serial positive bound
  have small := lt_trans isUnit represented.size_lt
  have index : timerIndex (ledger.issued serial) = unit := by
    rw [isIssued, timerIndex_issuedId small]
  have same_iff : (ledger.manager.timerArray unit).running = true →
      ((ledger.manager.timerArray unit).tmExpMsg.timerId =
          ledger.issued serial ↔
        2 ^ 18 ∣ ledger.serialOf unit - serial) := by
    intro running
    rw [sound.running unit isUnit running, isIssued,
      issuedId_inj small small, and_iff_right rfl, UInt32.toNat_ofNat',
      UInt32.toNat_ofNat']
    omega
  rw [TimerManager.accepts_iff, TimerManager.tmIsSetTimer_eq_success_iff, index,
    and_iff_right isUnit]
  constructor
  · rintro ⟨same, running, receiver⟩
    exact ⟨running, receiver, (same_iff running).mp same⟩
  · rintro ⟨running, receiver, divides⟩
    exact ⟨(same_iff running).mpr divides, running, receiver⟩

theorem issued_ne_invalid
    (sound : ledger.Sound) {serial : Nat} (positive : 0 < serial)
    (bound : serial ≤ ledger.timersSet) :
    ledger.issued serial ≠ 0xFFFFFFFF ∧
      serial ≤ ledger.serialOf (timerIndex (ledger.issued serial)) := by
  obtain ⟨lists, represented⟩ := sound.represented
  obtain ⟨unit, isUnit, isIssued, later⟩ := sound.issued serial positive bound
  have atMost := UInt32.le_iff_toNat_le.mp represented.size_le
  have value : timerArrayMaxSize.toNat = 16383 := by decide
  rw [isIssued, timerIndex_issuedId (by omega)]
  exact ⟨issuedId_ne_invalid (by omega), later⟩

end Ledger.Sound

/-- Timer IDs over every sequence of operations: none is the reserved one, and
the ID of a timer is accepted when the last timer of its unit runs for the same
module and is that timer or was set a multiple of 2 ^ 18 timers later. -/
theorem accepts_iff_of_run
    {memory manager : TimerManager}
    {maxTimerNum hashTableSize tickInterval : UInt32}
    {timerArrayAllocated hashTableAllocated : Bool}
    {operations : List Operation} {ledger : Ledger} {serial : Nat}
    (initialized : memory.tmInitTimerManager maxTimerNum hashTableSize
      tickInterval timerArrayAllocated hashTableAllocated =
        (manager, .success))
    (run : Run (fun (before : Ledger) operation after =>
      before.record operation = some after) (.initial manager) operations
        ledger)
    (positive : 0 < serial) (bound : serial ≤ ledger.timersSet) :
    let unit := timerIndex (ledger.issued serial)
    ledger.issued serial ≠ 0xFFFFFFFF ∧ serial ≤ ledger.serialOf unit ∧
      ∀ moduleId, ledger.manager.Accepts (ledger.issued serial) moduleId ↔
        (ledger.manager.timerArray unit).running = true ∧
          (ledger.manager.timerArray unit).moduleId = moduleId ∧
          2 ^ 18 ∣ ledger.serialOf unit - serial := by
  obtain ⟨represented, settings, -⟩ :=
    represented_tmInitTimerManager initialized
  have sound : ledger.Sound :=
    run.preserves (fun _ operation _ sound recorded =>
      Ledger.Sound.record sound operation recorded)
      (.initial represented rfl (congrArg (·.2.2.2) settings))
  obtain ⟨valid, later⟩ := sound.issued_ne_invalid positive bound
  exact ⟨valid, later, sound.accepts_iff positive bound⟩

/-- A timer is set and killed, and another one is set in its unit: the ID of the
second is accepted, that of the first no longer. -/
theorem accepts_iff_of_run_second :
    ∃ ledger, Run (fun (before : Ledger) operation after =>
        before.record operation = some after)
        (.initial (blankMemory.tmInitTimerManager 1 1 1 true true).1)
        [.set 7 1 0 0 0, .kill (issuedId 0 1) 7, .set 7 1 0 0 0] ledger ∧
      ¬ledger.manager.Accepts (ledger.issued 1) 7 ∧
      ledger.manager.Accepts (ledger.issued 2) 7 := by
  have initialized : blankMemory.tmInitTimerManager 1 1 1 true true =
      ((blankMemory.tmInitTimerManager 1 1 1 true true).1, .success) :=
    Prod.ext rfl rfl
  have run : Run (fun (before : Ledger) operation after =>
      before.record operation = some after)
      (.initial (blankMemory.tmInitTimerManager 1 1 1 true true).1)
      [.set 7 1 0 0 0, .kill (issuedId 0 1) 7, .set 7 1 0 0 0] _ :=
    Run.iff_foldlM.mpr rfl
  refine ⟨_, run, ?_, ?_⟩
  · intro accepted
    have divides := ((accepts_iff_of_run initialized run Nat.one_pos
      (by decide)).2.2 7).mp accepted
    exact absurd divides.2.2 (by decide)
  · exact ((accepts_iff_of_run initialized run Nat.two_pos (Nat.le_refl 2)).2.2
      7).mpr ⟨rfl, rfl, ⟨0, rfl⟩⟩

/-! ## A stale ID that is accepted -/

/-- Set a timer and, some times, kill it and set another. -/
def rounds : Nat → List Operation
  | 0 => [.set 7 1 0 0 0]
  | count + 1 => rounds count ++
      [.kill (issuedId 0 (UInt32.ofNat (count + 1))) 7, .set 7 1 0 0 0]

/-- The last of some timers runs in the first unit. -/
structure Ledger.Occupied (ledger : Ledger) (count : Nat) : Prop where
  sound : ledger.Sound
  timersSet : ledger.timersSet = count
  serialOf : ledger.serialOf 0 = count
  first : ledger.issued 1 = issuedId 0 1
  size : 0 < ledger.manager.timerArraySize.toNat
  running : (ledger.manager.timerArray 0).running = true
  moduleId : (ledger.manager.timerArray 0).moduleId = 7

theorem Ledger.Occupied.of_set
    {ledger : Ledger} {lists : Lists} {rest : List Nat} {count : Nat}
    (sound : ledger.Sound) (represented : Represented ledger.manager lists)
    (isFree : lists.free = 0 :: rest) (set : ledger.timersSet = count)
    (first : count = 0 ∨ ledger.issued 1 = issuedId 0 1) :
    ∃ after, ledger.record (.set 7 1 0 0 0) = some after ∧
      after.Occupied (count + 1) := by
  have member : 0 ∈ lists.free := isFree ▸ .head _
  have bound := represented.lt_of_free member
  have entered : ledger.record (.set 7 1 0 0 0) = some (ledger.enter
      (ledger.manager.start 0 7 1 0 0 0)
      (issuedId 0 (ledger.manager.timerCountHistory + 1))) := by
    rw [record, represented.tmSetTimer isFree]
  refine ⟨_, entered, sound.enter represented member, ?_, ?_, ?_, bound, ?_, ?_⟩
  · exact congrArg (· + 1) set
  · rw [serialOf_enter, timerIndex_issuedId (by decide), Function.update_self,
      set]
  · rw [issued_enter, sound.history, set]
    rcases first with rfl | first
    · rfl
    · by_cases isFirst : 1 = count + 1
      · rw [← isFirst, Function.update_self, ← Nat.succ_injective isFirst]
        rfl
      · rw [Function.update_of_ne isFirst, first]
  · simp only [enter, TimerManager.timerArray_start, Function.update_self]
  · simp only [enter, TimerManager.timerArray_start, Function.update_self]

/-- Killing the last timer and setting another occupies the same unit. -/
theorem Ledger.Occupied.round
    {ledger : Ledger} {count : Nat} (occupied : ledger.Occupied count) :
    ∃ after, Run (fun (before : Ledger) operation after =>
        before.record operation = some after) ledger
        [.kill (issuedId 0 (UInt32.ofNat count)) 7, .set 7 1 0 0 0] after ∧
      after.Occupied (count + 1) := by
  obtain ⟨lists, represented⟩ := occupied.sound.represented
  have isTimer := occupied.sound.running 0 occupied.size occupied.running
  rw [occupied.serialOf] at isTimer
  have index : timerIndex (issuedId 0 (UInt32.ofNat count)) = 0 :=
    timerIndex_issuedId (by decide)
  have accepted : ledger.manager.tmIsSetTimer
      (issuedId 0 (UInt32.ofNat count)) 7 = .success := by
    rw [TimerManager.tmIsSetTimer_eq_success_iff, index]
    exact ⟨occupied.size, isTimer, occupied.running, occupied.moduleId⟩
  have killed : ledger.record (.kill (issuedId 0 (UInt32.ofNat count)) 7) =
      some { ledger with manager := ledger.manager.release 0 } := by
    have performed : ledger.manager.perform
        (.kill (issuedId 0 (UInt32.ofNat count)) 7) =
          some (ledger.manager.release 0) := by
      rw [TimerManager.perform, TimerManager.tmKillTimer_eq, if_pos accepted,
        index]
    exact congrArg
      (Option.map fun manager => ({ ledger with manager := manager } : Ledger))
      performed
  have free := represented.release
    ((represented.running 0 occupied.size).mp occupied.running)
  obtain ⟨after, set, next⟩ := of_set (occupied.sound.record _ killed) free rfl
    occupied.timersSet (.inr occupied.first)
  exact ⟨after, .cons killed (.cons set (.nil after)), next⟩

theorem occupied_rounds (count : Nat) :
    ∃ ledger, Run (fun (before : Ledger) operation after =>
        before.record operation = some after)
        (.initial (blankMemory.tmInitTimerManager 1 1 1 true true).1)
        (rounds count) ledger ∧
      ledger.Occupied (count + 1) := by
  induction count with
  | zero =>
      have initialized : blankMemory.tmInitTimerManager 1 1 1 true true =
          ((blankMemory.tmInitTimerManager 1 1 1 true true).1, .success) :=
        Prod.ext rfl rfl
      obtain ⟨represented, settings, -⟩ :=
        represented_tmInitTimerManager initialized
      have sound := Ledger.Sound.initial represented rfl
        (congrArg (·.2.2.2) settings)
      obtain ⟨after, set, occupied⟩ :=
        Ledger.Occupied.of_set sound represented rfl rfl (.inl rfl)
      exact ⟨after, .cons set (.nil after), occupied⟩
  | succ count inductionHypothesis =>
      obtain ⟨middle, run, occupied⟩ := inductionHypothesis
      obtain ⟨after, round, next⟩ := occupied.round
      exact ⟨after, Run.append_iff.mpr ⟨middle, run, round⟩, next⟩

/-- After 2 ^ 18 rounds the ID of the first timer, which was killed, is accepted
for the timer that runs now. -/
theorem stale_id_accepted :
    ∃ operations ledger, Run (fun (before : Ledger) operation after =>
        before.record operation = some after)
        (.initial (blankMemory.tmInitTimerManager 1 1 1 true true).1)
        operations ledger ∧
      ledger.manager.Accepts (ledger.issued 1) 7 ∧
      ledger.serialOf (timerIndex (ledger.issued 1)) = 2 ^ 18 + 1 := by
  obtain ⟨ledger, run, occupied⟩ := occupied_rounds (2 ^ 18)
  have index : timerIndex (ledger.issued 1) = 0 := by
    rw [occupied.first, timerIndex_issuedId (by decide)]
  refine ⟨_, ledger, run, ?_, ?_⟩
  · have bound : 1 ≤ ledger.timersSet := by
      rw [occupied.timersSet]
      omega
    refine (occupied.sound.accepts_iff Nat.one_pos bound 7).mpr ?_
    rw [index, occupied.serialOf]
    exact ⟨occupied.running, occupied.moduleId, ⟨1, rfl⟩⟩
  · rw [index, occupied.serialOf]

end Timers
end Pilot2Cloud
