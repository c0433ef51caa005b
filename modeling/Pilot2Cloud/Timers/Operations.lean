import Pilot2Cloud.Timers.Represented
import Pilot2Cloud.Timers.TimerId

/-!
# What the operations on timers do

Each operation is described by what it does to the lists and to the unit of one
timer, and it keeps the representation invariant.
-/

namespace Pilot2Cloud
namespace Timers

open Foundation

namespace TimerManager

/-- The manager once a timer is started in the first free unit. -/
def start
    (manager : TimerManager) (timer : Nat) (moduleId duration typeId : UInt32)
    (para : UInt64) (cycle : UInt8) : TimerManager :=
  let history := manager.timerCountHistory + 1
  ({ manager.allocate timer with timerCountHistory := history }.store timer
    { duration := duration
      absExpTick := manager.currentTick + duration
      running := true
      cycle := cycle
      moduleId := moduleId
      tmExpMsg := ⟨issuedId timer history, typeId, para⟩ }).tmInsertTimer timer

variable {manager : TimerManager} {timer other : Nat}
  {moduleId duration typeId : UInt32} {para : UInt64} {cycle : UInt8}

theorem timerArray_start :
    (manager.start timer moduleId duration typeId para cycle).timerArray =
      Function.update manager.timerArray timer
        { duration := duration
          absExpTick := manager.currentTick + duration
          running := true
          cycle := cycle
          moduleId := moduleId
          tmExpMsg :=
            ⟨issuedId timer (manager.timerCountHistory + 1), typeId, para⟩ } :=
  rfl

theorem hashIndex_start :
    (manager.start timer moduleId duration typeId para cycle).hashIndex timer =
      ((manager.currentTick + duration) &&& manager.hashTblLastIdx).toNat := by
  rw [hashIndex, timerArray_start, Function.update_self]
  rfl

theorem hashIndex_start_of_ne (different : other ≠ timer) :
    (manager.start timer moduleId duration typeId para cycle).hashIndex other =
      manager.hashIndex other := by
  rw [hashIndex, timerArray_start, Function.update_of_ne different]
  rfl

/-- An ID is accepted when its unit runs under it for the same module. -/
theorem tmIsSetTimer_eq_success_iff {timerId : UInt32} :
    manager.tmIsSetTimer timerId moduleId = .success ↔
      timerIndex timerId < manager.timerArraySize.toNat ∧
        (manager.timerArray (timerIndex timerId)).tmExpMsg.timerId = timerId ∧
        (manager.timerArray (timerIndex timerId)).running = true ∧
        (manager.timerArray (timerIndex timerId)).moduleId = moduleId := by
  have bound_iff : timerIndex timerId < manager.timerArraySize.toNat ↔
      ¬manager.timerArraySize ≤ timerId &&& timerArrayIndexMask := by
    rw [UInt32.not_le, UInt32.lt_iff_toNat_lt]
    rfl
  rw [bound_iff, tmIsSetTimer]
  by_cases outside :
      manager.timerArraySize ≤ timerId &&& timerArrayIndexMask
  · simp [outside]
  · rw [if_neg outside]
    by_cases stale :
        (manager.timerArray (timerIndex timerId)).tmExpMsg.timerId ≠ timerId ∨
          (manager.timerArray (timerIndex timerId)).running ≠ true
    · rw [if_pos stale]
      refine iff_of_false nofun fun accepted => ?_
      exact stale.elim (· accepted.2.1) (· accepted.2.2.1)
    · rw [if_neg stale]
      rw [not_or, not_not, not_not] at stale
      by_cases same :
          (manager.timerArray (timerIndex timerId)).moduleId = moduleId
      · rw [if_neg (not_not.mpr same)]
        exact iff_of_true rfl ⟨outside, stale.1, stale.2, same⟩
      · rw [if_pos same]
        exact iff_of_false nofun fun accepted => same accepted.2.2.2

theorem tmKillTimer_eq {timerId : UInt32} :
    manager.tmKillTimer timerId moduleId =
      (if manager.tmIsSetTimer timerId moduleId = .success then
        manager.release (timerIndex timerId)
      else manager, manager.tmIsSetTimer timerId moduleId) := by
  rw [tmKillTimer]
  cases manager.tmIsSetTimer timerId moduleId <;> rfl

theorem tmRestartTimer_eq {timerId : UInt32} :
    manager.tmRestartTimer timerId moduleId =
      (if manager.tmIsSetTimer timerId moduleId = .success then
        manager.rearm (timerIndex timerId) (manager.currentTick +
          (manager.timerArray (timerIndex timerId)).duration)
      else manager, manager.tmIsSetTimer timerId moduleId) := by
  rw [tmRestartTimer]
  cases manager.tmIsSetTimer timerId moduleId <;> rfl

/-- When a timer whose message was sent or could not be sent expires again, if
it does. -/
def nextExpiry (manager : TimerManager) (timer : Nat) (sent : Bool) :
    Option UInt32 :=
  if sent = false then
    some (manager.currentTick + 1)
  else if (manager.timerArray timer).cycle = 0 then
    none
  else
    some (manager.currentTick + (manager.timerArray timer).duration)

/-- The messages that could not be sent, of which only the number is kept. -/
def countFailures (manager : TimerManager) (count : UInt32) : TimerManager :=
  { manager with timerMsgFailCount := count }

/-- The manager at the next tick. -/
def advance (manager : TimerManager) : TimerManager :=
  { manager with currentTick := manager.currentTick + 1 }

/-- The bucket of the next tick. -/
def dueIndex (manager : TimerManager) : Nat :=
  ((manager.currentTick + 1) &&& manager.hashTblLastIdx).toNat

theorem dueIndex_le :
    manager.dueIndex ≤ manager.hashTblLastIdx.toNat := by
  rw [dueIndex, UInt32.toNat_and]
  exact Nat.and_le_right

/-- The expiry of a timer releases it or moves it to another bucket. -/
theorem tmExpireTimer_eq (sent : Bool) :
    ∃ count, manager.tmExpireTimer timer sent =
      ((manager.nextExpiry timer sent).elim (manager.release timer)
        (manager.rearm timer)).countFailures count := by
  rw [tmExpireTimer, nextExpiry]
  by_cases failed : sent = false
  · rw [if_pos failed, if_pos failed]
    exact ⟨_, rfl⟩
  · rw [if_neg failed, if_neg failed]
    by_cases once : (manager.timerArray timer).cycle = 0
    · rw [if_pos once]
      exact ⟨manager.timerMsgFailCount, if_pos once⟩
    · rw [if_neg once]
      exact ⟨manager.timerMsgFailCount, if_neg once⟩

end TimerManager

/-- The lists once a timer expires and, perhaps, is linked in a bucket again. -/
def Lists.expire (lists : Lists) (timer index : Nat) (place : Option Nat) :
    Lists :=
  place.elim ((lists.remove timer index).delete timer)
    ((lists.remove timer index).insert timer)

open TimerManager (timerArray_start hashIndex_start hashIndex_start_of_ne)

namespace Represented

variable {manager : TimerManager} {lists : Lists} {timer : Nat}
  {moduleId duration typeId timerId : UInt32} {para : UInt64} {cycle : UInt8}

theorem tmSetTimer_empty
    (represented : Represented manager lists) (noFree : lists.free = []) :
    manager.tmSetTimer moduleId duration typeId para cycle =
      (manager, .error .noResource) := by
  rw [TimerManager.tmSetTimer, represented.linked.tmAllocTimer_empty noFree]

theorem tmSetTimer
    {rest : List Nat} (represented : Represented manager lists)
    (hasFree : lists.free = timer :: rest) :
    manager.tmSetTimer moduleId duration typeId para cycle =
      (manager.start timer moduleId duration typeId para cycle,
        .ok (issuedId timer (manager.timerCountHistory + 1))) := by
  have bound : timer < manager.timerArraySize.toNat := by
    apply represented.lt_of_free
    rw [hasFree]
    exact .head _
  have index : (manager.timerArray timer).tmExpMsg.timerId &&&
      timerArrayIndexMask = UInt32.ofNat timer := by
    rw [and_mask_eq_ofNat, represented.timerIndex_eq timer bound]
  rw [TimerManager.tmSetTimer, represented.linked.tmAllocTimer hasFree bound]
  simp only [TimerManager.allocate, index]
  rfl

/-- A started timer is allocated and linked in the bucket of its expiry. -/
theorem start
    (represented : Represented manager lists) (member : timer ∈ lists.free) :
    Represented (manager.start timer moduleId duration typeId para cycle)
      ((lists.allocate timer).insert timer
        ((manager.currentTick + duration) &&& manager.hashTblLastIdx).toNat)
    where
  linked := by
    have inNone : ∀ index, timer ∉ lists.bucket index := by
      intro index inBucket
      exact represented.not_mem_free
        ((represented.mem_bucket timer index).mp inBucket).1 member
    have linked := represented.linked.allocate member
    rw [← hashIndex_start]
    exact Linked.tmInsertTimer
      ⟨linked.rings, linked.node_data, linked.hashNode_data⟩
      fun index _ => inNone index
  units := by
    refine List.Perm.trans ?_ represented.units
    exact List.perm_middle.trans
      ((List.perm_cons_erase member).symm.append_right _)
  mem_bucket other index := by
    rw [Lists.mem_bucket_insert]
    show other ∈ lists.bucket index ∨ _ ↔ other ∈ timer :: lists.alloc ∧ _
    rw [represented.mem_bucket, List.mem_cons]
    by_cases same : other = timer
    · subst same
      rw [hashIndex_start]
      have notAlloc : other ∉ lists.alloc := fun isAlloc =>
        represented.not_mem_free isAlloc member
      simp [notAlloc]
    · rw [hashIndex_start_of_ne same]
      simp [same]
  running other bound := by
    show _ ↔ other ∈ timer :: lists.alloc
    rw [timerArray_start, List.mem_cons]
    by_cases same : other = timer
    · simp [same]
    · rw [Function.update_of_ne same, or_iff_right same]
      exact represented.running other bound
  count := by
    show (manager.timerCount + 1).toNat = lists.alloc.length + 1
    have positive := List.length_pos_of_mem member
    have total := represented.length_add_length
    have bound := represented.size_lt
    rw [UInt32.toNat_add, represented.count]
    apply Nat.mod_eq_of_lt
    show lists.alloc.length + 1 < 2 ^ 32
    omega
  size_le := represented.size_le
  timerIndex_eq other bound := by
    rw [timerArray_start]
    by_cases same : other = timer
    · rw [same, Function.update_self]
      exact timerIndex_issuedId (lt_trans
        (represented.lt_of_free member) represented.size_lt)
    · rw [Function.update_of_ne same]
      exact represented.timerIndex_eq other bound

theorem mem_alloc_of_accepted
    (represented : Represented manager lists)
    (accepted : manager.tmIsSetTimer timerId moduleId = .success) :
    timerIndex timerId ∈ lists.alloc := by
  obtain ⟨bound, -, running, -⟩ :=
    TimerManager.tmIsSetTimer_eq_success_iff.mp accepted
  exact (represented.running _ bound).mp running

theorem countFailures
    (represented : Represented manager lists) (count : UInt32) :
    Represented (manager.countFailures count) lists :=
  ⟨⟨represented.linked.rings, represented.linked.node_data,
    represented.linked.hashNode_data⟩, represented.units,
    represented.mem_bucket, represented.running, represented.count,
    represented.size_le, represented.timerIndex_eq⟩

theorem advance (represented : Represented manager lists) :
    Represented manager.advance lists :=
  ⟨⟨represented.linked.rings, represented.linked.node_data,
    represented.linked.hashNode_data⟩, represented.units,
    represented.mem_bucket, represented.running, represented.count,
    represented.size_le, represented.timerIndex_eq⟩

theorem expire
    (represented : Represented manager lists) (member : timer ∈ lists.alloc)
    (sent : Bool) :
    Represented (manager.tmExpireTimer timer sent)
      (lists.expire timer (manager.hashIndex timer)
        ((manager.nextExpiry timer sent).map fun tick =>
          (tick &&& manager.hashTblLastIdx).toNat)) := by
  obtain ⟨count, same⟩ := manager.tmExpireTimer_eq sent
  rw [same]
  apply countFailures
  cases manager.nextExpiry timer sent with
  | none => exact represented.release member
  | some tick => exact represented.rearm member tick

end Represented
end Timers
end Pilot2Cloud
