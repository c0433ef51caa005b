import Pilot2Cloud.Timers.Operations

/-!
# The walk of a tick

A tick walks the bucket of the tick it has come to.  A timer that expires and is
linked at the end of the same bucket is met again, or not, depending on where
the walk stands; either way it is no longer due.  So the walk ends, and what it
does is to expire the timers that were due at its start, in their order.
-/

namespace Pilot2Cloud
namespace Timers

open Foundation

/-- A unit goes on with the same timer, or that timer has ended. -/
structure SameTimer (before after : TimerUnit) : Prop where
  tmExpMsg : after.tmExpMsg = before.tmExpMsg
  moduleId : after.moduleId = before.moduleId
  duration : after.duration = before.duration
  cycle : after.cycle = before.cycle
  running : after.running = true → before.running = true

/-- What every operation but a start and a tick leaves as it is. -/
structure Untouched (manager after : TimerManager) : Prop where
  sameTimer : ∀ timer,
    SameTimer (manager.timerArray timer) (after.timerArray timer)
  currentTick : after.currentTick = manager.currentTick
  timerArraySize : after.timerArraySize = manager.timerArraySize
  hashTblLastIdx : after.hashTblLastIdx = manager.hashTblLastIdx
  timerCountHistory : after.timerCountHistory = manager.timerCountHistory

theorem SameTimer.refl (unit : TimerUnit) : SameTimer unit unit :=
  ⟨rfl, rfl, rfl, rfl, id⟩

theorem SameTimer.trans
    {before middle after : TimerUnit} (first : SameTimer before middle)
    (second : SameTimer middle after) : SameTimer before after :=
  ⟨second.tmExpMsg.trans first.tmExpMsg, second.moduleId.trans first.moduleId,
    second.duration.trans first.duration, second.cycle.trans first.cycle,
    first.running ∘ second.running⟩

theorem SameTimer.update
    {units : Nat → TimerUnit} {timer : Nat} {unit : TimerUnit}
    (same : SameTimer (units timer) unit) (other : Nat) :
    SameTimer (units other) (Function.update units timer unit other) := by
  by_cases isTimer : other = timer
  · rw [isTimer, Function.update_self]
    exact same
  · rw [Function.update_of_ne isTimer]
    exact .refl _

theorem Untouched.refl (manager : TimerManager) : Untouched manager manager :=
  ⟨fun _ => .refl _, rfl, rfl, rfl, rfl⟩

theorem Untouched.trans
    {manager middle after : TimerManager}
    (first : Untouched manager middle) (second : Untouched middle after) :
    Untouched manager after :=
  ⟨fun timer => (first.sameTimer timer).trans (second.sameTimer timer),
    second.currentTick.trans first.currentTick,
    second.timerArraySize.trans first.timerArraySize,
    second.hashTblLastIdx.trans first.hashTblLastIdx,
    second.timerCountHistory.trans first.timerCountHistory⟩

theorem Untouched.sameTimers
    {manager after : TimerManager} (untouched : Untouched manager after) :
    (∀ timer, SameTimer (manager.timerArray timer) (after.timerArray timer)) ∧
      after.timerArraySize = manager.timerArraySize ∧
      after.timerCountHistory = manager.timerCountHistory :=
  ⟨untouched.sameTimer, untouched.timerArraySize, untouched.timerCountHistory⟩

namespace TimerManager

variable {manager : TimerManager} {timer other : Nat} {sent : Bool}

/-- The unit of a timer once it has expired. -/
def expired (manager : TimerManager) (timer : Nat) (sent : Bool) : TimerUnit :=
  (manager.nextExpiry timer sent).elim
    { manager.timerArray timer with running := false }
    fun tick => { manager.timerArray timer with absExpTick := tick }

@[simp] theorem expired_unsent :
    manager.expired timer false =
      { manager.timerArray timer with
        absExpTick := manager.currentTick + 1 } :=
  rfl

theorem expired_once (once : (manager.timerArray timer).cycle = 0) :
    manager.expired timer true =
      { manager.timerArray timer with running := false } := by
  have wasSent : ¬true = false := nofun
  rw [expired, nextExpiry, if_neg wasSent, if_pos once]
  rfl

theorem expired_cyclic (cyclic : (manager.timerArray timer).cycle ≠ 0) :
    manager.expired timer true =
      { manager.timerArray timer with
        absExpTick :=
          manager.currentTick + (manager.timerArray timer).duration } := by
  have wasSent : ¬true = false := nofun
  rw [expired, nextExpiry, if_neg wasSent, if_neg cyclic]
  rfl

theorem untouched_release : Untouched manager (manager.release timer) :=
  ⟨SameTimer.update ⟨rfl, rfl, rfl, rfl, nofun⟩, rfl, rfl, rfl, rfl⟩

theorem untouched_rearm (tick : UInt32) :
    Untouched manager (manager.rearm timer tick) :=
  ⟨SameTimer.update ⟨rfl, rfl, rfl, rfl, id⟩, rfl, rfl, rfl, rfl⟩

theorem untouched_tmExpireTimer :
    Untouched manager (manager.tmExpireTimer timer sent) := by
  obtain ⟨count, same⟩ := manager.tmExpireTimer_eq sent
  rw [same]
  cases manager.nextExpiry timer sent with
  | none =>
      have released : Untouched manager (manager.release timer) :=
        untouched_release
      exact ⟨released.sameTimer, rfl, rfl, rfl, rfl⟩
  | some tick =>
      have rearmed : Untouched manager (manager.rearm timer tick) :=
        untouched_rearm tick
      exact ⟨rearmed.sameTimer, rfl, rfl, rfl, rfl⟩

theorem timerArray_tmExpireTimer :
    (manager.tmExpireTimer timer sent).timerArray =
      Function.update manager.timerArray timer (manager.expired timer sent) := by
  obtain ⟨count, same⟩ := manager.tmExpireTimer_eq sent
  rw [same, expired]
  cases manager.nextExpiry timer sent <;> rfl

/-- Cyclic timers have a period. -/
def Periodic (manager : TimerManager) (timer : Nat) : Prop :=
  (manager.timerArray timer).cycle ≠ 0 → (manager.timerArray timer).duration ≠ 0

/-- A timer that expired is not due again at the same tick. -/
theorem not_due_of_expired
    (periodic : manager.Periodic timer)
    {tick : UInt32} (again : manager.nextExpiry timer sent = some tick) :
    tick ≠ manager.currentTick := by
  rw [nextExpiry] at again
  split_ifs at again with failed once
  · obtain rfl := Option.some_inj.mp again
    intro same
    exact absurd (UInt32.add_eq_left.mp same) (by decide)
  · obtain rfl := Option.some_inj.mp again
    intro same
    exact periodic once (UInt32.add_eq_left.mp same)

end TimerManager

/-! ## One timer of the walk -/

/-- The node at which a walk goes on that has some timers before it. -/
def walkNode (index : Nat) (rest : List Nat) : ListNode :=
  (rest.map ListNode.hashNode).headD (.activeTimerList index)

namespace Represented

variable {manager : TimerManager} {lists : Lists} {timer index : Nat}
  {passed rest : List Nat}

theorem walk_start
    (represented : Represented manager lists)
    (bound : index ≤ manager.hashTblLastIdx.toNat) :
    manager.links.next (.activeTimerList index) =
      walkNode index (lists.bucket index) :=
  (represented.linked.ring_bucket bound).next_head

/-- Where the walk is at a timer, that is a timer of the bucket, and the next
node is the one after it. -/
theorem walk_here
    (represented : Represented manager lists)
    (bucket : lists.bucket index = passed ++ timer :: rest) :
    timer ∈ lists.alloc ∧ manager.hashIndex timer = index ∧
      manager.data (walkNode index (timer :: rest)) = timer ∧
      manager.links.next (walkNode index (timer :: rest)) =
        walkNode index rest := by
  have member : timer ∈ lists.bucket index := by simp [bucket]
  obtain ⟨allocated, rfl⟩ := (represented.mem_bucket timer index).mp member
  refine ⟨allocated, rfl, ?_, ?_⟩
  · exact represented.linked.hashNode_data timer
      (represented.lt_of_alloc allocated)
  · have bound : manager.hashIndex timer ≤ manager.hashTblLastIdx.toNat :=
      TimerManager.hashIndex_le
    have ring := represented.linked.ring_bucket bound
    rw [bucket, List.map_append] at ring
    exact ring.next_node

end Represented

/-- What is left to walk once a timer has expired: the rest, and perhaps the
timer itself at its end. -/
theorem Lists.bucket_expire
    {lists : Lists} {timer index : Nat} {passed rest : List Nat}
    (place : Option Nat) (bucket : lists.bucket index = passed ++ timer :: rest)
    (fresh : timer ∉ passed) :
    ∃ before left, (lists.expire timer index place).bucket index =
        before ++ left ∧
      (left = rest ∨ left = rest ++ [timer] ∧ place = some index) ∧
      walkNode index left = walkNode index rest := by
  have removed : (lists.remove timer index).bucket index = passed ++ rest := by
    rw [Lists.bucket_remove, Function.update_self, bucket,
      List.erase_append_right _ fresh, List.erase_cons_head]
  by_cases again : place = some index
  · subst again
    have inserted : (lists.expire timer index (some index)).bucket index =
        passed ++ rest ++ [timer] := by
      show Function.update _ index _ index = _
      rw [Function.update_self, removed]
    cases rest with
    | nil => exact ⟨passed ++ [timer], [], by simpa using inserted, .inl rfl, rfl⟩
    | cons next rest =>
        exact ⟨passed, next :: rest ++ [timer], by simpa using inserted,
          .inr ⟨rfl, rfl⟩, rfl⟩
  · refine ⟨passed, rest, ?_, .inl rfl, rfl⟩
    cases place with
    | none => exact removed
    | some place =>
        have different : index ≠ place := by
          rintro rfl
          exact again rfl
        show Function.update _ place _ index = _
        rw [Function.update_of_ne different, removed]

/-! ## The whole walk -/

namespace Represented

variable {manager after : TimerManager} {lists : Lists} {index fuel : Nat}
  {passed rest : List Nat} {sends : Nat → Bool} {tick : UInt32}
  {timeouts result : List Timeout}

@[simp] theorem walkBucket_nil :
    TimerManager.walkBucket sends (.activeTimerList index) tick (fuel + 1)
        manager timeouts (walkNode index []) =
      some (manager, timeouts) := by
  rw [TimerManager.walkBucket, if_pos (by rfl)]

theorem walkBucket_cons
    {timer : Nat} (represented : Represented manager lists)
    (bucket : lists.bucket index = passed ++ timer :: rest) :
    TimerManager.walkBucket sends (.activeTimerList index) tick (fuel + 1)
        manager timeouts (walkNode index (timer :: rest)) =
      if (manager.timerArray timer).absExpTick = tick then
        TimerManager.walkBucket sends (.activeTimerList index) tick fuel
          (manager.tmExpireTimer timer (sends timeouts.length))
          (timeouts ++ [manager.timeout timer (sends timeouts.length)])
          (walkNode index rest)
      else
        TimerManager.walkBucket sends (.activeTimerList index) tick fuel
          manager timeouts (walkNode index rest) := by
  obtain ⟨-, -, isTimer, isNext⟩ := represented.walk_here bucket
  rw [TimerManager.walkBucket, if_neg (by nofun), isTimer, isNext]

/-- What is left to walk once the timer that the walk is at has expired. -/
theorem walk_expire
    {timer : Nat} (represented : Represented manager lists)
    (bucket : lists.bucket index = passed ++ timer :: rest) (sent : Bool) :
    ∃ changed before left,
      Represented (manager.tmExpireTimer timer sent) changed ∧
        changed.bucket index = before ++ left ∧
        (left = rest ∨ left = rest ++ [timer] ∧
          (manager.nextExpiry timer sent).isSome) ∧
        walkNode index left = walkNode index rest := by
  obtain ⟨allocated, isIndex, -, -⟩ := represented.walk_here bucket
  have bound : index ≤ manager.hashTblLastIdx.toNat :=
    isIndex ▸ TimerManager.hashIndex_le
  have distinct := represented.linked.bucket_nodup bound
  rw [bucket] at distinct
  have fresh : timer ∉ passed := fun member =>
    (List.nodup_append.mp distinct).2.2 timer member timer (.head _) rfl
  have changed := represented.expire allocated sent
  rw [isIndex] at changed
  obtain ⟨before, left, split, isLeft, sameNode⟩ :=
    Lists.bucket_expire _ bucket fresh
  refine ⟨_, before, left, changed, split, ?_, sameNode⟩
  refine isLeft.imp_right fun again => ⟨again.1, ?_⟩
  obtain ⟨tick, next, -⟩ := Option.map_eq_some_iff.mp again.2
  rw [next]
  rfl

/-- A walk that ends keeps the representation invariant. -/
theorem walkBucket
    (represented : Represented manager lists)
    (bucket : lists.bucket index = passed ++ rest)
    (ended : TimerManager.walkBucket sends (.activeTimerList index) tick fuel
      manager timeouts (walkNode index rest) = some (after, result)) :
    Untouched manager after ∧ ∃ changed, Represented after changed := by
  induction fuel generalizing manager lists passed rest timeouts with
  | zero => contradiction
  | succ fuel inductionHypothesis =>
      cases rest with
      | nil =>
          rw [walkBucket_nil] at ended
          obtain ⟨rfl, -⟩ := Prod.mk.inj (Option.some_inj.mp ended)
          exact ⟨.refl manager, lists, represented⟩
      | cons timer rest =>
          rw [represented.walkBucket_cons bucket] at ended
          split_ifs at ended with due
          · obtain ⟨changed, before, left, kept, split, -, sameNode⟩ :=
              represented.walk_expire bucket (sends timeouts.length)
            rw [← sameNode] at ended
            obtain ⟨untouched, final⟩ := inductionHypothesis kept split ended
            exact ⟨TimerManager.untouched_tmExpireTimer.trans untouched, final⟩
          · rw [List.append_cons] at bucket
            exact inductionHypothesis represented bucket ended

theorem tmTick_eq (represented : Represented manager lists) :
    manager.tmTick fuel sends =
      TimerManager.walkBucket sends (.activeTimerList manager.dueIndex)
        (manager.currentTick + 1) fuel manager.advance []
        (walkNode manager.dueIndex (lists.bucket manager.dueIndex)) := by
  rw [← represented.walk_start TimerManager.dueIndex_le]
  rfl

/-- A tick that ends keeps the representation invariant. -/
theorem tmTick
    (represented : Represented manager lists)
    (ended : manager.tmTick fuel sends = some (after, result)) :
    Untouched manager.advance after ∧
      ∃ changed, Represented after changed := by
  rw [represented.tmTick_eq] at ended
  exact represented.advance.walkBucket (List.nil_append _).symm ended

end Represented

end Timers
end Pilot2Cloud
