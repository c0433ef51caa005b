import Pilot2Cloud.Timers.Tick

/-!
# What a tick does

When cyclic timers have a period, the walk of a tick ends.  It expires the
timers that were due at its start, each once, and no other.
-/

namespace Pilot2Cloud
namespace Timers

open Foundation

/-- Expire timers one after the other. -/
def expireAll (sends : Nat → Bool) :
    List Nat → TimerManager × List Timeout → TimerManager × List Timeout
  | [], reached => reached
  | timer :: timers, (manager, timeouts) =>
      let sent := sends timeouts.length
      expireAll sends timers (manager.tmExpireTimer timer sent,
        timeouts ++ [manager.timeout timer sent])

namespace TimerManager

variable {manager : TimerManager} {timer : Nat} {tick : UInt32}

/-- The timer expires at a tick. -/
def isDue (manager : TimerManager) (tick : UInt32) (timer : Nat) : Bool :=
  (manager.timerArray timer).absExpTick == tick

theorem isDue_expire_of_ne
    {other : Nat} (different : other ≠ timer) (sent : Bool) :
    (manager.tmExpireTimer timer sent).isDue tick other =
      manager.isDue tick other := by
  rw [isDue, timerArray_tmExpireTimer, Function.update_of_ne different, isDue]

/-- A timer that is linked again after it expired is not due. -/
theorem not_isDue_expired
    {sent : Bool} (periodic : manager.Periodic timer)
    (again : (manager.nextExpiry timer sent).isSome) :
    (manager.tmExpireTimer timer sent).isDue manager.currentTick timer =
      false := by
  obtain ⟨next, isNext⟩ := Option.isSome_iff_exists.mp again
  rw [isDue, timerArray_tmExpireTimer, Function.update_self, expired, isNext]
  exact beq_false_of_ne (not_due_of_expired periodic isNext)

/-- What a timer does next depends on its own unit and on the tick. -/
theorem expired_expire_of_ne
    {other : Nat} (different : other ≠ timer) (sent outcome : Bool) :
    (manager.tmExpireTimer timer sent).expired other outcome =
      manager.expired other outcome := by
  have sameUnit : (manager.tmExpireTimer timer sent).timerArray other =
      manager.timerArray other := by
    rw [timerArray_tmExpireTimer, Function.update_of_ne different]
  have sameTick : (manager.tmExpireTimer timer sent).currentTick =
      manager.currentTick := untouched_tmExpireTimer.currentTick
  rw [expired, expired, nextExpiry, nextExpiry, sameUnit, sameTick]

theorem timeout_expire_of_ne
    {other : Nat} (different : other ≠ timer) (sent outcome : Bool) :
    (manager.tmExpireTimer timer sent).timeout other outcome =
      manager.timeout other outcome := by
  rw [timeout, timerArray_tmExpireTimer, Function.update_of_ne different,
    timeout]

theorem Periodic.of_sameTimer
    {after : TimerManager} (periodic : manager.Periodic timer)
    (same : SameTimer (manager.timerArray timer) (after.timerArray timer)) :
    after.Periodic timer := by
  rw [Periodic, same.cycle, same.duration]
  exact periodic

end TimerManager

theorem Lists.mem_alloc_expire_of_ne
    {lists : Lists} {timer other index : Nat} {place : Option Nat}
    (different : other ≠ timer) (member : other ∈ lists.alloc) :
    other ∈ (lists.expire timer index place).alloc := by
  cases place with
  | none => exact (List.mem_erase_of_ne different).mpr member
  | some place => exact member

namespace Represented

variable {manager : TimerManager} {lists : Lists} {index fuel : Nat}
  {passed rest : List Nat} {sends : Nat → Bool} {timeouts : List Timeout}

/-- The timers to walk that are due. -/
def dueTimers (manager : TimerManager) (rest : List Nat) : List Nat :=
  rest.filter (manager.isDue manager.currentTick)

/-- What is left to walk once a timer has expired has the same timers due as
the rest had. -/
theorem dueTimers_left
    {timer : Nat} {sent : Bool} {left : List Nat}
    (periodic : manager.Periodic timer) (fresh : timer ∉ rest)
    (isLeft : left = rest ∨ left = rest ++ [timer] ∧
      (manager.nextExpiry timer sent).isSome) :
    dueTimers (manager.tmExpireTimer timer sent) left =
        dueTimers manager rest ∧
      left.length ≤ rest.length + 1 := by
  have sameTick : (manager.tmExpireTimer timer sent).currentTick =
      manager.currentTick := TimerManager.untouched_tmExpireTimer.currentTick
  have others : dueTimers (manager.tmExpireTimer timer sent) rest =
      dueTimers manager rest := by
    rw [dueTimers, sameTick]
    apply List.filter_congr
    intro other member
    apply TimerManager.isDue_expire_of_ne
    rintro rfl
    exact fresh member
  rcases isLeft with rfl | ⟨rfl, again⟩
  · exact ⟨others, Nat.le_succ _⟩
  · refine ⟨?_, List.length_append.le⟩
    have notDue := TimerManager.not_isDue_expired periodic again
    rw [dueTimers, List.filter_append, ← dueTimers, others, sameTick]
    simp [notDue]

/-- With enough fuel a walk ends, and it expires the timers that are due among
those left to walk. -/
theorem walkBucket_eq_expireAll
    (represented : Represented manager lists)
    (periodic : ∀ timer < manager.timerArraySize.toNat,
      manager.Periodic timer)
    (bucket : lists.bucket index = passed ++ rest)
    (enough : rest.length + (dueTimers manager rest).length < fuel) :
    TimerManager.walkBucket sends (.activeTimerList index) manager.currentTick
        fuel manager timeouts (walkNode index rest) =
      some (expireAll sends (dueTimers manager rest) (manager, timeouts)) := by
  induction fuel generalizing manager lists passed rest timeouts with
  | zero => contradiction
  | succ fuel inductionHypothesis =>
      cases rest with
      | nil =>
          rw [walkBucket_nil]
          rfl
      | cons timer rest =>
          rw [represented.walkBucket_cons bucket]
          by_cases due : (manager.timerArray timer).absExpTick =
              manager.currentTick
          · have isDue : manager.isDue manager.currentTick timer = true :=
              beq_iff_eq.mpr due
            rw [dueTimers, List.filter_cons_of_pos isDue, List.length_cons,
              List.length_cons, ← dueTimers] at enough
            obtain ⟨allocated, isIndex, -, -⟩ := represented.walk_here bucket
            have fresh : timer ∉ rest := by
              have distinct := represented.linked.bucket_nodup
                (isIndex ▸ TimerManager.hashIndex_le)
              rw [bucket] at distinct
              exact (List.nodup_cons.mp (List.nodup_append.mp distinct).2.1).1
            obtain ⟨changed, before, left, kept, split, isLeft, sameNode⟩ :=
              represented.walk_expire bucket (sends timeouts.length)
            obtain ⟨sameDue, atMost⟩ := dueTimers_left
              (periodic timer (represented.lt_of_alloc allocated)) fresh isLeft
            have untouched : Untouched manager
                (manager.tmExpireTimer timer (sends timeouts.length)) :=
              TimerManager.untouched_tmExpireTimer
            have stillPeriodic : ∀ other <
                (manager.tmExpireTimer timer
                  (sends timeouts.length)).timerArraySize.toNat,
                (manager.tmExpireTimer timer
                  (sends timeouts.length)).Periodic other := by
              intro other bound
              rw [untouched.timerArraySize] at bound
              exact (periodic other bound).of_sameTimer
                (untouched.sameTimer other)
            have expiredFirst : dueTimers manager (timer :: rest) =
                timer :: dueTimers manager rest :=
              List.filter_cons_of_pos isDue
            rw [if_pos due, ← sameNode, ← untouched.currentTick,
              inductionHypothesis kept stillPeriodic split
                (by
                  rw [sameDue]
                  omega),
              sameDue, expiredFirst]
            rfl
          · have notDue : ¬manager.isDue manager.currentTick timer = true :=
              fun isDue => due (beq_iff_eq.mp isDue)
            rw [List.append_cons] at bucket
            rw [dueTimers, List.filter_cons_of_neg notDue,
              List.length_cons] at enough
            rw [if_neg due, dueTimers, List.filter_cons_of_neg notDue]
            apply inductionHypothesis represented periodic bucket
            rw [dueTimers]
            omega

/-- What expiring different allocated timers does: each is offered its timeout
once, with some outcome, and changes by that outcome. -/
theorem expireAll_spec
    (represented : Represented manager lists) (sends : Nat → Bool)
    (timeouts : List Timeout) {timers : List Nat}
    (distinct : timers.Nodup)
    (allocated : ∀ timer ∈ timers, timer ∈ lists.alloc) :
    ∃ outcome : Nat → Bool, ∃ after changed,
      expireAll sends timers (manager, timeouts) =
          (after, timeouts ++
            timers.map fun timer => manager.timeout timer (outcome timer)) ∧
        Represented after changed ∧ Untouched manager after ∧
        ∀ timer, after.timerArray timer =
          if timer ∈ timers then manager.expired timer (outcome timer)
          else manager.timerArray timer := by
  induction timers generalizing manager lists timeouts with
  | nil =>
      exact ⟨fun _ => true, manager, lists,
        Prod.ext rfl (List.append_nil _).symm, represented, .refl manager,
        fun timer => (if_neg List.not_mem_nil).symm⟩
  | cons timer timers inductionHypothesis =>
      obtain ⟨fresh, distinct⟩ := List.nodup_cons.mp distinct
      rw [List.forall_mem_cons] at allocated
      have others : ∀ other ∈ timers, other ≠ timer := by
        rintro other member rfl
        exact fresh member
      obtain ⟨outcome, after, changed, result, kept, untouched, units⟩ :=
        inductionHypothesis
          (represented.expire allocated.1 (sends timeouts.length))
          (timeouts ++ [manager.timeout timer (sends timeouts.length)]) distinct
          fun other member => Lists.mem_alloc_expire_of_ne
            (others other member) (allocated.2 other member)
      refine ⟨Function.update outcome timer (sends timeouts.length), after,
        changed, ?_, kept, TimerManager.untouched_tmExpireTimer.trans untouched,
        ?_⟩
      · have later : (timers.map fun other =>
            (manager.tmExpireTimer timer (sends timeouts.length)).timeout other
              (outcome other)) =
            timers.map fun other => manager.timeout other
              (Function.update outcome timer (sends timeouts.length) other) := by
          apply List.map_congr_left
          intro other member
          rw [TimerManager.timeout_expire_of_ne (others other member),
            Function.update_of_ne (others other member)]
        rw [expireAll, result, later, List.map_cons, Function.update_self,
          List.append_assoc]
        rfl
      · intro other
        rw [units other]
        by_cases isTimer : other = timer
        · subst isTimer
          rw [if_neg fresh, if_pos (.head _), Function.update_self,
            TimerManager.timerArray_tmExpireTimer, Function.update_self]
        · rw [Function.update_of_ne isTimer,
            TimerManager.expired_expire_of_ne isTimer,
            TimerManager.timerArray_tmExpireTimer,
            Function.update_of_ne isTimer]
          simp [isTimer]

/-- What a tick does: the timers whose expiry tick it is are offered their
timeouts, each with some outcome, and change by that outcome. -/
theorem tmTick_spec
    (represented : Represented manager lists)
    (periodic : ∀ timer < manager.timerArraySize.toNat, manager.Periodic timer)
    (enough : 2 * manager.timerArraySize.toNat < fuel) :
    ∃ due : List Nat, ∃ outcome : Nat → Bool, ∃ after changed,
      manager.tmTick fuel sends =
          some (after, due.map fun timer => manager.timeout timer (outcome timer))
        ∧ due.Nodup ∧
        (∀ timer, timer ∈ due ↔ timer ∈ lists.alloc ∧
          (manager.timerArray timer).absExpTick = manager.currentTick + 1) ∧
        Represented after changed ∧ Untouched manager.advance after ∧
        ∀ timer, after.timerArray timer =
          if timer ∈ due then manager.advance.expired timer (outcome timer)
          else manager.timerArray timer := by
  have ready := represented.advance
  have distinct : (lists.bucket manager.dueIndex).Nodup :=
    represented.linked.bucket_nodup TimerManager.dueIndex_le
  have due_iff : ∀ timer,
      timer ∈ dueTimers manager.advance (lists.bucket manager.dueIndex) ↔
        timer ∈ lists.alloc ∧ (manager.timerArray timer).absExpTick =
          manager.currentTick + 1 := by
    intro timer
    rw [dueTimers, List.mem_filter, represented.mem_bucket,
      TimerManager.isDue, beq_iff_eq, and_assoc]
    refine and_congr_right fun _ => and_iff_right_of_imp fun due => ?_
    rw [TimerManager.dueIndex, TimerManager.hashIndex]
    exact congrArg _ (congrArg (· &&& _) due.symm)
  obtain ⟨outcome, after, changed, result, kept, untouched, units⟩ :=
    ready.expireAll_spec sends []
      (distinct.filter (manager.advance.isDue manager.advance.currentTick))
      fun timer member => ((due_iff timer).mp member).1
  have short : (lists.bucket manager.dueIndex).length ≤
      manager.timerArraySize.toNat := by
    have subset : lists.bucket manager.dueIndex ⊆ lists.alloc :=
      fun timer member => ((represented.mem_bucket timer _).mp member).1
    have atMost := (List.subperm_of_subset distinct subset).length_le
    have total := represented.length_add_length
    omega
  have shorter : (dueTimers manager.advance
      (lists.bucket manager.dueIndex)).length ≤
        (lists.bucket manager.dueIndex).length :=
    List.length_filter_le _ _
  have walked : TimerManager.walkBucket sends
      (.activeTimerList manager.dueIndex) manager.advance.currentTick fuel
      manager.advance [] (walkNode manager.dueIndex
        (lists.bucket manager.dueIndex)) = _ :=
    ready.walkBucket_eq_expireAll periodic (List.nil_append _).symm
      (by omega)
  refine ⟨_, outcome, after, changed, ?_, distinct.filter _, due_iff, kept,
    untouched, units⟩
  rw [represented.tmTick_eq]
  exact walked.trans (congrArg some result)

end Represented
end Timers
end Pilot2Cloud
