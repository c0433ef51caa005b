import Pilot2Cloud.Foundation.Transitions
import Pilot2Cloud.Timers.Initial
import Pilot2Cloud.Timers.Tick
import Mathlib.Data.List.Nodup

/-!
# The invariant over runs of the timer manager

Every sequence of operations keeps the representation invariant, and the status
check of the manager, which counts the nodes of its lists, finds nothing wrong.
-/

namespace Pilot2Cloud
namespace Timers

open Foundation

/-- An operation on the timer manager.  A tick is given the fuel of its walk and
the outcomes of the messages that it sends. -/
inductive Operation
  | set (moduleId duration typeId : UInt32) (para : UInt64) (cycle : UInt8)
  | kill (timerId moduleId : UInt32)
  | restart (timerId moduleId : UInt32)
  | tick (fuel : Nat) (sends : Nat → Bool)

/-- The manager after an operation, if the operation ends. -/
def TimerManager.perform (manager : TimerManager) :
    Operation → Option TimerManager
  | .set moduleId duration typeId para cycle =>
      some (manager.tmSetTimer moduleId duration typeId para cycle).1
  | .kill timerId moduleId => some (manager.tmKillTimer timerId moduleId).1
  | .restart timerId moduleId =>
      some (manager.tmRestartTimer timerId moduleId).1
  | .tick fuel sends => (manager.tmTick fuel sends).map Prod.fst

namespace Represented

variable {manager after : TimerManager} {lists : Lists}

/-- Every operation keeps the representation invariant. -/
theorem perform
    (represented : Represented manager lists) (operation : Operation)
    (performed : manager.perform operation = some after) :
    ∃ changed, Represented after changed := by
  cases operation with
  | set moduleId duration typeId para cycle =>
      obtain rfl := Option.some_inj.mp performed
      cases isFree : lists.free with
      | nil =>
          rw [represented.tmSetTimer_empty isFree]
          exact ⟨lists, represented⟩
      | cons timer rest =>
          rw [represented.tmSetTimer isFree]
          exact ⟨_, represented.start (isFree ▸ .head _)⟩
  | kill timerId moduleId =>
      obtain rfl := Option.some_inj.mp performed
      rw [TimerManager.tmKillTimer_eq]
      by_cases accepted : manager.tmIsSetTimer timerId moduleId = .success
      · rw [if_pos accepted]
        exact ⟨_, represented.release
          (represented.mem_alloc_of_accepted accepted)⟩
      · rw [if_neg accepted]
        exact ⟨lists, represented⟩
  | restart timerId moduleId =>
      obtain rfl := Option.some_inj.mp performed
      rw [TimerManager.tmRestartTimer_eq]
      by_cases accepted : manager.tmIsSetTimer timerId moduleId = .success
      · rw [if_pos accepted]
        exact ⟨_, represented.rearm
          (represented.mem_alloc_of_accepted accepted) _⟩
      · rw [if_neg accepted]
        exact ⟨lists, represented⟩
  | tick fuel sends =>
      obtain ⟨⟨_, result⟩, ended, rfl⟩ := Option.map_eq_some_iff.mp performed
      exact (represented.tmTick ended).2

/-- Only the set operation gives a unit a timer. -/
theorem perform_sameTimer
    (represented : Represented manager lists) {operation : Operation}
    (notSet : ∀ moduleId duration typeId para cycle,
      operation ≠ .set moduleId duration typeId para cycle)
    (performed : manager.perform operation = some after) :
    (∀ timer, SameTimer (manager.timerArray timer) (after.timerArray timer)) ∧
      after.timerArraySize = manager.timerArraySize ∧
      after.timerCountHistory = manager.timerCountHistory := by
  cases operation with
  | set moduleId duration typeId para cycle =>
      exact absurd rfl (notSet moduleId duration typeId para cycle)
  | kill timerId moduleId =>
      obtain rfl := Option.some_inj.mp performed
      apply Untouched.sameTimers
      rw [TimerManager.tmKillTimer_eq]
      by_cases accepted : manager.tmIsSetTimer timerId moduleId = .success
      · rw [if_pos accepted]
        exact TimerManager.untouched_release
      · rw [if_neg accepted]
        exact .refl manager
  | restart timerId moduleId =>
      obtain rfl := Option.some_inj.mp performed
      apply Untouched.sameTimers
      rw [TimerManager.tmRestartTimer_eq]
      by_cases accepted : manager.tmIsSetTimer timerId moduleId = .success
      · rw [if_pos accepted]
        exact TimerManager.untouched_rearm _
      · rw [if_neg accepted]
        exact .refl manager
  | tick fuel sends =>
      obtain ⟨⟨_, result⟩, ended, rfl⟩ := Option.map_eq_some_iff.mp performed
      exact (represented.tmTick ended).1.sameTimers

end Represented

/-! ## The status check -/

section Counting

variable {manager : TimerManager} {head : ListNode}
  {front rest : List ListNode} {count : UInt32} {fuel : Nat}

/-- One more node can be counted as long as some are left. -/
theorem count_succ
    {size : UInt32} {left : Nat}
    (bound : count.toNat + (left + 1) ≤ size.toNat) :
    (count + 1).toNat = count.toNat + 1 ∧ ¬size < count + 1 := by
  have small := size.toNat_lt
  have next : (count + 1).toNat = count.toNat + 1 := by
    rw [UInt32.toNat_add]
    apply Nat.mod_eq_of_lt
    show count.toNat + 1 < 2 ^ 32
    omega
  refine ⟨next, ?_⟩
  rw [UInt32.lt_iff_toNat_lt, next]
  omega

/-- A node of a ring is not its head, and the walk goes on behind it. -/
theorem ring_step
    {node : ListNode} (ring : manager.links.Ring head (front ++ node :: rest)) :
    node ≠ head ∧ manager.links.next node = rest.headD head ∧
      manager.links.Ring head ((front ++ [node]) ++ rest) := by
  refine ⟨?_, ring.next_node, by rwa [List.append_assoc]⟩
  rintro rfl
  exact (List.nodup_cons.mp ring.nodup).1 (by simp)

theorem countList_ring
    (ring : manager.links.Ring head (front ++ rest))
    (enough : rest.length < fuel)
    (bound : count.toNat + rest.length ≤ manager.timerArraySize.toNat) :
    manager.countList head fuel (rest.headD head) count true =
      some (UInt32.ofNat (count.toNat + rest.length), true) := by
  induction rest generalizing front count fuel with
  | nil =>
      obtain ⟨fuel, rfl⟩ := Nat.exists_eq_succ_of_ne_zero
        (Nat.ne_zero_of_lt enough)
      rw [TimerManager.countList, List.headD_nil, if_pos rfl, List.length_nil,
        Nat.add_zero, UInt32.ofNat_toNat]
  | cons node rest inductionHypothesis =>
      obtain ⟨fuel, rfl⟩ := Nat.exists_eq_succ_of_ne_zero
        (Nat.ne_zero_of_lt enough)
      obtain ⟨notHead, next, ring⟩ := ring_step ring
      rw [List.length_cons] at bound
      obtain ⟨counted, within⟩ := count_succ bound
      have left : (count + 1).toNat + rest.length ≤
          manager.timerArraySize.toNat := by omega
      have counts :=
        inductionHypothesis ring (Nat.lt_of_succ_lt_succ enough) left
      rw [TimerManager.countList, List.headD_cons, if_neg notHead, next,
        decide_eq_false within, List.length_cons, Bool.true_and, Bool.not_false,
        counts, counted, Nat.add_assoc, Nat.add_comm 1]

/-- The count of a bucket goes on from that of the buckets before it. -/
theorem countBucket_ring
    (ring : manager.links.Ring head (front ++ rest))
    (enough : rest.length < fuel)
    (bound : count.toNat + rest.length ≤ manager.timerArraySize.toNat) :
    manager.countBucket head fuel (rest.headD head) count =
      some (UInt32.ofNat (count.toNat + rest.length), true) := by
  induction rest generalizing front count fuel with
  | nil =>
      obtain ⟨fuel, rfl⟩ := Nat.exists_eq_succ_of_ne_zero
        (Nat.ne_zero_of_lt enough)
      rw [TimerManager.countBucket, List.headD_nil, if_pos rfl,
        List.length_nil, Nat.add_zero, UInt32.ofNat_toNat]
  | cons node rest inductionHypothesis =>
      obtain ⟨fuel, rfl⟩ := Nat.exists_eq_succ_of_ne_zero
        (Nat.ne_zero_of_lt enough)
      obtain ⟨notHead, next, ring⟩ := ring_step ring
      rw [List.length_cons] at bound
      obtain ⟨counted, within⟩ := count_succ bound
      have left : (count + 1).toNat + rest.length ≤
          manager.timerArraySize.toNat := by omega
      have counts :=
        inductionHypothesis ring (Nat.lt_of_succ_lt_succ enough) left
      rw [TimerManager.countBucket, List.headD_cons, if_neg notHead,
        if_neg within, next, counts, counted, List.length_cons, Nat.add_assoc,
        Nat.add_comm 1]

/-- A whole list is counted from its head. -/
theorem countList_head
    (ring : manager.links.Ring head rest) (enough : rest.length < fuel)
    (bound : rest.length ≤ manager.timerArraySize.toNat) :
    manager.countList head fuel (manager.links.next head) 0 true =
      some (UInt32.ofNat rest.length, true) := by
  have whole : manager.links.Ring head ([] ++ rest) := ring
  have start : (0 : UInt32).toNat + rest.length ≤
      manager.timerArraySize.toNat := by
    rw [UInt32.toNat_zero, Nat.zero_add]
    exact bound
  rw [ring.next_head, countList_ring whole enough start, UInt32.toNat_zero,
    Nat.zero_add]

theorem countBucket_head
    (ring : manager.links.Ring head rest) (enough : rest.length < fuel)
    (bound : count.toNat + rest.length ≤ manager.timerArraySize.toNat) :
    manager.countBucket head fuel (manager.links.next head) count =
      some (UInt32.ofNat (count.toNat + rest.length), true) := by
  have whole : manager.links.Ring head ([] ++ rest) := ring
  rw [ring.next_head, countBucket_ring whole enough bound]

end Counting

namespace Represented

variable {manager : TimerManager} {lists : Lists} {fuel : Nat}

/-- Each allocated timer is in one bucket, and no other timer is in any. -/
theorem buckets_perm (represented : Represented manager lists) :
    ((List.range (manager.hashTblLastIdx.toNat + 1)).flatMap
      lists.bucket).Perm lists.alloc := by
  refine (List.perm_ext_iff_of_nodup ?_ represented.nodup_alloc).mpr ?_
  · refine List.nodup_flatMap.mpr ⟨?_, ?_⟩
    · intro index member
      exact represented.linked.bucket_nodup
        (Nat.lt_succ_iff.mp (List.mem_range.mp member))
    · refine List.nodup_range.imp_of_mem ?_
      intro left right _ _ different timer inLeft inRight
      exact different
        (((represented.mem_bucket timer left).mp inLeft).2.trans
          ((represented.mem_bucket timer right).mp inRight).2.symm)
  · intro timer
    rw [List.mem_flatMap]
    constructor
    · rintro ⟨index, -, member⟩
      exact ((represented.mem_bucket timer index).mp member).1
    · intro member
      exact ⟨manager.hashIndex timer,
        List.mem_range.mpr (Nat.lt_succ_iff.mpr TimerManager.hashIndex_le),
        represented.mem_own_bucket member⟩

theorem countHashTable
    (represented : Represented manager lists)
    (enough : manager.timerArraySize.toNat < fuel) (indices : List Nat)
    (areBuckets : ∀ index ∈ indices, index ≤ manager.hashTblLastIdx.toNat)
    (count : UInt32)
    (bound : count.toNat + (indices.flatMap lists.bucket).length ≤
      manager.timerArraySize.toNat) :
    manager.countHashTable fuel indices count =
      some (UInt32.ofNat
        (count.toNat + (indices.flatMap lists.bucket).length), true) := by
  induction indices generalizing count with
  | nil =>
      rw [TimerManager.countHashTable, List.flatMap_nil, List.length_nil,
        Nat.add_zero, UInt32.ofNat_toNat]
  | cons index indices inductionHypothesis =>
      rw [List.forall_mem_cons] at areBuckets
      rw [List.flatMap_cons, List.length_append, ← Nat.add_assoc] at bound
      have counts := countBucket_head
        (represented.linked.ring_bucket areBuckets.1)
        (show ((lists.bucket index).map _).length < fuel by
          rw [List.length_map]
          omega)
        (show count.toNat + ((lists.bucket index).map _).length ≤ _ by
          rw [List.length_map]
          omega)
      rw [List.length_map] at counts
      have small := manager.timerArraySize.toNat_lt
      have counted : (UInt32.ofNat
          (count.toNat + (lists.bucket index).length)).toNat =
          count.toNat + (lists.bucket index).length :=
        UInt32.toNat_ofNat_of_lt' (by
          show _ < 2 ^ 32
          omega)
      rw [TimerManager.countHashTable, counts]
      show manager.countHashTable fuel indices _ = _
      rw [inductionHypothesis areBuckets.2 _ (by rwa [counted]), counted,
        List.flatMap_cons, List.length_append, Nat.add_assoc]

/-- The status check of a represented manager succeeds, and its counts are the
lengths of the lists. -/
theorem tmGetStatus
    (represented : Represented manager lists)
    (enough : manager.timerArraySize.toNat < fuel) :
    manager.tmGetStatus fuel =
      some (.success, UInt32.ofNat lists.free.length,
        UInt32.ofNat lists.alloc.length, UInt32.ofNat lists.alloc.length) := by
  have total := represented.length_add_length
  have freeCount := countList_head represented.linked.ring_free
    (show (lists.free.map ListNode.node).length < fuel by
      rw [List.length_map]
      omega)
    (by
      rw [List.length_map]
      omega)
  have allocCount := countList_head represented.linked.ring_alloc
    (show (lists.alloc.map ListNode.node).length < fuel by
      rw [List.length_map]
      omega)
    (by
      rw [List.length_map]
      omega)
  have hashCount := represented.countHashTable enough
    (List.range (manager.hashTblLastIdx.toNat + 1))
    (fun index member => Nat.lt_succ_iff.mp (List.mem_range.mp member)) 0
    (by
      rw [represented.buckets_perm.length_eq, UInt32.toNat_zero]
      omega)
  rw [represented.buckets_perm.length_eq, UInt32.toNat_zero, Nat.zero_add]
    at hashCount
  rw [List.length_map] at freeCount allocCount
  have sum : UInt32.ofNat lists.free.length + UInt32.ofNat lists.alloc.length =
      manager.timerArraySize := by
    rw [← UInt32.ofNat_add, total, UInt32.ofNat_toNat]
  rw [TimerManager.tmGetStatus, freeCount, allocCount, hashCount]
  simp [sum]

end Represented

/-- The representation invariant holds after every sequence of operations on an
initialized manager, and the status check then succeeds. -/
theorem represented_of_run
    {memory initial manager : TimerManager}
    {maxTimerNum hashTableSize tickInterval : UInt32}
    {timerArrayAllocated hashTableAllocated : Bool}
    {operations : List Operation}
    (initialized : memory.tmInitTimerManager maxTimerNum hashTableSize
      tickInterval timerArrayAllocated hashTableAllocated =
        (initial, .success))
    (run : Run (fun manager operation after =>
      manager.perform operation = some after) initial operations manager) :
    ∃ lists, Represented manager lists ∧
      ∀ fuel > manager.timerArraySize.toNat,
        manager.tmGetStatus fuel =
          some (.success, UInt32.ofNat lists.free.length,
            UInt32.ofNat lists.alloc.length,
            UInt32.ofNat lists.alloc.length) := by
  have kept : ∀ manager operation after,
      (∃ lists, Represented manager lists) →
        manager.perform operation = some after →
          ∃ lists, Represented after lists := by
    rintro manager operation after ⟨lists, represented⟩ performed
    exact represented.perform operation performed
  obtain ⟨lists, represented⟩ := run.preserves kept
    ⟨_, (represented_tmInitTimerManager initialized).1⟩
  exact ⟨lists, represented, fun fuel enough => represented.tmGetStatus enough⟩

/-- The invariant after a timer is started and expires. -/
theorem represented_of_run_expired :
    ∃ manager lists,
      [Operation.set 7 1 0 0 0, .tick 3 fun _ => true].foldlM
          TimerManager.perform
          (blankMemory.tmInitTimerManager 2 4 1 true true).1 =
        some manager ∧ Represented manager lists := by
  obtain ⟨manager, performed⟩ : ∃ manager,
      [Operation.set 7 1 0 0 0, .tick 3 fun _ => true].foldlM
          TimerManager.perform
          (blankMemory.tmInitTimerManager 2 4 1 true true).1 =
        some manager := ⟨_, rfl⟩
  have initialized : blankMemory.tmInitTimerManager 2 4 1 true true =
      ((blankMemory.tmInitTimerManager 2 4 1 true true).1, .success) :=
    Prod.ext rfl rfl
  obtain ⟨lists, represented, -⟩ :=
    represented_of_run initialized (Run.iff_foldlM.mpr performed)
  exact ⟨manager, lists, performed, represented⟩

end Timers
end Pilot2Cloud
