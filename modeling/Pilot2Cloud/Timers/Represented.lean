import Pilot2Cloud.Timers.Lists

/-!
# The representation invariant of the timer manager

The free timers and the allocated ones are all timer units, each once.  The
allocated ones run, and each is linked in one bucket of the hash table, that of
its expiry tick.  The two ways in which a linked timer changes, its release and
its move to the bucket of another tick, keep the invariant.
-/

namespace Pilot2Cloud
namespace Timers

open Foundation

/-- A manager represents its lists of timers. -/
structure Represented (manager : TimerManager) (lists : Lists) : Prop where
  linked : Linked manager lists
  units : (lists.free ++ lists.alloc).Perm
    (List.range manager.timerArraySize.toNat)
  mem_bucket : ∀ timer index, timer ∈ lists.bucket index ↔
    timer ∈ lists.alloc ∧ index = manager.hashIndex timer
  running : ∀ timer < manager.timerArraySize.toNat,
    (manager.timerArray timer).running = true ↔ timer ∈ lists.alloc
  count : manager.timerCount.toNat = lists.alloc.length
  size_le : manager.timerArraySize ≤ timerArrayMaxSize
  timerIndex_eq : ∀ timer < manager.timerArraySize.toNat,
    timerIndex (manager.timerArray timer).tmExpMsg.timerId = timer

namespace TimerManager

variable {manager : TimerManager} {timer other : Nat} {unit : TimerUnit}

@[simp] theorem timerArray_store_self :
    (manager.store timer unit).timerArray timer = unit :=
  Function.update_self _ _ _

@[simp] theorem timerArray_store_of_ne (different : other ≠ timer) :
    (manager.store timer unit).timerArray other = manager.timerArray other :=
  Function.update_of_ne different _ _

theorem hashIndex_store_of_ne (different : other ≠ timer) :
    (manager.store timer unit).hashIndex other = manager.hashIndex other := by
  rw [hashIndex, timerArray_store_of_ne different]
  rfl

@[simp] theorem hashIndex_setAbsExpTick (tick : UInt32) :
    (manager.setAbsExpTick timer tick).hashIndex timer =
      (tick &&& manager.hashTblLastIdx).toNat := by
  rw [setAbsExpTick, hashIndex, timerArray_store_self]
  rfl

end TimerManager

namespace Represented

variable {manager : TimerManager} {lists : Lists} {timer : Nat}

theorem nodup (represented : Represented manager lists) :
    (lists.free ++ lists.alloc).Nodup :=
  represented.units.nodup_iff.mpr List.nodup_range

theorem nodup_alloc (represented : Represented manager lists) :
    lists.alloc.Nodup :=
  (List.nodup_append.mp represented.nodup).2.1

/-- No timer is free and allocated. -/
theorem not_mem_free
    (represented : Represented manager lists) (member : timer ∈ lists.alloc) :
    timer ∉ lists.free := by
  intro isFree
  exact (List.nodup_append.mp represented.nodup).2.2 timer isFree timer member
    rfl

theorem free_or_alloc_iff
    (represented : Represented manager lists) :
    timer ∈ lists.free ∨ timer ∈ lists.alloc ↔
      timer < manager.timerArraySize.toNat := by
  rw [← List.mem_append, represented.units.mem_iff, List.mem_range]

theorem lt_of_free
    (represented : Represented manager lists) (member : timer ∈ lists.free) :
    timer < manager.timerArraySize.toNat :=
  represented.free_or_alloc_iff.mp (.inl member)

theorem lt_of_alloc
    (represented : Represented manager lists) (member : timer ∈ lists.alloc) :
    timer < manager.timerArraySize.toNat :=
  represented.free_or_alloc_iff.mp (.inr member)

/-- There are at most as many timers as an index has values, less one. -/
theorem size_lt (represented : Represented manager lists) :
    manager.timerArraySize.toNat < 16384 := by
  have bound := UInt32.le_iff_toNat_le.mp represented.size_le
  have value : timerArrayMaxSize.toNat = 16383 := by decide
  omega

theorem length_add_length (represented : Represented manager lists) :
    lists.free.length + lists.alloc.length =
      manager.timerArraySize.toNat := by
  rw [← List.length_append, represented.units.length_eq, List.length_range]

/-- An allocated timer is in the bucket of its expiry tick. -/
theorem mem_own_bucket
    (represented : Represented manager lists) (member : timer ∈ lists.alloc) :
    timer ∈ lists.bucket (manager.hashIndex timer) :=
  (represented.mem_bucket timer _).mpr ⟨member, rfl⟩

/-- A timer removed from its bucket is in none. -/
theorem not_mem_removed
    (represented : Represented manager lists) (index : Nat) :
    timer ∉
      (lists.remove timer (manager.hashIndex timer)).bucket index := by
  rw [Lists.bucket_remove]
  by_cases same : index = manager.hashIndex timer
  · rw [same, Function.update_self]
    have distinct : (lists.bucket (manager.hashIndex timer)).Nodup :=
      represented.linked.bucket_nodup TimerManager.hashIndex_le
    exact distinct.not_mem_erase
  · rw [Function.update_of_ne same]
    intro member
    exact same ((represented.mem_bucket timer index).mp member).2

theorem unlink
    (represented : Represented manager lists) (member : timer ∈ lists.alloc) :
    Linked (manager.tmRemoveTimer timer)
      (lists.remove timer (manager.hashIndex timer)) :=
  represented.linked.tmRemoveTimer TimerManager.hashIndex_le
    (represented.mem_own_bucket member)

/-- A timer that is removed from its bucket and deleted is free. -/
theorem release
    (represented : Represented manager lists) (member : timer ∈ lists.alloc) :
    Represented (manager.release timer)
      ((lists.remove timer (manager.hashIndex timer)).delete timer) where
  linked := (represented.unlink member).tmDeleteTimer member
  units := by
    refine List.Perm.trans ?_ represented.units
    exact List.perm_middle.symm.trans
      ((List.perm_cons_erase member).symm.append_left _)
  mem_bucket other index := by
    show other ∈ (lists.remove timer _).bucket index ↔
      other ∈ lists.alloc.erase timer ∧
        index = (manager.store timer _).hashIndex other
    by_cases same : other = timer
    · subst same
      exact iff_of_false (represented.not_mem_removed index) fun isMember =>
        represented.nodup_alloc.not_mem_erase isMember.1
    · rw [Lists.mem_bucket_remove_of_ne same, represented.mem_bucket,
        List.mem_erase_of_ne same, TimerManager.hashIndex_store_of_ne same]
  running other bound := by
    show ((manager.store timer _).timerArray other).running = true ↔
      other ∈ lists.alloc.erase timer
    by_cases same : other = timer
    · subst same
      rw [TimerManager.timerArray_store_self]
      exact iff_of_false nofun represented.nodup_alloc.not_mem_erase
    · rw [TimerManager.timerArray_store_of_ne same, List.mem_erase_of_ne same]
      exact represented.running other bound
  count := by
    have positive := List.length_pos_of_mem member
    have counted := represented.count
    show (manager.timerCount - 1).toNat = (lists.alloc.erase timer).length
    rw [List.length_erase_of_mem member, ← counted]
    apply UInt32.toNat_sub_of_le
    rw [UInt32.le_iff_toNat_le, counted]
    exact positive
  size_le := represented.size_le
  timerIndex_eq other bound := by
    show timerIndex
      ((manager.store timer _).timerArray other).tmExpMsg.timerId = other
    by_cases same : other = timer
    · subst same
      rw [TimerManager.timerArray_store_self]
      exact represented.timerIndex_eq other bound
    · rw [TimerManager.timerArray_store_of_ne same]
      exact represented.timerIndex_eq other bound

/-- A timer that is removed from its bucket and inserted in that of another tick
is still allocated. -/
theorem rearm
    (represented : Represented manager lists) (member : timer ∈ lists.alloc)
    (tick : UInt32) :
    Represented (manager.rearm timer tick)
      ((lists.remove timer (manager.hashIndex timer)).insert timer
        (tick &&& manager.hashTblLastIdx).toNat) where
  linked := by
    rw [← TimerManager.hashIndex_setAbsExpTick]
    have unlinked := represented.unlink member
    exact Linked.tmInsertTimer
      ⟨unlinked.rings, unlinked.node_data, unlinked.hashNode_data⟩
      fun index _ => represented.not_mem_removed index
  units := represented.units
  mem_bucket other index := by
    show other ∈ ((lists.remove timer _).insert timer _).bucket index ↔
      other ∈ lists.alloc ∧
        index = (manager.setAbsExpTick timer tick).hashIndex other
    rw [Lists.mem_bucket_insert]
    by_cases same : other = timer
    · subst same
      rw [TimerManager.hashIndex_setAbsExpTick,
        or_iff_right (represented.not_mem_removed index), and_iff_right rfl,
        and_iff_right member]
    · rw [Lists.mem_bucket_remove_of_ne same, represented.mem_bucket,
        TimerManager.setAbsExpTick, TimerManager.hashIndex_store_of_ne same,
        or_iff_left fun isTimer => same isTimer.1]
  running other bound := by
    show ((manager.setAbsExpTick timer tick).timerArray other).running = true ↔
      other ∈ lists.alloc
    rw [← represented.running other bound, TimerManager.setAbsExpTick]
    by_cases same : other = timer
    · rw [same, TimerManager.timerArray_store_self]
    · rw [TimerManager.timerArray_store_of_ne same]
  count := represented.count
  size_le := represented.size_le
  timerIndex_eq other bound := by
    show timerIndex ((manager.setAbsExpTick timer tick).timerArray
      other).tmExpMsg.timerId = other
    rw [TimerManager.setAbsExpTick]
    by_cases same : other = timer
    · rw [same, TimerManager.timerArray_store_self]
      exact represented.timerIndex_eq timer (same ▸ bound)
    · rw [TimerManager.timerArray_store_of_ne same]
      exact represented.timerIndex_eq other bound

end Represented
end Timers
end Pilot2Cloud
