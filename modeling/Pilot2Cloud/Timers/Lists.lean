import Pilot2Cloud.Timers.TimerManager
import Mathlib.Data.List.Perm.Basic

/-!
# The lists of the timer manager

The free list, the allocated list and the buckets of the hash table are rings in
the memory of the list nodes.  Each list helper changes the lists as its name
says.
-/

namespace Pilot2Cloud
namespace Timers

open Foundation

/-- The timers in the lists of a manager, in order. -/
structure Lists where
  free : List Nat
  alloc : List Nat
  bucket : Nat → List Nat

namespace Lists

variable {lists : Lists} {timer index : Nat}

/-- The nodes that each list head leads to. -/
def members (lists : Lists) : ListNode → List ListNode
  | .freeTimerList => lists.free.map .node
  | .allocTimerList => lists.alloc.map .node
  | .activeTimerList index => (lists.bucket index).map .hashNode
  | .node _ => []
  | .hashNode _ => []

/-- Move the first free timer to the allocated ones. -/
def allocate (lists : Lists) (timer : Nat) : Lists :=
  { lists with
    free := lists.free.erase timer
    alloc := timer :: lists.alloc }

/-- A timer goes back to the free ones. -/
def delete (lists : Lists) (timer : Nat) : Lists :=
  { lists with
    free := timer :: lists.free
    alloc := lists.alloc.erase timer }

/-- A timer is put at the end of a bucket. -/
def insert (lists : Lists) (timer index : Nat) : Lists :=
  { lists with
    bucket := Function.update lists.bucket index
      (lists.bucket index ++ [timer]) }

/-- A timer is taken out of a bucket. -/
def remove (lists : Lists) (timer index : Nat) : Lists :=
  { lists with
    bucket := Function.update lists.bucket index
      ((lists.bucket index).erase timer) }

theorem map_node_erase (timers : List Nat) :
    (timers.erase timer).map ListNode.node =
      (timers.map ListNode.node).erase (.node timer) :=
  List.map_erase (fun _ _ same => ListNode.node.inj same) timers

theorem map_hashNode_erase (timers : List Nat) :
    (timers.erase timer).map ListNode.hashNode =
      (timers.map ListNode.hashNode).erase (.hashNode timer) :=
  List.map_erase (fun _ _ same => ListNode.hashNode.inj same) timers

theorem members_allocate :
    (lists.allocate timer).members =
      Function.update
        (Function.update lists.members .freeTimerList
          ((lists.members .freeTimerList).erase (.node timer)))
        .allocTimerList
        (.node timer :: lists.members .allocTimerList) := by
  funext head
  cases head <;> simp [allocate, members, map_node_erase]

theorem members_delete :
    (lists.delete timer).members =
      Function.update
        (Function.update lists.members .allocTimerList
          ((lists.members .allocTimerList).erase (.node timer)))
        .freeTimerList
        (.node timer :: lists.members .freeTimerList) := by
  funext head
  cases head <;> simp [delete, members, map_node_erase]

theorem members_insert :
    (lists.insert timer index).members =
      Function.update lists.members (.activeTimerList index)
        (lists.members (.activeTimerList index) ++ [.hashNode timer]) := by
  funext head
  cases head with
  | activeTimerList other =>
      by_cases same : other = index
      · subst same
        simp [insert, members]
      · simp [insert, members, same]
  | _ => simp [insert, members]

theorem members_remove :
    (lists.remove timer index).members =
      Function.update lists.members (.activeTimerList index)
        ((lists.members (.activeTimerList index)).erase (.hashNode timer)) := by
  funext head
  cases head with
  | activeTimerList other =>
      by_cases same : other = index
      · subst same
        simp [remove, members, map_hashNode_erase]
      · simp [remove, members, same]
  | _ => simp [remove, members]

@[simp] theorem bucket_remove :
    (lists.remove timer index).bucket =
      Function.update lists.bucket index ((lists.bucket index).erase timer) :=
  rfl

theorem mem_bucket_remove_of_ne {other place : Nat}
    (different : other ≠ timer) :
    other ∈ (lists.remove timer index).bucket place ↔
      other ∈ lists.bucket place := by
  rw [bucket_remove]
  by_cases same : place = index
  · rw [same, Function.update_self, List.mem_erase_of_ne different]
  · rw [Function.update_of_ne same]

theorem mem_bucket_insert {other place : Nat} :
    other ∈ (lists.insert timer index).bucket place ↔
      other ∈ lists.bucket place ∨ other = timer ∧ place = index := by
  show other ∈ Function.update lists.bucket index
    (lists.bucket index ++ [timer]) place ↔ _
  by_cases same : place = index
  · rw [same, Function.update_self, List.mem_append, List.mem_singleton,
      and_iff_left rfl]
  · simp [same]

end Lists

/-- The heads of the two lists of a manager and of its first buckets. -/
def headsBelow (count : Nat) : Set ListNode :=
  { head |
    match head with
    | .freeTimerList => True
    | .allocTimerList => True
    | .activeTimerList index => index < count
    | .node _ => False
    | .hashNode _ => False }

/-- The list heads of a manager. -/
def TimerManager.heads (manager : TimerManager) : Set ListNode :=
  headsBelow (manager.hashTblLastIdx.toNat + 1)

namespace TimerManager

variable {manager : TimerManager} {timer index : Nat}

theorem free_mem_heads : ListNode.freeTimerList ∈ manager.heads :=
  trivial

theorem alloc_mem_heads : ListNode.allocTimerList ∈ manager.heads :=
  trivial

theorem active_mem_heads :
    ListNode.activeTimerList index ∈ manager.heads ↔
      index ≤ manager.hashTblLastIdx.toNat :=
  Nat.lt_succ_iff

theorem hashIndex_le :
    manager.hashIndex timer ≤ manager.hashTblLastIdx.toNat := by
  rw [hashIndex, UInt32.toNat_and]
  exact Nat.and_le_right

/-- The manager once the first free unit is allocated. -/
def allocate (manager : TimerManager) (timer : Nat) : TimerManager :=
  { manager with
    timerCount := manager.timerCount + 1
    links := (manager.links.remove (.node timer)).insertHead .allocTimerList
      (.node timer) }

/-- The manager once a linked timer is free. -/
def release (manager : TimerManager) (timer : Nat) : TimerManager :=
  (manager.tmRemoveTimer timer).tmDeleteTimer timer

/-- The manager once a linked timer is moved to the bucket of another tick. -/
def rearm (manager : TimerManager) (timer : Nat) (tick : UInt32) :
    TimerManager :=
  ((manager.tmRemoveTimer timer).setAbsExpTick timer tick).tmInsertTimer timer

end TimerManager

open TimerManager (free_mem_heads alloc_mem_heads active_mem_heads
  hashIndex_le)

/-- The memory of the list nodes holds the given lists. -/
structure Linked (manager : TimerManager) (lists : Lists) : Prop where
  rings : manager.links.Rings manager.heads lists.members
  node_data : ∀ timer < manager.timerArraySize.toNat,
    manager.data (.node timer) = timer
  hashNode_data : ∀ timer < manager.timerArraySize.toNat,
    manager.data (.hashNode timer) = timer

namespace Linked

variable {manager : TimerManager} {lists : Lists} {timer index : Nat}

theorem ring_free (linked : Linked manager lists) :
    manager.links.Ring .freeTimerList (lists.free.map .node) :=
  linked.rings.ring .freeTimerList trivial

theorem ring_alloc (linked : Linked manager lists) :
    manager.links.Ring .allocTimerList (lists.alloc.map .node) :=
  linked.rings.ring .allocTimerList trivial

theorem ring_bucket
    (linked : Linked manager lists)
    (bound : index ≤ manager.hashTblLastIdx.toNat) :
    manager.links.Ring (.activeTimerList index)
      ((lists.bucket index).map .hashNode) :=
  linked.rings.ring (.activeTimerList index) (active_mem_heads.mpr bound)

theorem bucket_nodup
    (linked : Linked manager lists)
    (bound : index ≤ manager.hashTblLastIdx.toNat) :
    (lists.bucket index).Nodup :=
  (linked.ring_bucket bound).nodup.of_cons.of_map _

/-- The allocation takes the first free timer, and fails when there is none. -/
theorem tmAllocTimer_empty
    (linked : Linked manager lists) (noFree : lists.free = []) :
    manager.tmAllocTimer = (manager, none) := by
  have first : manager.links.next .freeTimerList = .freeTimerList := by
    rw [linked.ring_free.next_head, noFree]
    rfl
  rw [TimerManager.tmAllocTimer, if_pos first]

theorem tmAllocTimer
    {rest : List Nat}
    (linked : Linked manager lists) (hasFree : lists.free = timer :: rest)
    (bound : timer < manager.timerArraySize.toNat) :
    manager.tmAllocTimer = (manager.allocate timer, some timer) := by
  have first : manager.links.next .freeTimerList = .node timer := by
    rw [linked.ring_free.next_head, hasFree]
    rfl
  rw [TimerManager.tmAllocTimer, first, if_neg nofun,
    linked.node_data timer bound, TimerManager.allocate]

theorem allocate
    (linked : Linked manager lists) (member : timer ∈ lists.free) :
    Linked (manager.allocate timer) (lists.allocate timer) := by
  have linkedFree : ListNode.node timer ∈ lists.members .freeTimerList :=
    List.mem_map_of_mem member
  refine ⟨?_, linked.node_data, linked.hashNode_data⟩
  rw [Lists.members_allocate]
  exact (linked.rings.remove free_mem_heads linkedFree).insertHead
    alloc_mem_heads (linked.rings.loose_of_remove free_mem_heads linkedFree)

theorem tmDeleteTimer
    (linked : Linked manager lists) (member : timer ∈ lists.alloc) :
    Linked (manager.tmDeleteTimer timer) (lists.delete timer) := by
  have linkedAlloc : ListNode.node timer ∈ lists.members .allocTimerList :=
    List.mem_map_of_mem member
  refine ⟨?_, linked.node_data, linked.hashNode_data⟩
  rw [Lists.members_delete]
  exact (linked.rings.remove alloc_mem_heads linkedAlloc).insertHead
    free_mem_heads (linked.rings.loose_of_remove alloc_mem_heads linkedAlloc)

/-- A timer in no bucket can be inserted in the one of its expiry tick. -/
theorem tmInsertTimer
    (linked : Linked manager lists)
    (inNone : ∀ index ≤ manager.hashTblLastIdx.toNat,
      timer ∉ lists.bucket index) :
    Linked (manager.tmInsertTimer timer)
      (lists.insert timer (manager.hashIndex timer)) := by
  refine ⟨?_, linked.node_data, linked.hashNode_data⟩
  rw [Lists.members_insert]
  apply linked.rings.insertTail (active_mem_heads.mpr hashIndex_le)
  intro head isHead
  cases head with
  | activeTimerList index =>
      have absent := inNone index (active_mem_heads.mp isHead)
      simp [Lists.members, absent]
  | hashNode other => exact isHead.elim
  | _ => simp [Lists.members]

theorem tmRemoveTimer
    (linked : Linked manager lists)
    (bound : index ≤ manager.hashTblLastIdx.toNat)
    (member : timer ∈ lists.bucket index) :
    Linked (manager.tmRemoveTimer timer) (lists.remove timer index) := by
  refine ⟨?_, linked.node_data, linked.hashNode_data⟩
  rw [Lists.members_remove]
  exact linked.rings.remove (active_mem_heads.mpr bound)
    (List.mem_map_of_mem member)

end Linked
end Timers
end Pilot2Cloud
