import Mathlib.Data.List.Nodup
import Mathlib.Data.List.Forall2
import Mathlib.Logic.Function.Basic

/-!
# Rings of indices

A ring buffer of some size uses the indices from its head up to its tail, and
goes on at the first index after the last.  The index before the head always
stays free, so that a full buffer does not look like an empty one.
-/

namespace Foundation

/-- Where the used part of a ring buffer starts and where it ends. -/
structure IndexRing where
  size : Nat
  head : Nat
  tail : Nat
  headInside : head < size
  tailInside : tail < size

namespace IndexRing

/-- A sum of two indices exceeds the size at most once. -/
theorem mod_of_lt_two_mul {sum size : Nat} (bound : sum < 2 * size) :
    sum % size = if sum < size then sum else sum - size := by
  split
  case isTrue inside =>
    exact Nat.mod_eq_of_lt inside
  case isFalse outside =>
    rw [Nat.mod_eq_sub_mod (Nat.not_lt.mp outside)]
    apply Nat.mod_eq_of_lt
    omega

/-- The number of places between head and tail. -/
def length (ring : IndexRing) : Nat :=
  (ring.tail + ring.size - ring.head) % ring.size

/-- The index some steps after the head. -/
def slot (ring : IndexRing) (steps : Nat) : Nat :=
  (ring.head + steps) % ring.size

/-- The used indices in order. -/
def slots (ring : IndexRing) : List Nat :=
  (List.range ring.length).map ring.slot

/-- A ring without used indices. -/
def empty (size : Nat) (positive : 0 < size) : IndexRing :=
  ⟨size, 0, 0, positive, positive⟩

/-- Use the index at the tail. -/
def pushBack (ring : IndexRing) : IndexRing :=
  { ring with
    tail := (ring.tail + 1) % ring.size
    tailInside := Nat.mod_lt _ (Nat.zero_lt_of_lt ring.tailInside) }

/-- Use the index before the head. -/
def pushFront (ring : IndexRing) : IndexRing :=
  { ring with
    head := (ring.head + ring.size - 1) % ring.size
    headInside := Nat.mod_lt _ (Nat.zero_lt_of_lt ring.headInside) }

/-- Stop using the index at the head. -/
def popFront (ring : IndexRing) : IndexRing :=
  { ring with
    head := (ring.head + 1) % ring.size
    headInside := Nat.mod_lt _ (Nat.zero_lt_of_lt ring.headInside) }

/-- No index but the one before the head is free. -/
def Full (ring : IndexRing) : Prop :=
  (ring.tail + 1) % ring.size = ring.head

variable {ring : IndexRing}

/-- The length by cases on whether the ring wraps. -/
theorem length_eq :
    ring.length =
      if ring.head ≤ ring.tail then ring.tail - ring.head
      else ring.tail + ring.size - ring.head := by
  have headInside := ring.headInside
  have tailInside := ring.tailInside
  unfold length
  rw [mod_of_lt_two_mul (by omega)]
  split <;> split <;> omega

theorem length_lt_size : ring.length < ring.size :=
  Nat.mod_lt _ (Nat.zero_lt_of_lt ring.headInside)

theorem length_eq_zero_iff : ring.length = 0 ↔ ring.tail = ring.head := by
  have headInside := ring.headInside
  rw [length_eq]
  split <;> omega

/-- A ring is full when it holds one item less than it has slots. -/
theorem full_iff : ring.Full ↔ ring.length + 1 = ring.size := by
  have headInside := ring.headInside
  have tailInside := ring.tailInside
  unfold Full
  rw [mod_of_lt_two_mul (by omega), length_eq]
  split <;> split <;> omega

/-- The slot a number of steps behind the head, by cases on whether it wraps. -/
theorem slot_eq {steps : Nat} (inside : steps < ring.size) :
    ring.slot steps =
      if ring.head + steps < ring.size then ring.head + steps
      else ring.head + steps - ring.size := by
  have headInside := ring.headInside
  apply mod_of_lt_two_mul
  omega

@[simp] theorem length_slots : ring.slots.length = ring.length := by
  rw [slots, List.length_map, List.length_range]

@[simp] theorem slots_empty {size : Nat} {positive : 0 < size} :
    (empty size positive).slots = [] := by
  apply List.eq_nil_of_length_eq_zero
  rw [length_slots, length_eq_zero_iff]
  rfl

/-- No index is used twice. -/
theorem nodup_slots : ring.slots.Nodup := by
  apply List.Nodup.map_on _ List.nodup_range
  intro left leftUsed right rightUsed same
  have bound := ring.length_lt_size
  rw [List.mem_range] at leftUsed rightUsed
  rw [slot_eq (by omega), slot_eq (by omega)] at same
  split at same <;> split at same <;> omega

@[simp] theorem slot_zero : ring.slot 0 = ring.head :=
  Nat.mod_eq_of_lt ring.headInside

@[simp] theorem slot_length : ring.slot ring.length = ring.tail := by
  have headInside := ring.headInside
  have tailInside := ring.tailInside
  rw [slot_eq ring.length_lt_size, length_eq]
  split <;> split <;> omega

/-! ## The used indices after a step -/

theorem tail_pushBack :
    ring.pushBack.tail =
      if ring.tail + 1 < ring.size then ring.tail + 1 else 0 := by
  have tailInside := ring.tailInside
  apply (mod_of_lt_two_mul (by omega)).trans
  split <;> omega

theorem head_popFront :
    ring.popFront.head =
      if ring.head + 1 < ring.size then ring.head + 1 else 0 := by
  have headInside := ring.headInside
  apply (mod_of_lt_two_mul (by omega)).trans
  split <;> omega

theorem head_pushFront :
    ring.pushFront.head =
      if ring.head = 0 then ring.size - 1 else ring.head - 1 := by
  have headInside := ring.headInside
  apply (mod_of_lt_two_mul (by omega)).trans
  split <;> split <;> omega

theorem length_pushBack (notFull : ¬ring.Full) :
    ring.pushBack.length = ring.length + 1 := by
  have headInside := ring.headInside
  have tailInside := ring.tailInside
  have tail := ring.tail_pushBack
  have head : ring.pushBack.head = ring.head := rfl
  have size : ring.pushBack.size = ring.size := rfl
  rw [full_iff, length_eq] at notFull
  rw [length_eq, length_eq]
  split at tail <;> split at notFull <;> split <;> omega

/-- Pushing at the back appends the slot of the tail. -/
theorem slots_pushBack (notFull : ¬ring.Full) :
    ring.pushBack.slots = ring.slots ++ [ring.tail] := by
  have sameSlot : ring.pushBack.slot = ring.slot := rfl
  rw [slots, length_pushBack notFull, List.range_succ, List.map_append,
    List.map_singleton, sameSlot, slot_length, slots]

/-- The tail is free while the ring is not full. -/
theorem tail_not_mem_slots (notFull : ¬ring.Full) : ring.tail ∉ ring.slots := by
  have distinct := ring.pushBack.nodup_slots
  rw [slots_pushBack notFull] at distinct
  intro member
  exact List.disjoint_of_nodup_append distinct member (List.mem_singleton_self _)

theorem length_popFront (notEmpty : ring.tail ≠ ring.head) :
    ring.length = ring.popFront.length + 1 := by
  have headInside := ring.headInside
  have tailInside := ring.tailInside
  have head := ring.head_popFront
  have tail : ring.popFront.tail = ring.tail := rfl
  have size : ring.popFront.size = ring.size := rfl
  rw [length_eq, length_eq]
  split at head <;> split <;> split <;> omega

/-- Popping at the front drops the slot of the head. -/
theorem slots_popFront (notEmpty : ring.tail ≠ ring.head) :
    ring.slots = ring.head :: ring.popFront.slots := by
  rw [slots, length_popFront notEmpty, List.range_succ_eq_map, List.map_cons,
    slot_zero, List.map_map, slots]
  congr 1
  apply List.map_congr_left
  intro steps _
  rw [Function.comp_apply, slot, slot, popFront, Nat.mod_add_mod]
  congr 1
  omega

/-- Popping undoes pushing at the front. -/
@[simp] theorem popFront_pushFront : ring.pushFront.popFront = ring := by
  have headInside := ring.headInside
  have head : ring.pushFront.popFront.head = ring.head := by
    have first := ring.head_pushFront
    have second := ring.pushFront.head_popFront
    have size : ring.pushFront.size = ring.size := rfl
    split at first <;> split at second <;> omega
  obtain ⟨size, _, tail, _, _⟩ := ring
  exact (mk.injEq ..).mpr ⟨rfl, head, rfl⟩

/-- Pushing at the front undoes popping. -/
@[simp] theorem pushFront_popFront : ring.popFront.pushFront = ring := by
  have headInside := ring.headInside
  have head : ring.popFront.pushFront.head = ring.head := by
    have first := ring.head_popFront
    have second := ring.popFront.head_pushFront
    have size : ring.popFront.size = ring.size := rfl
    split at first <;> split at second <;> omega
  obtain ⟨size, _, tail, _, _⟩ := ring
  exact (mk.injEq ..).mpr ⟨rfl, head, rfl⟩

/-- There is room after an index has been given up. -/
theorem not_full_popFront (notEmpty : ring.tail ≠ ring.head) :
    ¬ring.popFront.Full := by
  have shorter := length_popFront notEmpty
  have bound := ring.length_lt_size
  rw [full_iff]
  change ring.popFront.length + 1 ≠ ring.size
  omega

theorem pushFront_notEmpty (notFull : ¬ring.Full) :
    ring.pushFront.tail ≠ ring.pushFront.head := by
  have headInside := ring.headInside
  have tailInside := ring.tailInside
  have head := ring.head_pushFront
  have tail : ring.pushFront.tail = ring.tail := rfl
  rw [full_iff, length_eq] at notFull
  split at head <;> split at notFull <;> omega

/-- Pushing at the front puts the new head before the slots. -/
theorem slots_pushFront (notFull : ¬ring.Full) :
    ring.pushFront.slots = ring.pushFront.head :: ring.slots := by
  rw [slots_popFront (pushFront_notEmpty notFull), popFront_pushFront]

/-- The index before the head is free while the ring is not full. -/
theorem head_pushFront_not_mem_slots (notFull : ¬ring.Full) :
    ring.pushFront.head ∉ ring.slots := by
  have distinct := ring.pushFront.nodup_slots
  rw [slots_pushFront notFull] at distinct
  exact (List.nodup_cons.mp distinct).1

end IndexRing
end Foundation
