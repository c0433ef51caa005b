import Mathlib.Data.List.Infix

/-!
# Records in the order of their reservations

A record is reserved under an identifier, revised any number of times and then
completed, and the records of several writers are revised and completed in any
order.  Those who read records take complete ones from the front, so it is the
order of the reservations in which records are read.
-/

namespace Foundation

/-- A record that is being written, or a complete one. -/
inductive Reservation (ι α : Type)
  | draft (id : ι) (value : α)
  | complete (value : α)
  deriving DecidableEq

namespace Reservation

variable {ι α : Type}

/-- The record cannot be changed any more. -/
def IsComplete : Reservation ι α → Prop
  | draft _ _ => False
  | complete _ => True

/-- A complete record behind complete ones. -/
theorem map_complete_append_cons (values : List α) (value : α)
    (records : List (Reservation ι α)) :
    values.map complete ++ complete value :: records =
      (values ++ [value]).map complete ++ records := by
  rw [List.map_append, List.append_assoc]
  rfl

section Changes

variable [DecidableEq ι]

/-- Write a value under an identifier. -/
def revise (id : ι) (value : α) : Reservation ι α → Reservation ι α
  | draft other old => if other = id then draft id value else draft other old
  | complete old => complete old

/-- Complete the record with an identifier. -/
def finish (id : ι) : Reservation ι α → Reservation ι α
  | draft other value =>
      if other = id then complete value else draft other value
  | complete value => complete value

variable {id : ι} {value : α} {records : List (Reservation ι α)}

theorem revise_of_isComplete {record : Reservation ι α}
    (isComplete : record.IsComplete) : record.revise id value = record := by
  cases record with
  | draft => exact isComplete.elim
  | complete => rfl

theorem finish_of_isComplete {record : Reservation ι α}
    (isComplete : record.IsComplete) : record.finish id = record := by
  cases record with
  | draft => exact isComplete.elim
  | complete => rfl

@[simp] theorem map_revise_complete (values : List α) :
    (values.map complete).map (revise id value) = values.map complete := by
  rw [List.map_map]
  rfl

@[simp] theorem map_finish_complete (values : List α) :
    (values.map complete).map (finish id) =
      (values.map complete : List (Reservation ι α)) := by
  rw [List.map_map]
  rfl

end Changes

/-! ## The front of complete records -/

/-- The first records, up to a number, are all complete. -/
def FrontComplete (count : Nat) (records : List (Reservation ι α)) : Prop :=
  count ≤ records.length ∧ ∀ record ∈ records.take count, record.IsComplete

variable {count : Nat} {records : List (Reservation ι α)}

/-- A front of complete records stays, whatever is done to records that are not
complete and whatever is reserved. -/
theorem FrontComplete.map_append
    (front : FrontComplete count records)
    (change : Reservation ι α → Reservation ι α)
    (kept : ∀ record, record.IsComplete → change record = record)
    (later : List (Reservation ι α)) :
    FrontComplete count (records.map change ++ later) := by
  obtain ⟨short, complete⟩ := front
  have same : (records.map change ++ later).take count =
      records.take count := by
    rw [List.take_append_of_le_length (by rw [List.length_map]; exact short),
      ← List.map_take]
    have unchanged : (records.take count).map change =
        (records.take count).map id := by
      apply List.map_congr_left
      intro record isMember
      exact kept record (complete record isMember)
    rw [unchanged, List.map_id]
  refine ⟨?_, ?_⟩
  · rw [List.length_append, List.length_map]
    omega
  · rw [same]
    exact complete

/-- Where the records behind some values begin with one that is not complete,
the front is among the values. -/
theorem FrontComplete.le_length {values : List α} {record : Reservation ι α}
    {later : List (Reservation ι α)}
    (front : FrontComplete count (values.map complete ++ record :: later))
    (incomplete : ¬record.IsComplete) : count ≤ values.length := by
  by_contra long
  apply incomplete
  apply front.2
  rw [List.take_append, List.length_map, List.mem_append]
  right
  obtain ⟨extra, behind⟩ := Nat.exists_eq_add_of_lt (not_le.mp long)
  rw [show count - values.length = extra + 1 by omega, List.take_succ_cons]
  exact List.mem_cons_self

end Reservation
end Foundation
