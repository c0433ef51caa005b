import Mathlib.Data.List.Basic

/-!
# A stream of frames of which a part has arrived

When some bytes of a stream of frames have arrived, the frames at its front are
complete, a part of the next one is left over, and the others are pending.  More
bytes complete frames from the pending ones.
-/

namespace Foundation

variable {α : Type} (frame : α → List UInt8)

/-- The items whose frames are complete in the first bytes of the stream. -/
def complete : List α → Nat → List α
  | [], _ => []
  | item :: items, count =>
      if (frame item).length ≤ count then
        item :: complete items (count - (frame item).length)
      else []

/-- The number of bytes behind the complete frames. -/
def leftover : List α → Nat → Nat
  | [], count => count
  | item :: items, count =>
      if (frame item).length ≤ count then
        leftover items (count - (frame item).length)
      else count

/-- The items whose frames are not complete. -/
def pending : List α → Nat → List α
  | [], _ => []
  | item :: items, count =>
      if (frame item).length ≤ count then
        pending items (count - (frame item).length)
      else item :: items

variable {frame} {item : α} {items rest : List α} {count more : Nat}

section

variable (arrived : (frame item).length ≤ count)
include arrived

theorem complete_of_arrived :
    complete frame (item :: items) count =
      item :: complete frame items (count - (frame item).length) :=
  if_pos arrived

theorem leftover_of_arrived :
    leftover frame (item :: items) count =
      leftover frame items (count - (frame item).length) :=
  if_pos arrived

theorem pending_of_arrived :
    pending frame (item :: items) count =
      pending frame items (count - (frame item).length) :=
  if_pos arrived

end

section

variable (short : count < (frame item).length)
include short

theorem complete_of_short : complete frame (item :: items) count = [] :=
  if_neg (Nat.not_le.mpr short)

theorem leftover_of_short : leftover frame (item :: items) count = count :=
  if_neg (Nat.not_le.mpr short)

theorem pending_of_short :
    pending frame (item :: items) count = item :: items :=
  if_neg (Nat.not_le.mpr short)

end

/-- Complete items and pending items together are all the items. -/
@[simp] theorem complete_append_pending (items : List α) (count : Nat) :
    complete frame items count ++ pending frame items count = items := by
  induction items generalizing count with
  | nil => rfl
  | cons item items inductionHypothesis =>
      obtain short | arrived := Nat.lt_or_ge count (frame item).length
      · rw [complete_of_short short, pending_of_short short, List.nil_append]
      · rw [complete_of_arrived arrived, pending_of_arrived arrived,
          List.cons_append, inductionHypothesis]

/-- Frames that have arrived, and a part of the next one. -/
theorem complete_append (short : more < (frame item).length) :
    complete frame (items ++ item :: rest)
        ((items.flatMap frame).length + more) = items ∧
      leftover frame (items ++ item :: rest)
        ((items.flatMap frame).length + more) = more := by
  induction items with
  | nil =>
      rw [List.nil_append, List.flatMap_nil, List.length_nil, Nat.zero_add]
      exact ⟨complete_of_short short, leftover_of_short short⟩
  | cons first items inductionHypothesis =>
      have count : ((first :: items).flatMap frame).length + more -
          (frame first).length = (items.flatMap frame).length + more := by
        rw [List.flatMap_cons, List.length_append]
        omega
      have arrived : (frame first).length ≤
          ((first :: items).flatMap frame).length + more := by
        rw [List.flatMap_cons, List.length_append]
        omega
      rw [List.cons_append, complete_of_arrived arrived,
        leftover_of_arrived arrived, count, inductionHypothesis.1,
        inductionHypothesis.2]
      exact ⟨rfl, rfl⟩

/-- The bytes are those of the complete frames and the ones that are left. -/
theorem length_complete_add_leftover (items : List α) (count : Nat) :
    ((complete frame items count).flatMap frame).length +
      leftover frame items count = count := by
  induction items generalizing count with
  | nil => exact Nat.zero_add _
  | cons item items inductionHypothesis =>
      obtain short | arrived := Nat.lt_or_ge count (frame item).length
      · rw [complete_of_short short, leftover_of_short short]
        exact Nat.zero_add _
      · have later := inductionHypothesis (count - (frame item).length)
        rw [complete_of_arrived arrived, leftover_of_arrived arrived,
          List.flatMap_cons, List.length_append]
        omega

/-- What is left is a part of the next frame. -/
theorem leftover_lt (next : pending frame items count = item :: rest) :
    leftover frame items count < (frame item).length := by
  induction items generalizing count with
  | nil => contradiction
  | cons first items inductionHypothesis =>
      obtain short | arrived := Nat.lt_or_ge count (frame first).length
      · rw [pending_of_short short] at next
        obtain ⟨rfl, -⟩ := List.cons.inj next
        rw [leftover_of_short short]
        exact short
      · rw [pending_of_arrived arrived] at next
        rw [leftover_of_arrived arrived]
        exact inductionHypothesis next

/-! ## More bytes -/

/-- More bytes complete items from the pending ones. -/
theorem complete_add (items : List α) (count more : Nat) :
    complete frame items (count + more) =
      complete frame items count ++
        complete frame (pending frame items count)
          (leftover frame items count + more) := by
  induction items generalizing count with
  | nil => rfl
  | cons item items inductionHypothesis =>
      obtain short | arrived := Nat.lt_or_ge count (frame item).length
      · rw [complete_of_short short, pending_of_short short,
          leftover_of_short short, List.nil_append]
      · rw [complete_of_arrived (Nat.le_add_right_of_le arrived),
          complete_of_arrived arrived, pending_of_arrived arrived,
          leftover_of_arrived arrived, Nat.sub_add_comm arrived,
          inductionHypothesis, List.cons_append]

/-- More bytes are left over as if they came behind the bytes left over of the
pending items. -/
theorem leftover_add (items : List α) (count more : Nat) :
    leftover frame items (count + more) =
      leftover frame (pending frame items count)
        (leftover frame items count + more) := by
  induction items generalizing count with
  | nil => rfl
  | cons item items inductionHypothesis =>
      obtain short | arrived := Nat.lt_or_ge count (frame item).length
      · rw [pending_of_short short, leftover_of_short short]
      · rw [leftover_of_arrived (Nat.le_add_right_of_le arrived),
          pending_of_arrived arrived, leftover_of_arrived arrived,
          Nat.sub_add_comm arrived, inductionHypothesis]

/-- More bytes leave pending what they leave of the pending items. -/
theorem pending_add (items : List α) (count more : Nat) :
    pending frame items (count + more) =
      pending frame (pending frame items count)
        (leftover frame items count + more) := by
  induction items generalizing count with
  | nil => rfl
  | cons item items inductionHypothesis =>
      obtain short | arrived := Nat.lt_or_ge count (frame item).length
      · rw [pending_of_short short, leftover_of_short short]
      · rw [pending_of_arrived (Nat.le_add_right_of_le arrived),
          pending_of_arrived arrived, leftover_of_arrived arrived,
          Nat.sub_add_comm arrived, inductionHypothesis]

/-- The stream behind the complete frames are the pending ones. -/
theorem flatMap_eq_append (items : List α) (count : Nat) :
    items.flatMap frame =
      (complete frame items count).flatMap frame ++
        (pending frame items count).flatMap frame := by
  rw [← List.flatMap_append, complete_append_pending]

/-- All items are complete in the whole stream. -/
theorem complete_of_length (items : List α) :
    complete frame items (items.flatMap frame).length = items := by
  have split := @complete_append_pending _ frame items
    (items.flatMap frame).length
  have lengths := @length_complete_add_leftover _ frame items
    (items.flatMap frame).length
  have whole := congrArg List.length
    (@flatMap_eq_append _ frame items (items.flatMap frame).length)
  rw [List.length_append] at whole
  cases isNext : pending frame items (items.flatMap frame).length with
  | nil =>
      rw [isNext, List.append_nil] at split
      exact split
  | cons next others =>
      have short := leftover_lt isNext
      rw [isNext, List.flatMap_cons, List.length_append] at whole
      omega

/-- What has not arrived are the bytes of the pending frames behind the ones
that are left over. -/
theorem drop_flatMap (items : List α) (count : Nat) :
    (items.flatMap frame).drop count =
      ((pending frame items count).flatMap frame).drop
        (leftover frame items count) := by
  have lengths := @length_complete_add_leftover _ frame items count
  rw [flatMap_eq_append items count, List.drop_append,
    List.drop_eq_nil_of_le (by omega), List.nil_append]
  congr 1
  omega

/-- The bytes that are left over are the first ones of the pending frames. -/
theorem drop_take_flatMap (items : List α) (count : Nat) :
    ((items.flatMap frame).take count).drop
        (count - leftover frame items count) =
      ((pending frame items count).flatMap frame).take
        (leftover frame items count) := by
  have lengths := @length_complete_add_leftover _ frame items count
  have front : count - leftover frame items count =
      ((complete frame items count).flatMap frame).length := by omega
  rw [List.drop_take, front, flatMap_eq_append items count,
    List.drop_left]
  congr 1
  omega

end Foundation
