import Mathlib.Data.List.Basic

/-!
# Consecutive segments of a string

A string can be cut into consecutive segments in several ways.  Pairing every
segment with the position at which it starts makes the segments of two cuts of
one string comparable.
-/

namespace Foundation

/-- The segments of a cut that starts at a position, each with its own
position. -/
def segments : Nat → List (List α) → List (Nat × List α)
  | _, [] => []
  | position, segment :: later =>
      (position, segment) :: segments (position + segment.length) later

theorem segments_append (position : Nat) (front back : List (List α)) :
    segments position (front ++ back) =
      segments position front ++
        segments (position + front.flatten.length) back := by
  induction front generalizing position with
  | nil => simp [segments]
  | cons segment front inductionHypothesis =>
      simp [segments, inductionHypothesis, Nat.add_assoc]

/-- No segment starts before the cut does. -/
theorem le_of_mem_segments
    {position : Nat} {cut : List (List α)} {segment : Nat × List α}
    (member : segment ∈ segments position cut) :
    position ≤ segment.1 := by
  induction cut generalizing position with
  | nil => simp [segments] at member
  | cons head cut inductionHypothesis =>
      rw [segments, List.mem_cons] at member
      rcases member with rfl | later
      · exact Nat.le_refl _
      · exact Nat.le_trans (Nat.le_add_right _ _) (inductionHypothesis later)

/-- No segment ends behind the last one. -/
theorem end_le_of_mem_segments
    {position : Nat} {cut : List (List α)} {segment : Nat × List α}
    (member : segment ∈ segments position cut) :
    segment.1 + segment.2.length ≤ position + cut.flatten.length := by
  induction cut generalizing position with
  | nil => simp [segments] at member
  | cons head cut inductionHypothesis =>
      rw [segments, List.mem_cons] at member
      rw [List.flatten_cons, List.length_append]
      rcases member with rfl | later
      · dsimp only
        omega
      · have bound := inductionHypothesis later
        omega

/-- The segments of a cut are its pieces. -/
theorem mem_of_mem_segments
    {position : Nat} {cut : List (List α)} {segment : Nat × List α}
    (member : segment ∈ segments position cut) :
    segment.2 ∈ cut := by
  induction cut generalizing position with
  | nil => simp [segments] at member
  | cons head cut inductionHypothesis =>
      rw [segments, List.mem_cons] at member
      rcases member with rfl | later
      · exact List.mem_cons_self
      · exact List.mem_cons_of_mem _ (inductionHypothesis later)

end Foundation
