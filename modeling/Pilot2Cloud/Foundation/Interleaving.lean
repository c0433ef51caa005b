import Mathlib.Data.List.Perm.Basic

/-!
# Interleavings of two lists

Two threads that each emit a list in order produce together an interleaving of
the two lists.
-/

namespace Foundation

/-- The third list merges the first two, keeping the order of each. -/
inductive Interleaves {α : Type} : List α → List α → List α → Prop
  | nil : Interleaves [] [] []
  | left (item : α) :
      Interleaves first second merged →
      Interleaves (item :: first) second (item :: merged)
  | right (item : α) :
      Interleaves first second merged →
      Interleaves first (item :: second) (item :: merged)

namespace Interleaves

variable {α β : Type} {first second merged : List α}

/-- The two sides of an interleaving may be exchanged. -/
theorem symm (interleaves : Interleaves first second merged) :
    Interleaves second first merged := by
  induction interleaves with
  | nil => exact .nil
  | left item _ inductionHypothesis => exact .right item inductionHypothesis
  | right item _ inductionHypothesis => exact .left item inductionHypothesis

/-- A list alone is an interleaving of itself and nothing. -/
theorem left_only (items : List α) : Interleaves items [] items := by
  induction items with
  | nil => exact .nil
  | cons item items inductionHypothesis =>
      exact .left item inductionHypothesis

/-- One list after the other is an interleaving. -/
theorem append (first second : List α) :
    Interleaves first second (first ++ second) := by
  induction first with
  | nil => exact (left_only second).symm
  | cons item first inductionHypothesis =>
      exact .left item inductionHypothesis

/-- An interleaving permutes the two lists one after the other. -/
theorem perm (interleaves : Interleaves first second merged) :
    merged.Perm (first ++ second) := by
  induction interleaves with
  | nil => exact .refl _
  | left item _ inductionHypothesis => exact inductionHypothesis.cons item
  | right item _ inductionHypothesis =>
      exact (inductionHypothesis.cons item).trans List.perm_middle.symm

/-- An interleaving of images is the image of an interleaving. -/
theorem of_map (image : α → β) {mapped : List β}
    (interleaves :
      Interleaves (first.map image) (second.map image) mapped) :
    ∃ merged, Interleaves first second merged ∧
      mapped = merged.map image := by
  generalize isFirst : first.map image = firstImage at interleaves
  generalize isSecond : second.map image = secondImage at interleaves
  induction interleaves generalizing first second with
  | nil =>
      rw [List.map_eq_nil_iff] at isFirst isSecond
      subst isFirst isSecond
      exact ⟨[], .nil, rfl⟩
  | left item _ inductionHypothesis =>
      obtain ⟨item, later, rfl, rfl, rest⟩ := List.map_eq_cons_iff.mp isFirst
      obtain ⟨merged, split, rfl⟩ := inductionHypothesis rest isSecond
      exact ⟨item :: merged, .left item split, rfl⟩
  | right item _ inductionHypothesis =>
      obtain ⟨item, later, rfl, rfl, rest⟩ := List.map_eq_cons_iff.mp isSecond
      obtain ⟨merged, split, rfl⟩ := inductionHypothesis isFirst rest
      exact ⟨item :: merged, .right item split, rfl⟩

/-- An interleaving with nothing is the other list. -/
theorem eq_left (interleaves : Interleaves first [] merged) :
    merged = first := by
  generalize isNil : ([] : List α) = second at interleaves
  induction interleaves with
  | nil => rfl
  | left item _ inductionHypothesis => rw [inductionHypothesis isNil]
  | right item _ _ => contradiction

/-- A single item is merged in somewhere. -/
theorem of_singleton {item : α}
    (interleaves : Interleaves first [item] merged) :
    ∃ front back, first = front ++ back ∧
      merged = front ++ item :: back := by
  generalize isSecond : [item] = second at interleaves
  induction interleaves with
  | nil => contradiction
  | left head _ inductionHypothesis =>
      obtain ⟨front, back, rfl, rfl⟩ := inductionHypothesis isSecond
      exact ⟨head :: front, back, rfl, rfl⟩
  | @right first second merged head rest _ =>
      obtain ⟨rfl, rfl⟩ := List.cons.inj isSecond
      exact ⟨[], first, rfl, by rw [rest.eq_left, List.nil_append]⟩

/-- A property that holds of one list only picks it out. -/
theorem filter_left (isLeft : α → Bool)
    (interleaves : Interleaves first second merged)
    (allFirst : ∀ item ∈ first, isLeft item = true)
    (noneSecond : ∀ item ∈ second, isLeft item = false) :
    merged.filter isLeft = first := by
  induction interleaves with
  | nil => rfl
  | left item _ inductionHypothesis =>
      rw [List.forall_mem_cons] at allFirst
      rw [List.filter_cons_of_pos allFirst.1,
        inductionHypothesis allFirst.2 noneSecond]
  | right item _ inductionHypothesis =>
      rw [List.forall_mem_cons] at noneSecond
      rw [List.filter_cons_of_neg (by simp [noneSecond.1]),
        inductionHypothesis allFirst noneSecond.2]

/-- If the items of one list all come before those of the other, the merged
list is one list after the other. -/
theorem eq_append_of_map
    (isLeft : α → Bool) (interleaves : Interleaves first second merged)
    (allFirst : ∀ item ∈ first, isLeft item = true)
    (noneSecond : ∀ item ∈ second, isLeft item = false)
    {early late : Nat}
    (sorted : merged.map isLeft =
      List.replicate early true ++ List.replicate late false) :
    merged = first ++ second := by
  obtain ⟨front, back, rfl, isFront, isBack⟩ := List.map_eq_append_iff.mp sorted
  have inFront : ∀ item ∈ front, isLeft item = true := by
    intro item member
    have image := List.mem_map_of_mem (f := isLeft) member
    rw [isFront] at image
    exact List.eq_of_mem_replicate image
  have inBack : ∀ item ∈ back, isLeft item = false := by
    intro item member
    have image := List.mem_map_of_mem (f := isLeft) member
    rw [isBack] at image
    exact List.eq_of_mem_replicate image
  have isFirst := interleaves.filter_left isLeft allFirst noneSecond
  have isSecond := interleaves.symm.filter_left (fun item => !isLeft item)
    (fun item member => by rw [noneSecond item member]; rfl)
    (fun item member => by rw [allFirst item member]; rfl)
  rw [List.filter_append, List.filter_eq_self.mpr inFront,
    List.filter_eq_nil_iff.mpr fun item member => by simp [inBack item member],
    List.append_nil] at isFirst
  rw [List.filter_append,
    List.filter_eq_nil_iff.mpr fun item member => by
      simp [inFront item member],
    List.filter_eq_self.mpr fun item member => by rw [inBack item member]; rfl,
    List.nil_append] at isSecond
  rw [isFirst, isSecond]

end Interleaves
end Foundation
