import Mathlib.Order.Lattice
import Mathlib.Data.List.Basic

/-!
# Running minimum

A scan keeps the best element so far with its measure and replaces it by every
element whose measure is strictly less.  What it ends with is what it started
with, unless some element is below that.
-/

namespace Foundation

variable {α δ : Type} [LinearOrder δ] (measure : α → δ)

/-- Replace the best so far by an element whose measure is less. -/
def nearer (best : α × δ) (element : α) : α × δ :=
  if measure element < best.2 then (element, measure element) else best

/-- The best of a start and a list. -/
def runningMinimum (best : α × δ) (elements : List α) : α × δ :=
  elements.foldl (nearer measure) best

variable (best : α × δ) (element : α) (elements : List α)

theorem nearer_le : (nearer measure best element).2 ≤ best.2 := by
  unfold nearer
  split_ifs with isLess
  · exact isLess.le
  · exact le_rfl

theorem nearer_le_measure :
    (nearer measure best element).2 ≤ measure element := by
  unfold nearer
  split_ifs with isLess
  · exact le_rfl
  · exact not_lt.mp isLess

@[simp] theorem runningMinimum_cons :
    runningMinimum measure best (element :: elements) =
      runningMinimum measure (nearer measure best element) elements :=
  rfl

/-- The running minimum never exceeds the value it starts from. -/
theorem runningMinimum_le :
    (runningMinimum measure best elements).2 ≤ best.2 := by
  induction elements generalizing best with
  | nil => exact le_rfl
  | cons first elements inductionHypothesis =>
      rw [runningMinimum_cons]
      exact (inductionHypothesis _).trans (nearer_le measure best first)

/-- The scan ends with what it started with or with an element that is below
it. -/
theorem runningMinimum_eq_or_mem :
    runningMinimum measure best elements = best ∨
      ∃ element ∈ elements, measure element < best.2 ∧
        runningMinimum measure best elements = (element, measure element) := by
  induction elements generalizing best with
  | nil => exact .inl rfl
  | cons first elements inductionHypothesis =>
      rw [runningMinimum_cons]
      obtain isSame | ⟨element, isMember, isLess, isElement⟩ :=
        inductionHypothesis (nearer measure best first)
      · rw [isSame]
        unfold nearer
        split_ifs with isLess
        · exact .inr ⟨first, List.mem_cons_self, isLess, rfl⟩
        · exact .inl rfl
      · exact .inr ⟨element, List.mem_cons_of_mem _ isMember,
          isLess.trans_le (nearer_le measure best first), isElement⟩

variable {measure best element elements}

/-- The running minimum does not exceed the measure of any element. -/
theorem runningMinimum_le_measure (isMember : element ∈ elements) :
    (runningMinimum measure best elements).2 ≤ measure element := by
  induction elements generalizing best with
  | nil => exact absurd isMember List.not_mem_nil
  | cons first elements inductionHypothesis =>
      rw [runningMinimum_cons]
      obtain rfl | later := List.mem_cons.mp isMember
      · exact (runningMinimum_le _ _ _).trans (nearer_le_measure _ _ _)
      · exact inductionHypothesis later

/-- Nothing below the start leaves it. -/
theorem runningMinimum_of_le
    (bounded : ∀ element ∈ elements, best.2 ≤ measure element) :
    runningMinimum measure best elements = best := by
  obtain isSame | ⟨element, isMember, isLess, -⟩ :=
    runningMinimum_eq_or_mem measure best elements
  · exact isSame
  · exact absurd (bounded element isMember) isLess.not_ge

/-- Something below the start is found, and nothing is below what is found. -/
theorem runningMinimum_of_lt {near : α} (isMember : near ∈ elements)
    (isLess : measure near < best.2) :
    ∃ element ∈ elements,
      runningMinimum measure best elements = (element, measure element) ∧
      ∀ other ∈ elements, measure element ≤ measure other := by
  obtain isSame | ⟨element, isElement, -, isFound⟩ :=
    runningMinimum_eq_or_mem measure best elements
  · have isBelow : (runningMinimum measure best elements).2 ≤ measure near :=
      runningMinimum_le_measure isMember
    rw [isSame] at isBelow
    exact absurd isBelow isLess.not_ge
  · refine ⟨element, isElement, isFound, ?_⟩
    intro other isOther
    have isBelow : (runningMinimum measure best elements).2 ≤ measure other :=
      runningMinimum_le_measure isOther
    rwa [isFound] at isBelow

/-- The first of the nearest elements is the one that is found. -/
theorem runningMinimum_cons_of_nearest {first : α}
    (isLess : measure first < best.2)
    (nearest : ∀ other ∈ elements, measure first ≤ measure other) :
    runningMinimum measure best (first :: elements) = (first, measure first) := by
  have isFirst : nearer measure best first = (first, measure first) :=
    if_pos isLess
  rw [runningMinimum_cons, isFirst]
  exact runningMinimum_of_le nearest

end Foundation
