import Mathlib

/-!
# Interpolation between knots

A table of knots gives a function that is linear between neighbouring knots and
constant behind the last one.  The function takes the values of the knots, is
continuous, and falls where the values of the knots do.
-/

namespace Foundation

/-- A place and the value of a function there. -/
structure Knot (K : Type*) where
  place : K
  value : K

namespace Knot

variable {K : Type*} [Field K]

/-- The line through two knots. -/
def line (first second : Knot K) (place : K) : K :=
  first.value + (place - first.place) / (second.place - first.place) *
    (second.value - first.value)

@[simp] theorem line_first (first second : Knot K) :
    first.line second first.place = first.value := by
  rw [line, sub_self, zero_div, zero_mul, add_zero]

theorem line_second {first second : Knot K}
    (apart : first.place ≠ second.place) :
    first.line second second.place = second.value := by
  rw [line, div_self (sub_ne_zero.mpr apart.symm), one_mul,
    add_sub_cancel]

variable [LinearOrder K]

/-- The second knot lies behind the first one, and not higher. -/
structure Falls (first second : Knot K) : Prop where
  behind : first.place < second.place
  notHigher : second.value ≤ first.value

variable [IsStrictOrderedRing K] {first second : Knot K}

/-- The line through two falling knots is antitone. -/
theorem Falls.line_antitone (falls : first.Falls second) :
    Antitone (first.line second) := by
  intro early late ordered
  have width : 0 < second.place - first.place := sub_pos.mpr falls.behind
  have share : (early - first.place) / (second.place - first.place) ≤
      (late - first.place) / (second.place - first.place) :=
    div_le_div_of_nonneg_right (sub_le_sub_right ordered _) width.le
  unfold line
  apply add_le_add_right
  exact mul_le_mul_of_nonpos_right share (sub_nonpos.mpr falls.notHigher)

end Knot

section Interpolation

variable {K : Type*} [Field K] [LinearOrder K]

/-- The function from a knot on. -/
def interpolateFrom : Knot K → List (Knot K) → K → K
  | first, [], _ => first.value
  | first, second :: knots, place =>
      if place ≤ second.place then first.line second place
      else interpolateFrom second knots place

variable {first second : Knot K} {knots : List (Knot K)} {place : K}

/-- The function takes the value of its first knot. -/
theorem interpolateFrom_first
    (falls : List.IsChain Knot.Falls (first :: knots)) :
    interpolateFrom first knots first.place = first.value := by
  cases knots with
  | nil => rfl
  | cons second knots =>
      obtain ⟨here, -⟩ := List.isChain_cons_cons.mp falls
      rw [interpolateFrom, if_pos here.behind.le, Knot.line_first]

omit [Field K] in
/-- No knot lies in front of the first one. -/
theorem first_le_of_mem {other : Knot K}
    (falls : List.IsChain Knot.Falls (first :: knots))
    (isKnot : other ∈ first :: knots) : first.place ≤ other.place := by
  induction knots generalizing first with
  | nil =>
      rw [List.mem_singleton.mp isKnot]
  | cons second knots inductionHypothesis =>
      obtain ⟨here, later⟩ := List.isChain_cons_cons.mp falls
      obtain rfl | isLater := List.mem_cons.mp isKnot
      · exact le_rfl
      · exact here.behind.le.trans (inductionHypothesis later isLater)

/-- Between two neighbouring knots the function is their line. -/
theorem interpolateFrom_between {front back : List (Knot K)}
    {left right : Knot K}
    (falls : List.IsChain Knot.Falls (first :: knots))
    (neighbours : first :: knots = front ++ left :: right :: back)
    (behind : left.place ≤ place) (before : place ≤ right.place) :
    interpolateFrom first knots place = left.line right place := by
  induction front generalizing first knots with
  | nil =>
      obtain ⟨rfl, rfl⟩ := List.cons.inj neighbours
      rw [interpolateFrom, if_pos before]
  | cons other front inductionHypothesis =>
      obtain ⟨-, isTail⟩ := List.cons.inj neighbours
      cases knots with
      | nil => simp at isTail
      | cons second knots =>
          obtain ⟨here, later⟩ := List.isChain_cons_cons.mp falls
          have there := inductionHypothesis later isTail
          have isKnot : left ∈ second :: knots := by
            rw [isTail]
            exact List.mem_append_right _ List.mem_cons_self
          rw [interpolateFrom]
          split
          case isTrue early =>
            -- the place is that of the knot where the line begins
            have meets : place = second.place :=
              le_antisymm early ((first_le_of_mem later isKnot).trans behind)
            rw [← there, meets, Knot.line_second here.behind.ne,
              interpolateFrom_first later]
          case isFalse _ => exact there

/-- Behind the last knot the function keeps its value. -/
theorem interpolateFrom_last
    (falls : List.IsChain Knot.Falls (first :: knots))
    (behind : ((first :: knots).getLast (List.cons_ne_nil _ _)).place ≤
      place) :
    interpolateFrom first knots place =
      ((first :: knots).getLast (List.cons_ne_nil _ _)).value := by
  induction knots generalizing first with
  | nil => rfl
  | cons second knots inductionHypothesis =>
      obtain ⟨here, later⟩ := List.isChain_cons_cons.mp falls
      rw [List.getLast_cons (List.cons_ne_nil _ _)] at behind ⊢
      have there := inductionHypothesis later behind
      rw [interpolateFrom]
      split
      case isTrue early =>
        have notBefore := first_le_of_mem later
          (List.getLast_mem (List.cons_ne_nil second knots))
        have meets : place = second.place :=
          le_antisymm early (notBefore.trans behind)
        rw [← there, meets, Knot.line_second here.behind.ne,
          interpolateFrom_first later]
      case isFalse _ => exact there

/-- The function that is constant in front of the first knot, too. -/
def interpolateClamped (first : Knot K) (knots : List (Knot K)) (place : K) :
    K :=
  if place ≤ first.place then first.value
  else interpolateFrom first knots place

/-- From the first knot on, it is the function of the knots. -/
theorem interpolateClamped_of_behind
    (falls : List.IsChain Knot.Falls (first :: knots))
    (behind : first.place ≤ place) :
    interpolateClamped first knots place =
      interpolateFrom first knots place := by
  unfold interpolateClamped
  split
  case isTrue early =>
    rw [le_antisymm early behind, interpolateFrom_first falls]
  case isFalse _ => rfl

section Continuity

variable [TopologicalSpace K] [IsTopologicalRing K] [OrderClosedTopology K]

omit [LinearOrder K] [OrderClosedTopology K] in
/-- The line through two knots is continuous. -/
theorem Knot.continuous_line (first second : Knot K) :
    Continuous (first.line second) := by
  unfold Knot.line
  apply continuous_const.add
  apply Continuous.mul _ continuous_const
  exact (continuous_id.sub continuous_const).div_const _

/-- The function is continuous, at its knots too. -/
theorem continuous_interpolateFrom
    (falls : List.IsChain Knot.Falls (first :: knots)) :
    Continuous (interpolateFrom first knots) := by
  induction knots generalizing first with
  | nil => exact continuous_const
  | cons second knots inductionHypothesis =>
      obtain ⟨here, later⟩ := List.isChain_cons_cons.mp falls
      apply Continuous.if_le (first.continuous_line second)
        (inductionHypothesis later) continuous_id continuous_const
      rintro _ rfl
      exact (Knot.line_second here.behind.ne).trans
        (interpolateFrom_first later).symm

/-- The interpolation through falling knots is continuous. -/
theorem continuous_interpolateClamped
    (falls : List.IsChain Knot.Falls (first :: knots)) :
    Continuous (interpolateClamped first knots) := by
  apply Continuous.if_le continuous_const (continuous_interpolateFrom falls)
    continuous_id continuous_const
  rintro _ rfl
  exact (interpolateFrom_first falls).symm

end Continuity

variable [IsStrictOrderedRing K]

/-- Behind its first knot the function is not higher than there. -/
theorem interpolateFrom_le
    (falls : List.IsChain Knot.Falls (first :: knots))
    (behind : first.place ≤ place) :
    interpolateFrom first knots place ≤ first.value := by
  induction knots generalizing first with
  | nil => exact le_rfl
  | cons second knots inductionHypothesis =>
      obtain ⟨here, later⟩ := List.isChain_cons_cons.mp falls
      unfold interpolateFrom
      split
      case isTrue _ =>
        rw [← Knot.line_first first second]
        exact here.line_antitone behind
      case isFalse beyond =>
        calc
          interpolateFrom second knots place ≤ second.value :=
            inductionHypothesis later (not_le.mp beyond).le
          _ ≤ first.value := here.notHigher

/-- Behind its first knot the function falls. -/
theorem interpolateFrom_antitoneOn
    (falls : List.IsChain Knot.Falls (first :: knots)) :
    AntitoneOn (interpolateFrom first knots) (Set.Ici first.place) := by
  induction knots generalizing first with
  | nil => exact antitoneOn_const
  | cons second knots inductionHypothesis =>
      obtain ⟨here, later⟩ := List.isChain_cons_cons.mp falls
      intro early _ late _ ordered
      unfold interpolateFrom
      by_cases lateHere : late ≤ second.place
      · rw [if_pos lateHere, if_pos (ordered.trans lateHere)]
        exact here.line_antitone ordered
      · have lateBehind : second.place ≤ late := (not_le.mp lateHere).le
        rw [if_neg lateHere]
        split
        case isTrue earlyHere =>
          calc
            interpolateFrom second knots late ≤ second.value :=
              interpolateFrom_le later lateBehind
            _ = first.line second second.place :=
              (Knot.line_second here.behind.ne).symm
            _ ≤ first.line second early := here.line_antitone earlyHere
        case isFalse earlyBehind =>
          exact inductionHypothesis later (not_le.mp earlyBehind).le
            lateBehind ordered

/-- No value is lower than that of the last knot. -/
theorem last_le_interpolateFrom
    (falls : List.IsChain Knot.Falls (first :: knots)) (place : K) :
    ((first :: knots).getLast (List.cons_ne_nil _ _)).value ≤
      interpolateFrom first knots place := by
  induction knots generalizing first place with
  | nil => exact le_rfl
  | cons second knots inductionHypothesis =>
      obtain ⟨here, later⟩ := List.isChain_cons_cons.mp falls
      rw [List.getLast_cons (List.cons_ne_nil _ _)]
      unfold interpolateFrom
      split
      case isTrue before =>
        calc
          _ ≤ interpolateFrom second knots second.place :=
            inductionHypothesis later second.place
          _ = second.value := interpolateFrom_first later
          _ = first.line second second.place :=
            (Knot.line_second here.behind.ne).symm
          _ ≤ first.line second place := here.line_antitone before
      case isFalse _ => exact inductionHypothesis later place

/-- The interpolation never exceeds the value of the first knot. -/
theorem interpolateClamped_le
    (falls : List.IsChain Knot.Falls (first :: knots)) (place : K) :
    interpolateClamped first knots place ≤ first.value := by
  unfold interpolateClamped
  split
  case isTrue _ => exact le_rfl
  case isFalse behind =>
    exact interpolateFrom_le falls (not_le.mp behind).le

/-- The interpolation never falls below the value of the last knot. -/
theorem last_le_interpolateClamped
    (falls : List.IsChain Knot.Falls (first :: knots)) (place : K) :
    ((first :: knots).getLast (List.cons_ne_nil _ _)).value ≤
      interpolateClamped first knots place := by
  unfold interpolateClamped
  split
  case isTrue _ =>
    rw [← interpolateFrom_first falls]
    exact last_le_interpolateFrom falls first.place
  case isFalse _ => exact last_le_interpolateFrom falls place

/-- The function falls everywhere. -/
theorem interpolateClamped_antitone
    (falls : List.IsChain Knot.Falls (first :: knots)) :
    Antitone (interpolateClamped first knots) := by
  intro early late ordered
  by_cases inFront : early ≤ first.place
  · calc
      interpolateClamped first knots late ≤ first.value :=
        interpolateClamped_le falls late
      _ = interpolateClamped first knots early := (if_pos inFront).symm
  · have behind : first.place ≤ early := (not_le.mp inFront).le
    rw [interpolateClamped_of_behind falls behind,
      interpolateClamped_of_behind falls (behind.trans ordered)]
    exact interpolateFrom_antitoneOn falls behind (behind.trans ordered)
      ordered

end Interpolation
end Foundation
