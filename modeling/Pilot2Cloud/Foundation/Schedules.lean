import Mathlib.Data.Nat.Find
import Mathlib.Order.WellFounded
import Mathlib.Tactic.ByContra
import Mathlib.Tactic.Push

/-!
# Machines that follow a schedule

A machine takes one step for each label of an endless schedule.  Where every
step that is not idle brings it closer to a final state, it comes to one unless
the schedule is idle from some point on.
-/

namespace Foundation

variable {σ ε : Type}

/-- The state after some labels of a schedule. -/
def after (step : σ → ε → σ) (schedule : ℕ → ε) (start : σ) : ℕ → σ
  | 0 => start
  | count + 1 => step (after step schedule start count) (schedule count)

variable {step : σ → ε → σ} {schedule : ℕ → ε} {start : σ}
  {invariant final : σ → Prop} {idle : ε → Prop}

namespace After

theorem preserves
    (kept : ∀ state label, invariant state → invariant (step state label))
    (initially : invariant start) (count : ℕ) :
    invariant (after step schedule start count) := by
  induction count with
  | zero => exact initially
  | succ count inductionHypothesis => exact kept _ _ inductionHypothesis

/-- While the schedule is idle the machine stands still. -/
theorem eq_of_idle
    (stands : ∀ state label, idle label → step state label = state)
    {count : ℕ} {more : ℕ}
    (allIdle : ∀ next, count ≤ next → next < count + more →
      idle (schedule next)) :
    after step schedule start (count + more) =
      after step schedule start count := by
  induction more with
  | zero => rfl
  | succ more inductionHypothesis =>
      have before := inductionHypothesis fun next isLater isEarlier =>
        allIdle next isLater (by omega)
      calc after step schedule start (count + (more + 1))
          = step (after step schedule start (count + more))
              (schedule (count + more)) := rfl
        _ = after step schedule start (count + more) :=
            stands _ _ (allIdle _ (by omega) (by omega))
        _ = after step schedule start count := before

/-- A final state is kept. -/
theorem eq_of_final
    (rests : ∀ state label, final state → step state label = state)
    {count later : ℕ} (order : count ≤ later)
    (isFinal : final (after step schedule start count)) :
    after step schedule start later = after step schedule start count := by
  induction later, order using Nat.le_induction with
  | base => rfl
  | succ later _ inductionHypothesis =>
      rw [after, inductionHypothesis, rests _ _ isFinal]

/-- The first label that is not idle brings the machine closer. -/
theorem exists_closer (distance : σ → ℕ)
    (stands : ∀ state label, idle label → step state label = state)
    (closer : ∀ state label, ¬final state → ¬idle label →
      distance (step state label) < distance state)
    {count : ℕ} (notFinal : ¬final (after step schedule start count))
    (notIdle : ∃ next, count ≤ next ∧ ¬idle (schedule next)) :
    ∃ later, distance (after step schedule start later) <
      distance (after step schedule start count) := by
  classical
  have isLater := (Nat.find_spec notIdle).1
  have moves := (Nat.find_spec notIdle).2
  have first := fun next => @Nat.find_min _ _ notIdle next
  generalize Nat.find notIdle = next at isLater moves first
  obtain ⟨more, rfl⟩ := Nat.exists_eq_add_of_le isLater
  have waited : after step schedule start (count + more) =
      after step schedule start count := by
    apply eq_of_idle stands
    intro earlier isLater isEarlier
    by_contra isMove
    exact first earlier isEarlier ⟨isLater, isMove⟩
  refine ⟨count + more + 1, ?_⟩
  rw [after, waited]
  exact closer _ _ notFinal moves

/-- A machine that comes closer with every label that is not idle gets to a
final state, unless it waits for ever before one. -/
theorem exists_final_iff (distance : σ → ℕ)
    (stands : ∀ state label, idle label → step state label = state)
    (rests : ∀ state label, final state → step state label = state)
    (closer : ∀ state label, ¬final state → ¬idle label →
      distance (step state label) < distance state) :
    (∃ count, final (after step schedule start count)) ↔
      ¬∃ count, ¬final (after step schedule start count) ∧
        ∀ next, count ≤ next → idle (schedule next) := by
  constructor
  · rintro ⟨count, isFinal⟩ ⟨stuck, notFinal, allIdle⟩
    obtain isLater | isEarlier := Nat.le_total count stuck
    · rw [eq_of_final rests isLater isFinal] at notFinal
      exact notFinal isFinal
    · obtain ⟨more, rfl⟩ := Nat.exists_eq_add_of_le isEarlier
      rw [eq_of_idle stands fun next later _ => allIdle next later] at isFinal
      exact notFinal isFinal
  · intro neverStuck
    by_contra noFinal
    have notFinal := not_exists.mp noFinal
    let remains := fun count => distance (after step schedule start count)
    let nearest := Function.argmin remains
    have notIdle : ∃ next, nearest ≤ next ∧ ¬idle (schedule next) := by
      by_contra allIdle
      push Not at allIdle
      exact neverStuck ⟨nearest, notFinal nearest, allIdle⟩
    obtain ⟨later, isCloser⟩ :=
      exists_closer distance stands closer (notFinal nearest) notIdle
    exact Function.not_lt_argmin remains later isCloser

end After
end Foundation
