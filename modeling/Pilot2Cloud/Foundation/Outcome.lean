import Mathlib.Logic.Basic

/-!
# Computations that may fail

A sequence of fallible steps succeeds exactly when its first step does and the
rest succeeds on the value of the first.
-/

namespace Foundation

variable {ε α β : Type}

@[simp] theorem ok_bind (value : α) (next : α → Except ε β) :
    (Except.ok value >>= next) = next value :=
  rfl

@[simp] theorem error_bind (fault : ε) (next : α → Except ε β) :
    ((Except.error fault : Except ε α) >>= next) = .error fault :=
  rfl

@[simp] theorem pure_eq_ok (value : α) :
    (pure value : Except ε α) = .ok value :=
  rfl

/-- A sequence of two computations succeeds when the first does and the second
does on its value. -/
theorem bind_eq_ok_iff
    {first : Except ε α} {next : α → Except ε β} {result : β} :
    (first >>= next) = .ok result ↔
      ∃ value, first = .ok value ∧ next value = .ok result := by
  cases first with
  | error fault => simp
  | ok value => simp

end Foundation
