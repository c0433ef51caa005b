import Mathlib

/-!
# Arithmetic that rounds

The numbers of a floating-point format are those that rounding leaves as they
are.  An operation rounds its exact result.  As rounding is monotone, adding a
nonnegative number never makes a number smaller, however the sum is rounded.
-/

namespace Foundation

/-- A rounding of an ordered field to the numbers of a format. -/
structure Rounding (K : Type*) [LinearOrder K] [Zero K] where
  round : K → K
  monotone : Monotone round
  idempotent : ∀ value, round (round value) = round value
  zero : round 0 = 0

namespace Rounding

/-- Every number is a number of the format. -/
def exact (K : Type*) [LinearOrder K] [Zero K] : Rounding K :=
  ⟨id, monotone_id, fun _ => rfl, rfl⟩

end Rounding

/-- A number of the format. -/
def Rounded {K : Type*} [LinearOrder K] [Zero K] (rounding : Rounding K) :=
  { value : K // rounding.round value = value }

namespace Rounded

variable {K : Type*} [Field K] [LinearOrder K] {rounding : Rounding K}

instance : LinearOrder (Rounded rounding) :=
  inferInstanceAs (LinearOrder { value : K // rounding.round value = value })

/-- The number of the format for an exact number. -/
def ofExact (rounding : Rounding K) (value : K) : Rounded rounding :=
  ⟨rounding.round value, rounding.idempotent value⟩

/-- The sum is rounded. -/
def add (left right : Rounded rounding) : Rounded rounding :=
  ofExact rounding (left.val + right.val)

/-- The difference is rounded. -/
def sub (left right : Rounded rounding) : Rounded rounding :=
  ofExact rounding (left.val - right.val)

/-- The product is rounded. -/
def mul (left right : Rounded rounding) : Rounded rounding :=
  ofExact rounding (left.val * right.val)

@[simp] theorem ofExact_val (value : Rounded rounding) :
    ofExact rounding value.val = value :=
  Subtype.ext value.property

/-- Rounding to the format is monotone. -/
theorem ofExact_mono : Monotone (ofExact rounding) := by
  intro left right le
  exact rounding.monotone le

theorem ofExact_nonneg {value : K} (nonneg : 0 ≤ value) :
    0 ≤ (ofExact rounding value).val := by
  calc
    0 = rounding.round 0 := rounding.zero.symm
    _ ≤ rounding.round value := rounding.monotone nonneg

variable [IsStrictOrderedRing K]

/-- Adding a nonnegative value does not make a sum smaller. -/
theorem le_add {left right : Rounded rounding} (nonneg : 0 ≤ right.val) :
    left ≤ left.add right := by
  calc
    left = ofExact rounding left.val := (ofExact_val left).symm
    _ ≤ left.add right := ofExact_mono (le_add_of_nonneg_right nonneg)

/-- Subtracting a nonnegative value does not make a difference larger. -/
theorem sub_le {left right : Rounded rounding} (nonneg : 0 ≤ right.val) :
    left.sub right ≤ left := by
  calc
    left.sub right ≤ ofExact rounding left.val :=
      ofExact_mono (sub_le_self _ nonneg)
    _ = left := ofExact_val left

end Rounded
end Foundation
