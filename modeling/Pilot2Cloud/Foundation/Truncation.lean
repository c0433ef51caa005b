import Mathlib

/-!
# Truncation to machine integers

A number is converted to an integer by dropping its fraction, which rounds
toward zero.  The conversion to a fixed width is defined only where the result
fits.  Truncated quotients number the cells of a uniform subdivision.

What a program computes with numbers is written with its operations alone, so
that it can be read without rounding, in an ordered field, and with the rounding
of a format.
-/

namespace Foundation

/-! ## The operations of a program -/

/-- The operations on the numbers of a program. -/
class Arithmetic (K : Type*) where
  [toZero : Zero K]
  [toOne : One K]
  [toNatCast : NatCast K]
  [toIntCast : IntCast K]
  [toNeg : Neg K]
  [toAdd : Add K]
  [toSub : Sub K]
  [toMul : Mul K]
  [toDiv : Div K]
  [toLT : LT K]
  [toDecidableLT : DecidableLT K]
  [toLE : LE K]
  [toDecidableLE : DecidableLE K]
  [toDecidableEq : DecidableEq K]

section Operations

variable {K : Type*} [Arithmetic K]

instance (priority := low) Arithmetic.zero : Zero K := Arithmetic.toZero

instance (priority := low) Arithmetic.one : One K := Arithmetic.toOne

instance (priority := low) Arithmetic.natCast : NatCast K := Arithmetic.toNatCast

instance (priority := low) Arithmetic.intCast : IntCast K := Arithmetic.toIntCast

instance (priority := low) Arithmetic.neg : Neg K := Arithmetic.toNeg

instance (priority := low) Arithmetic.add : Add K := Arithmetic.toAdd

instance (priority := low) Arithmetic.sub : Sub K := Arithmetic.toSub

instance (priority := low) Arithmetic.mul : Mul K := Arithmetic.toMul

instance (priority := low) Arithmetic.div : Div K := Arithmetic.toDiv

instance (priority := low) Arithmetic.lt : LT K := Arithmetic.toLT

instance (priority := low) Arithmetic.decidableLT : DecidableLT K :=
  Arithmetic.toDecidableLT

instance (priority := low) Arithmetic.le : LE K := Arithmetic.toLE

instance (priority := low) Arithmetic.decidableLE : DecidableLE K :=
  Arithmetic.toDecidableLE

instance (priority := low) Arithmetic.decidableEq : DecidableEq K :=
  Arithmetic.toDecidableEq

end Operations

/-- Computation without rounding. -/
instance {K : Type*} [Field K] [LinearOrder K] : Arithmetic K where

/-- A conversion to signed 32-bit integers, undefined where the result does not
fit. -/
class ToSigned32 (K : Type*) where
  toSigned32 : K → Option Int
  fits (value : K) : ∀ result ∈ toSigned32 value,
    -2 ^ 31 ≤ result ∧ result < 2 ^ 31

export ToSigned32 (toSigned32)

section Conversion

variable {K : Type*} [Field K] [LinearOrder K] [FloorRing K]

/-- The integer part of a number. -/
def truncate (value : K) : Int :=
  if 0 ≤ value then ⌊value⌋ else ⌈value⌉

theorem truncate_of_nonneg {value : K} (nonneg : 0 ≤ value) :
    truncate value = ⌊value⌋ :=
  if_pos nonneg

theorem truncate_nonpos {value : K} (negative : value < 0) :
    truncate value ≤ 0 := by
  rw [truncate, if_neg negative.not_ge]
  exact Int.ceil_le.mpr (by simpa using negative.le)

/-- Truncation keeps the order. -/
theorem truncate_mono : Monotone (truncate : K → Int) := by
  intro lower upper ordered
  by_cases lowerNonneg : 0 ≤ lower
  · rw [truncate_of_nonneg lowerNonneg,
      truncate_of_nonneg (lowerNonneg.trans ordered)]
    exact Int.floor_mono ordered
  · by_cases upperNonneg : 0 ≤ upper
    · calc
        truncate lower ≤ 0 := truncate_nonpos (not_le.mp lowerNonneg)
        _ ≤ ⌊upper⌋ := Int.floor_nonneg.mpr upperNonneg
        _ = truncate upper := (truncate_of_nonneg upperNonneg).symm
    · rw [truncate, truncate, if_neg lowerNonneg, if_neg upperNonneg]
      exact Int.ceil_mono ordered

/-- Conversion to a signed 32-bit integer, undefined where it does not fit. -/
instance : ToSigned32 K where
  toSigned32 value :=
    if -2 ^ 31 ≤ truncate value ∧ truncate value < 2 ^ 31 then
      some (truncate value)
    else none
  fits value result defined := by
    rw [Option.mem_def, Option.ite_none_right_eq_some, Option.some_inj]
      at defined
    obtain ⟨fits, rfl⟩ := defined
    exact fits

theorem toSigned32_eq (value : K) :
    toSigned32 value =
      if -2 ^ 31 ≤ truncate value ∧ truncate value < 2 ^ 31 then
        some (truncate value)
      else none :=
  rfl

theorem eq_truncate_of_toSigned32 {value : K} {result : Int}
    (defined : toSigned32 value = some result) :
    result = truncate value := by
  rw [toSigned32_eq, Option.ite_none_right_eq_some, Option.some_inj]
    at defined
  exact defined.2.symm

theorem toSigned32_of_fits {value : K} (lower : -2 ^ 31 ≤ truncate value)
    (upper : truncate value < 2 ^ 31) :
    toSigned32 value = some (truncate value) :=
  if_pos ⟨lower, upper⟩

/-- Conversion to an unsigned 32-bit integer, undefined where it does not
fit. -/
def toUnsigned32 (value : K) : Option UInt32 :=
  if 0 ≤ truncate value ∧ truncate value < 2 ^ 32 then
    some (UInt32.ofNat (truncate value).toNat)
  else none

end Conversion

section Order

variable {K : Type*} [Field K] [LinearOrder K] [IsStrictOrderedRing K]

/-- Position `index` of a subdivision with the given origin and width. -/
structure InInterval (origin width : K) (index : Int) (value : K) : Prop where
  lower : origin + width * index ≤ value
  upper : value < origin + width * (index + 1)

namespace InInterval

variable {origin width value : K} {index : Int}

theorem width_pos (inside : InInterval origin width index value) :
    0 < width := by
  have below := inside.lower.trans_lt inside.upper
  rw [mul_add] at below
  linarith

variable [FloorRing K]

theorem floor_eq (inside : InInterval origin width index value) :
    ⌊(value - origin) / width⌋ = index := by
  rw [Int.floor_eq_iff, le_div_iff₀ inside.width_pos,
    div_lt_iff₀ inside.width_pos, mul_comm, mul_comm _ width]
  constructor
  · linarith [inside.lower]
  · linarith [inside.upper]

theorem truncate_eq (inside : InInterval origin width index value)
    (nonneg : 0 ≤ index) :
    truncate ((value - origin) / width) = index := by
  rw [truncate_of_nonneg]
  · exact inside.floor_eq
  · have start : (0 : K) ≤ index := by exact_mod_cast nonneg
    apply div_nonneg _ inside.width_pos.le
    have offset : 0 ≤ width * index := mul_nonneg inside.width_pos.le start
    linarith [inside.lower]

/-- A value beyond one in the interval has no smaller number. -/
theorem le_truncate {upper : K} (inside : InInterval origin width index value)
    (nonneg : 0 ≤ index) (beyond : value ≤ upper) :
    index ≤ truncate ((upper - origin) / width) := by
  rw [← inside.truncate_eq nonneg]
  apply truncate_mono
  exact div_le_div_of_nonneg_right (by linarith) inside.width_pos.le

theorem truncate_le {lower : K} (inside : InInterval origin width index value)
    (nonneg : 0 ≤ index) (before : lower ≤ value) :
    truncate ((lower - origin) / width) ≤ index := by
  conv_rhs => rw [← inside.truncate_eq nonneg]
  apply truncate_mono
  exact div_le_div_of_nonneg_right (by linarith) inside.width_pos.le

end InInterval
end Order
end Foundation
