import Mathlib
import Pilot2Cloud.Timers.TimerManager

/-!
# Timer IDs

A timer ID holds the index of its unit in the low 14 bits and the number of
timers started so far in the 18 bits above them.
-/

namespace Pilot2Cloud
namespace Timers

/-- The ID of the timer that is started in a unit when the history count has
come to a value. -/
def issuedId (timer : Nat) (history : UInt32) : UInt32 :=
  UInt32.ofNat timer ||| (history <<< timerArrayIndexBitLen)

variable {timer : Nat} {history : UInt32}

theorem timerIndex_eq_mod (timerId : UInt32) :
    timerIndex timerId = timerId.toNat % 2 ^ 14 := by
  rw [timerIndex, UInt32.toNat_and]
  exact Nat.and_two_pow_sub_one_eq_mod timerId.toNat 14

theorem and_mask_eq_ofNat (timerId : UInt32) :
    timerId &&& timerArrayIndexMask = UInt32.ofNat (timerIndex timerId) :=
  (UInt32.ofNat_toNat).symm

/-- The two parts of an ID, as a number. -/
theorem toNat_issuedId (bound : timer < 16384) :
    (issuedId timer history).toNat =
      history.toNat % 2 ^ 18 * 2 ^ 14 + timer := by
  have shifted : (history <<< timerArrayIndexBitLen).toNat =
      (history.toNat % 2 ^ 18) <<< 14 := by
    rw [UInt32.toNat_shiftLeft]
    show history.toNat <<< 14 % 2 ^ 32 = _
    rw [Nat.shiftLeft_eq, Nat.shiftLeft_eq]
    exact Nat.mul_mod_mul_right (2 ^ 14) history.toNat (2 ^ 18)
  rw [issuedId, UInt32.toNat_or, shifted,
    UInt32.toNat_ofNat_of_lt' (lt_trans bound (by decide)), Nat.or_comm,
    ← Nat.shiftLeft_add_eq_or_of_lt bound, Nat.shiftLeft_eq]

theorem timerIndex_issuedId (bound : timer < 16384) :
    timerIndex (issuedId timer history) = timer := by
  rw [timerIndex_eq_mod, toNat_issuedId bound]
  omega

/-- The ID that a unit is set up with leads to the unit. -/
theorem timerIndex_ofNat (bound : timer < 16384) :
    timerIndex (UInt32.ofNat timer &&& timerArrayIndexMask) = timer := by
  have small : (UInt32.ofNat timer).toNat = timer :=
    UInt32.toNat_ofNat_of_lt' (lt_trans bound (by decide))
  have index : timerIndex (UInt32.ofNat timer) = timer := by
    rw [timerIndex_eq_mod, small]
    exact Nat.mod_eq_of_lt bound
  rw [and_mask_eq_ofNat, index, index]

/-- No ID is the reserved one, because the last index has no unit. -/
theorem issuedId_ne_invalid (bound : timer < 16383) :
    issuedId timer history ≠ 0xFFFFFFFF := by
  intro same
  have value := congrArg UInt32.toNat same
  rw [toNat_issuedId (by omega), show (0xFFFFFFFF : UInt32).toNat =
    4294967295 from rfl] at value
  omega

/-- IDs of one unit are the same when the history counts are the same up to a
multiple of 2 ^ 18. -/
theorem issuedId_inj
    {other : Nat} {later : UInt32} (bound : timer < 16384)
    (otherBound : other < 16384) :
    issuedId timer history = issuedId other later ↔
      timer = other ∧ history.toNat % 2 ^ 18 = later.toNat % 2 ^ 18 := by
  rw [← UInt32.toNat_inj, toNat_issuedId bound, toNat_issuedId otherBound]
  omega

end Timers
end Pilot2Cloud
