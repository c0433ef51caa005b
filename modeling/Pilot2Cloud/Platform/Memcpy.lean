import Pilot2Cloud.Foundation.Memory
import Pilot2Cloud.Foundation.Outcome

/-!
# Copying memory

The platform's own copy function does nothing when there is nothing to copy or
nowhere to copy from.
-/

namespace Pilot2Cloud
namespace Platform

open Foundation Memory

/-- `pf_memcpy` of the first `length` bytes of a region, or of `NULL`, to an
offset of a block. -/
def pfMemcpy (target : Block) (offset : Nat) (source : Option (List UInt8))
    (length : Nat) : Except Fault Block :=
  if length = 0 then .ok target
  else
    match source with
    | none => .ok target
    | some bytes => do
        let bytes ← Memory.read bytes 0 length
        target.write offset bytes

variable {target : Block} {offset length : Nat} {bytes : List UInt8}

/-- A copy that stays inside of both regions writes the bytes. -/
theorem exists_pfMemcpy
    (readable : length ≤ bytes.length)
    (inside : offset + length ≤ target.length) :
    ∃ next, pfMemcpy target offset (some bytes) length = .ok next ∧
      next.length = target.length ∧
      ∀ position, next[position]? =
        if offset ≤ position ∧ position < offset + length then
          (bytes[position - offset]?).map some
        else target[position]? := by
  by_cases isZero : length = 0
  · refine ⟨target, if_pos isZero, rfl, ?_⟩
    intro position
    rw [if_neg (by omega)]
  · have count : (bytes.take length).length = length := by
      rw [List.length_take]
      omega
    have written :=
      @Block.write_of_inside target offset (bytes.take length) (by omega)
    refine ⟨_, ?_, Block.length_of_write_ok written, ?_⟩
    · rw [pfMemcpy, if_neg isZero, read_of_inside (by omega), List.drop_zero,
        ok_bind]
      exact written
    · intro position
      rw [Block.getElem?_of_write_ok written, count]
      by_cases within : offset ≤ position ∧ position < offset + length
      · rw [if_pos within, if_pos within, List.getElem?_take_of_lt (by omega)]
      · rw [if_neg within, if_neg within]

end Platform
end Pilot2Cloud
