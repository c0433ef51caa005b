import Mathlib.Data.List.Pairwise

/-!
# Regions of a flat memory

A region is a number of bytes from an address on.  Regions are apart when one
ends before the other starts.
-/

namespace Foundation

/-- The bytes at each address. -/
abbrev FlatMemory := Nat → UInt8

/-- Consecutive addresses. -/
structure Region where
  start : Nat
  length : Nat

namespace Region

variable {first second inner : Region} {memory : FlatMemory} {address : Nat}

/-- Two regions have no address in common. -/
def Apart (first second : Region) : Prop :=
  first.start + first.length ≤ second.start ∨
    second.start + second.length ≤ first.start

/-- One region lies inside of another. -/
def Within (inner outer : Region) : Prop :=
  outer.start ≤ inner.start ∧
    inner.start + inner.length ≤ outer.start + outer.length

instance : Membership Nat Region where
  mem region address :=
    region.start ≤ address ∧ address < region.start + region.length

theorem mem_iff {region : Region} :
    address ∈ region ↔
      region.start ≤ address ∧ address < region.start + region.length :=
  .rfl

theorem Apart.symm (apart : first.Apart second) : second.Apart first :=
  Or.symm apart

/-- Regions inside regions that lie apart lie apart. -/
theorem Apart.mono (apart : first.Apart second) (within : inner.Within first) :
    inner.Apart second := by
  unfold Apart Within at *
  omega

/-- Regions that are apart have no address in common. -/
theorem Apart.not_mem (apart : first.Apart second) (isMember : address ∈ first) :
    address ∉ second := by
  intro isOther
  unfold Apart at apart
  rw [mem_iff] at isMember isOther
  omega

/-- Copy some bytes to a target. -/
def copy (memory : FlatMemory) (target source count : Nat) : FlatMemory :=
  fun address =>
    if target ≤ address ∧ address < target + count then
      memory (source + (address - target))
    else memory address

/-- A copy carries the bytes of the source. -/
theorem copy_inside {target source count offset : Nat}
    (inside : offset < count) :
    copy memory target source count (target + offset) =
      memory (source + offset) := by
  unfold copy
  rw [if_pos (by omega)]
  congr 1
  omega

/-- Bytes outside of the target are kept. -/
theorem copy_outside {target source count : Nat}
    (outside : address ∉ Region.mk target count) :
    copy memory target source count address = memory address :=
  if_neg outside

end Region
end Foundation
