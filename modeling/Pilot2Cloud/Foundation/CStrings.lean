import Mathlib.Data.List.Range
import Mathlib.Logic.Function.Basic
import Pilot2Cloud.Foundation.Regions

/-!
# Byte strings in a flat memory

A string starts at an address and ends with the first byte that is zero.
-/

namespace Foundation

/-- The bytes from an address on. -/
def bytesAt (memory : FlatMemory) (address count : Nat) : List UInt8 :=
  (List.range count).map fun offset => memory (address + offset)

/-- Write bytes from an address on. -/
def storeBytes (memory : FlatMemory) : Nat → List UInt8 → FlatMemory
  | _, [] => memory
  | address, byte :: bytes =>
      Function.update (storeBytes memory (address + 1) bytes) address byte

/-- The number of bytes before the first that is zero, up to a limit. -/
def strlen (memory : FlatMemory) : Nat → Nat → Nat
  | 0, _ => 0
  | limit + 1, address =>
      if memory address = 0 then 0 else strlen memory limit (address + 1) + 1

variable {memory other : FlatMemory} {address count : Nat}
  {bytes text : List UInt8}

@[simp] theorem length_bytesAt :
    (bytesAt memory address count).length = count := by
  rw [bytesAt, List.length_map, List.length_range]

/-- The bytes from an address start with the one at it. -/
theorem bytesAt_succ :
    bytesAt memory address (count + 1) =
      memory address :: bytesAt memory (address + 1) count := by
  unfold bytesAt
  rw [List.range_succ_eq_map, List.map_cons, List.map_map]
  congr 1
  apply List.map_congr_left
  intro offset _
  exact congrArg memory (by omega)

/-- The bytes from an address, in two parts. -/
theorem bytesAt_add {more : Nat} :
    bytesAt memory address (count + more) =
      bytesAt memory address count ++
        bytesAt memory (address + count) more := by
  unfold bytesAt
  rw [List.range_add, List.map_append, List.map_map]
  congr 1
  apply List.map_congr_left
  intro offset _
  exact congrArg memory (Nat.add_assoc _ _ _).symm

/-- The bytes of a string in two parts. -/
theorem bytesAt_append {front back : List UInt8} :
    bytesAt memory address (front ++ back).length = front ++ back ↔
      bytesAt memory address front.length = front ∧
        bytesAt memory (address + front.length) back.length = back := by
  rw [List.length_append, bytesAt_add]
  constructor
  · intro same
    exact List.append_inj same length_bytesAt
  · rintro ⟨isFront, isBack⟩
    rw [isFront, isBack]

/-- Bytes that are not changed are read again. -/
theorem bytesAt_congr
    (same : ∀ byte ∈ Region.mk address count, other byte = memory byte) :
    bytesAt other address count = bytesAt memory address count := by
  apply List.map_congr_left
  intro offset isInside
  apply same
  have bound := List.mem_range.mp isInside
  exact ⟨Nat.le_add_right _ _, Nat.add_lt_add_left bound _⟩

/-- A store leaves the other bytes alone. -/
theorem storeBytes_outside {byte : Nat}
    (outside : byte ∉ Region.mk address bytes.length) :
    storeBytes memory address bytes byte = memory byte := by
  induction bytes generalizing address with
  | nil => rfl
  | cons first bytes inductionHypothesis =>
      rw [Region.mem_iff] at outside
      dsimp only [List.length_cons] at outside
      rw [storeBytes, Function.update_of_ne (by omega)]
      apply inductionHypothesis
      rw [Region.mem_iff]
      dsimp only
      omega

/-- What was written is read. -/
@[simp] theorem bytesAt_storeBytes :
    bytesAt (storeBytes memory address bytes) address bytes.length = bytes := by
  induction bytes generalizing address with
  | nil => rfl
  | cons byte bytes inductionHypothesis =>
      rw [List.length_cons, bytesAt_succ, storeBytes, Function.update_self]
      congr 1
      refine Eq.trans ?_ (@inductionHypothesis (address + 1))
      apply bytesAt_congr
      intro other isInside
      apply Function.update_of_ne
      rw [Region.mem_iff] at isInside
      dsimp only at isInside
      omega

/-- Writing elsewhere does not change what is read. -/
theorem bytesAt_storeBytes_apart {target : Nat}
    (apart : (Region.mk address count).Apart ⟨target, bytes.length⟩) :
    bytesAt (storeBytes memory target bytes) address count =
      bytesAt memory address count := by
  apply bytesAt_congr
  intro byte isInside
  exact storeBytes_outside (apart.not_mem isInside)

/-- A string without zeros that is followed by one has its own length. -/
theorem strlen_eq {limit : Nat}
    (isText : bytesAt memory address (text.length + 1) = text ++ [0])
    (noZero : (0 : UInt8) ∉ text) (bound : text.length < limit) :
    strlen memory limit address = text.length := by
  induction text generalizing address limit with
  | nil =>
      obtain ⟨limit, rfl⟩ := Nat.exists_eq_add_one.mpr bound
      have isZero : memory address = 0 := by
        rw [List.length_nil, bytesAt_succ] at isText
        exact (List.cons.inj isText).1
      rw [strlen, if_pos isZero, List.length_nil]
  | cons byte text inductionHypothesis =>
      obtain ⟨limit, rfl⟩ :=
        Nat.exists_eq_add_one.mpr (Nat.zero_lt_of_lt bound)
      rw [List.length_cons, bytesAt_succ, List.cons_append] at isText
      obtain ⟨isByte, isRest⟩ := List.cons.inj isText
      obtain ⟨notFirst, noRest⟩ := not_or.mp (mt List.mem_cons.mpr noZero)
      rw [strlen, isByte, if_neg (Ne.symm notFirst),
        inductionHypothesis isRest noRest (Nat.lt_of_succ_lt_succ bound),
        List.length_cons]

/-- Any bytes that are followed by a zero start with a string. -/
theorem exists_text (bytes : List UInt8) :
    ∃ text rest, bytes ++ [0] = text ++ 0 :: rest ∧ (0 : UInt8) ∉ text ∧
      text.length ≤ bytes.length := by
  induction bytes with
  | nil => exact ⟨[], [], rfl, List.not_mem_nil, Nat.le_refl 0⟩
  | cons byte bytes inductionHypothesis =>
      obtain ⟨text, rest, split, noZero, bound⟩ := inductionHypothesis
      by_cases isZero : byte = 0
      · exact ⟨[], bytes ++ [0], by rw [isZero]; rfl, List.not_mem_nil,
          Nat.zero_le _⟩
      · refine ⟨byte :: text, rest, congrArg (byte :: ·) split, ?_,
          Nat.succ_le_succ bound⟩
        intro isMember
        obtain same | later := List.mem_cons.mp isMember
        · exact isZero same.symm
        · exact noZero later

/-- The first bytes of what is read. -/
theorem bytesAt_of_isPrefix {front : List UInt8}
    (isBytes : bytesAt memory address bytes.length = bytes)
    (isFront : front <+: bytes) :
    bytesAt memory address front.length = front := by
  obtain ⟨back, rfl⟩ := isFront
  exact (bytesAt_append.mp isBytes).1

end Foundation
