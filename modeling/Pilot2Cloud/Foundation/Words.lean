import Mathlib.Data.Nat.Bitwise

/-!
# Little-endian words in byte strings

Fixed-width unsigned words as natural numbers, their little-endian bytes, and
the value of the four bytes found at an offset of a byte string.  The flag bit
lemmas describe setting, clearing and testing the most significant bit of a
32-bit word by its arithmetic value.
-/

namespace Foundation
namespace Words

/-- Value of a little-endian byte string. -/
def littleEndian : List UInt8 → Nat
  | [] => 0
  | byte :: bytes => byte.toNat + 256 * littleEndian bytes

/-- The `count` low-order bytes of a number, least significant first. -/
def littleEndianBytes : Nat → Nat → List UInt8
  | 0, _ => []
  | count + 1, value =>
      UInt8.ofNat value :: littleEndianBytes count (value / 256)

@[simp] theorem length_littleEndianBytes (count value : Nat) :
    (littleEndianBytes count value).length = count := by
  induction count generalizing value with
  | zero => rfl
  | succ count inductionHypothesis =>
      simp [littleEndianBytes, inductionHypothesis]

/-- A byte string of length `n` encodes a number below `256 ^ n`. -/
theorem littleEndian_lt (bytes : List UInt8) :
    littleEndian bytes < 256 ^ bytes.length := by
  induction bytes with
  | nil => simp [littleEndian]
  | cons byte bytes inductionHypothesis =>
      have byteBound := byte.toNat_lt
      simp only [littleEndian, List.length_cons, Nat.pow_succ]
      omega

/-- Decoding the low-order bytes of a number gives back the number when it
fits in them. -/
theorem littleEndian_littleEndianBytes
    (count value : Nat)
    (fits : value < 256 ^ count) :
    littleEndian (littleEndianBytes count value) = value := by
  induction count generalizing value with
  | zero =>
      simp only [Nat.pow_zero, Nat.lt_one_iff] at fits
      simp [littleEndianBytes, littleEndian, fits]
  | succ count inductionHypothesis =>
      have quotientFits : value / 256 < 256 ^ count := by
        rw [Nat.pow_succ] at fits
        omega
      simp only [littleEndianBytes, littleEndian,
        inductionHypothesis _ quotientFits, UInt8.toNat_ofNat']
      omega

/-- Re-encoding the value of a byte string gives back the byte string. -/
@[simp] theorem littleEndianBytes_littleEndian (bytes : List UInt8) :
    littleEndianBytes bytes.length (littleEndian bytes) = bytes := by
  induction bytes with
  | nil => rfl
  | cons byte bytes inductionHypothesis =>
      have byteBound := byte.toNat_lt
      have low : (byte.toNat + 256 * littleEndian bytes) % 256 =
          byte.toNat := by omega
      have high : (byte.toNat + 256 * littleEndian bytes) / 256 =
          littleEndian bytes := by omega
      simp only [List.length_cons, littleEndian, littleEndianBytes, high,
        inductionHypothesis, List.cons.injEq, and_true]
      apply UInt8.toNat_inj.mp
      rw [UInt8.toNat_ofNat', low]

/-- Reduction of a sum or difference to a 32-bit unsigned word. -/
def wrap (value : Nat) : Nat := value % 2 ^ 32

theorem wrap_of_lt {value : Nat} (small : value < 2 ^ 32) :
    wrap value = value :=
  Nat.mod_eq_of_lt small

theorem wrap_lt (value : Nat) : wrap value < 2 ^ 32 :=
  Nat.mod_lt _ (by decide)

/-- Difference of two 32-bit words, as a 32-bit word. -/
def wrapSub (minuend subtrahend : Nat) : Nat :=
  wrap (minuend + 2 ^ 32 - subtrahend)

theorem wrapSub_of_le {minuend subtrahend : Nat}
    (small : minuend < 2 ^ 32) (le : subtrahend ≤ minuend) :
    wrapSub minuend subtrahend = minuend - subtrahend := by
  unfold wrapSub wrap
  omega

/-- The 32-bit word stored at an offset of a byte string. -/
def wordAt (bytes : List UInt8) (offset : Nat) : Nat :=
  littleEndian ((bytes.drop offset).take 4)

/-- The four bytes of a 32-bit word. -/
def wordBytes (value : Nat) : List UInt8 :=
  littleEndianBytes 4 value

@[simp] theorem length_wordBytes (value : Nat) :
    (wordBytes value).length = 4 :=
  length_littleEndianBytes 4 value

theorem wordAt_lt (bytes : List UInt8) (offset : Nat) :
    wordAt bytes offset < 2 ^ 32 := by
  have bound := littleEndian_lt ((bytes.drop offset).take 4)
  have short : ((bytes.drop offset).take 4).length ≤ 4 :=
    List.length_take_le 4 _
  calc
    wordAt bytes offset < 256 ^ ((bytes.drop offset).take 4).length := bound
    _ ≤ 256 ^ 4 := Nat.pow_le_pow_right (by decide) short
    _ = 2 ^ 32 := by decide

/-- A word lying inside a prefix does not depend on what follows it. -/
theorem wordAt_append_left
    (front back : List UInt8) {offset : Nat}
    (inside : offset + 4 ≤ front.length) :
    wordAt (front ++ back) offset = wordAt front offset := by
  have offsetInside : offset ≤ front.length := by omega
  have remaining : 4 ≤ (front.drop offset).length := by
    rw [List.length_drop]
    omega
  rw [wordAt, wordAt, List.drop_append_of_le_length offsetInside,
    List.take_append_of_le_length remaining]

/-- A word lying behind a prefix is read at the offset counted from its end. -/
theorem wordAt_append_right
    (front back : List UInt8) (offset : Nat) :
    wordAt (front ++ back) (front.length + offset) = wordAt back offset := by
  rw [wordAt, wordAt, List.drop_append,
    List.drop_eq_nil_of_le (Nat.le_add_right _ _), List.nil_append,
    Nat.add_sub_cancel_left]

theorem wordAt_take
    (bytes : List UInt8) {offset count : Nat}
    (inside : offset + 4 ≤ count) (available : count ≤ bytes.length) :
    wordAt (bytes.take count) offset = wordAt bytes offset := by
  have insideFront : offset + 4 ≤ (bytes.take count).length := by
    rw [List.length_take]
    omega
  have split :=
    wordAt_append_left (bytes.take count) (bytes.drop count) insideFront
  rw [List.take_append_drop] at split
  exact split.symm

/-- A word inside a prefix of a byte string is a word of the byte string. -/
theorem wordAt_of_isPrefix
    {front bytes : List UInt8} {offset : Nat} (isPrefix : front <+: bytes)
    (inside : offset + 4 ≤ front.length) :
    wordAt front offset = wordAt bytes offset := by
  obtain ⟨back, rfl⟩ := isPrefix
  exact (wordAt_append_left front back inside).symm

/-- Reading a word where its bytes were placed gives back its value. -/
theorem wordAt_wordBytes_append
    (value : Nat) (back : List UInt8) (fits : value < 2 ^ 32) :
    wordAt (wordBytes value ++ back) 0 = value := by
  rw [wordAt_append_left _ _ (by simp), wordAt, List.drop_zero,
    List.take_of_length_le (by simp)]
  exact littleEndian_littleEndianBytes 4 value fits

/-- The four bytes at an offset are the bytes of the word there. -/
theorem wordBytes_wordAt
    (bytes : List UInt8) {offset : Nat}
    (inside : offset + 4 ≤ bytes.length) :
    wordBytes (wordAt bytes offset) = (bytes.drop offset).take 4 := by
  have four : ((bytes.drop offset).take 4).length = 4 := by
    rw [List.length_take, List.length_drop]
    omega
  have roundTrip :=
    littleEndianBytes_littleEndian ((bytes.drop offset).take 4)
  rw [four] at roundTrip
  exact roundTrip

/-! ## The most significant bit of a word as a flag -/

/-- The most significant bit of a 32-bit word. -/
def flagBit : Nat := 0x80000000

/-- A word has its flag bit clear exactly when it is below the flag. -/
theorem land_flagBit_eq_zero_iff {word : Nat} (fits : word < 2 ^ 32) :
    word &&& flagBit = 0 ↔ word < flagBit := by
  have masked : word &&& flagBit = 2 ^ 31 * (word.testBit 31).toNat := by
    rw [show flagBit = 2 ^ 31 by decide, Nat.and_two_pow, Nat.mul_comm]
  have bit : word.testBit 31 = decide (word / 2 ^ 31 % 2 = 1) :=
    Nat.testBit_eq_decide_div_mod_eq
  rw [masked, bit]
  unfold flagBit
  by_cases odd : word / 2 ^ 31 % 2 = 1
  · simp only [odd, decide_true, Bool.toNat_true]
    omega
  · simp only [odd, decide_false, Bool.toNat_false]
    omega

/-- Clearing the flag bit keeps the value below it. -/
def clearFlag (word : Nat) : Nat := word &&& 0x7fffffff

/-- Setting the flag bit. -/
def setFlag (word : Nat) : Nat := word ||| flagBit

theorem clearFlag_eq_mod (word : Nat) : clearFlag word = word % 2 ^ 31 := by
  rw [clearFlag, show (0x7fffffff : Nat) = 2 ^ 31 - 1 by decide,
    Nat.and_two_pow_sub_one_eq_mod]

theorem setFlag_eq_add {word : Nat} (clear : word < flagBit) :
    setFlag word = flagBit + word := by
  have disjointBits := Nat.two_pow_add_eq_or_of_lt
    (show word < 2 ^ 31 from clear) 1
  rw [setFlag, Nat.or_comm]
  simpa [flagBit] using disjointBits.symm

theorem clearFlag_setFlag {word : Nat} (clear : word < flagBit) :
    clearFlag (setFlag word) = word := by
  rw [clearFlag_eq_mod, setFlag_eq_add clear]
  unfold flagBit at *
  omega

end Words
end Foundation
