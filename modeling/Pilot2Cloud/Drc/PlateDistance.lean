import Pilot2Cloud.Drc.HanmingDistance

/-!
# The distance as a sum over the characters

The table has what the loop over the letters comes to.  The distance of two
plates is the sum over their Chinese characters and over their letters and
digits, unless one of the plates, or the letters and digits of one of them, are
missing.
-/

namespace Pilot2Cloud
namespace Drc

variable {F : Type} [F32 F]

/-! ## The table of approximate characters -/

namespace hanmingValueMap

omit [F32 F]

variable {map : hanmingValueMap F} {key other : List UInt8 × List UInt8}
  {value : F} {original_str : List UInt8} {p : PairValue F}

/-- A new entry is found under its key, unless the key had one. -/
theorem lookup_insert :
    (map.insert key value).lookup other =
      if other = key then some ((map.lookup key).getD value)
      else map.lookup other := by
  unfold insert
  split
  case h_1 old found =>
    split_ifs with isKey
    · rw [isKey, found]
      rfl
    · rfl
  case h_2 absent =>
    rw [List.lookup_append]
    by_cases isKey : other = key
    · rw [if_pos isKey, isKey, absent]
      simp
    · rw [if_neg isKey]
      simp [List.lookup_cons, beq_eq_false_iff_ne.mpr isKey]

/-- A pair of characters has the same value in both orders. -/
def Symmetric (map : hanmingValueMap F) : Prop :=
  ∀ first second, map.lookup (first, second) = map.lookup (second, first)

/-- A pair is entered in both orders. -/
theorem Symmetric.insertPair (symmetric : map.Symmetric) :
    (map.insertPair original_str p).Symmetric := by
  intro first second
  have same := symmetric p.sletter original_str
  unfold hanmingValueMap.insertPair
  simp only [lookup_insert, Prod.mk.injEq]
  rw [symmetric second first, same]
  by_cases isFirst : first = original_str ∧ second = p.sletter
  · obtain ⟨rfl, rfl⟩ := isFirst
    by_cases isSame : p.sletter = first
    · simp [isSame]
    · simp [isSame, Ne.symm isSame]
  · by_cases isSecond : second = original_str ∧ first = p.sletter
    · obtain ⟨rfl, rfl⟩ := isSecond
      by_cases isSame : p.sletter = second
      · simp [isSame]
      · simp [isSame, Ne.symm isSame]
    · have notFirst : ¬(second = p.sletter ∧ first = original_str) :=
        fun both => isFirst both.symm
      have notSecond : ¬(first = p.sletter ∧ second = original_str) :=
        fun both => isSecond both.symm
      rw [if_neg notSecond, if_neg isFirst, if_neg notFirst, if_neg isSecond]

/-- A pair adds its two orders to the table and nothing else. -/
theorem lookup_insertPair_ne_none_iff :
    (map.insertPair original_str p).lookup key ≠ none ↔
      map.lookup key ≠ none ∨ key = (original_str, p.sletter) ∨
        key = (p.sletter, original_str) := by
  unfold insertPair
  rw [lookup_insert]
  split_ifs with isSecond
  · exact iff_of_true (Option.some_ne_none _) (.inr (.inr isSecond))
  · rw [lookup_insert]
    split_ifs with isFirst
    · exact iff_of_true (Option.some_ne_none _) (.inr (.inl isFirst))
    · exact ⟨.inl, fun known =>
        known.resolve_right (not_or.mpr ⟨isFirst, isSecond⟩)⟩

/-- Some pairs add their two orders to the table and nothing else. -/
theorem lookup_foldl_insertPair_ne_none_iff {pairs : List (PairValue F)} :
    (pairs.foldl (hanmingValueMap.insertPair original_str) map).lookup key ≠
        none ↔
      map.lookup key ≠ none ∨ ∃ p ∈ pairs,
        key = (original_str, p.sletter) ∨ key = (p.sletter, original_str) := by
  induction pairs generalizing map with
  | nil => simp
  | cons p pairs inductionHypothesis =>
      rw [List.foldl_cons, inductionHypothesis, lookup_insertPair_ne_none_iff,
        or_assoc]
      apply or_congr_right
      constructor
      · rintro (isFirst | ⟨other, later, isPair⟩)
        · exact ⟨p, List.mem_cons_self, isFirst⟩
        · exact ⟨other, List.mem_cons_of_mem _ later, isPair⟩
      · rintro ⟨other, isMember, isPair⟩
        obtain rfl | later := List.mem_cons.mp isMember
        · exact .inl isPair
        · exact .inr ⟨other, later, isPair⟩

/-- Some pairs are entered in both orders. -/
theorem Symmetric.foldl_insertPair {pairs : List (PairValue F)}
    (symmetric : map.Symmetric) :
    Symmetric (pairs.foldl (hanmingValueMap.insertPair original_str) map) := by
  induction pairs generalizing map with
  | nil => exact symmetric
  | cons p pairs inductionHypothesis =>
      exact inductionHypothesis symmetric.insertPair

end hanmingValueMap

section Table

variable (mapData : List (HanmingLetterInfo F))

/-- The letters that the outer loop comes to from letter `i`. -/
inductive ComesTo : Nat → Nat → Prop
  | here (i : Nat) : ComesTo i i
  | later {i k : Nat} (inside : i < mapData.length)
      (rest : ComesTo (max i mapData[i].appcharacter.length + 1) k) :
      ComesTo i k

/-- The table has both ordered pairs of every letter and each of its approximate
characters. -/
def Complete (map : hanmingValueMap F) : Prop :=
  ∀ L ∈ mapData, ∀ p ∈ L.appcharacter,
    map.lookup (L.sletter, p.sletter) ≠ none ∧
      map.lookup (p.sletter, L.sletter) ≠ none

/-- Every pair that is listed is also listed, in one of the two orders, at a
place that the loops come to: from approximate character `k` on of a letter `k`
that the outer loop comes to. -/
def Covered : Prop :=
  ∀ L ∈ mapData, ∀ p ∈ L.appcharacter,
    ∃ k, ComesTo mapData 0 k ∧ ∃ inside : k < mapData.length,
      ∃ q ∈ mapData[k].appcharacter.drop k,
        (L.sletter, p.sletter) = (mapData[k].sletter, q.sletter) ∨
          (L.sletter, p.sletter) = (q.sletter, mapData[k].sletter)

variable {mapData}

omit [F32 F] in
/-- What is in the table after the loop. -/
theorem lookup_iniLoop_ne_none_iff {map : hanmingValueMap F} {i : Nat}
    {key : List UInt8 × List UInt8} :
    (iniLoop mapData map i).lookup key ≠ none ↔
      map.lookup key ≠ none ∨
        ∃ k, ComesTo mapData i k ∧ ∃ inside : k < mapData.length,
          ∃ q ∈ mapData[k].appcharacter.drop k,
            key = (mapData[k].sletter, q.sletter) ∨
              key = (q.sletter, mapData[k].sletter) := by
  induction map, i using iniLoop.induct mapData with
  | case1 map i inside L inductionHypothesis =>
      rw [iniLoop, dif_pos inside]
      refine inductionHypothesis.trans ?_
      rw [hanmingValueMap.lookup_foldl_insertPair_ne_none_iff, or_assoc]
      apply or_congr_right
      constructor
      · rintro (here | ⟨k, comes, found⟩)
        · exact ⟨i, .here i, inside, here⟩
        · exact ⟨k, .later inside comes, found⟩
      · rintro ⟨k, comes, isInside, found⟩
        cases comes with
        | here => exact .inl found
        | later _ rest => exact .inr ⟨k, rest, isInside, found⟩
  | case2 map i outside =>
      rw [iniLoop, dif_neg outside]
      refine ⟨.inl, ?_⟩
      rintro (isOld | ⟨k, comes, isInside, -⟩)
      · exact isOld
      · cases comes with
        | here => exact absurd isInside outside
        | later inside _ => exact absurd inside outside

omit [F32 F] in
/-- The loops enter every pair in both orders. -/
theorem symmetric_iniLoop {map : hanmingValueMap F} {i : Nat}
    (symmetric : map.Symmetric) :
    (iniLoop mapData map i).Symmetric := by
  induction map, i using iniLoop.induct mapData with
  | case1 map i inside L inductionHypothesis =>
      rw [iniLoop, dif_pos inside]
      exact inductionHypothesis symmetric.foldl_insertPair
  | case2 map i outside =>
      rw [iniLoop, dif_neg outside]
      exact symmetric

omit [F32 F] in
/-- The table is complete exactly when every pair is covered. -/
theorem complete_iff_covered :
    Complete mapData (iniLoop mapData [] 0) ↔ Covered mapData := by
  have symmetric : (iniLoop mapData ([] : hanmingValueMap F) 0).Symmetric :=
    symmetric_iniLoop fun _ _ => rfl
  refine forall₂_congr fun L _ => forall₂_congr fun p _ => ?_
  rw [symmetric p.sletter L.sletter, and_self, lookup_iniLoop_ne_none_iff]
  simp

end Table

/-! ## Plates -/

/-- A character from U+4E00 to U+9FA5. -/
structure ChineseCharacter where
  code : Nat
  lower : 0x4E00 ≤ code
  upper : code ≤ 0x9FA5
  deriving DecidableEq

/-- The three bytes of a Chinese character. -/
def ChineseCharacter.bytes (character : ChineseCharacter) : List UInt8 :=
  [UInt8.ofNat (0xE0 + character.code / 4096),
    UInt8.ofNat (0x80 + character.code / 64 % 64),
    UInt8.ofNat (0x80 + character.code % 64)]

/-- A letter or a digit. -/
structure OtherCharacter where
  byte : UInt8
  matched : isOther byte = true
  deriving DecidableEq

/-- The byte of a letter or digit. -/
def OtherCharacter.bytes (character : OtherCharacter) : List UInt8 :=
  [character.byte]

/-- A plate of Chinese characters, letters and digits. -/
abbrev Plate := List (ChineseCharacter ⊕ OtherCharacter)

namespace Plate

/-- The bytes of a plate. -/
def bytes (plate : Plate) : List UInt8 :=
  plate.flatMap (Sum.elim ChineseCharacter.bytes OtherCharacter.bytes)

/-- The Chinese characters of a plate. -/
def chinese (plate : Plate) : List ChineseCharacter :=
  plate.filterMap Sum.getLeft?

/-- The letters and digits of a plate. -/
def others (plate : Plate) : List OtherCharacter :=
  plate.filterMap Sum.getRight?

end Plate

/-- A byte of a Chinese character is no letter or digit. -/
theorem isOther_eq_false {byte : UInt8} (large : 128 ≤ byte.toNat) :
    isOther byte = false := by
  simp only [isOther, UInt8.le_iff_toNat_le, Bool.or_eq_false_iff,
    Bool.and_eq_false_iff, decide_eq_false_iff_not]
  exact ⟨.inr (by simp; omega), .inr (by simp; omega)⟩

/-- Bytes from `80` to `E9` belong to Chinese characters. -/
theorem isFilterChinese_eq_true {byte : UInt8} (lower : 0x80 ≤ byte.toNat)
    (upper : byte.toNat ≤ 0xE9) :
    isFilterChinese byte = true := by
  have inRange : (decide (0x80 ≤ byte) && decide (byte ≤ 0xE9)) = true := by
    rw [Bool.and_eq_true, decide_eq_true_iff, decide_eq_true_iff,
      UInt8.le_iff_toNat_le, UInt8.le_iff_toNat_le]
    exact ⟨lower, upper⟩
  unfold isFilterChinese
  rw [inRange]
  simp

/-- The bytes of a Chinese character are in the range of the class. -/
theorem ChineseCharacter.bounds (character : ChineseCharacter) :
    ∀ byte ∈ character.bytes, 0x80 ≤ byte.toNat ∧ byte.toNat ≤ 0xE9 := by
  obtain ⟨code, lower, upper⟩ := character
  intro byte isMember
  simp only [bytes, List.mem_cons, List.not_mem_nil, or_false] at isMember
  obtain rfl | rfl | rfl := isMember
  all_goals
    rw [UInt8.toNat_ofNat']
    omega

/-- A letter or digit is a small byte. -/
theorem OtherCharacter.small (character : OtherCharacter) :
    character.byte.toNat ≤ 90 := by
  have matched := character.matched
  simp only [isOther, UInt8.le_iff_toNat_le, Bool.or_eq_true,
    Bool.and_eq_true, decide_eq_true_iff] at matched
  simp only [UInt8.reduceToNat] at matched
  omega

/-- A letter or digit belongs to no Chinese character. -/
@[simp] theorem isFilterChinese_other (character : OtherCharacter) :
    isFilterChinese character.byte = false := by
  have small := character.small
  simp only [isFilterChinese, UInt8.le_iff_toNat_le, Bool.or_eq_false_iff,
    Bool.and_eq_false_iff, decide_eq_false_iff_not, beq_eq_false_iff_ne,
    ← UInt8.toNat_inj, ne_eq, UInt8.reduceToNat]
  omega

/-- Different characters have different bytes. -/
theorem ChineseCharacter.bytes_injective :
    Function.Injective ChineseCharacter.bytes := by
  rintro ⟨first, firstLower, firstUpper⟩ ⟨second, secondLower, secondUpper⟩ same
  simp only [bytes, List.cons.injEq, and_true, ← UInt8.toNat_inj,
    UInt8.toNat_ofNat'] at same
  congr 1
  omega

/-- Letters and digits are told apart by their bytes. -/
theorem OtherCharacter.bytes_injective :
    Function.Injective OtherCharacter.bytes := by
  rintro ⟨first, firstMatched⟩ ⟨second, secondMatched⟩ same
  congr 1
  exact (List.cons.inj same).1

/-- Without letters and digits a plate is its Chinese characters. -/
theorem Plate.filter_isOther (plate : Plate) :
    plate.bytes.filter (!isOther ·) =
      plate.chinese.flatMap ChineseCharacter.bytes := by
  induction plate with
  | nil => rfl
  | cons character plate inductionHypothesis =>
      unfold Plate.bytes Plate.chinese at *
      rw [List.flatMap_cons, List.filter_append, inductionHypothesis]
      cases character with
      | inl character =>
          have isChinese :
              @Sum.getLeft? _ OtherCharacter (.inl character) =
                some character := rfl
          rw [List.filterMap_cons_some isChinese, List.flatMap_cons]
          congr 1
          apply List.filter_eq_self.mpr
          intro byte isMember
          rw [isOther_eq_false (character.bounds byte isMember).1]
          rfl
      | inr character =>
          rw [List.filterMap_cons_none rfl]
          change List.filter _ [character.byte] ++ _ = _
          rw [List.filter_cons_of_neg (by simp [character.matched])]
          rfl

/-- Without Chinese characters a plate is its letters and digits. -/
theorem Plate.filter_isFilterChinese (plate : Plate) :
    plate.bytes.filter (!isFilterChinese ·) =
      plate.others.flatMap OtherCharacter.bytes := by
  induction plate with
  | nil => rfl
  | cons character plate inductionHypothesis =>
      unfold Plate.bytes Plate.others at *
      rw [List.flatMap_cons, List.filter_append, inductionHypothesis]
      cases character with
      | inl character =>
          rw [List.filterMap_cons_none rfl]
          refine (List.append_left_eq_self.mpr ?_)
          apply List.filter_eq_nil_iff.mpr
          intro byte isMember
          have bounds := character.bounds byte isMember
          rw [isFilterChinese_eq_true bounds.1 bounds.2]
          decide
      | inr character =>
          have isOther : @Sum.getRight? ChineseCharacter _ (.inr character) =
              some character := rfl
          rw [List.filterMap_cons_some isOther, List.flatMap_cons]
          congr 1
          change List.filter _ [character.byte] = [character.byte]
          rw [List.filter_cons_of_pos (by simp [isFilterChinese_other])]
          rfl

/-! ## The sum over the characters -/

namespace InitHanmingDistanceValueMap

variable (state : InitHanmingDistanceValueMap F)

/-- What two characters at the same position add. -/
def positionCost {α : Type} [DecidableEq α] (bytes : α → List UInt8)
    (left right : α) : F :=
  if left = right then 0 else state.cost (bytes left) (bytes right)

/-- What the characters of one kind add: the difference of their numbers, and a
cost for each position that both plates have. -/
def partCosts {α : Type} [DecidableEq α] (bytes : α → List UInt8)
    (left right : List α) : List F :=
  ((lengthDiff left.length right.length : Nat) : F) ::
    List.zipWith (state.positionCost bytes) left right

/-- The sum over both parts, added from left to right. -/
def plateDistance (left right : Plate) : F :=
  (state.partCosts ChineseCharacter.bytes left.chinese right.chinese ++
    state.partCosts OtherCharacter.bytes left.others right.others).foldl
      (· + ·) 0

/-- The distance of two plates is symmetric, zero for equal plates, and the sum
over the characters. -/
structure Faithful (left right : Plate) : Prop where
  symm : state.hanmingDistanceForStr left.bytes right.bytes 1 =
    state.hanmingDistanceForStr right.bytes left.bytes 1
  self : ∀ plate ∈ [left, right],
    state.hanmingDistanceForStr plate.bytes plate.bytes 1 = 0
  isSum : state.hanmingDistanceForStr left.bytes right.bytes 1 =
    state.plateDistance left right

variable {state}

/-- The loop over the Chinese characters adds the cost of each position. -/
theorem chineseLoop_eq {left right : List ChineseCharacter} {ans : F} :
    state.chineseLoop (left.flatMap ChineseCharacter.bytes)
        (right.flatMap ChineseCharacter.bytes) ans =
      (List.zipWith (state.positionCost ChineseCharacter.bytes) left
        right).foldl (· + ·) ans := by
  induction left generalizing right ans with
  | nil => rfl
  | cons first left inductionHypothesis =>
      cases right with
      | nil => rfl
      | cons second right =>
          rw [List.flatMap_cons, List.flatMap_cons, List.zipWith_cons_cons,
            List.foldl_cons, ← inductionHypothesis]
          change state.chineseLoop (left.flatMap ChineseCharacter.bytes)
            (right.flatMap ChineseCharacter.bytes)
            (if _ ∨ _ ∨ _ then ans + state.cost first.bytes second.bytes
              else ans) = _
          congr 1
          unfold positionCost
          by_cases isSame : first = second
          · rw [isSame, if_pos rfl, add_zero]
            exact if_neg (by simp)
          · rw [if_neg isSame]
            refine if_pos ?_
            by_contra sameBytes
            simp only [not_or, not_not] at sameBytes
            apply isSame
            apply ChineseCharacter.bytes_injective
            unfold ChineseCharacter.bytes
            rw [sameBytes.1, sameBytes.2.1, sameBytes.2.2]

/-- The loop over the letters and digits adds the cost of each position. -/
theorem otherLoop_eq {left right : List OtherCharacter} {ans : F} :
    state.otherLoop (left.flatMap OtherCharacter.bytes)
        (right.flatMap OtherCharacter.bytes) ans =
      (List.zipWith (state.positionCost OtherCharacter.bytes) left
        right).foldl (· + ·) ans := by
  induction left generalizing right ans with
  | nil => rfl
  | cons first left inductionHypothesis =>
      cases right with
      | nil => rfl
      | cons second right =>
          rw [List.flatMap_cons, List.flatMap_cons, List.zipWith_cons_cons,
            List.foldl_cons, ← inductionHypothesis]
          change state.otherLoop (left.flatMap OtherCharacter.bytes)
            (right.flatMap OtherCharacter.bytes)
            (if _ then ans + state.cost first.bytes second.bytes else ans) = _
          congr 1
          unfold positionCost
          by_cases isSame : first = second
          · rw [isSame, if_pos rfl, add_zero]
            exact if_neg (not_not.mpr rfl)
          · rw [if_neg isSame]
            refine if_pos fun sameByte => isSame ?_
            exact OtherCharacter.bytes_injective (congrArg (· :: []) sameByte)

end InitHanmingDistanceValueMap

/-- A Chinese character has three bytes. -/
theorem length_chinese_bytes (characters : List ChineseCharacter) :
    (characters.flatMap ChineseCharacter.bytes).length =
      3 * characters.length := by
  induction characters with
  | nil => rfl
  | cons character characters inductionHypothesis =>
      rw [List.flatMap_cons, List.length_append, inductionHypothesis,
        List.length_cons]
      change 3 + _ = _
      omega

/-- A letter or digit has one byte. -/
theorem length_other_bytes (characters : List OtherCharacter) :
    (characters.flatMap OtherCharacter.bytes).length = characters.length := by
  induction characters with
  | nil => rfl
  | cons character characters inductionHypothesis =>
      rw [List.flatMap_cons, List.length_append, inductionHypothesis,
        List.length_cons]
      change 1 + _ = _
      omega

/-- The length of a plate in bytes. -/
theorem Plate.length_bytes (plate : Plate) :
    plate.bytes.length = 3 * plate.chinese.length + plate.others.length := by
  induction plate with
  | nil => rfl
  | cons character plate inductionHypothesis =>
      unfold Plate.bytes Plate.chinese Plate.others at *
      rw [List.flatMap_cons, List.length_append, inductionHypothesis]
      cases character with
      | inl character =>
          change 3 + _ = 3 * (_ + 1) + (plate.filterMap Sum.getRight?).length
          omega
      | inr character =>
          change 1 + _ = 3 * (plate.filterMap Sum.getLeft?).length + (_ + 1)
          omega

/-- A plate is empty when both parts are. -/
theorem Plate.eq_nil_iff (plate : Plate) :
    plate = [] ↔ plate.chinese = [] ∧ plate.others = [] := by
  cases plate with
  | nil => exact iff_of_true rfl ⟨rfl, rfl⟩
  | cons character plate =>
      refine iff_of_false (List.cons_ne_nil _ _) ?_
      cases character with
      | inl character => exact fun both => List.cons_ne_nil _ _ both.1
      | inr character => exact fun both => List.cons_ne_nil _ _ both.2

/-- A plate without bytes is empty. -/
theorem Plate.bytes_eq_nil_iff (plate : Plate) :
    plate.bytes = [] ↔ plate = [] := by
  rw [plate.eq_nil_iff, ← List.length_eq_zero_iff, plate.length_bytes,
    ← List.length_eq_zero_iff, ← List.length_eq_zero_iff]
  omega

namespace InitHanmingDistanceValueMap

variable {state : InitHanmingDistanceValueMap F}

/-- The distance of two plates of which none is empty. -/
theorem hanmingDistanceForStr_eq {left right : Plate} (isLeft : left ≠ [])
    (isRight : right ≠ []) :
    state.hanmingDistanceForStr left.bytes right.bytes 1 =
      if left.others = [] ∨ right.others = [] then
        (state.partCosts ChineseCharacter.bytes left.chinese
          right.chinese).foldl (· + ·) 0
      else state.plateDistance left right := by
  have notEmpty : (left.bytes.isEmpty || right.bytes.isEmpty) = false := by
    simp [left.bytes_eq_nil_iff, right.bytes_eq_nil_iff, isLeft, isRight]
  have chineseDiff : lengthDiff (3 * left.chinese.length)
      (3 * right.chinese.length) / 3 =
        lengthDiff left.chinese.length right.chinese.length := by
    unfold lengthDiff
    omega
  unfold hanmingDistanceForStr
  rw [notEmpty]
  simp only [Bool.false_eq_true, and_false, if_false]
  rw [left.filter_isOther, right.filter_isOther, left.filter_isFilterChinese,
    right.filter_isFilterChinese, chineseLoop_eq, otherLoop_eq,
    length_chinese_bytes, length_chinese_bytes, length_other_bytes,
    length_other_bytes, chineseDiff]
  have partEmpty (part : Plate) :
      (part.others.flatMap OtherCharacter.bytes).isEmpty = true ↔
        part.others = [] := by
    rw [List.isEmpty_iff, ← List.length_eq_zero_iff, length_other_bytes,
      List.length_eq_zero_iff]
  unfold plateDistance partCosts
  rw [List.foldl_append, List.foldl_cons, List.foldl_cons]
  refine if_congr ?_ rfl rfl
  rw [Bool.or_eq_true, partEmpty, partEmpty]

/-- Next to an empty plate the length of the other one counts in bytes. -/
theorem hanmingDistanceForStr_of_empty {left right : Plate}
    (isEmpty : left = [] ∨ right = []) :
    state.hanmingDistanceForStr left.bytes right.bytes 1 =
      ((max left.bytes.length right.bytes.length : Nat) : F) := by
  have someEmpty : (left.bytes.isEmpty || right.bytes.isEmpty) = true := by
    simpa [left.bytes_eq_nil_iff, right.bytes_eq_nil_iff] using isEmpty
  unfold hanmingDistanceForStr
  rw [someEmpty]
  simp

theorem lengthDiff_comm (left right : Nat) :
    lengthDiff left right = lengthDiff right left := by
  unfold lengthDiff
  omega

section Symmetry

variable (symmetric : state.hanmingPlateApproximateCharacterMap.Symmetric)
  {α : Type} [DecidableEq α] {bytes : α → List UInt8}

include symmetric

/-- A position costs the same in both orders. -/
theorem positionCost_comm (left right : α) :
    state.positionCost bytes left right =
      state.positionCost bytes right left := by
  unfold positionCost cost
  rw [symmetric]
  exact if_congr eq_comm rfl rfl

/-- The positions cost the same in both orders. -/
theorem partCosts_comm (left right : List α) :
    state.partCosts bytes left right = state.partCosts bytes right left := by
  unfold partCosts
  rw [lengthDiff_comm, List.zipWith_comm]
  congr 2
  funext first second
  exact positionCost_comm symmetric second first

/-- The distance is the same in both orders. -/
theorem hanmingDistanceForStr_comm (left right : Plate) :
    state.hanmingDistanceForStr left.bytes right.bytes 1 =
      state.hanmingDistanceForStr right.bytes left.bytes 1 := by
  by_cases isEmpty : left = [] ∨ right = []
  · rw [hanmingDistanceForStr_of_empty isEmpty,
      hanmingDistanceForStr_of_empty isEmpty.symm, max_comm]
  · obtain ⟨isLeft, isRight⟩ := not_or.mp isEmpty
    rw [hanmingDistanceForStr_eq isLeft isRight,
      hanmingDistanceForStr_eq isRight isLeft]
    unfold plateDistance
    rw [partCosts_comm symmetric left.chinese,
      partCosts_comm symmetric left.others]
    exact if_congr or_comm rfl rfl

end Symmetry

/-- A plate against itself adds nothing. -/
theorem foldl_partCosts_self {α : Type} [DecidableEq α]
    {bytes : α → List UInt8} (part : List α) :
    (state.partCosts bytes part part).foldl (· + ·) 0 = 0 := by
  have none : lengthDiff part.length part.length = 0 := by
    unfold lengthDiff
    omega
  unfold partCosts
  rw [none, List.foldl_cons, F32.natCast_zero, add_zero]
  induction part with
  | nil => rfl
  | cons character part inductionHypothesis =>
      rw [List.zipWith_cons_cons, List.foldl_cons]
      unfold positionCost at *
      rw [if_pos rfl, add_zero]
      exact inductionHypothesis (by unfold lengthDiff; omega)

/-- A plate has the distance 0 to itself. -/
@[simp] theorem hanmingDistanceForStr_self (plate : Plate) :
    state.hanmingDistanceForStr plate.bytes plate.bytes 1 = 0 := by
  by_cases isEmpty : plate = []
  · rw [hanmingDistanceForStr_of_empty (.inl isEmpty), isEmpty]
    exact F32.natCast_zero
  · rw [hanmingDistanceForStr_eq isEmpty isEmpty]
    unfold plateDistance
    rw [List.foldl_append, foldl_partCosts_self, foldl_partCosts_self, ite_self]

end InitHanmingDistanceValueMap

/-- An empty plate is only compared with letters and digits, and two plates that
are not empty have both letters or digits, or both none. -/
def SameShape (left right : Plate) : Prop :=
  (left = [] ∨ right = [] → left.chinese = [] ∧ right.chinese = []) ∧
    (left ≠ [] → right ≠ [] → (left.others = [] ↔ right.others = []))

/-- Sums in which the length of a plate is not lost by rounding. -/
structure F32.Exact (F : Type) [F32 F] : Prop where
  add_natCast : ∀ (ans : F) (length : Nat), ans + (length : F) = ans →
    length = 0
  natCast_add : ∀ chinese others : Nat,
    ((3 * chinese + others : Nat) : F) = (chinese : F) + (others : F) →
      chinese = 0

namespace InitHanmingDistanceValueMap

variable {state : InitHanmingDistanceValueMap F} {left right : Plate}

/-- Parts of which one is empty only differ in their length. -/
theorem partCosts_of_empty {α : Type} [DecidableEq α] {bytes : α → List UInt8}
    {first second : List α} (isEmpty : first = [] ∨ second = []) :
    state.partCosts bytes first second =
      [((first.length + second.length : Nat) : F)] := by
  unfold partCosts lengthDiff
  obtain rfl | rfl := isEmpty
  · simp
  · simp

/-- The sum against an empty plate. -/
theorem plateDistance_of_empty (isEmpty : left = [] ∨ right = []) :
    state.plateDistance left right =
      ((left.chinese.length + right.chinese.length : Nat) : F) +
        ((left.others.length + right.others.length : Nat) : F) := by
  have parts : (left.chinese = [] ∨ right.chinese = []) ∧
      (left.others = [] ∨ right.others = []) := by
    obtain rfl | rfl := isEmpty
    · exact ⟨.inl rfl, .inl rfl⟩
    · exact ⟨.inr rfl, .inr rfl⟩
  unfold plateDistance
  rw [partCosts_of_empty parts.1, partCosts_of_empty parts.2, List.foldl_append,
    List.foldl_cons, List.foldl_cons, zero_add]
  rfl

/-- Next to an empty plate a Chinese character counts three and another one
counts one. -/
theorem hanmingDistanceForStr_of_empty_eq (isEmpty : left = [] ∨ right = []) :
    state.hanmingDistanceForStr left.bytes right.bytes 1 =
      ((3 * (left.chinese.length + right.chinese.length) +
        (left.others.length + right.others.length) : Nat) : F) := by
  rw [hanmingDistanceForStr_of_empty isEmpty, left.length_bytes,
    right.length_bytes]
  congr 1
  obtain rfl | rfl := isEmpty
  · simp [Plate.chinese, Plate.others]
  · simp [Plate.chinese, Plate.others]

/-- The sum without the letters and digits of which one plate has none. -/
theorem plateDistance_of_others_empty
    (isEmpty : left.others = [] ∨ right.others = []) :
    state.plateDistance left right =
      (state.partCosts ChineseCharacter.bytes left.chinese
        right.chinese).foldl (· + ·) 0 +
        ((left.others.length + right.others.length : Nat) : F) := by
  unfold plateDistance
  rw [List.foldl_append, partCosts_of_empty isEmpty]
  rfl

/-- The distance of plates of the same shape is the sum. -/
theorem isSum_of_sameShape (sameShape : SameShape left right) :
    state.hanmingDistanceForStr left.bytes right.bytes 1 =
      state.plateDistance left right := by
  by_cases isEmpty : left = [] ∨ right = []
  · obtain ⟨leftChinese, rightChinese⟩ := sameShape.1 isEmpty
    rw [hanmingDistanceForStr_of_empty_eq isEmpty,
      plateDistance_of_empty isEmpty, leftChinese, rightChinese,
      List.length_nil, Nat.add_zero, Nat.mul_zero, Nat.zero_add,
      F32.natCast_zero, zero_add]
  · obtain ⟨isLeft, isRight⟩ := not_or.mp isEmpty
    have both := sameShape.2 isLeft isRight
    rw [hanmingDistanceForStr_eq isLeft isRight]
    split_ifs with noOthers
    · have none : left.others = [] ∧ right.others = [] := by
        obtain isNone | isNone := noOthers
        · exact ⟨isNone, both.mp isNone⟩
        · exact ⟨both.mpr isNone, isNone⟩
      rw [plateDistance_of_others_empty noOthers, none.1, none.2,
        List.length_nil, Nat.add_zero, F32.natCast_zero, add_zero]
    · rfl

/-- In exact sums only plates of the same shape have the right distance. -/
theorem sameShape_of_isSum (exact : F32.Exact F)
    (isSum : state.hanmingDistanceForStr left.bytes right.bytes 1 =
      state.plateDistance left right) :
    SameShape left right := by
  constructor
  · intro isEmpty
    rw [hanmingDistanceForStr_of_empty_eq isEmpty,
      plateDistance_of_empty isEmpty] at isSum
    have none := exact.natCast_add _ _ isSum
    rw [← List.length_eq_zero_iff, ← List.length_eq_zero_iff]
    omega
  · intro isLeft isRight
    rw [hanmingDistanceForStr_eq isLeft isRight] at isSum
    by_cases noOthers : left.others = [] ∨ right.others = []
    · rw [if_pos noOthers, plateDistance_of_others_empty noOthers] at isSum
      have none := exact.add_natCast _ _ isSum.symm
      rw [← List.length_eq_zero_iff, ← List.length_eq_zero_iff]
      omega
    · obtain ⟨someLeft, someRight⟩ := not_or.mp noOthers
      exact iff_of_false someLeft someRight

end InitHanmingDistanceValueMap

/-- For every configuration and all plates, the table is complete and the
distance is faithful where the loop over the letters comes to every pair and the
plates have the same shape, and only there when no length is lost by rounding. -/
theorem complete_faithful_iff (state : InitHanmingDistanceValueMap F)
    (mapData : List (HanmingLetterInfo F)) (left right : Plate) :
    let after := iniHanmingDistanceMap state mapData
    (Covered mapData ∧ SameShape left right →
      Complete mapData after.hanmingPlateApproximateCharacterMap ∧
        after.Faithful left right) ∧
    (F32.Exact F →
      Complete mapData after.hanmingPlateApproximateCharacterMap ∧
        after.Faithful left right →
      Covered mapData ∧ SameShape left right) := by
  intro after
  have symmetric : after.hanmingPlateApproximateCharacterMap.Symmetric :=
    symmetric_iniLoop fun _ _ => rfl
  constructor
  · rintro ⟨covered, sameShape⟩
    refine ⟨complete_iff_covered.mpr covered, ?_, ?_, ?_⟩
    · exact InitHanmingDistanceValueMap.hanmingDistanceForStr_comm symmetric _ _
    · intro plate _
      exact InitHanmingDistanceValueMap.hanmingDistanceForStr_self plate
    · exact InitHanmingDistanceValueMap.isSum_of_sameShape sameShape
  · rintro exact ⟨complete, faithful⟩
    exact ⟨complete_iff_covered.mp complete,
      InitHanmingDistanceValueMap.sameShape_of_isSum exact faithful.isSum⟩

/-- Rational sums lose nothing. -/
theorem exact_rat : F32.Exact ℚ where
  add_natCast := by
    intro ans length same
    exact_mod_cast add_eq_left.mp same
  natCast_add := by
    intro chinese others same
    have sameNat : 3 * chinese + others = chinese + others := by
      exact_mod_cast same
    omega

/-- The plates "京A" and "京B", with the letter "A" that looks like "4". -/
theorem complete_faithful_iff_similar :
    let mapData : List (HanmingLetterInfo ℚ) := [⟨[65], [⟨[52], 1 / 2⟩]⟩]
    let capital : ChineseCharacter := ⟨0x4EAC, by decide, by decide⟩
    let left : Plate := [.inl capital, .inr ⟨65, rfl⟩]
    let right : Plate := [.inl capital, .inr ⟨66, rfl⟩]
    let after := iniHanmingDistanceMap ⟨[], false⟩ mapData
    (Complete mapData after.hanmingPlateApproximateCharacterMap ∧
        after.Faithful left right) ∧
      Covered mapData ∧ SameShape left right := by
  intro mapData capital left right after
  have isBoth := (complete_faithful_iff ⟨[], false⟩ mapData left right).1 (by
    refine ⟨?_, ?_, ?_⟩
    · intro L isLetter p isListed
      obtain rfl := List.mem_singleton.mp isLetter
      exact ⟨0, .here 0, by decide, p, isListed, .inl rfl⟩
    · rintro (isEmpty | isEmpty)
      · exact absurd isEmpty (List.cons_ne_nil _ _)
      · exact absurd isEmpty (List.cons_ne_nil _ _)
    · exact fun _ _ => iff_of_false (List.cons_ne_nil _ _) (List.cons_ne_nil _ _))
  exact ⟨isBoth,
    (complete_faithful_iff ⟨[], false⟩ mapData left right).2 exact_rat isBoth⟩

/-- The second of two letters is not come to. -/
theorem not_complete_second :
    let mapData : List (HanmingLetterInfo ℚ) :=
      [⟨[66], [⟨[56], 1 / 2⟩]⟩, ⟨[68], [⟨[48], 1 / 2⟩]⟩]
    ¬Complete mapData (iniHanmingDistanceMap ⟨[], false⟩
      mapData).hanmingPlateApproximateCharacterMap := by
  intro mapData complete
  have second := (complete ⟨[68], [⟨[48], 1 / 2⟩]⟩ (by simp [mapData])
    ⟨[48], 1 / 2⟩ (by simp)).1
  revert second
  unfold iniHanmingDistanceMap
  dsimp only
  rw [iniLoop, dif_pos (by decide), iniLoop, dif_neg (by decide)]
  decide

end Drc
end Pilot2Cloud
