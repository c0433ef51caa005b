import Pilot2Cloud.Hdmap.AreaOrder
import Pilot2Cloud.Hdmap.BlockAround
import Pilot2Cloud.Hdmap.LoadSteps

/-!
# The height of a cell

`get_block_z` finds the height of the last block that was loaded for the cell of
a point.  Indices are rounded toward zero, so a point less than one cell before
the grid gets the height of the first cell.
-/

namespace Pilot2Cloud
namespace Hdmap

open Foundation

/-! ## Indices -/

section Indices

variable {K : Type*} [Field K] [LinearOrder K]

/-- The value is in the part with the number, of parts of a size from an origin
on. -/
def AtIndex (origin size : K) (index : Int) (value : K) : Prop :=
  ∃ part, 0 ≤ part ∧ part < 1 ∧ value = origin + size * (index + part)

omit [LinearOrder K] in
theorem quotient_eq {origin size value part : K} {index : Int}
    (nonzero : size ≠ 0) (at_ : value = origin + size * (index + part)) :
    (value - origin) / size = index + part := by
  rw [at_, add_sub_cancel_left, mul_div_cancel_left₀ _ nonzero]

variable [IsStrictOrderedRing K] [FloorRing K]

/-- A value lies at an index when the quotient rounded down is the index. -/
theorem atIndex_iff {origin size value : K} {index : Int}
    (nonzero : size ≠ 0) :
    AtIndex origin size index value ↔ ⌊(value - origin) / size⌋ = index := by
  rw [Int.floor_eq_iff]
  constructor
  · rintro ⟨part, nonneg, below, at_⟩
    rw [quotient_eq nonzero at_]
    constructor <;> linarith
  · rintro ⟨lower, upper⟩
    refine ⟨(value - origin) / size - index, by linarith, by linarith, ?_⟩
    rw [add_sub_cancel, mul_div_cancel₀ _ nonzero]
    ring

/-- A number is rounded toward zero to an index of a range. -/
theorem truncate_mem_iff {value : K} {count : Int} :
    0 ≤ truncate value ∧ truncate value < count ↔
      0 < count ∧ -1 < value ∧ value < count := by
  rw [truncate]
  split
  · next nonneg =>
      rw [Int.floor_lt]
      have floorNonneg := Int.floor_nonneg.mpr nonneg
      constructor
      · rintro ⟨-, below⟩
        have positive : (0 : K) < count := nonneg.trans_lt below
        exact ⟨by exact_mod_cast positive, by linarith, below⟩
      · rintro ⟨-, -, below⟩
        exact ⟨floorNonneg, below⟩
  · next negative =>
      rw [not_le] at negative
      have ceilNonpos : ⌈value⌉ ≤ 0 :=
        Int.ceil_le.mpr (by simpa using negative.le)
      constructor
      · rintro ⟨nonneg, below⟩
        have positive : 0 < count := nonneg.trans_lt below
        have above : ((0 - 1 : Int) : K) < value := by
          rw [← Int.lt_ceil]
          omega
        have countPositive : (0 : K) < count := by exact_mod_cast positive
        refine ⟨positive, by simpa using above, by linarith⟩
      · rintro ⟨positive, above, -⟩
        have ceilNonneg : (-1 : Int) < ⌈value⌉ := by
          rw [Int.lt_ceil]
          simpa using above
        omega

theorem abs_truncate_sub_le (value : K) : |(truncate value : K) - value| ≤ 1 := by
  rw [truncate, abs_le]
  split
  · constructor <;> linarith [Int.floor_le value, Int.lt_floor_add_one value]
  · constructor <;> linarith [Int.le_ceil value, Int.ceil_lt_add_one value]

/-- The index of the start of a part, rounded to the nearest. -/
theorem roundedIndex_of_start {origin size : K} {index : Int}
    (nonzero : size ≠ 0) (nonneg : 0 ≤ index) (fits : index < 2 ^ 31) :
    roundedIndex origin size (origin + size * index) = some index := by
  have quotient : (origin + size * index - origin + size / (2 : ℕ)) / size =
      index + 1 / 2 := by
    rw [Nat.cast_ofNat]
    field_simp
    ring
  have number : truncate ((index : K) + 1 / 2) = index := by
    have start : (0 : K) ≤ index := by exact_mod_cast nonneg
    rw [truncate_of_nonneg (by linarith), Int.floor_eq_iff]
    constructor <;> linarith
  rw [roundedIndex, if_neg nonzero, quotient, toSigned32_of_fits, number]
  · omega
  · omega

end Indices

section Lookup

variable {K : Type*} [Field K] [LinearOrder K] [FloorRing K]

/-- `get_block_z` with a pointer that is not null: undefined if an index does not
fit, `RET_ERR`, or the height with `RET_OK`. -/
def LoadedMap.getBlockZ (map : LoadedMap K) (x y : K) : Option (Option K) :=
  (cellIndex map.blockMin.x map.blockSize.x x).bind fun xi =>
    (cellIndex map.blockMin.y map.blockSize.y y).map fun yi =>
      if xi < 0 ∨ yi < 0 ∨ map.blockCountX ≤ xi ∨ map.blockCountY ≤ yi then
        none
      else some (heightOfMm (map.block yi xi).zmaxMm)

/-! ## What is stored in a cell -/

/-- The height that an element stores at a place of `pstBlock`. -/
def storedAt (layout : Layout K) (place : Int) :
    Element K → Option BlockHeight
  | .block position =>
      (roundedIndex layout.blockMin.x layout.blockSize.x position.x).bind
        fun xi =>
          (roundedIndex layout.blockMin.y layout.blockSize.y position.y).bind
            fun yi =>
              if layout.blockCountX ≤ xi ∨ layout.blockCountY ≤ yi then none
              else if layout.cellPlace yi xi = place then
                Loading.blockHeight layout position.z
              else none
  | _ => none

variable {layout : Layout K} {loading next : Loading K} {place : Int}

theorem block_takeElement {element : Element K}
    (takes : Loading.takeElement layout loading element = some next) :
    next.block place =
      (storedAt layout place element).getD (loading.block place) := by
  cases element with
  | block position =>
      simp only [Loading.takeElement, Loading.takeBlock,
        Option.bind_eq_some_iff] at takes
      obtain ⟨xi, column, yi, row, takes⟩ := takes
      simp only [storedAt, column, row, Option.bind_some]
      split at takes
      · next beyond =>
          cases takes
          rw [if_pos beyond, Option.getD_none]
      · next inside =>
          rw [Loading.storeBlock, Option.ite_none_right_eq_some,
            Option.map_eq_some_iff] at takes
          obtain ⟨-, height, computed, rfl⟩ := takes
          rw [if_neg inside]
          by_cases same : layout.cellPlace yi xi = place
          · rw [if_pos same, computed, ← same]
            exact Function.update_self ..
          · rw [if_neg same, Option.getD_none]
            exact Function.update_of_ne (Ne.symm same) ..
  | brokenBlock => cases takes
  | points id nodes =>
      rw [Loading.eq_of_takePoints takes, Loading.block_bindPoints]
      rfl
  | area own members =>
      obtain ⟨progress, -, rfl⟩ := Loading.eq_of_takeArea takes
      rfl
  | badBlock | unreadable =>
      cases takes
      rfl

/-- A cell has the height that was stored last. -/
theorem block_readElements {elements : List (Element K)}
    (reads : Loading.readElements layout loading elements = some next)
    (clean : next.mapErrCount = 0) :
    next.block place =
      (elements.filterMap (storedAt layout place)).getLast?.getD
        (loading.block place) := by
  induction elements generalizing loading with
  | nil =>
      cases reads
      rfl
  | cons element rest inductionHypothesis =>
      by_cases bad : element = .badBlock
      · rw [bad] at reads
        cases reads
        cases clean
      · rw [Loading.readElements_cons bad, Option.bind_eq_some_iff] at reads
        obtain ⟨middle, takes, reads⟩ := reads
        rw [inductionHypothesis reads, block_takeElement takes,
          List.filterMap_cons]
        cases storedAt layout place element with
        | none => rfl
        | some height =>
            rw [List.getLast?_cons, Option.getD_some, Option.getD_some]

/-- Each element of a file that is loaded was taken. -/
theorem takes_of_readElements {element : Element K}
    {early late : List (Element K)}
    (reads : Loading.readElements layout loading (early ++ element :: late) =
      some next)
    (clean : next.mapErrCount = 0) :
    ∃ before after, Loading.takeElement layout before element =
      some after := by
  induction early generalizing loading with
  | nil =>
      by_cases bad : element = .badBlock
      · rw [bad]
        exact ⟨loading, _, rfl⟩
      · rw [List.nil_append, Loading.readElements_cons bad,
          Option.bind_eq_some_iff] at reads
        obtain ⟨middle, takes, -⟩ := reads
        exact ⟨loading, middle, takes⟩
  | cons first early inductionHypothesis =>
      by_cases bad : first = .badBlock
      · rw [bad] at reads
        cases reads
        cases clean
      · rw [List.cons_append, Loading.readElements_cons bad,
          Option.bind_eq_some_iff] at reads
        obtain ⟨middle, -, reads⟩ := reads
        exact inductionHypothesis reads

/-! ## What is found -/

/-- At each point of a cell the height is found within one millimetre. -/
def LoadedMap.HeightFound (map : LoadedMap K) (j i : Int) (z : K) : Prop :=
  ∀ x y, AtIndex map.blockMin.x map.blockSize.x i x →
    AtIndex map.blockMin.y map.blockSize.y j y →
    ∃ height, map.getBlockZ x y = some (some height) ∧
      |height - z| ≤ 1 / (1000 : ℕ)

/-- The last of the heights that are stored in the cell is within one
millimetre. -/
def LastWithin (layout : Layout K) (later : List (Element K)) (j i : Int)
    (z : K) : Prop :=
  ∀ height ∈
      (later.filterMap (storedAt layout (layout.cellPlace j i))).getLast?,
    |heightOfMm height.zmaxMm - z| ≤ 1 / (1000 : ℕ)

/-- The point is in a cell of the grid. -/
def LoadedMap.InRectangle (map : LoadedMap K) (x y : K) : Prop :=
  ∃ j i, map.InGrid j i ∧ AtIndex map.blockMin.x map.blockSize.x i x ∧
    AtIndex map.blockMin.y map.blockSize.y j y

/-- The look-up returns, with success exactly if the point is in the grid. -/
def LoadedMap.SucceedsInside (map : LoadedMap K) (x y : K) : Prop :=
  ∃ result, map.getBlockZ x y = some result ∧
    (result.isSome ↔ map.InRectangle x y)

/-- The column of a coordinate before it is converted. -/
def LoadedMap.columnOf (map : LoadedMap K) (x : K) : K :=
  (x - map.blockMin.x) / map.blockSize.x

/-- The row of a coordinate before it is converted. -/
def LoadedMap.rowOf (map : LoadedMap K) (y : K) : K :=
  (y - map.blockMin.y) / map.blockSize.y

/-- The indices of the point are of type `S32`. -/
structure LoadedMap.IndicesFit (map : LoadedMap K) (x y : K) : Prop where
  column : -2 ^ 31 ≤ truncate (map.columnOf x) ∧
    truncate (map.columnOf x) < 2 ^ 31
  row : -2 ^ 31 ≤ truncate (map.rowOf y) ∧ truncate (map.rowOf y) < 2 ^ 31

/-- The point is less than one cell before an edge of the grid where the grid
starts, and not beyond an edge where it ends. -/
structure LoadedMap.BeforeEdge (map : LoadedMap K) (x y : K) : Prop where
  cells : 0 < map.blockCountX ∧ 0 < map.blockCountY
  column : -1 < map.columnOf x ∧ map.columnOf x < map.blockCountX
  row : -1 < map.rowOf y ∧ map.rowOf y < map.blockCountY
  before : map.columnOf x < 0 ∨ map.rowOf y < 0

section Points

variable [IsStrictOrderedRing K] {map : LoadedMap K} {x y : K}

omit [IsStrictOrderedRing K] in
/-- The index of a cell, when the size of the cell is not zero. -/
theorem cellIndex_eq_some_iff {origin size value : K}
    (nonzero : size ≠ 0) {index : Int} :
    cellIndex origin size value = some index ↔
      (-2 ^ 31 ≤ truncate ((value - origin) / size) ∧
        truncate ((value - origin) / size) < 2 ^ 31) ∧
      truncate ((value - origin) / size) = index := by
  rw [cellIndex, if_neg nonzero, toSigned32_eq, Option.ite_none_right_eq_some,
    Option.some_inj]

omit [IsStrictOrderedRing K] in
/-- The look-up is defined if the indices fit. -/
theorem getBlockZ_eq_some_iff (nonzeroX : map.blockSize.x ≠ 0)
    (nonzeroY : map.blockSize.y ≠ 0) {result : Option K} :
    map.getBlockZ x y = some result ↔
      map.IndicesFit x y ∧
      (if truncate (map.columnOf x) < 0 ∨ truncate (map.rowOf y) < 0 ∨
          map.blockCountX ≤ truncate (map.columnOf x) ∨
          map.blockCountY ≤ truncate (map.rowOf y) then
        none
      else some (heightOfMm (map.block (truncate (map.rowOf y))
        (truncate (map.columnOf x))).zmaxMm)) = result := by
  simp only [LoadedMap.getBlockZ, Option.bind_eq_some_iff,
    Option.map_eq_some_iff, cellIndex_eq_some_iff nonzeroX,
    cellIndex_eq_some_iff nonzeroY]
  constructor
  · rintro ⟨xi, ⟨column, rfl⟩, yi, ⟨row, rfl⟩, value⟩
    exact ⟨⟨column, row⟩, value⟩
  · rintro ⟨⟨column, row⟩, value⟩
    exact ⟨_, ⟨column, rfl⟩, _, ⟨row, rfl⟩, value⟩

/-- A point is in the grid if its quotients are. -/
theorem inRectangle_iff (nonzeroX : map.blockSize.x ≠ 0)
    (nonzeroY : map.blockSize.y ≠ 0) :
    map.InRectangle x y ↔
      (0 ≤ map.columnOf x ∧ map.columnOf x < map.blockCountX) ∧
        0 ≤ map.rowOf y ∧ map.rowOf y < map.blockCountY := by
  constructor
  · rintro ⟨j, i, ⟨rowNonneg, row, columnNonneg, column⟩, atX, atY⟩
    rw [atIndex_iff nonzeroX] at atX
    rw [atIndex_iff nonzeroY] at atY
    rw [← atX, ← LoadedMap.columnOf] at columnNonneg column
    rw [← atY, ← LoadedMap.rowOf] at rowNonneg row
    exact ⟨⟨Int.floor_nonneg.mp columnNonneg, Int.floor_lt.mp column⟩,
      Int.floor_nonneg.mp rowNonneg, Int.floor_lt.mp row⟩
  · rintro ⟨⟨columnNonneg, column⟩, rowNonneg, row⟩
    refine ⟨⌊map.rowOf y⌋, ⌊map.columnOf x⌋, ⟨?_, ?_, ?_, ?_⟩,
      (atIndex_iff nonzeroX).mpr rfl, (atIndex_iff nonzeroY).mpr rfl⟩
    · exact Int.floor_nonneg.mpr rowNonneg
    · exact Int.floor_lt.mpr row
    · exact Int.floor_nonneg.mpr columnNonneg
    · exact Int.floor_lt.mpr column

/-- The look-up succeeds exactly in the grid unless an index does not fit or the
point is just before the grid. -/
theorem succeedsInside_iff (nonzeroX : map.blockSize.x ≠ 0)
    (nonzeroY : map.blockSize.y ≠ 0) :
    map.SucceedsInside x y ↔ map.IndicesFit x y ∧ ¬map.BeforeEdge x y := by
  have succeeds : map.SucceedsInside x y ↔ map.IndicesFit x y ∧
      (((0 ≤ truncate (map.columnOf x) ∧
          truncate (map.columnOf x) < map.blockCountX) ∧
        0 ≤ truncate (map.rowOf y) ∧
          truncate (map.rowOf y) < map.blockCountY) ↔
        map.InRectangle x y) := by
    simp only [LoadedMap.SucceedsInside,
      getBlockZ_eq_some_iff nonzeroX nonzeroY, and_assoc]
    rw [exists_and_left, exists_eq_left']
    apply and_congr_right
    intro _
    apply iff_congr _ Iff.rfl
    split
    · next beyond =>
        apply iff_of_false
        · simp
        · omega
    · next inside =>
        apply iff_of_true
        · rfl
        · omega
  rw [succeeds, inRectangle_iff nonzeroX nonzeroY, truncate_mem_iff,
    truncate_mem_iff]
  apply and_congr_right
  intro _
  constructor
  · rintro same ⟨⟨width, height⟩, column, row, before⟩
    obtain ⟨⟨columnNonneg, -⟩, rowNonneg, -⟩ :=
      same.mp ⟨⟨width, column⟩, height, row⟩
    obtain left | below := before
    · exact left.not_ge columnNonneg
    · exact below.not_ge rowNonneg
  · intro notBefore
    constructor
    · rintro ⟨⟨width, column⟩, height, row⟩
      have after : ¬(map.columnOf x < 0 ∨ map.rowOf y < 0) := fun before =>
        notBefore ⟨⟨width, height⟩, column, row, before⟩
      rw [not_or, not_lt, not_lt] at after
      exact ⟨⟨after.1, column.2⟩, after.2, row.2⟩
    · rintro ⟨⟨columnNonneg, column⟩, rowNonneg, row⟩
      have width : (0 : K) < map.blockCountX := columnNonneg.trans_lt column
      have height : (0 : K) < map.blockCountY := rowNonneg.trans_lt row
      refine ⟨⟨by exact_mod_cast width, by linarith, column⟩,
        by exact_mod_cast height, by linarith, row⟩

/-- At a point of a cell of the grid the height of the cell is found. -/
theorem getBlockZ_of_atIndex (nonzeroX : map.blockSize.x ≠ 0)
    (nonzeroY : map.blockSize.y ≠ 0) {j i : Int} (inGrid : map.InGrid j i)
    (atX : AtIndex map.blockMin.x map.blockSize.x i x)
    (atY : AtIndex map.blockMin.y map.blockSize.y j y) :
    map.getBlockZ x y = some (some (heightOfMm (map.block j i).zmaxMm)) := by
  have column : truncate (map.columnOf x) = i := by
    rw [atIndex_iff nonzeroX, ← LoadedMap.columnOf] at atX
    rw [truncate_of_nonneg _, atX]
    rw [← Int.floor_nonneg, atX]
    exact inGrid.columnNonneg
  have row : truncate (map.rowOf y) = j := by
    rw [atIndex_iff nonzeroY, ← LoadedMap.rowOf] at atY
    rw [truncate_of_nonneg _, atY]
    rw [← Int.floor_nonneg, atY]
    exact inGrid.rowNonneg
  obtain ⟨rowNonneg, rowBelow, columnNonneg, columnBelow⟩ := inGrid
  have countsFit := map.countsFit
  rw [getBlockZ_eq_some_iff nonzeroX nonzeroY, column, row, if_neg (by omega)]
  refine ⟨⟨?_, ?_⟩, rfl⟩
  · rw [column]
    omega
  · rw [row]
    omega

/-- A cell has a point, so the height is found if and only if the height of the
cell is close. -/
theorem heightFound_iff (nonzeroX : map.blockSize.x ≠ 0)
    (nonzeroY : map.blockSize.y ≠ 0) {j i : Int} (inGrid : map.InGrid j i)
    {z : K} :
    map.HeightFound j i z ↔
      |heightOfMm (map.block j i).zmaxMm - z| ≤ 1 / (1000 : ℕ) := by
  constructor
  · intro found
    have corner : ∀ origin size : K, ∀ index : Int,
        AtIndex origin size index (origin + size * (index + 0)) :=
      fun origin size index => ⟨0, le_rfl, one_pos, rfl⟩
    obtain ⟨height, returns, close⟩ := found _ _ (corner _ _ i) (corner _ _ j)
    rw [getBlockZ_of_atIndex nonzeroX nonzeroY inGrid (corner _ _ i)
      (corner _ _ j), Option.some_inj, Option.some_inj] at returns
    rwa [returns]
  · intro close x y atX atY
    exact ⟨_, getBlockZ_of_atIndex nonzeroX nonzeroY inGrid atX atY, close⟩

/-- A height in whole millimetres is within one millimetre. -/
theorem heightOfMm_close {zmaxMm : Int} {z : K}
    (converts : toSigned32 (z * (1000 : ℕ)) = some zmaxMm) :
    |(heightOfMm (.ofInt zmaxMm) : K) - z| ≤ 1 / (1000 : ℕ) := by
  rw [toSigned32_eq, Option.ite_none_right_eq_some, Option.some_inj] at converts
  obtain ⟨fits, rfl⟩ := converts
  have value : (Int32.ofInt (truncate (z * (1000 : ℕ)))).toInt =
      truncate (z * (1000 : ℕ)) := by
    apply Int32.toInt_ofInt_of_le <;> omega
  rw [heightOfMm, value]
  simp only [Nat.cast_ofNat]
  have close := abs_truncate_sub_le (z * 1000)
  have scale : ((truncate (z * 1000) : K) - z * 1000) / 1000 =
      (truncate (z * 1000) : K) / 1000 - z := by
    ring
  rw [← scale, abs_div, abs_of_pos (by norm_num : (0 : K) < 1000)]
  exact div_le_div_of_nonneg_right close (by norm_num)

end Points

/-! ## Loaded files -/

section Load

variable [IsStrictOrderedRing K] {scan : Scanner K} {malloc : Int → Bool}
variable {file : Text} {map : LoadedFile K}

omit [IsStrictOrderedRing K] in
/-- The cells of a loaded map have a size. -/
theorem size_ne_zero_of_layout {counts : MapCount K}
    (computed : counts.layout = some layout) :
    layout.blockSize.x ≠ 0 ∧ layout.blockSize.y ≠ 0 := by
  have nonzero : ∀ {origin size upper : K}
      {count : { count : Int // count < 2 ^ 31 }},
      blockCount origin size upper = some count → size ≠ 0 := by
    intro origin size upper count defined zero
    rw [blockCount, Option.pmap_eq_some_iff] at defined
    obtain ⟨index, fits, converts, -⟩ := defined
    have none : roundedIndex origin size upper = none := if_pos zero
    rw [none] at converts
    cases converts
  simp only [MapCount.layout, Option.bind_eq_some_iff,
    Option.map_eq_some_iff] at computed
  obtain ⟨countX, definedX, countY, definedY, countZ, -, rfl⟩ := computed
  exact ⟨nonzero definedX, nonzero definedY⟩

/-- The height found at a place is that of the last block element of its
cell. -/
theorem heightFound_iff_of_loads
    (loads : Loads scan malloc file layout loading map)
    {early late : List (Element K)} {position : MapXyz K}
    (split : elements scan .file (fileLines file) =
      early ++ .block position :: late)
    {j i : Int} (inGrid : map.InGrid j i)
    (atX : position.x = map.blockMin.x + map.blockSize.x * i)
    (atY : position.y = map.blockMin.y + map.blockSize.y * j) :
    map.HeightFound j i position.z ↔
      LastWithin layout late j i position.z := by
  have same := toMapInfo_of_loaded loads.recorded
  obtain ⟨nonzeroX, nonzeroY⟩ := size_ne_zero_of_layout loads.computed
  have countsFit := layout.countsFit
  have mapNonzeroX : map.blockSize.x ≠ 0 := by
    rw [same]
    exact nonzeroX
  have mapNonzeroY : map.blockSize.y ≠ 0 := by
    rw [same]
    exact nonzeroY
  rw [heightFound_iff mapNonzeroX mapNonzeroY inGrid]
  rw [same] at inGrid atX atY ⊢
  obtain ⟨rowNonneg, row, columnNonneg, column⟩ := inGrid
  have xi : roundedIndex layout.blockMin.x layout.blockSize.x position.x =
      some i := by
    rw [atX]
    exact roundedIndex_of_start nonzeroX columnNonneg
      (column.trans countsFit.1)
  have yi : roundedIndex layout.blockMin.y layout.blockSize.y position.y =
      some j := by
    rw [atY]
    exact roundedIndex_of_start nonzeroY rowNonneg (row.trans countsFit.2)
  have inside : ¬(layout.blockCountX ≤ i ∨ layout.blockCountY ≤ j) := by
    rw [not_or, not_le, not_le]
    exact ⟨column, row⟩
  have stores : storedAt layout (layout.cellPlace j i)
      (.block position) = Loading.blockHeight layout position.z := by
    rw [storedAt, xi, yi, Option.bind_some, Option.bind_some, if_neg inside,
      if_pos rfl]
  -- The height of the block itself fits, as it was stored.
  have reads := loads.reads
  rw [split] at reads
  obtain ⟨before, after, takes⟩ := takes_of_readElements reads.1 reads.2
  rw [Loading.takeElement, Loading.takeBlock, xi, yi, Option.bind_some,
    Option.bind_some, if_neg inside, Loading.storeBlock,
    Option.ite_none_right_eq_some, Option.map_eq_some_iff] at takes
  obtain ⟨-, own, computed, -⟩ := takes
  have ownClose :
      |(heightOfMm own.zmaxMm : K) - position.z| ≤ 1 / (1000 : ℕ) := by
    simp only [Loading.blockHeight, Option.bind_eq_some_iff,
      Option.map_eq_some_iff] at computed
    obtain ⟨zI, -, zmaxMm, converts, rfl⟩ := computed
    exact heightOfMm_close converts
  have cell : (layout.mapInfo loading).block j i =
      ((late.filterMap (storedAt layout
        (layout.cellPlace j i))).getLast?.getD own) := by
    have stored : loading.block (layout.cellPlace j i) = _ :=
      block_readElements reads.1 reads.2
    rw [List.filterMap_append, List.filterMap_cons, stores, computed] at stored
    refine stored.trans ?_
    dsimp only
    rw [List.getLast?_append, List.getLast?_cons]
    rfl
  rw [cell, LastWithin]
  cases (late.filterMap (storedAt layout
      (layout.cellPlace j i))).getLast? with
  | none => simpa using ownClose
  | some height => simp

end Load

end Lookup

/-! ## A cell with a block -/

/-- A grid of one cell with a block of five metres. -/
def fiveMetresFile : Text :=
  "<block_min x=\"0\" y=\"0\" z=\"0\"/>\n".toList ++
    "<block_max x=\"10\" y=\"10\" z=\"10\"/>\n".toList ++
    "<block_size x=\"10\" y=\"10\" z=\"10\"/>\n".toList ++
    "<block id=\"0\" x=\"0\" y=\"0\" z=\"5\"/>\n".toList

theorem fiveMetres_loads :
    ∃ layout loading map,
      Loads decimalScanner (fun _ => true) fiveMetresFile layout loading
        map ∧
      getMapInfo decimalScanner (fun _ => true) (some fiveMetresFile) =
        .loaded map ∧
      layout.blockMin = ⟨0, 0, 0⟩ ∧ layout.blockSize = ⟨10, 10, 10⟩ ∧
      layout.blockCountX = 1 ∧ layout.blockCountY = 1 := by
  have loaded : (getMapInfo decimalScanner (fun _ => true)
      (some fiveMetresFile)).isLoaded = true := by
    decide +kernel
  obtain ⟨map, loaded⟩ := LoadResult.exists_of_isLoaded loaded
  obtain ⟨layout, loading, loads⟩ := loads_of_loaded loaded
  have values : (MapCount.ofLines decimalScanner
      (fileLines fiveMetresFile)).layout.map (fun layout =>
        (layout.blockMin, layout.blockSize, layout.blockCountX,
          layout.blockCountY)) =
      some (⟨0, 0, 0⟩, ⟨10, 10, 10⟩, 1, 1) := by
    decide +kernel
  rw [loads.computed, Option.map_some, Option.some_inj] at values
  simp only [Prod.mk.injEq] at values
  exact ⟨layout, loading, map, loads, loaded, values⟩

end Hdmap
end Pilot2Cloud
