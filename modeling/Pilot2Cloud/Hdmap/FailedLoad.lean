import Pilot2Cloud.Hdmap.BlockReference

/-!
# Maps that failed to load

A load that fails keeps the size of the grid of the first pass.  The queries
tell from it whether there is a map, so they look into the memory of a map that
failed to load, or into memory that does not exist, wherever the grid has room
for a square.
-/

namespace Pilot2Cloud
namespace Hdmap

open Foundation

/-- What a query does: the cells that it reads, and what it returns unless it
uses a null pointer. -/
structure Query (α : Type*) where
  reads : List (Int × Int)
  answer : Option α

variable {K : Type*} [Field K] [LinearOrder K]

namespace MapState

variable (state : MapState K)

/-- The grid after a load that failed.  No areas were recorded for its cells. -/
def map : LoadedMap K where
  blockMin := state.blockMin
  blockSize := state.blockSize
  blockCountX := state.blockCountX
  blockCountY := state.blockCountY
  countsFit := state.countsFit
  node := []
  restriction := []
  block j i :=
    match state.memory with
    | none => ⟨0, 0⟩
    | some loading => loading.block (j * state.blockCountX + i)
  resdictionI _ _ := 0

/-- The loops of `check_block_around` over the cells of its window. -/
def lookAt (z zmin : K) : List (Int × Int) → Query Ret
  | [] => ⟨[], some .over⟩
  | cell :: rest =>
      match state.memory with
      | none => ⟨[cell], none⟩
      | some _ =>
          if zmin < state.map.blockz cell.1 cell.2 z then ⟨[cell], some .ok⟩
          else
            let query := lookAt z zmin rest
            ⟨cell :: query.reads, query.answer⟩

variable [FloorRing K]

/-- `check_block_around`, undefined if an index does not fit. -/
def checkBlockAround (x y z disXy disZ : K) : Option (Query Ret) :=
  (state.map.window x y disXy).map fun window =>
    if state.map.Outside window then ⟨[], some .err⟩
    else state.lookAt z (z - disZ) (state.map.windowCells window)

/-- The loop of `check_block_around_line`, which returns nothing if a check is
undefined or the fuel is used up. -/
def lineLoop (check : K → Option (Query Ret)) (length disXy : K) :
    Nat → K → Option (Query (Ret × K))
  | 0, _ => none
  | fuel + 1, curLen =>
      if curLen ≤ length then
        (check curLen).bind fun query =>
          match query.answer with
          | none => some ⟨query.reads, none⟩
          | some .over =>
              (lineLoop check length disXy fuel (curLen + disXy)).map
                fun later => ⟨query.reads ++ later.reads, later.answer⟩
          | some ret =>
              some ⟨query.reads, some (ret,
                if curLen < disXy then 0 else curLen - disXy)⟩
      else some ⟨[], some (.over, curLen)⟩

/-- `check_block_around_line` on any state of the map. -/
def checkBlockAroundLine (trigonometry : Trigonometry K)
    (x y z angle length disXy disZ : K) (fuel : Nat) :
    Option (Query (Ret × K)) :=
  let theta := angle * pai / halfTurn
  let curLen := if length < disXy then length else disXy
  lineLoop
    (fun curLen =>
      state.checkBlockAround (x + curLen * trigonometry.cos theta)
        (y + curLen * trigonometry.sin theta) z disXy disZ)
    length disXy fuel curLen

/-- `get_block_z` with a pointer that is not null, where no height is
`RET_ERR`. -/
def getBlockZ (x y : K) : Option (Query (Option K)) :=
  (cellIndex state.blockMin.x state.blockSize.x x).bind fun xi =>
    (cellIndex state.blockMin.y state.blockSize.y y).map fun yi =>
      if xi < 0 ∨ yi < 0 ∨ state.blockCountX ≤ xi ∨
          state.blockCountY ≤ yi then
        ⟨[], some none⟩
      else
        match state.memory with
        | none => ⟨[(yi, xi)], none⟩
        | some _ =>
            ⟨[(yi, xi)],
              some (some (heightOfMm (state.map.block yi xi).zmaxMm))⟩

/-- Every query returns `RET_ERR` and reads nothing. -/
structure Refuses : Prop where
  around : ∀ x y z disXy disZ query,
    state.checkBlockAround x y z disXy disZ = some query →
      query = ⟨[], some .err⟩
  line : ∀ trigonometry x y z angle length disXy disZ fuel query,
    state.checkBlockAroundLine trigonometry x y z angle length disXy disZ
        fuel = some query →
      query.reads = [] ∧ ∃ safeDis, query.answer = some (.err, safeDis)
  blockZ : ∀ x y query, state.getBlockZ x y = some query →
    query = ⟨[], some none⟩

end MapState

/-! ## Squares in a grid -/

/-- Where a grid ends for the truncated numbers of a square: a number in front
of it is that of a cell in front of the end. -/
def gridEnd (count : Int) : K :=
  if 0 < count then count else count - 1

/-- A length in cells is that of a square from in front of the end of a grid to
behind its start, with indices of type `S32`. -/
structure Spans (count : Int) (cells : K) : Prop where
  counted : -2 ^ 31 < count
  long : -1 - gridEnd count < cells
  short : cells < (2 ^ 32 + 1 : ℕ)

/-- A square has indices of type `S32` and does not lie beside the grid. -/
def HasSquare (blockSize : MapXyz K) (blockCountX blockCountY : Int) : Prop :=
  (blockSize.x ≠ 0 ∧ blockSize.y ≠ 0) ∧
    ∃ side, Spans blockCountX (side / blockSize.x) ∧
      Spans blockCountY (side / blockSize.y)

omit [LinearOrder K] in
theorem columnOf_add [LinearOrder K] (state : MapState K) (x disXy : K) :
    state.map.columnOf (x + disXy) =
      state.map.columnOf (x - disXy) +
        (disXy + disXy) / state.blockSize.x := by
  change (x + disXy - state.blockMin.x) / state.blockSize.x =
    (x - disXy - state.blockMin.x) / state.blockSize.x + _
  ring

omit [LinearOrder K] in
theorem rowOf_add [LinearOrder K] (state : MapState K) (y disXy : K) :
    state.map.rowOf (y + disXy) =
      state.map.rowOf (y - disXy) + (disXy + disXy) / state.blockSize.y := by
  change (y + disXy - state.blockMin.y) / state.blockSize.y =
    (y - disXy - state.blockMin.y) / state.blockSize.y + _
  ring

section Squares

variable [FloorRing K] [IsStrictOrderedRing K]

omit [FloorRing K] [IsStrictOrderedRing K] in
/-- A square that begins before the end of the grid does not begin beyond it. -/
theorem not_beginsBeyond_of_lt {count : Int} {value : K}
    (before : value < gridEnd count) : ¬BeginsBeyond count value := by
  unfold BeginsBeyond
  unfold gridEnd at before
  split at before
  · next positive =>
      rw [if_pos positive]
      exact before.not_ge
  · next notPositive =>
      rw [if_neg notPositive]
      exact before.le.not_gt

omit [FloorRing K] [IsStrictOrderedRing K] in
theorem le_gridEnd {count : Int} {value : K}
    (before : ¬BeginsBeyond count value) : value ≤ gridEnd count := by
  unfold BeginsBeyond at before
  unfold gridEnd
  split at before
  · next positive =>
      rw [if_pos positive]
      exact (not_le.mp before).le
  · next notPositive =>
      rw [if_neg notPositive]
      exact not_lt.mp before

/-- The numbers whose integer part is of type `S32`. -/
theorem signed32_iff {value : K} :
    (-2 ^ 31 ≤ truncate value ∧ truncate value < 2 ^ 31) ↔
      -((2 ^ 31 + 1 : ℕ) : K) < value ∧ value < (2 ^ 31 : ℕ) := by
  have lower : -2 ^ 31 ≤ truncate value ↔
      -((2 ^ 31 + 1 : ℕ) : K) < value := by
    rw [count_le_truncate_iff, BeginsBeyond, if_neg (by decide)]
    norm_num
  have upper : truncate value < 2 ^ 31 ↔ value < (2 ^ 31 : ℕ) := by
    rw [← Int.le_sub_one_iff, truncate_le_iff (by decide)]
    norm_num
  rw [lower, upper]

/-- The grid ends at numbers of type `S32`. -/
theorem gridEnd_bounds {count : Int} (above : -2 ^ 31 < count)
    (below : count < 2 ^ 31) :
    -((2 ^ 31 + 1 : ℕ) : K) < gridEnd count ∧
      (gridEnd count : K) ≤ (2 ^ 31 : ℕ) := by
  have lower : (-2 ^ 31 : K) + 1 ≤ count := by
    exact_mod_cast Int.add_one_le_of_lt above
  have upper : (count : K) ≤ 2 ^ 31 := by exact_mod_cast below.le
  push_cast
  unfold gridEnd
  split
  · constructor <;> linarith
  · constructor <;> linarith

/-- Two numbers a length apart have indices in front of the end of the grid and
behind its start. -/
theorem exists_lower_iff {count : Int} (below : count < 2 ^ 31) {cells : K} :
    (∃ lower : K,
      ((-2 ^ 31 ≤ truncate lower ∧ truncate lower < 2 ^ 31) ∧
        -2 ^ 31 ≤ truncate (lower + cells) ∧
        truncate (lower + cells) < 2 ^ 31) ∧
      ¬count ≤ truncate lower ∧ ¬truncate (lower + cells) < 0) ↔
      Spans count cells := by
  constructor
  · rintro ⟨lower, ⟨lowerFits, upperFits⟩, before, behind⟩
    have inFront := le_gridEnd (mt count_le_truncate_iff.mpr before)
    have afterStart := not_le.mp (mt truncate_neg_iff.mpr behind)
    have start := (signed32_iff.mp lowerFits).1
    have stop := (signed32_iff.mp upperFits).2
    refine ⟨by omega, by linarith, ?_⟩
    push_cast at start stop ⊢
    linarith
  · rintro ⟨above, long, short⟩
    obtain ⟨aboveEnd, belowEnd⟩ := gridEnd_bounds (K := K) above below
    have room : max (-((2 ^ 31 + 1 : ℕ) : K)) (-1 - cells) <
        min (gridEnd count) ((2 ^ 31 : ℕ) - cells) := by
      apply max_lt
      · apply lt_min aboveEnd
        push_cast at short ⊢
        linarith
      · apply lt_min
        · linarith
        · push_cast
          linarith
    obtain ⟨lower, start, stop⟩ := exists_between room
    obtain ⟨fits, behind⟩ := max_lt_iff.mp start
    obtain ⟨before, upperFits⟩ := lt_min_iff.mp stop
    have upperStart : -((2 ^ 31 + 1 : ℕ) : K) < lower + cells := by
      push_cast
      linarith
    refine ⟨lower, ⟨signed32_iff.mpr ⟨fits, before.trans_le belowEnd⟩,
      signed32_iff.mpr ⟨upperStart, by linarith⟩⟩, ?_, ?_⟩
    · exact mt count_le_truncate_iff.mp (not_beginsBeyond_of_lt before)
    · exact mt truncate_neg_iff.mp (not_le.mpr (by linarith))

omit [IsStrictOrderedRing K] in
/-- A square has a place where its first corner has some indices. -/
theorem exists_square (state : MapState K)
    (nonzeroX : state.blockSize.x ≠ 0) (nonzeroY : state.blockSize.y ≠ 0)
    (left bottom side : K) :
    ∃ x y disXy, disXy + disXy = side ∧
      state.map.columnOf (x - disXy) = left ∧
      state.map.rowOf (y - disXy) = bottom := by
  refine ⟨state.blockMin.x + state.blockSize.x * left + side / 2,
    state.blockMin.y + state.blockSize.y * bottom + side / 2, side / 2,
    add_halves side, ?_, ?_⟩
  · change (state.blockMin.x + state.blockSize.x * left + side / 2 - side / 2 -
      state.blockMin.x) / state.blockSize.x = left
    rw [add_sub_cancel_right, add_sub_cancel_left, mul_div_cancel_left₀]
    exact nonzeroX
  · change (state.blockMin.y + state.blockSize.y * bottom + side / 2 -
      side / 2 - state.blockMin.y) / state.blockSize.y = bottom
    rw [add_sub_cancel_right, add_sub_cancel_left, mul_div_cancel_left₀]
    exact nonzeroY

/-- The grid has room for a square exactly if the check of some square looks at
its window. -/
theorem exists_window_iff_hasSquare {state : MapState K} :
    (∃ x y disXy window, state.map.window x y disXy = some window ∧
      ¬state.map.Outside window) ↔
      HasSquare state.blockSize state.blockCountX state.blockCountY := by
  constructor
  · rintro ⟨x, y, disXy, window, defined, inside⟩
    have sizes := sizes_of_window defined
    obtain ⟨⟨left, bottom⟩, right, top⟩ :=
      (exists_window_iff sizes.1 sizes.2).mp ⟨window, defined⟩
    obtain ⟨xiMin, yiMin, xiMax, yiMax⟩ := MapInfo.eq_of_window defined
    unfold MapInfo.Outside at inside
    rw [not_or, not_or, not_or, xiMin, yiMin, xiMax, yiMax] at inside
    obtain ⟨inFront, behind, below, above⟩ := inside
    refine ⟨sizes, disXy + disXy, ?_, ?_⟩
    · apply (exists_lower_iff state.countsFit.1).mp
      refine ⟨state.map.columnOf (x - disXy), ?_⟩
      rw [← columnOf_add]
      exact ⟨⟨left, right⟩, inFront, behind⟩
    · apply (exists_lower_iff state.countsFit.2).mp
      refine ⟨state.map.rowOf (y - disXy), ?_⟩
      rw [← rowOf_add]
      exact ⟨⟨bottom, top⟩, below, above⟩
  · rintro ⟨⟨nonzeroX, nonzeroY⟩, side, columns, rows⟩
    obtain ⟨left, ⟨leftFits, rightFits⟩, inFront, behind⟩ :=
      (exists_lower_iff state.countsFit.1).mpr columns
    obtain ⟨bottom, ⟨bottomFits, topFits⟩, below, above⟩ :=
      (exists_lower_iff state.countsFit.2).mpr rows
    obtain ⟨x, y, disXy, rfl, rfl, rfl⟩ :=
      exists_square state nonzeroX nonzeroY left bottom side
    rw [← columnOf_add] at rightFits behind
    rw [← rowOf_add] at topFits above
    obtain ⟨window, defined⟩ := (exists_window_iff nonzeroX nonzeroY).mpr
      ⟨⟨leftFits, bottomFits⟩, rightFits, topFits⟩
    obtain ⟨xiMin, yiMin, xiMax, yiMax⟩ := MapInfo.eq_of_window defined
    refine ⟨x, y, disXy, window, defined, ?_⟩
    unfold MapInfo.Outside
    rw [not_or, not_or, not_or, xiMin, yiMin, xiMax, yiMax]
    exact ⟨inFront, behind, below, above⟩

/-! ## Queries -/

variable {state : MapState K}

omit [FloorRing K] [IsStrictOrderedRing K] in
/-- A check that looks at its window does not refuse. -/
theorem MapState.lookAt_ne (state : MapState K) (z zmin : K)
    (cells : List (Int × Int)) :
    state.lookAt z zmin cells ≠ ⟨[], some .err⟩ := by
  unfold MapState.lookAt
  split
  · simp
  · split
    · simp
    · split <;> simp

omit [IsStrictOrderedRing K] in
/-- Where every window lies beside the grid, the queries refuse. -/
theorem refuses_of_forall_outside
    (outside : ∀ x y disXy window,
      state.map.window x y disXy = some window → state.map.Outside window) :
    state.Refuses := by
  have around : ∀ x y z disXy disZ query,
      state.checkBlockAround x y z disXy disZ = some query →
        query = ⟨[], some .err⟩ := by
    intro x y z disXy disZ query checks
    obtain ⟨window, defined, rfl⟩ := Option.map_eq_some_iff.mp checks
    exact if_pos (outside x y disXy window defined)
  refine ⟨around, ?_, ?_⟩
  · intro trigonometry x y z angle length disXy disZ fuel query checks
    cases fuel with
    | zero => contradiction
    | succ fuel =>
        -- the first point of the line is looked at whatever the length is
        have first : (if length < disXy then length else disXy) ≤ length := by
          split
          · exact le_refl length
          · next notLess => exact not_lt.mp notLess
        unfold MapState.checkBlockAroundLine MapState.lineLoop at checks
        rw [if_pos first] at checks
        obtain ⟨firstQuery, firstChecks, checks⟩ :=
          Option.bind_eq_some_iff.mp checks
        rw [around _ _ _ _ _ _ firstChecks, Option.some_inj] at checks
        rw [← checks]
        exact ⟨rfl, _, rfl⟩
  · intro x y query checks
    obtain ⟨xi, column, checks⟩ := Option.bind_eq_some_iff.mp checks
    obtain ⟨yi, row, rfl⟩ := Option.map_eq_some_iff.mp checks
    apply if_pos
    have defined : state.map.window x y 0 = some ⟨xi, yi, xi, yi⟩ := by
      change cellIndex state.map.blockMin.x state.map.blockSize.x x = _
        at column
      change cellIndex state.map.blockMin.y state.map.blockSize.y y = _ at row
      simp [MapInfo.window, column, row]
    have beside := outside x y 0 _ defined
    unfold MapInfo.Outside at beside
    change state.blockCountX ≤ xi ∨ xi < 0 ∨ state.blockCountY ≤ yi ∨
      yi < 0 at beside
    omega

/-- The queries refuse unless the grid has room for a square. -/
theorem refuses_iff_not_hasSquare :
    state.Refuses ↔
      ¬HasSquare state.blockSize state.blockCountX state.blockCountY := by
  rw [← exists_window_iff_hasSquare]
  constructor
  · rintro refuses ⟨x, y, disXy, window, defined, inside⟩
    apply state.lookAt_ne (0 : K) (0 - 0) (state.map.windowCells window)
    apply refuses.around x y 0 disXy 0
    unfold MapState.checkBlockAround
    rw [defined, Option.map_some, if_neg inside]
  · intro none
    apply refuses_of_forall_outside
    intro x y disXy window defined
    by_contra inside
    exact none ⟨x, y, disXy, window, defined, inside⟩

end Squares

/-! ## The load -/

section Load

variable [FloorRing K]

/-- A refused load left the grid of the first pass. -/
theorem exists_memory_of_refused {scan : Scanner K} {malloc : Int → Bool}
    {text : Text} {state : MapState K}
    (failed : getMapInfo scan malloc (some text) = .refused state) :
    ∃ layout memory,
      (MapCount.ofLines scan (fileLines text)).layout = some layout ∧
        state = layout.state memory := by
  unfold getMapInfo at failed
  simp only at failed
  split at failed
  · contradiction
  · unfold loadLines at failed
    split at failed
    · contradiction
    · next layout counted =>
        unfold Layout.allocate at failed
        split at failed
        · unfold Layout.fill at failed
          split at failed
          · contradiction
          · next loading _ =>
              split at failed
              · unfold Layout.finish at failed
                split at failed
                · split at failed <;> contradiction
                · contradiction
              · injection failed with same
                exact ⟨layout, some loading, counted, same.symm⟩
        · injection failed with same
          exact ⟨layout, none, counted, same.symm⟩

/-- There is a grid of the first pass, with room for a square. -/
def LeavesGrid (scan : Scanner K) (file : Option Text) : Prop :=
  ∃ text layout, file = some text ∧
    (MapCount.ofLines scan (fileLines text)).layout = some layout ∧
    HasSquare layout.blockSize layout.blockCountX layout.blockCountY

/-- What is left of a load that is refused. -/
def LoadResult.refusedState : LoadResult K → Option (MapState K)
  | .refused state => some state
  | _ => none

omit [Field K] [LinearOrder K] [FloorRing K] in
/-- A load that leaves a refused state is a refusal. -/
theorem LoadResult.exists_of_refusedState {result : LoadResult K}
    (isRefused : result.refusedState.isSome) :
    ∃ state, result = .refused state := by
  cases result with
  | refused state => exact ⟨state, rfl⟩
  | _ => contradiction

/-- A grid of one cell and a block whose position cannot be read. -/
def badBlockFile : Text :=
  "<block_min x=\"0\" y=\"0\" z=\"0\"/>\n".toList ++
    "<block_max x=\"10\" y=\"10\" z=\"10\"/>\n".toList ++
    "<block_size x=\"10\" y=\"10\" z=\"10\"/>\n".toList ++
    "<block id=\"0\" x=\"west\" y=\"0\" z=\"5\"/>\n".toList

theorem leavesGrid_badBlock :
    LeavesGrid decimalScanner (some badBlockFile) := by
  have computed :
      (MapCount.ofLines decimalScanner (fileLines badBlockFile)).layout.map
        (fun layout => ((layout.blockSize.x, layout.blockSize.y),
          layout.blockCountX, layout.blockCountY)) =
        some ((10, 10), 1, 1) := by
    decide +kernel
  obtain ⟨layout, counted, grid⟩ := Option.map_eq_some_iff.mp computed
  simp only [Prod.mk.injEq] at grid
  obtain ⟨⟨width, depth⟩, columns, rows⟩ := grid
  have room : Spans 1 ((0 : ℚ) / 10) := by
    refine ⟨by decide, ?_, ?_⟩ <;> norm_num [gridEnd]
  refine ⟨badBlockFile, layout, rfl, counted, ?_, 0, ?_, ?_⟩
  · rw [width, depth]
    norm_num
  · rw [columns, width]
    exact room
  · rw [rows, depth]
    exact room

end Load

end Hdmap
end Pilot2Cloud
