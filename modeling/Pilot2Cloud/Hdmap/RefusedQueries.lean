import Pilot2Cloud.Hdmap.FailedLoad

/-!
# Which queries a failed load refuses

The grid of the first pass decides about a query by the first square that it
looks at: a square beside the grid is refused, and any other one is looked up in
the memory of the load that failed.
-/

namespace Pilot2Cloud
namespace Hdmap

open Foundation

variable {K : Type*} [Field K] [LinearOrder K]

/-- A query with its arguments.  The fuel is for the loop over the line. -/
inductive MapQuery (K : Type*) [Field K]
  | around (x y z disXy disZ : K)
  | line (trigonometry : Trigonometry K) (x y z angle length disXy disZ : K)
      (fuel : Nat)
  | blockZ (x y : K)

/-- Where a query looks at first, and how far around. -/
structure Square (K : Type*) where
  x : K
  y : K
  disXy : K

/-- The same reads with another answer. -/
def Query.map {α β : Type*} (f : α → β) (query : Query α) : Query β where
  reads := query.reads
  answer := query.answer.map f

@[simp] theorem Query.reads_map {α β : Type*} (f : α → β) (query : Query α) :
    (query.map f).reads = query.reads :=
  rfl

/-- Nothing is read and the answer is `RET_ERR`. -/
def refusal : Query Bool :=
  ⟨[], some true⟩

/-- Nothing is read and the answer is `RET_ERR` under a condition, and a cell is
read otherwise. -/
structure Query.RefusedIf (result : Query Bool) (condition : Prop) : Prop where
  refused : condition → result = refusal
  reads : ¬condition → result.reads ≠ []

/-- The first square of a query. -/
def MapQuery.firstSquare : MapQuery K → Square K
  | around x y _ disXy _ => ⟨x, y, disXy⟩
  | line trigonometry x y _ angle length disXy _ _ =>
      let theta := angle * pai / halfTurn
      let curLen := if length < disXy then length else disXy
      ⟨x + curLen * trigonometry.cos theta,
        y + curLen * trigonometry.sin theta, disXy⟩
  | blockZ x y => ⟨x, y, 0⟩

/-- The first pass has found cells with an extent. -/
structure Layout.HasCells (layout : Layout K) : Prop where
  sizes : 0 < layout.blockSize.x ∧ 0 < layout.blockSize.y
  counts : 0 < layout.blockCountX ∧ 0 < layout.blockCountY

namespace MapState

variable [FloorRing K] (state : MapState K)

/-- The query, with the answer whether it is `RET_ERR`. -/
def ask : MapQuery K → Option (Query Bool)
  | .around x y z disXy disZ =>
      (state.checkBlockAround x y z disXy disZ).map
        (Query.map fun ret => decide (ret = .err))
  | .line trigonometry x y z angle length disXy disZ fuel =>
      (state.checkBlockAroundLine trigonometry x y z angle length disXy disZ
        fuel).map (Query.map fun result => decide (result.1 = .err))
  | .blockZ x y => (state.getBlockZ x y).map (Query.map Option.isNone)

/-- The square lies beside the grid. -/
def Beside (square : Square K) : Prop :=
  ∃ window, state.map.window square.x square.y square.disXy = some window ∧
    state.map.Outside window

instance (square : Square K) : Decidable (state.Beside square) :=
  decidable_of_iff
    (∃ window ∈ state.map.window square.x square.y square.disXy,
      state.map.Outside window)
    Iff.rfl

variable {state} {x y z disXy disZ : K}

theorem beside_iff {window : Window}
    (defined : state.map.window x y disXy = some window) :
    state.Beside ⟨x, y, disXy⟩ ↔ state.map.Outside window := by
  unfold Beside
  rw [defined]
  simp only [Option.some_inj, exists_eq_left']

omit [FloorRing K] in
/-- A check that looks at a cell reads it. -/
theorem reads_lookAt_ne_nil {cells : List (Int × Int)} (z zmin : K)
    (nonempty : cells ≠ []) : (state.lookAt z zmin cells).reads ≠ [] := by
  cases cells with
  | nil => exact absurd rfl nonempty
  | cons cell rest =>
      unfold lookAt
      split
      · exact List.cons_ne_nil _ _
      · split
        · exact List.cons_ne_nil _ _
        · exact List.cons_ne_nil _ _

variable [IsStrictOrderedRing K]

/-- In a grid with cells a square that does not lie beside it has cells in its
window. -/
theorem windowCells_ne_nil {window : Window}
    (sizes : 0 < state.blockSize.x ∧ 0 < state.blockSize.y)
    (counts : 0 < state.blockCountX ∧ 0 < state.blockCountY)
    (nonneg : 0 ≤ disXy)
    (defined : state.map.window x y disXy = some window)
    (inside : ¬state.map.Outside window) :
    state.map.windowCells window ≠ [] := by
  obtain ⟨left, bottom, right, top⟩ := MapInfo.eq_of_window defined
  have columns : window.xiMin ≤ window.xiMax := by
    rw [left, right]
    apply truncate_mono
    exact div_le_div_of_nonneg_right (by linarith) sizes.1.le
  have rows : window.yiMin ≤ window.yiMax := by
    rw [bottom, top]
    apply truncate_mono
    exact div_le_div_of_nonneg_right (by linarith) sizes.2.le
  have isMember : (max window.yiMin 0, max window.xiMin 0) ∈
      state.map.windowCells window := by
    change ¬(state.blockCountX ≤ window.xiMin ∨ window.xiMax < 0 ∨
      state.blockCountY ≤ window.yiMin ∨ window.yiMax < 0) at inside
    have columnCount : state.map.blockCountX = state.blockCountX := rfl
    have rowCount : state.map.blockCountY = state.blockCountY := rfl
    rw [MapInfo.mem_windowCells, columnCount, rowCount]
    omega
  exact List.ne_nil_of_mem isMember

/-- A check of one square is refused or looks at cells. -/
theorem ask_around
    (sizes : 0 < state.blockSize.x ∧ 0 < state.blockSize.y)
    (counts : 0 < state.blockCountX ∧ 0 < state.blockCountY)
    (nonneg : 0 ≤ disXy) {result : Query Bool}
    (answers : state.ask (.around x y z disXy disZ) = some result) :
    result.RefusedIf (state.Beside ⟨x, y, disXy⟩) := by
  obtain ⟨query, checks, rfl⟩ := Option.map_eq_some_iff.mp answers
  obtain ⟨window, defined, rfl⟩ := Option.map_eq_some_iff.mp checks
  rw [beside_iff defined]
  constructor
  · intro outside
    rw [if_pos outside]
    rfl
  · intro inside
    rw [if_neg inside]
    exact reads_lookAt_ne_nil z (z - disZ)
      (windowCells_ne_nil sizes counts nonneg defined inside)

omit [IsStrictOrderedRing K] in
/-- A height is refused or looked up in a cell. -/
theorem ask_blockZ {result : Query Bool}
    (answers : state.ask (.blockZ x y) = some result) :
    result.RefusedIf (state.Beside ⟨x, y, 0⟩) := by
  obtain ⟨query, checks, rfl⟩ := Option.map_eq_some_iff.mp answers
  obtain ⟨xi, column, checks⟩ := Option.bind_eq_some_iff.mp checks
  obtain ⟨yi, row, rfl⟩ := Option.map_eq_some_iff.mp checks
  have defined : state.map.window x y 0 = some ⟨xi, yi, xi, yi⟩ := by
    change cellIndex state.map.blockMin.x state.map.blockSize.x x = _ at column
    change cellIndex state.map.blockMin.y state.map.blockSize.y y = _ at row
    simp [MapInfo.window, column, row]
  have same : state.map.Outside ⟨xi, yi, xi, yi⟩ ↔ xi < 0 ∨ yi < 0 ∨
      state.blockCountX ≤ xi ∨ state.blockCountY ≤ yi := by
    change state.blockCountX ≤ xi ∨ xi < 0 ∨ state.blockCountY ≤ yi ∨
      yi < 0 ↔ _
    omega
  rw [beside_iff defined, same]
  constructor
  · intro outside
    rw [if_pos outside]
    rfl
  · intro inside
    rw [if_neg inside, Query.reads_map]
    split
    · exact List.cons_ne_nil _ _
    · exact List.cons_ne_nil _ _

/-- A line is refused or looks at cells around its first point. -/
theorem ask_line {trigonometry : Trigonometry K} {angle length : K}
    {fuel : Nat} {result : Query Bool}
    (sizes : 0 < state.blockSize.x ∧ 0 < state.blockSize.y)
    (counts : 0 < state.blockCountX ∧ 0 < state.blockCountY)
    (nonneg : 0 ≤ disXy)
    (answers : state.ask (.line trigonometry x y z angle length disXy disZ
      fuel) = some result) :
    result.RefusedIf (state.Beside (MapQuery.line trigonometry x y z angle
      length disXy disZ fuel).firstSquare) := by
  obtain ⟨query, checks, rfl⟩ := Option.map_eq_some_iff.mp answers
  cases fuel with
  | zero => contradiction
  | succ fuel =>
      -- the first point of the line is looked at whatever the length is
      have first : (if length < disXy then length else disXy) ≤ length := by
        split
        · exact le_refl length
        · next notLess => exact not_lt.mp notLess
      unfold checkBlockAroundLine lineLoop at checks
      rw [if_pos first] at checks
      obtain ⟨firstQuery, firstChecks, checks⟩ :=
        Option.bind_eq_some_iff.mp checks
      obtain ⟨window, defined, rfl⟩ := Option.map_eq_some_iff.mp firstChecks
      have square : state.Beside (MapQuery.line trigonometry x y z angle length
          disXy disZ (fuel + 1)).firstSquare ↔ state.map.Outside window :=
        beside_iff defined
      rw [square]
      constructor
      · intro outside
        rw [if_pos outside, Option.some_inj] at checks
        rw [← checks]
        rfl
      · intro inside
        rw [if_neg inside] at checks
        have reads : (state.lookAt z (z - disZ)
            (state.map.windowCells window)).reads ≠ [] :=
          reads_lookAt_ne_nil z (z - disZ)
            (windowCells_ne_nil sizes counts nonneg defined inside)
        rw [Query.reads_map]
        split at checks
        · rw [Option.some_inj] at checks
          rw [← checks]
          exact reads
        · obtain ⟨later, -, rfl⟩ := Option.map_eq_some_iff.mp checks
          exact List.append_ne_nil_of_left_ne_nil reads _
        · rw [Option.some_inj] at checks
          rw [← checks]
          exact reads

end MapState

/-- After a load that failed and has found cells, a query is refused if the
first square that it looks at lies beside them, and reads cells otherwise. -/
theorem ask_refusedIf [FloorRing K] [IsStrictOrderedRing K]
    (scan : Scanner K) (malloc : Int → Bool) (text : Text)
    (state : MapState K) (layout : Layout K)
    (failed : getMapInfo scan malloc (some text) = .refused state)
    (counted : (MapCount.ofLines scan (fileLines text)).layout = some layout)
    (hasCells : layout.HasCells) (query : MapQuery K)
    (nonneg : 0 ≤ query.firstSquare.disXy) (result : Query Bool)
    (answers : state.ask query = some result) :
    result.RefusedIf ((layout.state none).Beside query.firstSquare) := by
  obtain ⟨other, memory, otherCounted, rfl⟩ := exists_memory_of_refused failed
  rw [counted, Option.some_inj] at otherCounted
  subst otherCounted
  -- the memory makes no difference to the grid
  have sameGrid : (layout.state memory).Beside query.firstSquare ↔
      (layout.state none).Beside query.firstSquare :=
    Iff.rfl
  rw [← sameGrid]
  cases query with
  | around x y z disXy disZ =>
      exact MapState.ask_around hasCells.sizes hasCells.counts nonneg answers
  | line trigonometry x y z angle length disXy disZ fuel =>
      exact MapState.ask_line hasCells.sizes hasCells.counts nonneg answers
  | blockZ x y => exact MapState.ask_blockZ answers

/-- The grid of one cell refuses a query behind its end and answers one in its
middle. -/
theorem ask_refusedIf_badBlock :
    ∃ state, getMapInfo decimalScanner (fun _ => true) (some badBlockFile) =
        .refused state ∧
      (∀ result, state.ask (.around 25 5 20 1 1) = some result →
        result = refusal) ∧
      ∀ result, state.ask (.around 5 5 20 1 1) = some result →
        result.reads ≠ [] := by
  have isRefused :
      (getMapInfo decimalScanner (fun _ => true)
        (some badBlockFile)).refusedState.isSome := by
    decide +kernel
  obtain ⟨state, failed⟩ := LoadResult.exists_of_refusedState isRefused
  have computed :
      (MapCount.ofLines decimalScanner (fileLines badBlockFile)).layout.map
        (fun layout => ((layout.blockSize.x, layout.blockSize.y),
          (layout.blockCountX, layout.blockCountY),
          decide ((layout.state none).Beside ⟨25, 5, 1⟩),
          decide ((layout.state none).Beside ⟨5, 5, 1⟩))) =
        some ((10, 10), (1, 1), true, false) := by
    decide +kernel
  obtain ⟨layout, counted, grid⟩ := Option.map_eq_some_iff.mp computed
  simp only [Prod.mk.injEq] at grid
  obtain ⟨⟨width, depth⟩, ⟨columns, rows⟩, beside, inside⟩ := grid
  have hasCells : layout.HasCells := by
    constructor
    · rw [width, depth]
      norm_num
    · rw [columns, rows]
      norm_num
  refine ⟨state, failed, ?_, ?_⟩
  · intro result answers
    exact (ask_refusedIf _ _ _ state layout failed counted hasCells
      (.around 25 5 20 1 1) zero_le_one result answers).1
        (of_decide_eq_true beside)
  · intro result answers
    exact (ask_refusedIf _ _ _ state layout failed counted hasCells
      (.around 5 5 20 1 1) zero_le_one result answers).2
        (of_decide_eq_false inside)

end Hdmap
end Pilot2Cloud
