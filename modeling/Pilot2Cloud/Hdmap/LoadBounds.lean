import Pilot2Cloud.Hdmap.AreaOrder
import Pilot2Cloud.Hdmap.LoadSteps

/-!
# Where a map file is written to

The first pass counts every line with a node, so the nodes always have places in
their array.  An area on a line with a node is not counted, and the index of a
cell can be negative.  The number recorded for a cell fits if no area after the
127th is recorded for it.
-/

namespace Pilot2Cloud
namespace Hdmap

open Foundation

/-! ## Lines with nodes -/

section Nodes

variable {K : Type*} (scan : Scanner K)

/-- The lines that the first pass counts as nodes. -/
def nodeLines (lines : List Text) : Nat :=
  lines.countP fun line => Contains line "<node x="

theorem nodeLines_cons (line : Text) (lines : List Text) :
    nodeLines (line :: lines) = nodeLines [line] + nodeLines lines := by
  rw [nodeLines, nodeLines, nodeLines, List.countP_cons,
    List.countP_singleton, Nat.add_comm]

theorem nodeCount_store (counts : MapCount K) (set : MapXyz K → MapCount K)
    (kept : ∀ value, (set value).nodeCount = counts.nodeCount)
    (value : Option (MapXyz K)) :
    (counts.store set value).nodeCount = counts.nodeCount := by
  cases value with
  | none => rfl
  | some value => exact kept value

@[simp] theorem nodeCount_takeLine (counts : MapCount K) (line : Text) :
    (counts.takeLine scan line).nodeCount =
      counts.nodeCount + nodeLines [line] := by
  rw [nodeLines, List.countP_singleton, MapCount.takeLine]
  split
  · next isNode => simp [isNode]
  · next noNode =>
      simp only [noNode, decide_false, Bool.false_eq_true, if_false,
        Nat.add_zero]
      repeat' split
      all_goals first
        | rfl
        | exact nodeCount_store _ _ (by intro _; rfl) _

/-- The first pass counts the node lines of a file. -/
@[simp] theorem nodeCount_ofLines [Arithmetic K] (lines : List Text) :
    (MapCount.ofLines scan lines).nodeCount = nodeLines lines := by
  suffices counted : ∀ counts : MapCount K,
      (lines.foldl (MapCount.takeLine scan) counts).nodeCount =
        counts.nodeCount + nodeLines lines by
    exact (counted MapCount.initial).trans (Nat.zero_add _)
  induction lines with
  | nil => exact fun counts => rfl
  | cons line lines inductionHypothesis =>
      intro counts
      rw [List.foldl_cons, inductionHypothesis, nodeCount_takeLine,
        nodeLines_cons line lines, Nat.add_assoc]

/-- The nodes that a loop has read. -/
def Reading.nodes : Reading K → List (Option (MapXyz K))
  | .points _ nodes => nodes
  | .file | .area _ _ => []

/-- What can be found on a line outside of the other loops: nothing, an element
that is neither an area nor has nodes, or the start of another loop. -/
theorem openLine_cases (line : Text) :
    openLine scan line = .nothing ∨
      (∃ element, openLine scan line = .whole element ∧
        element.vertices = [] ∧ ∀ kind, element.isArea kind = false) ∨
      (∃ id, openLine scan line = .start (.points id [])) ∨
      ∃ kind, openLine scan line = .start (.area kind []) := by
  have area : ∀ kind, (∃ element, openArea scan kind line = .whole element ∧
        element.vertices = [] ∧ ∀ kind, element.isArea kind = false) ∨
      openArea scan kind line = .start (.area kind []) := by
    intro kind
    rw [openArea]
    cases scanInt scan kind.idFormat line with
    | none => exact .inl ⟨.unreadable, rfl, rfl, fun _ => rfl⟩
    | some id => exact .inr rfl
  rw [openLine]
  split
  · refine .inr (.inl ⟨_, rfl, ?_⟩)
    rw [blockOf]
    split
    · exact ⟨rfl, fun _ => rfl⟩
    · split <;> exact ⟨rfl, fun _ => rfl⟩
  · split
    · rw [openPoints]
      cases scanInt scan " <points id=\"" line with
      | none => exact .inr (.inl ⟨.unreadable, rfl, rfl, fun _ => rfl⟩)
      | some id => exact .inr (.inr (.inl ⟨id, rfl⟩))
    · split
      · obtain whole | start := area .restriction
        · exact .inr (.inl whole)
        · exact .inr (.inr (.inr ⟨_, start⟩))
      · split
        · obtain whole | start := area .ground
          · exact .inr (.inl whole)
          · exact .inr (.inr (.inr ⟨_, start⟩))
        · exact .inl rfl

/-- The nodes of the elements are on lines that are counted. -/
theorem length_vertices_elements (reading : Reading K) (lines : List Text) :
    ((elements scan reading lines).flatMap Element.vertices).length ≤
      reading.nodes.length + nodeLines lines := by
  induction lines generalizing reading with
  | nil =>
      cases reading with
      | file => exact Nat.zero_le _
      | points id nodes =>
          simpa [elements, Element.vertices, Reading.nodes, nodeLines] using
            List.reduceOption_length_le nodes
      | area kind members => exact Nat.zero_le _
  | cons line lines inductionHypothesis =>
      have skip := fun reading =>
        (inductionHypothesis reading).trans
          (Nat.add_le_add_left (Nat.le_add_left _ (nodeLines [line])) _)
      rw [nodeLines_cons line lines]
      cases reading with
      | file =>
          rw [elements]
          obtain opens | ⟨element, opens, none, -⟩ | ⟨id, opens⟩ |
              ⟨kind, opens⟩ :=
            openLine_cases scan line
          · rw [opens]
            exact skip .file
          · rw [opens, List.flatMap_cons, none]
            exact skip .file
          · rw [opens]
            exact skip (.points id [])
          · rw [opens]
            exact skip (.area kind [])
      | points id nodes =>
          rw [elements]
          split
          · next isNode =>
              have counted : nodeLines [line] = 1 := by
                simp [nodeLines, isNode]
              have rest := inductionHypothesis
                (.points id (nodes ++ [scanXyz scan " <node x=\"" line]))
              rw [Reading.nodes, List.length_append] at rest
              rw [counted, ← Nat.add_assoc]
              exact rest
          · split
            · rw [List.flatMap_cons, List.length_append]
              have own := List.reduceOption_length_le nodes
              exact Nat.add_le_add own (skip .file |>.trans (by
                simp [Reading.nodes]))
            · exact skip (.points id nodes)
      | area kind members =>
          rw [elements]
          split
          · exact skip (.area kind _)
          · split
            · exact skip .file
            · exact skip (.area kind members)

end Nodes

/-! ## Room in the memory -/

namespace Layout

section Memory

variable {K : Type*} (layout : Layout K)

/-- The first elements of an array are in the memory. -/
def InMemory (start size : Int) (count : Nat) : Prop :=
  count = 0 ∨ start + size * count ≤ layout.memSize

/-- The grid has no cells, or all arrays are in the memory. -/
def GridInMemory : Prop :=
  layout.blockCountX ≤ 0 ∨ layout.blockCountY ≤ 0 ∨
    layout.arraysSize ≤ layout.memSize

variable {layout} {start size : Int} {count : Nat}

/-- The first elements fit if they are not more than there are and the last one
of them is in the memory. -/
theorem forall_fits_iff (sizeNonneg : 0 ≤ size) (used : Nat) :
    (∀ k < used, layout.Fits start size count k) ↔
      used ≤ count ∧ layout.InMemory start size used := by
  constructor
  · intro fits
    cases used with
    | zero => exact ⟨Nat.zero_le _, .inl rfl⟩
    | succ k =>
        obtain ⟨-, below, inMemory⟩ := fits k (Nat.lt_succ_self k)
        refine ⟨by exact_mod_cast below, .inr ?_⟩
        exact_mod_cast inMemory
  · rintro ⟨counted, inMemory⟩ k below
    obtain none | inMemory := inMemory
    · omega
    · have places : size * (k + 1) ≤ size * used :=
        mul_le_mul_of_nonneg_left (by exact_mod_cast below) sizeNonneg
      exact ⟨Int.natCast_nonneg k, by omega, by omega⟩

/-- The place of a cell of the grid is less than the number of cells. -/
theorem cellPlace_lt {j i : Int} (rowNonneg : 0 ≤ j)
    (row : j < layout.blockCountY) (columnNonneg : 0 ≤ i)
    (column : i < layout.blockCountX) :
    0 ≤ layout.cellPlace j i ∧ layout.cellPlace j i < layout.cellCount := by
  rw [cellPlace, cellCount]
  have widthNonneg : 0 ≤ layout.blockCountX := columnNonneg.trans column.le
  have rows : (j + 1) * layout.blockCountX ≤
      layout.blockCountY * layout.blockCountX :=
    mul_le_mul_of_nonneg_right row widthNonneg
  have start : 0 ≤ j * layout.blockCountX :=
    mul_nonneg rowNonneg widthNonneg
  rw [mul_comm layout.blockCountX]
  constructor <;> linarith

theorem forall_cellFits_iff :
    (∀ j i, 0 ≤ j → j < layout.blockCountY → 0 ≤ i →
      i < layout.blockCountX → layout.CellFits j i) ↔
      layout.GridInMemory := by
  rw [GridInMemory, arraysSize]
  constructor
  · intro fits
    by_contra outside
    simp only [not_or, not_le] at outside
    obtain ⟨width, height, outside⟩ := outside
    have last := fits (layout.blockCountY - 1) (layout.blockCountX - 1)
      (by omega) (by omega) (by omega) (by omega)
    have place : layout.cellPlace (layout.blockCountY - 1)
        (layout.blockCountX - 1) + 1 = layout.cellCount := by
      rw [cellPlace, cellCount]
      ring
    have inMemory := last.le_memSize
    rw [place] at inMemory
    omega
  · intro inMemory j i rowNonneg row columnNonneg column
    obtain ⟨nonneg, below⟩ := cellPlace_lt rowNonneg row columnNonneg column
    have places : cellSize * (layout.cellPlace j i + 1) ≤
        cellSize * layout.cellCount :=
      mul_le_mul_of_nonneg_left below (by decide)
    exact ⟨nonneg, below, by omega⟩

end Memory

variable {K : Type*} [Field K] [LinearOrder K] [FloorRing K]

/-- The elements are placed, their areas are not more than were counted, and
their areas and nodes are in the memory. -/
structure Room (layout : Layout K) (elements : List (Element K)) : Prop where
  placed : ∀ element ∈ elements, layout.Placed element
  counted : ∀ kind,
    elements.countP (Element.isArea kind) ≤ layout.areaCount kind
  areasInMemory : ∀ kind, layout.InMemory (layout.areaStart kind) areaSize
    (elements.countP (Element.isArea kind))
  nodesInMemory : layout.InMemory layout.nodeStart xyzSize
    (elements.flatMap Element.vertices).length

/-- The second pass is defined if there is room for the elements that it comes
to, as all their nodes were counted. -/
theorem isSome_readElements_iff_room {layout : Layout K}
    {elements : List (Element K)}
    (nodesCounted : ((upToBadBlock elements).flatMap
      Element.vertices).length ≤ layout.nodeCount) :
    (Loading.readElements layout Loading.initial elements).isSome ↔
      layout.Room (upToBadBlock elements) := by
  rw [Loading.isSome_readElements_iff]
  have noAreas : ∀ kind,
      ((Loading.initial (K := K)).areas kind).length = 0 := fun _ => rfl
  have noNodes : (Loading.initial (K := K)).node.length = 0 := rfl
  simp only [noAreas, noNodes, Nat.zero_add, AreaFits, NodeFits]
  have areaNonneg : 0 ≤ areaSize := by decide
  have xyzNonneg : 0 ≤ xyzSize := by decide
  simp only [forall_fits_iff areaNonneg, forall_fits_iff xyzNonneg,
    nodesCounted, true_and, forall_and]
  constructor
  · rintro ⟨placed, ⟨counted, areasInMemory⟩, nodesInMemory⟩
    exact ⟨placed, counted, areasInMemory, nodesInMemory⟩
  · rintro ⟨placed, counted, areasInMemory, nodesInMemory⟩
    exact ⟨placed, ⟨counted, areasInMemory⟩, nodesInMemory⟩

end Layout

/-! ## Numbers -/

section Numbers

variable {K : Type*} [Field K] [LinearOrder K]

/-- The number recorded for a cell after area `k` has been compared with it, in
numbers without bound. -/
def numberStep (restriction : List (MapArea K)) (corner : MapArea K → Bool)
    (number : Nat) (area : MapArea K) (k : Nat) : Nat :=
  if corner area ∧
      (number = 0 ∨ area.NoFly ∨
        ∃ recorded ∈ restriction[number - 1]?,
          recorded.heightLimit < area.heightLimit) then
    k + 1
  else number

/-- The number recorded for a cell after the first areas. -/
def numberAfter (restriction : List (MapArea K)) (corner : MapArea K → Bool)
    (early : List (MapArea K)) : Nat :=
  early.zipIdx.foldl
    (fun number indexed =>
      numberStep restriction corner number indexed.1 indexed.2)
    0

/-- The number recorded for a cell at last. -/
def selectNumber (restriction : List (MapArea K))
    (corner : MapArea K → Bool) : Nat :=
  numberAfter restriction corner restriction

theorem numberAfter_append_singleton (restriction : List (MapArea K))
    (corner : MapArea K → Bool) (early : List (MapArea K))
    (area : MapArea K) :
    numberAfter restriction corner (early ++ [area]) =
      numberStep restriction corner (numberAfter restriction corner early)
        area early.length := by
  simp [numberAfter, List.zipIdx_append]

/-- A number up to 127 fits the signed byte of a cell. -/
theorem toInt_ofInt_number {number : Nat} (few : number ≤ 127) :
    (Int8.ofInt number).toInt = number := by
  apply Int8.toInt_ofInt_of_le <;> omega

/-- As long as the number recorded so far fits, the next one is recorded as it
should be, cut to eight bits. -/
theorem recordArea_ofInt {restriction : List (MapArea K)}
    {corner : MapArea K → Bool} {number : Nat} (few : number ≤ 127)
    (inArray : number ≤ restriction.length) (area : MapArea K) (k : Nat) :
    recordArea restriction corner (.ofInt number) area k =
      some (.ofInt (numberStep restriction corner number area k)) := by
  cases reaches : corner area with
  | false => simp [recordArea, numberStep, reaches]
  | true =>
      have value := toInt_ofInt_number few
      cases number with
      | zero => simp [recordArea, numberStep, reaches]
      | succ last =>
          have nonzero : Int8.ofInt (last + 1 : Nat) ≠ 0 := by
            intro zero
            rw [zero] at value
            change (0 : Int) = (last + 1 : Nat) at value
            omega
          have reads : restrictionAt restriction
              ((Int8.ofInt (last + 1 : Nat)).toInt - 1) =
                some restriction[last] := by
            rw [value, restrictionAt, if_neg (by omega)]
            simp
          by_cases noFly : area.NoFly
          · simp [recordArea, numberStep, reaches, noFly]
          · rw [recordArea_of_recorded k reaches nonzero noFly reads,
              numberStep]
            by_cases higher :
                restriction[last].heightLimit < area.heightLimit
            · rw [if_pos higher, if_pos]
              · rfl
              · exact ⟨reaches, .inr (.inr ⟨_, by simp, higher⟩)⟩
            · rw [if_neg higher, if_neg]
              rintro ⟨-, none | fly | ⟨recorded, found, limited⟩⟩
              · omega
              · exact noFly fly
              · rw [Nat.add_sub_cancel, List.getElem?_eq_getElem (by omega),
                  Option.mem_some_iff] at found
                rw [← found] at limited
                exact higher limited

theorem numberStep_cases (restriction : List (MapArea K))
    (corner : MapArea K → Bool) (number : Nat) (area : MapArea K) (k : Nat) :
    numberStep restriction corner number area k = k + 1 ∨
      numberStep restriction corner number area k = number := by
  rw [numberStep]
  split
  · exact .inl rfl
  · exact .inr rfl

/-- The number recorded for a cell is the selected one if that fits, and then it
is zero or that of an area. -/
theorem recordAreas_eq_ofInt {restriction : List (MapArea K)}
    {corner : MapArea K → Bool}
    (few : selectNumber restriction corner ≤ 127) :
    recordAreas restriction corner =
        some (.ofInt (selectNumber restriction corner)) ∧
      selectNumber restriction corner ≤ restriction.length := by
  suffices prefixes : ∀ early late, restriction = early ++ late →
      (numberAfter restriction corner early ≤ 127 →
        early.zipIdx.foldlM
          (fun number indexed =>
            recordArea restriction corner number indexed.1 indexed.2)
          0 = some (Int8.ofInt (numberAfter restriction corner early))) ∧
      numberAfter restriction corner early ≤ early.length by
    obtain ⟨records, inArray⟩ := prefixes restriction [] (by simp)
    exact ⟨records few, inArray⟩
  intro early
  induction early using List.reverseRecOn with
  | nil => exact fun _ _ => ⟨fun _ => rfl, le_rfl⟩
  | append_singleton early area inductionHypothesis =>
      intro late split
      rw [List.append_assoc] at split
      obtain ⟨records, inArray⟩ := inductionHypothesis _ split
      have shorter : early.length ≤ restriction.length := by
        rw [split]
        simp
      rw [numberAfter_append_singleton, List.length_append,
        List.length_singleton]
      have cases := numberStep_cases restriction corner
        (numberAfter restriction corner early) area early.length
      refine ⟨fun fits => ?_, by omega⟩
      have numberFits : numberAfter restriction corner early ≤ 127 := by omega
      have next : recordArea restriction corner
          (.ofInt (numberAfter restriction corner early)) area early.length =
            _ :=
        recordArea_ofInt numberFits (inArray.trans shorter) area early.length
      simp [List.zipIdx_append, records numberFits, next]

end Numbers

/-! ## The whole load -/

section Load

variable {K : Type*} [Field K] [LinearOrder K]

/-- Nothing undefined is done, and after success the number of every cell is
zero or that of an area. -/
def LoadResult.InBounds : LoadResult K → Prop
  | .fault => False
  | .loaded map => ∀ j i, map.InGrid j i →
      map.resdictionI j i = 0 ∨
        ∃ k < (map.areas .restriction).length,
          (map.resdictionI j i).toInt = k + 1
  | .endless | .refused _ => True

/-- The behaviour is undefined. -/
def LoadResult.isFault : LoadResult K → Bool
  | .fault => true
  | .endless | .refused _ | .loaded _ => false

omit [Field K] [LinearOrder K] in
/-- A load that faults leaves its memory. -/
theorem LoadResult.not_inBounds_of_isFault {result : LoadResult K}
    (fault : result.isFault = true) : ¬result.InBounds := by
  cases result with
  | fault => exact id
  | endless | refused state | loaded map => cases fault

variable [FloorRing K]

/-- A load of the file stays in its memory. -/
def StaysInBounds (scan : Scanner K) (malloc : Int → Bool)
    (file : Option Text) : Prop :=
  (getMapInfo scan malloc file).InBounds

namespace Layout

/-- If memory is allocated there is room for the elements, and for the grid
unless there is an error. -/
def Admits (layout : Layout K) (malloc : Int → Bool)
    (elements : List (Element K)) : Prop :=
  layout.mapErrCount = 0 → 0 ≤ layout.memSize → malloc layout.memSize →
    layout.Room (upToBadBlock elements) ∧
    ∀ loading, layout.Reads elements loading → layout.GridInMemory

/-- No area after the 127th is recorded for a cell. -/
def NumbersFit (layout : Layout K) (elements : List (Element K)) : Prop :=
  ∀ loading, layout.Reads elements loading →
    ∀ j i, (layout.mapInfo loading).InGrid j i →
      selectNumber (layout.mapInfo loading).restriction
        (cornerInArea (layout.mapInfo loading) j i) ≤ 127

end Layout

/-- A line is too long; or the size of the grid can be computed and there is room
for what is written to. -/
def LoadFits (scan : Scanner K) (malloc : Int → Bool) :
    Option Text → Prop
  | none => True
  | some file => Overlong file ∨
      ∃ layout, (MapCount.ofLines scan (fileLines file)).layout =
          some layout ∧
        layout.Admits malloc (elements scan .file (fileLines file))

/-- The numbers in a file fit into the layout that the file announces. -/
def NumbersFit (scan : Scanner K) : Option Text → Prop
  | none => True
  | some file => ∀ layout,
      (MapCount.ofLines scan (fileLines file)).layout = some layout →
        layout.NumbersFit (elements scan .file (fileLines file))

namespace Layout

variable {layout : Layout K} {loading : Loading K}
variable {elements : List (Element K)} {malloc : Int → Bool}

omit [FloorRing K] in
/-- Every cell fits exactly when the grid lies in the memory of the blocks. -/
theorem forall_cells_fit_iff :
    (∀ cell ∈ (layout.mapInfo loading).cells,
      layout.CellFits cell.1 cell.2) ↔ layout.GridInMemory := by
  rw [← forall_cellFits_iff]
  constructor
  · intro fits j i rowNonneg row columnNonneg column
    exact fits (j, i)
      (MapInfo.mem_cells.mpr ⟨rowNonneg, row, columnNonneg, column⟩)
  · intro fits cell mem
    obtain ⟨rowNonneg, row, columnNonneg, column⟩ := MapInfo.mem_cells.mp mem
    exact fits cell.1 cell.2 rowNonneg row columnNonneg column

omit [FloorRing K] in
/-- The grid is in the memory unless the last step is undefined. -/
theorem gridInMemory_of_inBounds
    (inBounds : (layout.finish loading).InBounds) : layout.GridInMemory := by
  rw [finish] at inBounds
  split at inBounds
  · next fits => exact forall_cells_fit_iff.mp fits
  · exact inBounds.elim

omit [FloorRing K] in
/-- The last step stays in bounds if the grid is in the memory and the numbers
fit. -/
theorem inBounds_finish (inMemory : layout.GridInMemory)
    (few : ∀ j i, (layout.mapInfo loading).InGrid j i →
      selectNumber (layout.mapInfo loading).restriction
        (cornerInArea (layout.mapInfo loading) j i) ≤ 127) :
    (layout.finish loading).InBounds := by
  have loads : setMapBlockArea (layout.mapInfo loading) =
      some (layout.mapInfo loading).withNumbers := by
    rw [setMapBlockArea_eq_some_iff]
    refine ⟨fun j i inGrid => ?_, rfl⟩
    rw [(recordAreas_eq_ofInt (few j i inGrid)).1]
    rfl
  rw [finish, if_pos (forall_cells_fit_iff.mpr inMemory), loads]
  intro j i inGrid
  obtain ⟨records, inArray⟩ := recordAreas_eq_ofInt (few j i inGrid)
  have number := recordAreas_of_loaded loads inGrid
  rw [records, Option.some_inj] at number
  have value := toInt_ofInt_number (few j i inGrid)
  rw [number] at value
  have length : (layout.mapInfo loading).restriction.length =
      (layout.areaArray loading .restriction).length := List.length_map _
  cases selected : selectNumber (layout.mapInfo loading).restriction
      (cornerInArea (layout.mapInfo loading) j i) with
  | zero =>
      rw [selected] at number
      exact .inl number.symm
  | succ k =>
      rw [selected] at value inArray
      have below : k < (layout.areaArray loading .restriction).length := by
        omega
      exact .inr ⟨k, below, by exact_mod_cast value⟩

/-- Memory is allocated exactly if there was no error and `malloc` gives it. -/
theorem inBounds_allocate_iff :
    (layout.allocate malloc elements).InBounds ↔
      (layout.mapErrCount = 0 → 0 ≤ layout.memSize →
        malloc layout.memSize → (layout.fill elements).InBounds) := by
  rw [allocate]
  split
  · next given => simp [given]
  · next refused =>
      refine iff_of_true trivial fun noError nonneg given => ?_
      exact absurd ⟨noError, nonneg, given⟩ refused

/-- A load that stays in bounds is admitted by its layout. -/
theorem admits_of_inBounds
    (nodesCounted : ((upToBadBlock elements).flatMap
      Element.vertices).length ≤ layout.nodeCount)
    (inBounds : (layout.allocate malloc elements).InBounds) :
    layout.Admits malloc elements := by
  intro noError nonneg given
  have filled := inBounds_allocate_iff.mp inBounds noError nonneg given
  rw [fill] at filled
  constructor
  · rw [← isSome_readElements_iff_room nodesCounted]
    cases reads : Loading.readElements layout Loading.initial elements with
    | none =>
        rw [reads] at filled
        exact filled.elim
    | some loading => rfl
  · rintro loading ⟨reads, clean⟩
    rw [reads] at filled
    simp only [clean, if_true] at filled
    exact gridInMemory_of_inBounds filled

/-- A load that its layout admits stays in bounds. -/
theorem inBounds_of_admits
    (nodesCounted : ((upToBadBlock elements).flatMap
      Element.vertices).length ≤ layout.nodeCount)
    (admits : layout.Admits malloc elements)
    (few : layout.NumbersFit elements) :
    (layout.allocate malloc elements).InBounds := by
  rw [inBounds_allocate_iff]
  intro noError nonneg given
  obtain ⟨room, grid⟩ := admits noError nonneg given
  have defined := (isSome_readElements_iff_room nodesCounted).mpr room
  obtain ⟨loading, reads⟩ := Option.isSome_iff_exists.mp defined
  rw [fill, reads]
  dsimp only
  split
  · next clean =>
      exact inBounds_finish (grid loading ⟨reads, clean⟩)
        (few loading ⟨reads, clean⟩)
  · trivial

end Layout

omit [Field K] [LinearOrder K] [FloorRing K] in
theorem flatMap_vertices_upToBadBlock_length_le
    (elements : List (Element K)) :
    ((upToBadBlock elements).flatMap Element.vertices).length ≤
      (elements.flatMap Element.vertices).length := by
  induction elements with
  | nil => exact le_rfl
  | cons element rest inductionHypothesis =>
      by_cases bad : element = .badBlock
      · rw [bad, upToBadBlock]
        exact Nat.zero_le _
      · rw [upToBadBlock_cons bad, List.flatMap_cons, List.flatMap_cons,
          List.length_append, List.length_append]
        exact Nat.add_le_add_left inductionHypothesis _

/-- The nodes that the second pass comes to were counted in the first. -/
theorem nodes_counted {scan : Scanner K} {lines : List Text}
    {layout : Layout K}
    (computed : (MapCount.ofLines scan lines).layout = some layout) :
    ((upToBadBlock (elements scan .file lines)).flatMap
      Element.vertices).length ≤ layout.nodeCount := by
  rw [toMapCount_of_layout computed, nodeCount_ofLines]
  have read := length_vertices_elements scan .file lines
  rw [Reading.nodes, List.length_nil, Nat.zero_add] at read
  exact (flatMap_vertices_upToBadBlock_length_le _).trans read

/-- A grid of two cells and a block on the left of it. -/
def leftBlockFile : Text :=
  "<block_min x=\"0\" y=\"0\" z=\"0\"/>\n".toList ++
    "<block_max x=\"20\" y=\"10\" z=\"10\"/>\n".toList ++
    "<block_size x=\"10\" y=\"10\" z=\"10\"/>\n".toList ++
    "<block id=\"0\" x=\"-20\" y=\"0\" z=\"5\"/>\n".toList

end Load

end Hdmap
end Pilot2Cloud
