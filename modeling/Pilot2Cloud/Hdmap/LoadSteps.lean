import Pilot2Cloud.Hdmap.MapLoad

/-!
# What an element of a map file adds

Each element adds an area, some nodes or the height of a cell.  The places that
it writes to depend only on the numbers of areas and nodes before it, so where a
whole file is written to is known from its elements.
-/

namespace Pilot2Cloud
namespace Hdmap

open Foundation

namespace Element

variable {K : Type*}

/-- The nodes of a list of points that can be read. -/
def vertices : Element K → List (MapXyz K)
  | .points _ nodes => nodes.reduceOption
  | _ => []

/-- The element is an area of the kind. -/
def isArea (kind : AreaKind) : Element K → Bool
  | .area own _ => own = kind
  | _ => false

end Element

namespace Layout

variable {K : Type*} [Arithmetic K] [ToSigned32 K]

/-- The block is beyond the far edges of the grid, or it has a cell and a height
that fits. -/
def BlockPlaced (layout : Layout K) (position : MapXyz K) : Prop :=
  ∃ xi yi,
    roundedIndex layout.blockMin.x layout.blockSize.x position.x = some xi ∧
    roundedIndex layout.blockMin.y layout.blockSize.y position.y = some yi ∧
    (layout.blockCountX ≤ xi ∨ layout.blockCountY ≤ yi ∨
      layout.CellFits yi xi ∧
        (Loading.blockHeight layout position.z).isSome)

/-- What an element needs, apart from room for its area and its nodes. -/
def Placed (layout : Layout K) : Element K → Prop
  | .block position => layout.BlockPlaced position
  | .brokenBlock => False
  | .area _ members =>
      ∀ scName, .name (some scName) ∈ members → scName.length < nameSize
  | .points _ _ | .badBlock | .unreadable => True

end Layout

/-- A fold whose steps are undefined for some elements is defined if none of
them is among the elements. -/
theorem isSome_foldlM_iff {State Element : Type*}
    {step : State → Element → Option State} {Defined : Element → Prop}
    (defined : ∀ state element, (step state element).isSome ↔ Defined element)
    {elements : List Element} {state : State} :
    (elements.foldlM step state).isSome ↔
      ∀ element ∈ elements, Defined element := by
  induction elements generalizing state with
  | nil => simp
  | cons element elements inductionHypothesis =>
      have first := defined state element
      rw [List.foldlM_cons, List.forall_mem_cons, ← first]
      cases step state element with
      | none => simp
      | some next =>
          rw [Option.bind_eq_bind, Option.bind_some, inductionHypothesis]
          simp

theorem forall_lt_add_iff {Holds : Nat → Prop} {start first second : Nat} :
    (∀ k < first + second, Holds (start + k)) ↔
      (∀ k < first, Holds (start + k)) ∧
        ∀ k < second, Holds (start + first + k) := by
  constructor
  · intro all
    constructor
    · intro k below
      exact all k (by omega)
    · intro k below
      rw [Nat.add_assoc]
      exact all (first + k) (by omega)
  · rintro ⟨early, late⟩ k below
    by_cases small : k < first
    · exact early k small
    · have split : start + first + (k - first) = start + k := by omega
      rw [← split]
      exact late (k - first) (by omega)

/-- A good element is read, and reading goes on. -/
theorem upToBadBlock_cons {K : Type*} {element : Element K}
    {rest : List (Element K)} (good : element ≠ .badBlock) :
    upToBadBlock (element :: rest) = element :: upToBadBlock rest := by
  cases element with
  | badBlock => exact absurd rfl good
  | _ => rfl

namespace Loading

/-! ## Areas -/

section Areas

variable {K : Type*}

/-- An area is pushed behind the areas of its kind. -/
theorem areas_pushArea (loading : Loading K) (own : AreaKind)
    (progress : AreaRecord K × Nat) (kind : AreaKind) :
    (loading.pushArea own progress).areas kind =
      loading.areas kind ++ if kind = own then [progress.1] else [] := by
  rw [pushArea]
  by_cases same : kind = own
  · subst same
    simp
  · simp [same]

theorem isSome_setMember_iff (progress : AreaRecord K × Nat)
    (member : Member K) :
    (setMember progress member).isSome ↔
      ∀ scName, member = .name (some scName) → scName.length < nameSize := by
  cases member with
  | name val =>
      cases val with
      | none => simp [setMember]
      | some scName => simp [setMember]
  | type val => cases val <;> simp [setMember]
  | heightLimit val => cases val <;> simp [setMember]
  | extraPoints ref => cases ref <;> simp [setMember]

theorem isSome_foldlM_setMember_iff {members : List (Member K)}
    (progress : AreaRecord K × Nat) :
    (members.foldlM setMember progress).isSome ↔
      ∀ scName, .name (some scName) ∈ members →
        scName.length < nameSize := by
  rw [isSome_foldlM_iff isSome_setMember_iff]
  constructor
  · intro short scName mem
    exact short _ mem scName rfl
  · rintro short _ mem scName rfl
    exact short scName mem

end Areas

/-! ## Nodes -/

section Nodes

variable {K : Type*} [Arithmetic K] {layout : Layout K}

/-- The nodes stored, the errors counted and the extent after some lines. -/
def afterNodes (progress : Loading K × Extent K)
    (nodes : List (Option (MapXyz K))) : Loading K × Extent K :=
  ({ progress.1 with
      node := progress.1.node ++ nodes.reduceOption
      mapErrCount := progress.1.mapErrCount + nodes.countP Option.isNone },
    nodes.reduceOption.foldl widen progress.2)

/-- The nodes of a list of points are stored if there is a place for each. -/
theorem foldlM_storeNode_eq {nodes : List (Option (MapXyz K))}
    {progress : Loading K × Extent K} :
    nodes.foldlM (storeNode layout) progress =
      if ∀ k < nodes.reduceOption.length,
          layout.NodeFits (progress.1.node.length + k) then
        some (afterNodes progress nodes)
      else none := by
  induction nodes generalizing progress with
  | nil => simp [afterNodes]
  | cons node nodes inductionHypothesis =>
      rw [List.foldlM_cons, Option.bind_eq_bind]
      cases node with
      | none =>
          rw [storeNode, Option.bind_some, inductionHypothesis]
          simp only [List.reduceOption_cons_of_none, addError, afterNodes,
            List.countP_cons, Option.isNone_none, if_true, Nat.add_assoc,
            Nat.add_comm 1]
      | some node =>
          rw [List.reduceOption_cons_of_some, List.length_cons, storeNode]
          by_cases fits : layout.NodeFits progress.1.node.length
          · rw [if_pos fits, Option.bind_some, inductionHypothesis]
            have places :
                (∀ k < nodes.reduceOption.length,
                  layout.NodeFits ((progress.1.node ++ [node]).length + k)) ↔
                ∀ k < nodes.reduceOption.length + 1,
                  layout.NodeFits (progress.1.node.length + k) := by
              rw [List.length_append, List.length_singleton]
              constructor
              · intro rest k below
                cases k with
                | zero => exact fits
                | succ k =>
                    rw [Nat.add_comm k, ← Nat.add_assoc]
                    exact rest k (by omega)
              · intro all k below
                rw [Nat.add_assoc, Nat.add_comm 1]
                exact all (k + 1) (by omega)
            simp only [places, afterNodes, List.append_assoc,
              List.singleton_append, List.reduceOption_cons_of_some,
              List.foldl_cons, List.countP_cons, Option.isNone_some,
              Bool.false_eq_true, if_false, Nat.add_zero]
          · rw [if_neg fits, Option.bind_none, if_neg]
            intro all
            exact fits (all 0 (Nat.succ_pos _))

omit [Arithmetic K] in
@[simp] theorem node_bindPoints (nodeI : Nat) (id : Int)
    (progress : Loading K × Extent K) :
    (bindPoints nodeI id progress).node = progress.1.node := by
  rw [bindPoints]
  split <;> rfl

omit [Arithmetic K] in
@[simp] theorem block_bindPoints (nodeI : Nat) (id : Int)
    (progress : Loading K × Extent K) :
    (bindPoints nodeI id progress).block = progress.1.block := by
  rw [bindPoints]
  split <;> rfl

omit [Arithmetic K] in
theorem areas_bindPoints (nodeI : Nat) (id : Int)
    (progress : Loading K × Extent K) (kind : AreaKind) :
    (bindPoints nodeI id progress).areas kind =
      (progress.1.areas kind).map
        (bindArea id nodeI (progress.1.node.length - nodeI) progress.2) := by
  rw [bindPoints]
  split <;> rfl

omit [Arithmetic K] in
@[simp] theorem length_areas_bindPoints (nodeI : Nat) (id : Int)
    (progress : Loading K × Extent K) (kind : AreaKind) :
    ((bindPoints nodeI id progress).areas kind).length =
      (progress.1.areas kind).length := by
  rw [areas_bindPoints, List.length_map]

end Nodes

/-! ## Elements -/

section Elements

variable {K : Type*} [Arithmetic K] {layout : Layout K}
variable {loading next : Loading K}

theorem isSome_takeArea_iff {own : AreaKind} {members : List (Member K)} :
    (takeArea layout loading own members).isSome ↔
      layout.AreaFits own (loading.areas own).length ∧
        ∀ scName, .name (some scName) ∈ members →
          scName.length < nameSize := by
  rw [takeArea,
    ← isSome_foldlM_setMember_iff (blankArea, loading.mapErrCount)]
  split
  · next fits => rw [Option.isSome_map, and_iff_right fits]
  · next full => simp [full]

/-- The places of a list are taken exactly when each of them fits the nodes of
the file. -/
theorem isSome_takePoints_iff {id : Int} {nodes : List (Option (MapXyz K))} :
    (takePoints layout loading id nodes).isSome ↔
      ∀ k < nodes.reduceOption.length,
        layout.NodeFits (loading.node.length + k) := by
  rw [takePoints, foldlM_storeNode_eq, Option.isSome_map]
  split
  · next fits => simpa using fits
  · next full => simpa using full

/-- The area is pushed behind the others and nothing else is stored. -/
theorem eq_of_takeArea {own : AreaKind} {members : List (Member K)}
    (takes : takeArea layout loading own members = some next) :
    ∃ progress, members.foldlM setMember (blankArea, loading.mapErrCount) =
        some progress ∧
      next = loading.pushArea own progress := by
  rw [takeArea, Option.ite_none_right_eq_some, Option.map_eq_some_iff] at takes
  obtain ⟨-, progress, read, pushed⟩ := takes
  exact ⟨progress, read, pushed.symm⟩

theorem eq_of_takePoints {id : Int} {nodes : List (Option (MapXyz K))}
    (takes : takePoints layout loading id nodes = some next) :
    next = bindPoints loading.node.length id
      (afterNodes (loading, initialExtent) nodes) := by
  rw [takePoints, foldlM_storeNode_eq, Option.map_eq_some_iff] at takes
  obtain ⟨progress, stored, bound⟩ := takes
  rw [Option.ite_none_right_eq_some, Option.some_inj] at stored
  rw [← bound, ← stored.2]

variable [ToSigned32 K]

/-- A block changes nothing but a cell. -/
theorem eq_of_takeBlock {position : MapXyz K}
    (takes : takeBlock layout loading position = some next) :
    ∃ block, next = { loading with block := block } := by
  simp only [takeBlock, Option.bind_eq_some_iff] at takes
  obtain ⟨xi, -, yi, -, takes⟩ := takes
  split at takes
  · cases takes
    exact ⟨loading.block, rfl⟩
  · rw [storeBlock, Option.ite_none_right_eq_some,
      Option.map_eq_some_iff] at takes
    obtain ⟨-, height, -, rfl⟩ := takes
    exact ⟨_, rfl⟩

/-- A block is taken exactly when it has its place in the grid. -/
theorem isSome_takeBlock_iff {position : MapXyz K} :
    (takeBlock layout loading position).isSome ↔
      layout.BlockPlaced position := by
  rw [takeBlock, Layout.BlockPlaced]
  cases roundedIndex layout.blockMin.x layout.blockSize.x position.x with
  | none => simp
  | some xi =>
      cases roundedIndex layout.blockMin.y layout.blockSize.y position.y with
      | none => simp
      | some yi =>
          simp only [Option.bind_some, Option.some.injEq, exists_and_left,
            exists_eq_left']
          rw [← or_assoc]
          split
          · next beyond => simp [beyond]
          · next inside =>
              rw [storeBlock, or_iff_right inside]
              split
              · next fits => rw [Option.isSome_map, and_iff_right fits]
              · next outside => simp [outside]

/-- An element is defined if it is placed and there is room for its area and its
nodes behind the ones that are stored. -/
theorem isSome_takeElement_iff (layout : Layout K) (loading : Loading K)
    (element : Element K) :
    (takeElement layout loading element).isSome ↔
      layout.Placed element ∧
      (∀ kind, element.isArea kind →
        layout.AreaFits kind (loading.areas kind).length) ∧
      ∀ k < element.vertices.length,
        layout.NodeFits (loading.node.length + k) := by
  cases element with
  | block position =>
      simp [takeElement, isSome_takeBlock_iff, Layout.Placed, Element.isArea,
        Element.vertices]
  | badBlock =>
      simp [takeElement, Layout.Placed, Element.isArea, Element.vertices]
  | brokenBlock => simp [takeElement, Layout.Placed]
  | points id nodes =>
      simp [takeElement, isSome_takePoints_iff, Layout.Placed,
        Element.isArea, Element.vertices]
  | area own members =>
      rw [takeElement, isSome_takeArea_iff, and_comm]
      simp [Layout.Placed, Element.isArea, Element.vertices]
  | unreadable =>
      simp [takeElement, Layout.Placed, Element.isArea, Element.vertices]

/-- An element adds its vertices to the nodes. -/
theorem node_takeElement {element : Element K}
    (takes : takeElement layout loading element = some next) :
    next.node = loading.node ++ element.vertices := by
  cases element with
  | block position =>
      obtain ⟨block, rfl⟩ := eq_of_takeBlock takes
      exact (List.append_nil _).symm
  | brokenBlock => cases takes
  | points id nodes =>
      rw [eq_of_takePoints takes, node_bindPoints]
      rfl
  | area own members =>
      obtain ⟨progress, -, rfl⟩ := eq_of_takeArea takes
      exact (List.append_nil _).symm
  | badBlock | unreadable =>
      cases takes
      exact (List.append_nil _).symm

/-- An area is added to the areas of its kind. -/
theorem length_areas_takeElement {element : Element K}
    (takes : takeElement layout loading element = some next)
    (kind : AreaKind) :
    (next.areas kind).length =
      (loading.areas kind).length + [element].countP (Element.isArea kind) := by
  cases element with
  | block position =>
      obtain ⟨block, rfl⟩ := eq_of_takeBlock takes
      rfl
  | brokenBlock => cases takes
  | points id nodes =>
      rw [eq_of_takePoints takes, length_areas_bindPoints]
      rfl
  | area own members =>
      obtain ⟨progress, -, rfl⟩ := eq_of_takeArea takes
      rw [areas_pushArea, List.length_append]
      by_cases same : kind = own
      · simp [same, Element.isArea]
      · simp [same, Ne.symm same, Element.isArea]
  | badBlock | unreadable =>
      cases takes
      rfl

/-! ## Runs -/

theorem readElements_cons {element : Element K} {rest : List (Element K)}
    (good : element ≠ .badBlock) :
    readElements layout loading (element :: rest) =
      (takeElement layout loading element).bind fun next =>
        readElements layout next rest := by
  cases element with
  | badBlock => exact absurd rfl good
  | _ => rfl

/-- The second pass is defined if every element that it comes to is placed, and
there are places for all areas and nodes of these elements. -/
theorem isSome_readElements_iff {elements : List (Element K)} :
    (readElements layout loading elements).isSome ↔
      (∀ element ∈ upToBadBlock elements, layout.Placed element) ∧
      (∀ kind,
        ∀ k < (upToBadBlock elements).countP (Element.isArea kind),
          layout.AreaFits kind ((loading.areas kind).length + k)) ∧
      ∀ k < ((upToBadBlock elements).flatMap Element.vertices).length,
        layout.NodeFits (loading.node.length + k) := by
  induction elements generalizing loading with
  | nil => simp [readElements, upToBadBlock]
  | cons element rest inductionHypothesis =>
      by_cases bad : element = .badBlock
      · rw [bad, readElements, upToBadBlock]
        simp [takeElement]
      · have first := isSome_takeElement_iff layout loading element
        rw [readElements_cons bad, upToBadBlock_cons bad,
          List.forall_mem_cons, List.flatMap_cons, List.length_append]
        cases taken : takeElement layout loading element with
        | none =>
            rw [taken] at first
            constructor
            · intro impossible
              cases impossible
            · rintro ⟨⟨placed, -⟩, areaRoom, nodeRoom⟩
              refine first.mpr ⟨placed, ?_, ?_⟩
              · intro kind isArea
                apply areaRoom kind 0
                simp [isArea]
              · intro k below
                exact nodeRoom k (by omega)
        | some next =>
            rw [taken] at first
            obtain ⟨placed, ownArea, ownNodes⟩ := first.mp rfl
            rw [Option.bind_some, inductionHypothesis, node_takeElement taken,
              List.length_append, forall_lt_add_iff, and_iff_right placed,
              and_iff_right ownNodes]
            apply and_congr_right
            intro _
            apply and_congr_left
            intro _
            apply forall_congr'
            intro kind
            have split : (element :: upToBadBlock rest).countP
                (Element.isArea kind) =
                  [element].countP (Element.isArea kind) +
                    (upToBadBlock rest).countP (Element.isArea kind) := by
              rw [List.countP_cons, List.countP_singleton, Nat.add_comm]
            rw [length_areas_takeElement taken, split, forall_lt_add_iff,
              iff_and_self]
            intro _ k below
            cases isArea : element.isArea kind with
            | false => simp [isArea] at below
            | true =>
                rw [List.countP_singleton, if_pos isArea] at below
                rw [Nat.lt_one_iff.mp below]
                exact ownArea kind isArea

end Elements

end Loading

/-! ## Loaded maps -/

section Load

variable {K : Type*} [Arithmetic K] [ToSigned32 K]

/-- The layout keeps the counts of the first pass. -/
theorem toMapCount_of_layout {counts : MapCount K} {layout : Layout K}
    (computed : counts.layout = some layout) :
    layout.toMapCount = counts := by
  simp only [MapCount.layout, Option.bind_eq_some_iff,
    Option.map_eq_some_iff] at computed
  obtain ⟨countX, -, countY, -, countZ, -, rfl⟩ := computed
  rfl

namespace Layout

/-- The second pass ends without an error, with this stored. -/
def Reads (layout : Layout K) (elements : List (Element K))
    (loading : Loading K) : Prop :=
  Loading.readElements layout Loading.initial elements = some loading ∧
    loading.mapErrCount = 0

end Layout

/-- The file is loaded. -/
def LoadResult.isLoaded {K : Type*} : LoadResult K → Bool
  | .loaded _ => true
  | .endless | .fault | .refused _ => false

theorem LoadResult.exists_of_isLoaded {K : Type*} {result : LoadResult K}
    (loaded : result.isLoaded = true) : ∃ map, result = .loaded map := by
  cases result with
  | loaded map => exact ⟨map, rfl⟩
  | endless | fault | refused state => cases loaded

/-- How a file was loaded. -/
structure Loads (scan : Scanner K) (malloc : Int → Bool) (file : Text)
    (layout : Layout K) (loading : Loading K) (map : LoadedFile K) : Prop where
  computed : (MapCount.ofLines scan (fileLines file)).layout = some layout
  allocated : layout.mapErrCount = 0 ∧ 0 ≤ layout.memSize ∧
    malloc layout.memSize
  reads : layout.Reads (elements scan .file (fileLines file)) loading
  cells : ∀ cell ∈ (layout.mapInfo loading).cells,
    layout.CellFits cell.1 cell.2
  recorded : setMapBlockArea (layout.mapInfo loading) =
    some map.toLoadedMap
  areas : map.areas = layout.areaArray loading

omit [ToSigned32 K] in
theorem eq_of_finish {layout : Layout K} {loading : Loading K}
    {map : LoadedFile K} (finishes : layout.finish loading = .loaded map) :
    (∀ cell ∈ (layout.mapInfo loading).cells,
        layout.CellFits cell.1 cell.2) ∧
      setMapBlockArea (layout.mapInfo loading) = some map.toLoadedMap ∧
      map.areas = layout.areaArray loading := by
  rw [Layout.finish] at finishes
  split at finishes
  · next cells =>
      split at finishes
      · cases finishes
      · next recorded =>
          cases finishes
          exact ⟨cells, recorded, rfl⟩
  · cases finishes

/-- A file that is loaded has a layout and a loading. -/
theorem loads_of_loaded {scan : Scanner K} {malloc : Int → Bool}
    {file : Text} {map : LoadedFile K}
    (loaded : getMapInfo scan malloc (some file) = .loaded map) :
    ∃ layout loading, Loads scan malloc file layout loading map := by
  rw [getMapInfo] at loaded
  split at loaded
  · cases loaded
  · rw [loadLines] at loaded
    split at loaded
    · cases loaded
    · next layout computed =>
        rw [Layout.allocate] at loaded
        split at loaded
        · next allocated =>
            rw [Layout.fill] at loaded
            split at loaded
            · cases loaded
            · next loading reads =>
                split at loaded
                · next clean =>
                    obtain ⟨cells, recorded, areas⟩ := eq_of_finish loaded
                    exact ⟨layout, loading, computed, allocated,
                      ⟨reads, clean⟩, cells, recorded, areas⟩
                · cases loaded
        · cases loaded

end Load

end Hdmap
end Pilot2Cloud
