import Pilot2Cloud.Hdmap.MapFile

/-!
# Loading a map file

`get_map_info` reads a file twice.  The first pass counts the lines of nodes and
of areas and computes the size of the grid, and one piece of memory is allocated
for the four arrays.  The second pass fills them.  Counters are numbers without
bound, as a file would need `2 ^ 31` lines to exceed them.
-/

namespace Pilot2Cloud
namespace Hdmap

open Foundation

/-! ## The first pass -/

/-- The members of `gMap` that the lines of the first pass set, without those
that are only logged, and `gu32MapErrCount`. -/
structure MapCount (K : Type*) where
  nodeCount : Nat
  resdictionCount : Nat
  groundCount : Nat
  blockMin : MapXyz K
  blockMax : MapXyz K
  blockSize : MapXyz K
  mapErrCount : Nat

/-- `gMap` with the size of the grid. -/
structure Layout (K : Type*) extends MapCount K where
  blockCountX : Int
  blockCountY : Int
  countsFit : blockCountX < 2 ^ 31 ∧ blockCountY < 2 ^ 31

namespace MapCount

variable {K : Type*}

/-- The number of areas of a kind. -/
def areaCount (counts : MapCount K) : AreaKind → Nat
  | .restriction => counts.resdictionCount
  | .ground => counts.groundCount

/-- Another error is counted. -/
def addError (counts : MapCount K) : MapCount K :=
  { counts with mapErrCount := counts.mapErrCount + 1 }

/-- Store a value that can be read. -/
def store (counts : MapCount K) (set : MapXyz K → MapCount K)
    (value : Option (MapXyz K)) : MapCount K :=
  match value with
  | none => counts.addError
  | some value => set value

/-- What the first pass makes of a line. -/
def takeLine (scan : Scanner K) (counts : MapCount K) (line : Text) :
    MapCount K :=
  if Contains line "<node x=" then
    { counts with nodeCount := counts.nodeCount + 1 }
  else if Contains line (AreaKind.opening .restriction) then
    { counts with resdictionCount := counts.resdictionCount + 1 }
  else if Contains line (AreaKind.opening .ground) then
    { counts with groundCount := counts.groundCount + 1 }
  else if Contains line "<utm_min " then
    counts.store (fun _ => counts) (scanXyz scan " <utm_min x=\"" line)
  else if Contains line "<utm_max " then
    counts.store (fun _ => counts) (scanXyz scan " <utm_max x=\"" line)
  else if Contains line "<block_min " then
    counts.store (fun value => { counts with blockMin := value })
      (scanXyz scan " <block_min x=\"" line)
  else if Contains line "<block_max " then
    counts.store (fun value => { counts with blockMax := value })
      (scanXyz scan " <block_max x=\"" line)
  else if Contains line "<block_size " then
    counts.store (fun value => { counts with blockSize := value })
      (scanXyz scan " <block_size x=\"" line)
  else counts

variable [Arithmetic K]

/-- `gMap` and `gu32MapErrCount` when the program starts. -/
def initial : MapCount K where
  nodeCount := 0
  resdictionCount := 0
  groundCount := 0
  blockMin := ⟨0, 0, 0⟩
  blockMax := ⟨0, 0, 0⟩
  blockSize := ⟨0, 0, 0⟩
  mapErrCount := 0

/-- What the first pass counts in some lines. -/
def ofLines (scan : Scanner K) (lines : List Text) : MapCount K :=
  lines.foldl (takeLine scan) initial

end MapCount

section Counts

variable {K : Type*} [Arithmetic K] [ToSigned32 K]

theorem roundedIndex_lt {origin size value : K} :
    ∀ index ∈ roundedIndex origin size value, index < 2 ^ 31 := by
  intro index defined
  rw [roundedIndex, Option.mem_def, Option.ite_none_left_eq_some] at defined
  exact (ToSigned32.fits _ index defined.2).2

/-- The number of cells in one direction. -/
def blockCount (origin size upper : K) :
    Option { count : Int // count < 2 ^ 31 } :=
  (roundedIndex origin size upper).pmap Subtype.mk roundedIndex_lt

/-- The end of the first pass, undefined if a count does not fit. -/
def MapCount.layout (counts : MapCount K) : Option (Layout K) :=
  (blockCount counts.blockMin.x counts.blockSize.x counts.blockMax.x).bind
    fun countX =>
      (blockCount counts.blockMin.y counts.blockSize.y counts.blockMax.y).bind
        fun countY =>
          (roundedIndex counts.blockMin.z counts.blockSize.z
              counts.blockMax.z).map fun _ =>
            { counts with
              blockCountX := countX
              blockCountY := countY
              countsFit := ⟨countX.2, countY.2⟩ }

end Counts

/-! ## The memory -/

/-- `sizeof(PF_MAP_AREA_ST)`. -/
abbrev areaSize : Int := 136

/-- `sizeof(PF_MAP_XYZ_ST)`. -/
abbrev xyzSize : Int := 24

/-- `sizeof(PF_MAP_BLOCK_ST)`. -/
abbrev cellSize : Int := 8

/-- The size of `name` in `PF_MAP_AREA_ST`. -/
abbrev nameSize : Nat := 68

namespace Layout

variable {K : Type*} (layout : Layout K)

/-- The offset of `pstRestriction` and of `pstGround`. -/
def areaStart : AreaKind → Int
  | .restriction => 0
  | .ground => areaSize * layout.resdictionCount

/-- The offset of `pstNode`. -/
def nodeStart : Int :=
  areaSize * layout.resdictionCount + areaSize * layout.groundCount

/-- The offset of `pstBlock`. -/
def blockStart : Int :=
  layout.nodeStart + xyzSize * layout.nodeCount

/-- The number of cells. -/
def cellCount : Int :=
  layout.blockCountX * layout.blockCountY

/-- The size of the four arrays. -/
def arraysSize : Int :=
  layout.blockStart + cellSize * layout.cellCount

/-- The size that is allocated, of type `S32`. -/
def memSize : Int :=
  layout.arraysSize.bmod (2 ^ 32)

/-- An element is in its array and the array is in the memory that far. -/
structure Fits (start size count index : Int) : Prop where
  nonneg : 0 ≤ index
  lt_count : index < count
  le_memSize : start + size * (index + 1) ≤ layout.memSize

instance (start size count index : Int) :
    Decidable (layout.Fits start size count index) :=
  decidable_of_iff
    (0 ≤ index ∧ index < count ∧
      start + size * (index + 1) ≤ layout.memSize)
    ⟨fun ⟨nonneg, lt, le⟩ => ⟨nonneg, lt, le⟩,
      fun ⟨nonneg, lt, le⟩ => ⟨nonneg, lt, le⟩⟩

/-- The area has a place in the memory. -/
def AreaFits (kind : AreaKind) (k : Nat) : Prop :=
  layout.Fits (layout.areaStart kind) areaSize (layout.areaCount kind) k

/-- The node has a place in the memory. -/
def NodeFits (k : Nat) : Prop :=
  layout.Fits layout.nodeStart xyzSize layout.nodeCount k

/-- The place of `pblock[yi][xi]` in `pstBlock`. -/
def cellPlace (yi xi : Int) : Int :=
  yi * layout.blockCountX + xi

/-- The cell has a place in the memory. -/
def CellFits (yi xi : Int) : Prop :=
  layout.Fits layout.blockStart cellSize layout.cellCount
    (layout.cellPlace yi xi)

instance (kind : AreaKind) (k : Nat) : Decidable (layout.AreaFits kind k) :=
  inferInstanceAs (Decidable (layout.Fits _ _ _ _))

instance (k : Nat) : Decidable (layout.NodeFits k) :=
  inferInstanceAs (Decidable (layout.Fits _ _ _ _))

instance (yi xi : Int) : Decidable (layout.CellFits yi xi) :=
  inferInstanceAs (Decidable (layout.Fits _ _ _ _))

end Layout

/-! ## The second pass -/

/-- `PF_MAP_AREA_ST`, without the members that are only logged. -/
structure AreaRecord (K : Type*) extends MapArea K where
  extrapointsID : Int

/-- What the second pass has stored: the areas and nodes so far and the cells by
their places in `pstBlock`. -/
structure Loading (K : Type*) where
  areas : AreaKind → List (AreaRecord K)
  node : List (MapXyz K)
  block : Int → BlockHeight
  mapErrCount : Nat

/-- The variables `max_x`, `max_y`, `min_x` and `min_y`. -/
structure Extent (K : Type*) where
  maxX : K
  maxY : K
  minX : K
  minY : K

namespace Loading

section Areas

variable {K : Type*}

/-- Another error is counted. -/
def addError (loading : Loading K) : Loading K :=
  { loading with mapErrCount := loading.mapErrCount + 1 }

/-- An area with the errors counted so far, after one of its lines; undefined if
the name does not fit into the area. -/
def setMember (progress : AreaRecord K × Nat) :
    Member K → Option (AreaRecord K × Nat)
  | .name (some scName) =>
      if scName.length < nameSize then some progress else none
  | .type (some _) => some progress
  | .heightLimit (some heightLimit) =>
      some ({ progress.1 with heightLimit := heightLimit }, progress.2)
  | .extraPoints (some ref) =>
      some ({ progress.1 with extrapointsID := ref }, progress.2)
  | .name none | .type none | .heightLimit none | .extraPoints none =>
      some (progress.1, progress.2 + 1)

/-- An area of a kind is complete. -/
def pushArea (loading : Loading K) (kind : AreaKind)
    (progress : AreaRecord K × Nat) : Loading K :=
  { loading with
    areas := Function.update loading.areas kind
      (loading.areas kind ++ [progress.1])
    mapErrCount := progress.2 }

end Areas

section Numbers

variable {K : Type*} [Arithmetic K]

/-- An area that was cleared. -/
def blankArea : AreaRecord K where
  nodeI := 0
  nodeCount := 0
  heightLimit := 0
  minX := 0
  minY := 0
  maxX := 0
  maxY := 0
  extrapointsID := 0

/-- The arrays when the memory was cleared. -/
def initial : Loading K where
  areas _ := []
  node := []
  block _ := ⟨0, 0⟩
  mapErrCount := 0

/-- The area in the element. -/
def takeArea (layout : Layout K) (loading : Loading K) (kind : AreaKind)
    (members : List (Member K)) : Option (Loading K) :=
  if layout.AreaFits kind (loading.areas kind).length then
    (members.foldlM setMember (blankArea, loading.mapErrCount)).map
      (loading.pushArea kind)
  else none

/-- The extent before the first node. -/
def initialExtent : Extent K where
  maxX := 0
  maxY := 0
  minX := unknownHeight
  minY := unknownHeight

/-- The extent with another node. -/
def widen (extent : Extent K) (node : MapXyz K) : Extent K where
  maxX := if extent.maxX < node.x then node.x else extent.maxX
  maxY := if extent.maxY < node.y then node.y else extent.maxY
  minX := if node.x < extent.minX then node.x else extent.minX
  minY := if node.y < extent.minY then node.y else extent.minY

/-- Store a node that can be read. -/
def storeNode (layout : Layout K) (progress : Loading K × Extent K) :
    Option (MapXyz K) → Option (Loading K × Extent K)
  | none => some (progress.1.addError, progress.2)
  | some node =>
      if layout.NodeFits progress.1.node.length then
        some ({ progress.1 with node := progress.1.node ++ [node] },
          widen progress.2 node)
      else none

/-- The area gets the nodes if it refers to them. -/
def bindArea (id : Int) (nodeI nodeCount : Nat) (extent : Extent K)
    (area : AreaRecord K) : AreaRecord K :=
  if area.extrapointsID = id then
    { area with
      nodeI := nodeI
      nodeCount := nodeCount
      maxX := extent.maxX
      maxY := extent.maxY
      minX := extent.minX
      minY := extent.minY }
  else area

/-- The number of areas that refer to the points. -/
def refersCount (loading : Loading K) (id : Int) (kind : AreaKind) : Nat :=
  ((loading.areas kind).filter fun area => area.extrapointsID = id).length

/-- Give the nodes from `nodeI` on to the areas.  The areas that get them are
counted in a variable of type `S16`. -/
def bindPoints (nodeI : Nat) (id : Int) (progress : Loading K × Extent K) :
    Loading K :=
  let loading := progress.1
  let bound : Loading K :=
    { loading with
      areas := fun kind =>
        (loading.areas kind).map
          (bindArea id nodeI (loading.node.length - nodeI) progress.2) }
  if (loading.refersCount id .restriction + loading.refersCount id .ground) %
      2 ^ 16 = 0 then
    bound.addError
  else bound

/-- The points in the element. -/
def takePoints (layout : Layout K) (loading : Loading K) (id : Int)
    (nodes : List (Option (MapXyz K))) : Option (Loading K) :=
  (nodes.foldlM (storeNode layout) (loading, initialExtent)).map
    (bindPoints loading.node.length id)

variable [ToSigned32 K]

/-- The `S32` members of a cell with a block, undefined if they do not fit. -/
def blockHeight (layout : Layout K) (z : K) : Option BlockHeight :=
  (roundedIndex layout.blockMin.z layout.blockSize.z z).bind fun zI =>
    (toSigned32 (z * (1000 : ℕ))).map fun zmaxMm =>
      ⟨.ofInt (zI + 1), .ofInt zmaxMm⟩

/-- The height of a block is stored in its cell. -/
def storeBlock (layout : Layout K) (loading : Loading K) (yi xi : Int)
    (z : K) : Option (Loading K) :=
  if layout.CellFits yi xi then
    (blockHeight layout z).map fun height =>
      { loading with
        block := Function.update loading.block (layout.cellPlace yi xi)
          height }
  else none

/-- The block in the element, which is left out if it is beyond the grid. -/
def takeBlock (layout : Layout K) (loading : Loading K)
    (position : MapXyz K) : Option (Loading K) :=
  (roundedIndex layout.blockMin.x layout.blockSize.x position.x).bind fun xi =>
    (roundedIndex layout.blockMin.y layout.blockSize.y position.y).bind
      fun yi =>
        if layout.blockCountX ≤ xi ∨ layout.blockCountY ≤ yi then some loading
        else storeBlock layout loading yi xi position.z

/-- What the second pass does for an element, undefined if it writes to a place
that is not in its array, converts a number that does not fit or calls `sscanf`
without a string. -/
def takeElement (layout : Layout K) (loading : Loading K) :
    Element K → Option (Loading K)
  | .block position => takeBlock layout loading position
  | .brokenBlock => none
  | .points id nodes => takePoints layout loading id nodes
  | .area kind members => takeArea layout loading kind members
  | .badBlock | .unreadable => some loading.addError

/-- The loop of the second pass, which a block that cannot be read ends. -/
def readElements (layout : Layout K) :
    Loading K → List (Element K) → Option (Loading K)
  | loading, [] => some loading
  | loading, .badBlock :: _ => takeElement layout loading .badBlock
  | loading, element :: rest =>
      (takeElement layout loading element).bind fun next =>
        readElements layout next rest

end Numbers
end Loading

/-! ## The result -/

/-- The global variables after `get_map_info` has failed.  Without memory
`pstBlock` is a null pointer. -/
structure MapState (K : Type*) where
  blockMin : MapXyz K
  blockSize : MapXyz K
  blockCountX : Int
  blockCountY : Int
  countsFit : blockCountX < 2 ^ 31 ∧ blockCountY < 2 ^ 31
  memory : Option (Loading K)

/-- A map that was loaded, with the arrays of areas. -/
structure LoadedFile (K : Type*) extends LoadedMap K where
  areas : AreaKind → List (AreaRecord K)

/-- What becomes of a load. -/
inductive LoadResult (K : Type*)
  /-- A line is too long and the first pass does not end. -/
  | endless
  /-- The behaviour is undefined. -/
  | fault
  /-- `RET_ERR` -/
  | refused (state : MapState K)
  /-- `RET_OK` -/
  | loaded (map : LoadedFile K)

section Load

variable {K : Type*} [Arithmetic K]

/-- The counts of a grid without cells. -/
theorem noCells_countsFit : (0 : Int) < 2 ^ 31 ∧ (0 : Int) < 2 ^ 31 := by
  decide

/-- The map before the first load. -/
def MapState.initial : MapState K where
  blockMin := ⟨0, 0, 0⟩
  blockSize := ⟨0, 0, 0⟩
  blockCountX := 0
  blockCountY := 0
  countsFit := noCells_countsFit
  memory := none

namespace Layout

variable (layout : Layout K)

/-- The state of the map with the layout and what the memory holds. -/
def state (memory : Option (Loading K)) : MapState K where
  blockMin := layout.blockMin
  blockSize := layout.blockSize
  blockCountX := layout.blockCountX
  blockCountY := layout.blockCountY
  countsFit := layout.countsFit
  memory := memory

/-- An array of areas.  Areas that were counted and not stored are clear. -/
def areaArray (loading : Loading K) (kind : AreaKind) :
    List (AreaRecord K) :=
  loading.areas kind ++
    List.replicate (layout.areaCount kind - (loading.areas kind).length)
      Loading.blankArea

/-- The map before the areas are recorded for the cells. -/
def mapInfo (loading : Loading K) : MapInfo K where
  blockMin := layout.blockMin
  blockSize := layout.blockSize
  blockCountX := layout.blockCountX
  blockCountY := layout.blockCountY
  countsFit := layout.countsFit
  node := loading.node
  restriction :=
    (layout.areaArray loading .restriction).map AreaRecord.toMapArea
  block j i := loading.block (layout.cellPlace j i)

/-- The areas are recorded for the cells, which must all be in the memory. -/
def finish (loading : Loading K) : LoadResult K :=
  if ∀ cell ∈ (layout.mapInfo loading).cells,
      layout.CellFits cell.1 cell.2 then
    match setMapBlockArea (layout.mapInfo loading) with
    | none => .fault
    | some map =>
        .loaded { map with areas := layout.areaArray loading }
  else .fault

variable [ToSigned32 K]

/-- The second pass. -/
def fill (elements : List (Element K)) : LoadResult K :=
  match Loading.readElements layout Loading.initial elements with
  | none => .fault
  | some loading =>
      if loading.mapErrCount = 0 then layout.finish loading
      else .refused (layout.state (some loading))

/-- Memory is asked for, which is never given for a negative size. -/
def allocate (malloc : Int → Bool) (elements : List (Element K)) :
    LoadResult K :=
  if layout.mapErrCount = 0 ∧ 0 ≤ layout.memSize ∧
      malloc layout.memSize then
    layout.fill elements
  else .refused (layout.state none)

end Layout

variable [ToSigned32 K]

/-- Both passes over some lines. -/
def loadLines (scan : Scanner K) (malloc : Int → Bool) (lines : List Text) :
    LoadResult K :=
  match (MapCount.ofLines scan lines).layout with
  | none => .fault
  | some layout => layout.allocate malloc (elements scan .file lines)

/-- `get_map_info` on a file, if it can be opened. -/
def getMapInfo (scan : Scanner K) (malloc : Int → Bool) :
    Option Text → LoadResult K
  | none => .refused MapState.initial
  | some file =>
      if Overlong file then .endless
      else loadLines scan malloc (fileLines file)

end Load

end Hdmap
end Pilot2Cloud
