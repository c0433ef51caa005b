import Pilot2Cloud.Hdmap.AreaOrder
import Pilot2Cloud.Hdmap.LoadSteps

/-!
# The polygons of the areas

A list of points is given to the areas before it that refer to it, in place of
what they had.  So an area has the nodes of the last such list after it, and of
no list if there is none.
-/

namespace Pilot2Cloud
namespace Hdmap

open Foundation

/-! ## References -/

namespace Element

variable {K : Type*}

/-- The vertices, if the element is a list of points with the number. -/
def pointsOf (id : Int) : Element K → Option (List (MapXyz K))
  | .points own nodes => if own = id then some nodes.reduceOption else none
  | _ => none

/-- The reference of an area after one more of its lines. -/
def refer (ref : Int) : Member K → Int
  | .extraPoints (some ref) => ref
  | _ => ref

/-- The reference of an area of the kind. -/
def reference (kind : AreaKind) : Element K → Option Int
  | .area own members => if own = kind then some (members.foldl refer 0) else none
  | _ => none

end Element

section References

variable {K : Type*}

/-- The lists of points with a number, in file order. -/
def pointsLists (id : Int) (elements : List (Element K)) :
    List (List (MapXyz K)) :=
  elements.filterMap (Element.pointsOf id)

/-- The references of the areas of a kind, with the elements after each. -/
def placedAreas (kind : AreaKind) :
    List (Element K) → List (Int × List (Element K))
  | [] => []
  | element :: rest =>
      ((element.reference kind).map (·, rest)).toList ++ placedAreas kind rest

/-- The polygon of an area of which the elements after it are given. -/
def polygonAfter (id : Int) (later : List (Element K))
    (previous : List (MapXyz K)) : List (MapXyz K) :=
  (pointsLists id later).getLast?.getD previous

/-- The references of the areas with the polygons they have, after one more
element. -/
def bindStep (kind : AreaKind) (bindings : List (Int × List (MapXyz K)))
    (element : Element K) : List (Int × List (MapXyz K)) :=
  bindings.map (fun binding =>
      (binding.1, (element.pointsOf binding.1).getD binding.2)) ++
    ((element.reference kind).map (·, [])).toList

theorem polygonAfter_cons (id : Int) (element : Element K)
    (rest : List (Element K)) (previous : List (MapXyz K)) :
    polygonAfter id (element :: rest) previous =
      polygonAfter id rest ((element.pointsOf id).getD previous) := by
  rw [polygonAfter, polygonAfter, pointsLists, List.filterMap_cons]
  cases element.pointsOf id with
  | none => rfl
  | some vertices =>
      rw [pointsLists, List.getLast?_cons, Option.getD_some, Option.getD_some]

/-- After all elements an area has the last list of points after it. -/
theorem foldl_bindStep (kind : AreaKind) (elements : List (Element K))
    (bindings : List (Int × List (MapXyz K))) :
    elements.foldl (bindStep kind) bindings =
      bindings.map (fun binding =>
          (binding.1, polygonAfter binding.1 elements binding.2)) ++
        (placedAreas kind elements).map fun placed =>
          (placed.1, polygonAfter placed.1 placed.2 []) := by
  induction elements generalizing bindings with
  | nil => simp [placedAreas, polygonAfter, pointsLists]
  | cons element rest inductionHypothesis =>
      rw [List.foldl_cons, inductionHypothesis, bindStep, List.map_append,
        List.map_map, placedAreas, List.map_append, List.append_assoc]
      congr 1
      · apply List.map_congr_left
        intro binding _
        rw [polygonAfter_cons]
        rfl
      · congr 1
        cases element.reference kind <;> rfl

/-- An element that is neither an area nor a list of points changes no
polygon. -/
theorem bindStep_of_other {kind : AreaKind}
    {bindings : List (Int × List (MapXyz K))} {element : Element K}
    (noPoints : ∀ id, element.pointsOf id = none)
    (noArea : element.reference kind = none) :
    bindStep kind bindings element = bindings := by
  simp [bindStep, noPoints, noArea]

end References

/-! ## What is stored -/

section Stored

variable {K : Type*}

/-- The area refers to the points and its nodes are the polygon. -/
structure HasPolygon (node : List (MapXyz K)) (area : AreaRecord K)
    (binding : Int × List (MapXyz K)) : Prop where
  refers : area.extrapointsID = binding.1
  inside : area.nodeI + area.nodeCount ≤ node.length
  nodes : (node.drop area.nodeI).take area.nodeCount = binding.2

/-- More nodes do not change a polygon. -/
theorem HasPolygon.append {node : List (MapXyz K)} {area : AreaRecord K}
    {binding : Int × List (MapXyz K)} (has : HasPolygon node area binding)
    (more : List (MapXyz K)) : HasPolygon (node ++ more) area binding := by
  obtain ⟨refers, inside, nodes⟩ := has
  refine ⟨refers, ?_, ?_⟩
  · rw [List.length_append]
    omega
  · rw [List.drop_append_of_le_length (by omega),
      List.take_append_of_le_length (by rw [List.length_drop]; omega), nodes]

/-- The areas that are stored have the polygons. -/
def Represents (loading : Loading K)
    (bindings : AreaKind → List (Int × List (MapXyz K))) : Prop :=
  ∀ kind, List.Forall₂ (HasPolygon loading.node) (loading.areas kind)
    (bindings kind)

/-- The lines of an area set its reference and leave its nodes. -/
theorem eq_of_setMembers {members : List (Member K)}
    {progress result : AreaRecord K × Nat}
    (reads : members.foldlM Loading.setMember progress = some result) :
    result.1.extrapointsID =
        members.foldl Element.refer progress.1.extrapointsID ∧
      result.1.nodeI = progress.1.nodeI ∧
      result.1.nodeCount = progress.1.nodeCount := by
  induction members generalizing progress with
  | nil =>
      cases reads
      exact ⟨rfl, rfl, rfl⟩
  | cons member members inductionHypothesis =>
      rw [List.foldlM_cons, Option.bind_eq_bind,
        Option.bind_eq_some_iff] at reads
      obtain ⟨next, sets, reads⟩ := reads
      obtain ⟨refers, start, count⟩ := inductionHypothesis reads
      have step : next.1.extrapointsID =
            Element.refer progress.1.extrapointsID member ∧
          next.1.nodeI = progress.1.nodeI ∧
          next.1.nodeCount = progress.1.nodeCount := by
        cases member with
        | name val =>
            cases val with
            | none =>
                cases sets
                exact ⟨rfl, rfl, rfl⟩
            | some scName =>
                rw [Loading.setMember, Option.ite_none_right_eq_some,
                  Option.some_inj] at sets
                rw [← sets.2]
                exact ⟨rfl, rfl, rfl⟩
        | type val | heightLimit val | extraPoints ref =>
            cases ‹Option _› <;> cases sets <;> exact ⟨rfl, rfl, rfl⟩
      rw [refers, start, count, step.1, step.2.1, step.2.2]
      exact ⟨rfl, rfl, rfl⟩

variable [Arithmetic K] {layout : Layout K}
variable {loading next : Loading K}
variable {bindings : AreaKind → List (Int × List (MapXyz K))}

/-- A new area has no nodes. -/
theorem hasPolygon_of_takeArea {members : List (Member K)}
    {result : AreaRecord K × Nat} {errors : Nat}
    (reads : members.foldlM Loading.setMember (Loading.blankArea, errors) =
      some result)
    (node : List (MapXyz K)) :
    HasPolygon node result.1 (members.foldl Element.refer 0, []) := by
  obtain ⟨refers, start, count⟩ := eq_of_setMembers reads
  refine ⟨refers, ?_, ?_⟩
  · rw [start, count]
    exact Nat.zero_le _
  · rw [count]
    exact List.take_zero

/-- Taking an area is one step of the bindings. -/
theorem Represents.takeArea {own : AreaKind} {members : List (Member K)}
    (represents : Represents loading bindings)
    (takes : Loading.takeArea layout loading own members = some next) :
    Represents next fun kind =>
      bindStep kind (bindings kind) (.area own members) := by
  obtain ⟨result, reads, rfl⟩ := Loading.eq_of_takeArea takes
  intro kind
  have others := represents kind
  have noPoints : ∀ id,
      (Element.area own members).pointsOf id = none := fun _ => rfl
  by_cases same : own = kind
  · subst same
    rw [Loading.areas_pushArea]
    simp only [bindStep, noPoints, Option.getD_none, List.map_id',
      Element.reference, if_true, Option.map_some, Option.toList_some]
    exact List.rel_append others
      (.cons (hasPolygon_of_takeArea reads loading.node) .nil)
  · dsimp only
    rw [bindStep_of_other noPoints (if_neg same), Loading.areas_pushArea,
      if_neg (Ne.symm same), List.append_nil]
    exact others

omit [Arithmetic K] in
/-- The areas that refer to a list of points get its vertices. -/
theorem HasPolygon.bindArea {node : List (MapXyz K)} {area : AreaRecord K}
    {binding : Int × List (MapXyz K)} (has : HasPolygon node area binding)
    (id : Int) (vertices : List (MapXyz K)) (extent : Extent K) :
    HasPolygon (node ++ vertices)
      (Loading.bindArea id node.length vertices.length extent area)
      (binding.1, if id = binding.1 then vertices else binding.2) := by
  rw [Loading.bindArea, has.refers]
  by_cases same : binding.1 = id
  · rw [if_pos same, if_pos same.symm]
    exact ⟨rfl, by simp, by simp⟩
  · rw [if_neg same, if_neg (Ne.symm same)]
    exact has.append vertices

/-- Taking a list of points is one step of the bindings. -/
theorem Represents.takePoints {id : Int} {nodes : List (Option (MapXyz K))}
    (represents : Represents loading bindings)
    (takes : Loading.takePoints layout loading id nodes = some next) :
    Represents next fun kind =>
      bindStep kind (bindings kind) (.points id nodes) := by
  rw [Loading.eq_of_takePoints takes]
  intro kind
  rw [Loading.node_bindPoints, Loading.areas_bindPoints]
  simp only [Loading.afterNodes, bindStep, Element.reference, Option.map_none,
    Option.toList_none, List.append_nil, List.length_append,
    Nat.add_sub_cancel_left]
  rw [List.forall₂_map_left_iff, List.forall₂_map_right_iff]
  apply (represents kind).imp
  intro area binding has
  have given := has.bindArea id nodes.reduceOption
    (nodes.reduceOption.foldl Loading.widen Loading.initialExtent)
  rw [Element.pointsOf]
  split
  · next same => simpa [same] using given
  · next other => simpa [other] using given

variable [ToSigned32 K]

/-- An element changes the polygons as it should. -/
theorem Represents.takeElement {element : Element K}
    (represents : Represents loading bindings)
    (takes : Loading.takeElement layout loading element = some next) :
    Represents next fun kind => bindStep kind (bindings kind) element := by
  have unchanged : (∀ id, element.pointsOf id = none) →
      (∀ kind, element.reference kind = none) →
      next.areas = loading.areas → next.node = loading.node →
      Represents next fun kind => bindStep kind (bindings kind) element := by
    intro noPoints noArea areas node kind
    dsimp only
    rw [bindStep_of_other noPoints (noArea kind), areas, node]
    exact represents kind
  cases element with
  | block position =>
      obtain ⟨block, rfl⟩ := Loading.eq_of_takeBlock takes
      exact unchanged (fun _ => rfl) (fun _ => rfl) rfl rfl
  | brokenBlock => cases takes
  | points id nodes => exact represents.takePoints takes
  | area own members => exact represents.takeArea takes
  | badBlock | unreadable =>
      cases takes
      exact unchanged (fun _ => rfl) (fun _ => rfl) rfl rfl

/-- The second pass gives the polygons to the areas if it ends without an
error. -/
theorem Represents.readElements {elements : List (Element K)}
    (represents : Represents loading bindings)
    (reads : Loading.readElements layout loading elements = some next)
    (clean : next.mapErrCount = 0) :
    Represents next fun kind => elements.foldl (bindStep kind)
      (bindings kind) := by
  induction elements generalizing loading bindings with
  | nil =>
      cases reads
      exact represents
  | cons element rest inductionHypothesis =>
      by_cases bad : element = .badBlock
      · rw [bad] at reads
        cases reads
        cases clean
      · rw [Loading.readElements_cons bad, Option.bind_eq_some_iff] at reads
        obtain ⟨middle, takes, reads⟩ := reads
        exact inductionHypothesis (represents.takeElement takes) reads

end Stored

/-! ## The whole file -/

section Load

variable {K : Type*}

/-- Some list of points has the number, all lists with the number have the same
vertices, and one of them is after the area unless they have none. -/
structure WellReferenced (elements : List (Element K)) (id : Int)
    (later : List (Element K)) : Prop where
  given : pointsLists id elements ≠ []
  agree : ∀ first ∈ pointsLists id elements,
    ∀ second ∈ pointsLists id elements, first = second
  follows : pointsLists id later ≠ [] ∨
    ∀ vertices ∈ pointsLists id elements, vertices = []

theorem polygonAfter_of_none {id : Int} {later : List (Element K)}
    (none : pointsLists id later = []) : polygonAfter id later [] = [] := by
  rw [polygonAfter, none]
  rfl

theorem polygonAfter_mem {id : Int} {later : List (Element K)}
    (some : pointsLists id later ≠ []) (previous : List (MapXyz K)) :
    polygonAfter id later previous ∈ pointsLists id later := by
  rw [polygonAfter, List.getLast?_eq_some_getLast some]
  exact List.getLast_mem some

/-- An area is well referenced if all lists with its number have the vertices
that it gets. -/
theorem wellReferenced_iff {elements later : List (Element K)} {id : Int}
    (suffix : later <:+ elements) :
    WellReferenced elements id later ↔
      pointsLists id elements ≠ [] ∧
        ∀ vertices ∈ pointsLists id elements,
          polygonAfter id later [] = vertices := by
  have sublist : pointsLists id later <:+ pointsLists id elements :=
    suffix.filterMap _
  constructor
  · rintro ⟨given, agree, follows⟩
    refine ⟨given, fun vertices mem => ?_⟩
    by_cases none : pointsLists id later = []
    · rw [polygonAfter_of_none none]
      obtain some | empty := follows
      · exact absurd none some
      · exact (empty vertices mem).symm
    · exact agree _ (sublist.subset (polygonAfter_mem none [])) vertices mem
  · rintro ⟨given, all⟩
    refine ⟨given, fun first firstMem second secondMem => ?_, ?_⟩
    · rw [← all first firstMem, all second secondMem]
    · by_cases none : pointsLists id later = []
      · right
        intro vertices mem
        rw [← all vertices mem, polygonAfter_of_none none]
      · exact .inl none

theorem suffix_of_mem_placedAreas {kind : AreaKind}
    {elements : List (Element K)} {placed : Int × List (Element K)}
    (mem : placed ∈ placedAreas kind elements) : placed.2 <:+ elements := by
  induction elements with
  | nil => cases mem
  | cons element rest inductionHypothesis =>
      rw [placedAreas, List.mem_append] at mem
      obtain own | mem := mem
      · rw [Option.mem_toList, Option.map_eq_some_iff] at own
        obtain ⟨id, -, rfl⟩ := own
        exact List.suffix_cons element rest
      · exact (inductionHypothesis mem).trans (List.suffix_cons element rest)

/-- The areas of the array: those that were read and those that were only
counted, which have no element after them and refer to number zero. -/
def arrayAreas (counts : MapCount K) (kind : AreaKind)
    (elements : List (Element K)) : List (Int × List (Element K)) :=
  placedAreas kind elements ++
    List.replicate
      (counts.areaCount kind - (placedAreas kind elements).length) (0, [])

theorem suffix_of_mem_arrayAreas {counts : MapCount K} {kind : AreaKind}
    {elements : List (Element K)} {placed : Int × List (Element K)}
    (mem : placed ∈ arrayAreas counts kind elements) :
    placed.2 <:+ elements := by
  rw [arrayAreas, List.mem_append] at mem
  obtain read | blank := mem
  · exact suffix_of_mem_placedAreas read
  · rw [List.eq_of_mem_replicate blank]
    exact List.nil_suffix

/-- Every area of the arrays is well referenced. -/
def PointsFollow (counts : MapCount K) (elements : List (Element K)) : Prop :=
  ∀ kind, ∀ placed ∈ arrayAreas counts kind elements,
    WellReferenced elements placed.1 placed.2

instance [DecidableEq K] (elements : List (Element K)) (id : Int)
    (later : List (Element K)) :
    Decidable (WellReferenced elements id later) :=
  decidable_of_iff
    (pointsLists id elements ≠ [] ∧
      (∀ first ∈ pointsLists id elements,
        ∀ second ∈ pointsLists id elements, first = second) ∧
      (pointsLists id later ≠ [] ∨
        ∀ vertices ∈ pointsLists id elements, vertices = []))
    ⟨fun ⟨given, agree, follows⟩ => ⟨given, agree, follows⟩,
      fun ⟨given, agree, follows⟩ => ⟨given, agree, follows⟩⟩

instance [DecidableEq K] (counts : MapCount K) (elements : List (Element K)) :
    Decidable (PointsFollow counts elements) :=
  decidable_of_iff
    (∀ kind ∈ [AreaKind.restriction, .ground],
      ∀ placed ∈ arrayAreas counts kind elements,
        WellReferenced elements placed.1 placed.2)
    ⟨fun follow kind => follow kind (by cases kind <;> decide),
      fun follow kind _ => follow kind⟩

/-- Every area of the arrays refers to a list of points, and its nodes are the
vertices of each list that it refers to. -/
def BindsPolygons (elements : List (Element K)) (map : LoadedFile K) : Prop :=
  ∀ kind, ∀ area ∈ map.areas kind,
    pointsLists area.extrapointsID elements ≠ [] ∧
    ∀ vertices ∈ pointsLists area.extrapointsID elements,
      map.polygon area.toMapArea = vertices

theorem forall_mem_iff_of_forall₂ {α β : Type*} {Related : α → β → Prop}
    {First : α → Prop} {Second : β → Prop}
    (transfer : ∀ first second, Related first second →
      (First first ↔ Second second))
    {firsts : List α} {seconds : List β}
    (related : List.Forall₂ Related firsts seconds) :
    (∀ first ∈ firsts, First first) ↔ ∀ second ∈ seconds, Second second := by
  induction related with
  | nil => simp
  | cons head tail inductionHypothesis =>
      rw [List.forall_mem_cons, List.forall_mem_cons, transfer _ _ head,
        inductionHypothesis]

variable [Arithmetic K] [ToSigned32 K]
variable {scan : Scanner K} {malloc : Int → Bool} {file : Text}
variable {layout : Layout K} {loading : Loading K} {map : LoadedFile K}

omit [Arithmetic K] [ToSigned32 K] in
theorem represents_initial :
    Represents (Loading.initial : Loading K) fun _ => [] :=
  fun _ => .nil

/-- In a map that was loaded the areas of an array have the polygons of the last
lists of points after them. -/
theorem areas_have_polygons
    (loads : Loads scan malloc file layout loading map) (kind : AreaKind) :
    List.Forall₂ (HasPolygon map.node) (map.areas kind)
      ((arrayAreas (MapCount.ofLines scan (fileLines file)) kind
        (elements scan .file (fileLines file))).map fun placed =>
          (placed.1, polygonAfter placed.1 placed.2 [])) := by
  have represents := represents_initial.readElements loads.reads.1
    loads.reads.2 kind
  dsimp only at represents
  rw [foldl_bindStep, List.map_nil, List.nil_append] at represents
  have nodes : map.node = loading.node := by
    rw [toMapInfo_of_loaded loads.recorded]
    rfl
  have counts := toMapCount_of_layout loads.computed
  have length := represents.length_eq
  rw [List.length_map] at length
  rw [loads.areas, nodes, Layout.areaArray, arrayAreas, List.map_append,
    ← counts, ← length, List.map_replicate]
  apply List.rel_append represents
  apply List.forall₂_iff_get.mpr
  refine ⟨by simp, fun k below _ => ?_⟩
  simp only [List.get_eq_getElem, List.getElem_replicate]
  exact ⟨rfl, Nat.zero_le _, rfl⟩

/-- The polygons of a loaded file are bound exactly when the points follow their
areas. -/
theorem bindsPolygons_of_loads
    (loads : Loads scan malloc file layout loading map) :
    BindsPolygons (elements scan .file (fileLines file)) map ↔
      PointsFollow (MapCount.ofLines scan (fileLines file))
        (elements scan .file (fileLines file)) := by
  rw [BindsPolygons, PointsFollow]
  apply forall_congr'
  intro kind
  have polygons := areas_have_polygons loads kind
  rw [List.forall₂_map_right_iff] at polygons
  have follow : (∀ placed ∈ arrayAreas
        (MapCount.ofLines scan (fileLines file)) kind
        (elements scan .file (fileLines file)),
      WellReferenced (elements scan .file (fileLines file)) placed.1
        placed.2) ↔ _ :=
    forall₂_congr fun placed mem =>
      wellReferenced_iff (suffix_of_mem_arrayAreas mem)
  rw [follow]
  apply forall_mem_iff_of_forall₂ _ polygons
  rintro area placed ⟨refers, -, nodes⟩
  rw [refers, MapInfo.polygon, nodes]

/-- The areas of a map that was loaded have their polygons if and only if they
are well referenced. -/
theorem bindsPolygons_iff
    (loaded : getMapInfo scan malloc (some file) = .loaded map) :
    BindsPolygons (elements scan .file (fileLines file)) map ↔
      PointsFollow (MapCount.ofLines scan (fileLines file))
        (elements scan .file (fileLines file)) := by
  obtain ⟨layout, loading, loads⟩ := loads_of_loaded loaded
  exact bindsPolygons_of_loads loads

end Load

/-! ## Areas around their points -/

/-- A grid of one cell. -/
def oneCellLines : Text :=
  "<block_min x=\"0\" y=\"0\" z=\"0\"/>\n".toList ++
    "<block_max x=\"10\" y=\"10\" z=\"10\"/>\n".toList ++
    "<block_size x=\"10\" y=\"10\" z=\"10\"/>\n".toList

/-- A no-fly area with reference 7. -/
def noFlyAreaLines : Text :=
  "<restriction_area id=\"1\">\n".toList ++
    "<height_limit val=\"-1\"/>\n".toList ++
    "<extra_points ref=\"7\"/>\n".toList ++
    "</restriction_area>\n".toList

/-- A triangle around the first corner of the cell. -/
def triangleLines : Text :=
  "<points id=\"7\">\n".toList ++
    "<node x=\"-5\" y=\"-5\" z=\"0\"/>\n".toList ++
    "<node x=\"5\" y=\"-5\" z=\"0\"/>\n".toList ++
    "<node x=\"0\" y=\"5\" z=\"0\"/>\n".toList ++
    "</points>\n".toList

/-- An area before its points. -/
def areaBeforeFile : Text :=
  oneCellLines ++ noFlyAreaLines ++ triangleLines

/-- Two areas with the same points between them. -/
def pointsBetweenFile : Text :=
  oneCellLines ++ noFlyAreaLines ++ triangleLines ++ noFlyAreaLines

theorem areaBefore_loaded :
    ∃ map, getMapInfo decimalScanner (fun _ => true) (some areaBeforeFile) =
      .loaded map := by
  apply LoadResult.exists_of_isLoaded
  decide +kernel

theorem bindsPolygons_areaBefore :
    ∃ map, getMapInfo decimalScanner (fun _ => true) (some areaBeforeFile) =
        .loaded map ∧
      BindsPolygons
        (elements decimalScanner .file (fileLines areaBeforeFile)) map := by
  obtain ⟨map, loaded⟩ := areaBefore_loaded
  refine ⟨map, loaded, (bindsPolygons_iff loaded).mpr ?_⟩
  decide +kernel

/-- The second area gets no nodes. -/
theorem not_bindsPolygons_pointsBetween :
    ∃ map, getMapInfo decimalScanner (fun _ => true)
        (some pointsBetweenFile) = .loaded map ∧
      ¬BindsPolygons
        (elements decimalScanner .file (fileLines pointsBetweenFile))
        map := by
  have loaded : (getMapInfo decimalScanner (fun _ => true)
      (some pointsBetweenFile)).isLoaded = true := by
    decide +kernel
  obtain ⟨map, loaded⟩ := LoadResult.exists_of_isLoaded loaded
  refine ⟨map, loaded, ?_⟩
  obtain ⟨layout, loading, loads⟩ := loads_of_loaded loaded
  rw [bindsPolygons_of_loads loads]
  decide +kernel

end Hdmap
end Pilot2Cloud
