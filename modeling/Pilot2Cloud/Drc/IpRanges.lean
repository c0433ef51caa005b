import Pilot2Cloud.Drc.Geofencing

/-!
# Address ranges

Every address has polygons, which are set up as grids like those of the units.
A configuration that is read is added to the ones before, and the polygons of
all of them are set up again.  A query lists the addresses that have a grid
around a point.
-/

namespace Pilot2Cloud
namespace Drc

variable {D : Type}

/-- `ip_range_config_data`. -/
structure IpRangeConfigData (D : Type) where
  ulipId : String
  uldrsuId : UInt32
  pos : Point D
  polygonGeofencingList : List (Polygon D)

/-- `IP_Info`. -/
structure IpInfo (D : Type) where
  ulSubNodeId : UInt32
  dbPosx : D
  dbPosy : D
  vPolygon : List Nat

/-- The members of `Geofencing` for addresses. -/
structure IpRanges (D : Type) where
  stIPRangeConfig : List (IpRangeConfigData D)
  ipPolygonMap : AList fun _ : String => IpInfo D
  ipPolyGrid : List (Polygon D)

namespace IpRanges

/-- No ranges. -/
def new : IpRanges D where
  stIPRangeConfig := []
  ipPolygonMap := ∅
  ipPolyGrid := []

/-- The entry of an address with one more grid.  Its unit and its position stay
those of the first one. -/
def pushPolygon (data : IpRangeConfigData D) (ipPolyCnt : Nat) :
    Option (IpInfo D) → IpInfo D
  | none => ⟨data.uldrsuId, data.pos.1, data.pos.2, [ipPolyCnt]⟩
  | some info => { info with vPolygon := info.vPolygon ++ [ipPolyCnt] }

/-- One round of the loop over the polygons.  Nothing when the points are
written behind `pgon` or the grid is set up behind `IPPolyGrid`. -/
def setUpPolygon (data : IpRangeConfigData D) (ranges : IpRanges D)
    (polygon : Polygon D) : Option (IpRanges D) :=
  let ipPolyCnt := ranges.ipPolyGrid.length
  if pointMaxNumbers < polygon.length then none
  else if polygonMaxNumbers ≤ ipPolyCnt then none
  else
    some
      { ranges with
        ipPolyGrid := ranges.ipPolyGrid ++ [polygon]
        ipPolygonMap := ranges.ipPolygonMap.insert data.ulipId
          (pushPolygon data ipPolyCnt
            (ranges.ipPolygonMap.lookup data.ulipId)) }

/-- `analysisIPRangeCfgData`: enter the areas of an address, if it has any. -/
def analysisIPRangeCfgData (ranges : IpRanges D)
    (data : IpRangeConfigData D) : Option (IpRanges D) :=
  if data.polygonGeofencingList.length = 0 then some ranges
  else data.polygonGeofencingList.foldlM (setUpPolygon data) ranges

/-- `json2pb` adds the entries that it reads to those that are there. -/
def initIPRangeConfig (ranges : IpRanges D)
    (strCfg : List (IpRangeConfigData D)) : Option (IpRanges D) :=
  let stIPRangeConfig := ranges.stIPRangeConfig ++ strCfg
  stIPRangeConfig.foldlM analysisIPRangeCfgData
    { ranges with stIPRangeConfig := stIPRangeConfig }

variable (geometry : Geometry D) (ranges : IpRanges D)

/-- Is the point in one of the areas of an address? -/
def queryIPPoint (point : Point D) (ip : String) : Allocation :=
  match ranges.ipPolygonMap.lookup ip with
  | some info =>
      if info.vPolygon.any fun i =>
          geometry.gridTest (ranges.ipPolyGrid.getD i []) point
      then .allocationSuccess
      else .outOfRange
  | none => .outOfRange

/-- `QueryIPInfo`. -/
def queryIPInfo (ip : String) : Option (IpInfo D) :=
  ranges.ipPolygonMap.lookup ip

/-- The point of a query.  The result of the conversion is not looked at. -/
def queriedPoint [F64 D] (coordinateX coordinateY : D) (zone : Int) :
    Point D :=
  match Geofencing.utm2wgs84 geometry coordinateX coordinateY zone with
  | .ok point => point
  | .error _ => geometry.uninitialised

/-- The addresses are asked in the order `walk` in which the hash map has
them. -/
def queryPointInIPRange [F64 D] (walk : List String)
    (coordinateX coordinateY : D) (zone : Int) : List String :=
  let point := queriedPoint geometry coordinateX coordinateY zone
  walk.filter fun ip =>
    ranges.queryIPPoint geometry point ip = .allocationSuccess

/-- The ranges after some configurations have been read. -/
def load (configs : List (List (IpRangeConfigData D))) : Option (IpRanges D) :=
  configs.foldlM initIPRangeConfig new

/-! ## What is set up -/

/-- The polygons of some entries. -/
def polygonsOf (config : List (IpRangeConfigData D)) :
    List (IpRangeConfigData D × Polygon D) :=
  config.flatMap fun data => data.polygonGeofencingList.map (Prod.mk data)

/-- The polygons that are set up when further configurations are read. -/
def setUps (before : List (IpRangeConfigData D)) :
    List (List (IpRangeConfigData D)) →
      List (IpRangeConfigData D × Polygon D)
  | [] => []
  | config :: configs =>
      polygonsOf (before ++ config) ++ setUps (before ++ config) configs

/-- The polygons fit into the arrays. -/
def Fits (polygons : List (IpRangeConfigData D × Polygon D)) : Prop :=
  polygons.length ≤ polygonMaxNumbers ∧
    ∀ polygon ∈ polygons, polygon.2.length ≤ pointMaxNumbers

/-- The grids are the polygons, and each address has those of its entries, with
the unit and the position of the first one. -/
structure Grids (ranges : IpRanges D)
    (polygons : List (IpRangeConfigData D × Polygon D)) : Prop where
  fits : Fits polygons
  grid : ranges.ipPolyGrid = polygons.map Prod.snd
  index : ∀ ip i,
    (∃ info ∈ ranges.ipPolygonMap.lookup ip, i ∈ info.vPolygon) ↔
      ∃ polygon, polygons[i]? = some polygon ∧ polygon.1.ulipId = ip
  first : ∀ ip,
    (ranges.ipPolygonMap.lookup ip).map
        (fun info => (info.ulSubNodeId, info.dbPosx, info.dbPosy)) =
      (polygons.find? fun polygon => polygon.1.ulipId = ip).map
        fun polygon => (polygon.1.uldrsuId, polygon.1.pos)

variable {geometry ranges} {next : IpRanges D} {data : IpRangeConfigData D}
  {polygon : Polygon D}
  {polygons more : List (IpRangeConfigData D × Polygon D)}

/-- Without areas the grids are right. -/
theorem Grids.new : Grids (new : IpRanges D) [] where
  fits := ⟨Nat.zero_le _, fun _ member => absurd member List.not_mem_nil⟩
  grid := rfl
  index := by
    intro ip i
    simp [IpRanges.new]
  first := by
    intro ip
    simp [IpRanges.new]

/-- An area is entered for an address once more, or it was entered before. -/
theorem mem_pushPolygon {ipPolyCnt i : Nat} {old : Option (IpInfo D)} :
    i ∈ (pushPolygon data ipPolyCnt old).vPolygon ↔
      (∃ info ∈ old, i ∈ info.vPolygon) ∨ i = ipPolyCnt := by
  cases old with
  | none => simp [pushPolygon]
  | some info => simp [pushPolygon]

/-- A value in a list or behind it. -/
theorem getElem?_concat_iff {α : Type} {values : List α} {value last : α}
    {i : Nat} :
    (values ++ [last])[i]? = some value ↔
      values[i]? = some value ∨ i = values.length ∧ value = last := by
  rw [List.getElem?_append]
  split
  case isTrue inside => simp [inside.ne]
  case isFalse outside =>
    rw [List.getElem?_eq_none (Nat.not_lt.mp outside)]
    obtain same | later := Nat.eq_or_lt_of_le (Nat.not_lt.mp outside)
    · simp [← same, eq_comm]
    · have positive : 0 < i - values.length := Nat.sub_pos_of_lt later
      simp [positive.ne', later.ne']

/-- The next polygon, if it fits. -/
theorem Grids.setUpPolygon (grids : Grids ranges polygons)
    (fits : Fits (polygons ++ [(data, polygon)])) :
    ∃ next, ranges.setUpPolygon data polygon = some next ∧
      Grids next (polygons ++ [(data, polygon)]) ∧
      next.stIPRangeConfig = ranges.stIPRangeConfig := by
  have count : ranges.ipPolyGrid.length = polygons.length := by
    rw [grids.grid, List.length_map]
  have few : ranges.ipPolyGrid.length < polygonMaxNumbers := by
    have bound := fits.1
    rw [List.length_append, List.length_singleton] at bound
    omega
  have small : polygon.length ≤ pointMaxNumbers :=
    fits.2 (data, polygon) (by simp)
  refine ⟨{ ranges with
    ipPolyGrid := ranges.ipPolyGrid ++ [polygon]
    ipPolygonMap := ranges.ipPolygonMap.insert data.ulipId
      (pushPolygon data ranges.ipPolyGrid.length
        (ranges.ipPolygonMap.lookup data.ulipId)) }, ?_, ⟨fits, ?_, ?_, ?_⟩,
    rfl⟩
  · unfold IpRanges.setUpPolygon
    dsimp only
    rw [if_neg (Nat.not_lt.mpr small), if_neg (Nat.not_le.mpr few)]
  · simp [grids.grid]
  · intro ip i
    have old := grids.index ip i
    simp only [getElem?_concat_iff, or_and_right, exists_or, ← old]
    by_cases same : ip = data.ulipId
    · subst same
      rw [AList.lookup_insert]
      simp only [Option.mem_some_iff, exists_eq_left', mem_pushPolygon, count]
      simp
    · rw [AList.lookup_insert_ne same]
      simp [eq_comm, same]
  · intro ip
    have old := grids.first ip
    rw [List.find?_append, List.find?_singleton]
    by_cases same : ip = data.ulipId
    · subst same
      rw [AList.lookup_insert]
      cases found : ranges.ipPolygonMap.lookup data.ulipId with
      | none =>
          rw [found] at old
          rw [Option.map_eq_none_iff.mp old.symm]
          simp [pushPolygon]
      | some info =>
          rw [found] at old
          obtain ⟨polygon, isFirst, same⟩ := Option.map_eq_some_iff.mp old.symm
          rw [isFirst]
          simp [pushPolygon, same]
    · rw [AList.lookup_insert_ne same, old]
      simp [Ne.symm same]

/-- An area that is set up fits. -/
theorem Grids.fits_of_setUpPolygon (grids : Grids ranges polygons)
    (added : ranges.setUpPolygon data polygon = some next) :
    Fits (polygons ++ [(data, polygon)]) := by
  unfold IpRanges.setUpPolygon at added
  dsimp only at added
  split at added
  · contradiction
  case isFalse notLarge =>
    split at added
    · contradiction
    case isFalse notFull =>
      rw [grids.grid, List.length_map, Nat.not_le] at notFull
      refine ⟨?_, ?_⟩
      · rw [List.length_append, List.length_singleton]
        exact notFull
      · intro other member
        obtain before | isLast := List.mem_append.mp member
        · exact grids.fits.2 other before
        · rw [List.mem_singleton.mp isLast]
          exact Nat.not_lt.mp notLarge

/-- The first of some areas that fit do so. -/
theorem Fits.of_append (fits : Fits (polygons ++ more)) : Fits polygons := by
  obtain ⟨few, small⟩ := fits
  rw [List.length_append] at few
  exact ⟨(Nat.le_add_right _ _).trans few,
    fun polygon member => small polygon (List.mem_append_left _ member)⟩

/-! ## Reading configurations -/

/-- The polygons, one after the other. -/
def setUpAll (ranges : IpRanges D)
    (polygons : List (IpRangeConfigData D × Polygon D)) :
    Option (IpRanges D) :=
  polygons.foldlM (fun ranges polygon =>
    ranges.setUpPolygon polygon.1 polygon.2) ranges

/-- Areas are set up one after another. -/
theorem setUpAll_append :
    ranges.setUpAll (polygons ++ more) =
      ranges.setUpAll polygons >>= fun next => next.setUpAll more :=
  List.foldlM_append

/-- The ranges of an address are set up as its areas. -/
theorem analysisIPRangeCfgData_eq :
    ranges.analysisIPRangeCfgData data =
      ranges.setUpAll (data.polygonGeofencingList.map (Prod.mk data)) := by
  rw [setUpAll, List.foldlM_map, analysisIPRangeCfgData]
  cases data.polygonGeofencingList <;> rfl

/-- Reading a configuration sets up the polygons of all of them. -/
theorem initIPRangeConfig_eq (strCfg : List (IpRangeConfigData D)) :
    ranges.initIPRangeConfig strCfg =
      setUpAll { ranges with
          stIPRangeConfig := ranges.stIPRangeConfig ++ strCfg }
        (polygonsOf (ranges.stIPRangeConfig ++ strCfg)) := by
  have all : ∀ (config : List (IpRangeConfigData D)) (ranges : IpRanges D),
      config.foldlM analysisIPRangeCfgData ranges =
        ranges.setUpAll (polygonsOf config) := by
    intro config
    induction config with
    | nil => exact fun _ => rfl
    | cons data config inductionHypothesis =>
        intro ranges
        rw [List.foldlM_cons, polygonsOf, List.flatMap_cons, setUpAll_append,
          analysisIPRangeCfgData_eq]
        congr 1
        funext next
        exact inductionHypothesis next
  exact all _ _

/-- Areas that fit are set up. -/
theorem Grids.setUpAll (grids : Grids ranges polygons)
    (fits : Fits (polygons ++ more)) :
    ∃ next, ranges.setUpAll more = some next ∧
      Grids next (polygons ++ more) ∧
      next.stIPRangeConfig = ranges.stIPRangeConfig := by
  induction more generalizing ranges polygons with
  | nil =>
      rw [List.append_nil]
      exact ⟨ranges, rfl, grids, rfl⟩
  | cons polygon more inductionHypothesis =>
      rw [List.append_cons] at fits ⊢
      obtain ⟨middle, here, gridsHere, sameHere⟩ :=
        grids.setUpPolygon fits.of_append
      obtain ⟨next, later, gridsNext, same⟩ :=
        inductionHypothesis gridsHere fits
      refine ⟨next, ?_, gridsNext, same.trans sameHere⟩
      rw [IpRanges.setUpAll, List.foldlM_cons, here]
      exact later

/-- Areas that are set up fit. -/
theorem Grids.fits_of_setUpAll (grids : Grids ranges polygons)
    (added : ranges.setUpAll more = some next) : Fits (polygons ++ more) := by
  induction more generalizing ranges polygons with
  | nil =>
      rw [List.append_nil]
      exact grids.fits
  | cons polygon more inductionHypothesis =>
      rw [IpRanges.setUpAll, List.foldlM_cons] at added
      obtain ⟨middle, here, later⟩ := Option.bind_eq_some_iff.mp added
      have fits := grids.fits_of_setUpPolygon here
      obtain ⟨same, isMiddle, gridsHere, -⟩ := grids.setUpPolygon fits
      obtain rfl := Option.some_inj.mp (here.symm.trans isMiddle)
      rw [List.append_cons]
      exact inductionHypothesis gridsHere later

/-- Configurations are read exactly as long as all that is set up fits. -/
theorem Grids.load (grids : Grids ranges polygons)
    (configs : List (List (IpRangeConfigData D))) :
    (Fits (polygons ++ setUps ranges.stIPRangeConfig configs) ∧
      ∃ next, configs.foldlM initIPRangeConfig ranges = some next ∧
        Grids next (polygons ++ setUps ranges.stIPRangeConfig configs)) ∨
    (¬Fits (polygons ++ setUps ranges.stIPRangeConfig configs) ∧
      configs.foldlM initIPRangeConfig ranges = none) := by
  induction configs generalizing ranges polygons with
  | nil =>
      rw [setUps, List.append_nil]
      exact .inl ⟨grids.fits, ranges, rfl, grids⟩
  | cons config configs inductionHypothesis =>
      let start : IpRanges D := { ranges with
        stIPRangeConfig := ranges.stIPRangeConfig ++ config }
      have gridsStart : Grids start polygons :=
        ⟨grids.fits, grids.grid, grids.index, grids.first⟩
      rw [setUps, ← List.append_assoc, List.foldlM_cons, initIPRangeConfig_eq]
      cases added : start.setUpAll
          (polygonsOf (ranges.stIPRangeConfig ++ config)) with
      | none =>
          refine .inr ⟨?_, rfl⟩
          intro fits
          obtain ⟨next, isNext, -⟩ := gridsStart.setUpAll fits.of_append
          rw [added] at isNext
          contradiction
      | some middle =>
          have fits := gridsStart.fits_of_setUpAll added
          obtain ⟨same, isMiddle, gridsMiddle, sameConfig⟩ :=
            gridsStart.setUpAll fits
          obtain rfl := Option.some_inj.mp (added.symm.trans isMiddle)
          have later := inductionHypothesis gridsMiddle
          rw [sameConfig] at later
          exact later

/-! ## What a query finds -/

/-- The areas of a configuration are those of its entries. -/
theorem mem_polygonsOf {config : List (IpRangeConfigData D)} :
    (data, polygon) ∈ polygonsOf config ↔
      data ∈ config ∧ polygon ∈ data.polygonGeofencingList := by
  rw [polygonsOf, List.mem_flatMap]
  constructor
  · rintro ⟨other, member, isPair⟩
    obtain ⟨same, inside, isSame⟩ := List.mem_map.mp isPair
    obtain ⟨rfl, rfl⟩ := Prod.mk.inj isSame
    exact ⟨member, inside⟩
  · rintro ⟨member, inside⟩
    exact ⟨data, member, List.mem_map_of_mem inside⟩

/-- The areas of two configurations follow each other. -/
@[simp] theorem polygonsOf_append (front back : List (IpRangeConfigData D)) :
    polygonsOf (front ++ back) = polygonsOf front ++ polygonsOf back :=
  List.flatMap_append

/-- All that is set up was set up with the last configuration. -/
theorem mem_setUps {before : List (IpRangeConfigData D)}
    {configs : List (List (IpRangeConfigData D))}
    {entry : IpRangeConfigData D × Polygon D} (some : configs ≠ []) :
    entry ∈ setUps before configs ↔
      entry ∈ polygonsOf (before ++ configs.flatten) := by
  induction configs generalizing before with
  | nil => contradiction
  | cons config configs inductionHypothesis =>
      rw [setUps, List.mem_append, List.flatten_cons, ← List.append_assoc]
      cases configs with
      | nil => simp [setUps]
      | cons other configs =>
          rw [inductionHypothesis (List.cons_ne_nil _ _)]
          refine or_iff_right_of_imp ?_
          intro member
          rw [polygonsOf_append]
          exact List.mem_append_left _ member

theorem find?_setUps {before : List (IpRangeConfigData D)}
    {configs : List (List (IpRangeConfigData D))} (some : configs ≠ [])
    (wanted : IpRangeConfigData D × Polygon D → Bool) :
    (setUps before configs).find? wanted =
      (polygonsOf (before ++ configs.flatten)).find? wanted := by
  induction configs generalizing before with
  | nil => contradiction
  | cons config configs inductionHypothesis =>
      rw [setUps, List.find?_append, List.flatten_cons, ← List.append_assoc]
      cases configs with
      | nil => simp [setUps]
      | cons other configs =>
          rw [inductionHypothesis (List.cons_ne_nil _ _),
            polygonsOf_append (before ++ config), List.find?_append,
            ← Option.or_assoc, Option.or_self]

/-- The first polygon of an address is one of its first entry with polygons. -/
theorem find?_polygonsOf (config : List (IpRangeConfigData D)) (ip : String) :
    ((polygonsOf config).find? fun polygon => polygon.1.ulipId = ip).map
        Prod.fst =
      config.find? fun data =>
        data.ulipId = ip ∧ data.polygonGeofencingList ≠ [] := by
  induction config with
  | nil => rfl
  | cons data config inductionHypothesis =>
      have split : polygonsOf (data :: config) =
          data.polygonGeofencingList.map (Prod.mk data) ++ polygonsOf config :=
        List.flatMap_cons
      rw [split, List.find?_append, List.find?_cons]
      by_cases same : data.ulipId = ip
      · cases polygons : data.polygonGeofencingList with
        | nil => simpa using inductionHypothesis
        | cons polygon more => simp [same]
      · have nothing : (data.polygonGeofencingList.map (Prod.mk data)).find?
            (fun polygon => polygon.1.ulipId = ip) = none := by
          simp [same]
        rw [nothing]
        simpa [same] using inductionHypothesis

/-- A point is found for an address exactly when one of its grids is around
it. -/
theorem Grids.queryIPPoint_iff (grids : Grids ranges polygons)
    {point : Point D} {ip : String} :
    ranges.queryIPPoint geometry point ip = .allocationSuccess ↔
      ∃ polygon ∈ polygons, polygon.1.ulipId = ip ∧
        geometry.gridTest polygon.2 point = true := by
  have index := grids.index ip
  have gridAt : ∀ {i : Nat} {polygon : IpRangeConfigData D × Polygon D},
      polygons[i]? = some polygon →
        ranges.ipPolyGrid.getD i [] = polygon.2 := by
    intro i polygon isPolygon
    rw [grids.grid, List.getD_eq_getElem?_getD, List.getElem?_map, isPolygon]
    rfl
  constructor
  · intro success
    unfold queryIPPoint at success
    cases found : ranges.ipPolygonMap.lookup ip with
    | none =>
        rw [found] at success
        contradiction
    | some info =>
        rw [found] at success
        by_cases inside : info.vPolygon.any fun i =>
            geometry.gridTest (ranges.ipPolyGrid.getD i []) point
        · obtain ⟨i, member, test⟩ := List.any_eq_true.mp inside
          obtain ⟨polygon, isPolygon, isIp⟩ :=
            (index i).mp ⟨info, found, member⟩
          rw [gridAt isPolygon] at test
          exact ⟨polygon, List.mem_of_getElem? isPolygon, isIp, test⟩
        · simp only [inside] at success
          contradiction
  · rintro ⟨polygon, member, isIp, test⟩
    obtain ⟨i, isPolygon⟩ := List.getElem?_of_mem member
    obtain ⟨info, found, inside⟩ := (index i).mpr ⟨polygon, isPolygon, isIp⟩
    have any : (info.vPolygon.any fun i =>
        geometry.gridTest (ranges.ipPolyGrid.getD i []) point) = true := by
      refine List.any_eq_true.mpr ⟨i, inside, ?_⟩
      rw [gridAt isPolygon]
      exact test
    unfold queryIPPoint
    rw [Option.mem_def.mp found]
    simp only [any, if_true]

/-- Configurations are read without a write behind an array exactly when no
polygon is too long and all that are set up, those of a configuration again with
every later one, fit.  A query then lists, once each, the addresses with a
polygon around the point, and an address has the unit and the position of its
first entry with polygons. -/
theorem load_isSome_iff_and_queries [F64 D] (geometry : Geometry D)
    (configs : List (List (IpRangeConfigData D))) :
    ((load configs).isSome ↔ Fits (setUps [] configs)) ∧
    ∀ ranges ∈ load configs,
      (∀ walk : List String, walk.Perm ranges.ipPolygonMap.keys →
        ∀ (coordinateX coordinateY : D) (zone : Int),
          (ranges.queryPointInIPRange geometry walk coordinateX coordinateY
            zone).Nodup ∧
          ∀ ip, ip ∈ ranges.queryPointInIPRange geometry walk coordinateX
              coordinateY zone ↔
            ∃ data ∈ configs.flatten, data.ulipId = ip ∧
              ∃ polygon ∈ data.polygonGeofencingList,
                geometry.gridTest polygon
                  (queriedPoint geometry coordinateX coordinateY zone) =
                    true) ∧
      ∀ ip, (ranges.queryIPInfo ip).map
          (fun info => (info.ulSubNodeId, info.dbPosx, info.dbPosy)) =
        (configs.flatten.find? fun data =>
          data.ulipId = ip ∧ data.polygonGeofencingList ≠ []).map
            fun data => (data.uldrsuId, data.pos) := by
  have members : ∀ entry : IpRangeConfigData D × Polygon D,
      entry ∈ setUps [] configs ↔ entry ∈ polygonsOf configs.flatten := by
    intro entry
    cases configs with
    | nil => simp [setUps, polygonsOf]
    | cons config configs => exact mem_setUps (List.cons_ne_nil _ _)
  have firsts : ∀ wanted, (setUps [] configs).find? wanted =
      (polygonsOf configs.flatten).find? wanted := by
    intro wanted
    cases configs with
    | nil => rfl
    | cons config configs => exact find?_setUps (List.cons_ne_nil _ _) wanted
  obtain ⟨fits, next, loaded, grids⟩ | ⟨overflow, failed⟩ :=
    Grids.new.load configs
  · refine ⟨iff_of_true (by rw [load, loaded]; rfl) fits, ?_⟩
    intro ranges isRanges
    obtain rfl := Option.some_inj.mp (loaded.symm.trans isRanges)
    refine ⟨?_, ?_⟩
    · intro walk perm coordinateX coordinateY zone
      refine ⟨(perm.nodup_iff.mpr next.ipPolygonMap.nodupKeys).filter _, ?_⟩
      intro ip
      unfold queryPointInIPRange
      rw [List.mem_filter, decide_eq_true_iff, grids.queryIPPoint_iff,
        perm.mem_iff]
      constructor
      · rintro ⟨-, ⟨data, polygon⟩, member, isIp, test⟩
        obtain ⟨isData, inside⟩ :=
          mem_polygonsOf.mp ((members (data, polygon)).mp member)
        exact ⟨data, isData, isIp, polygon, inside, test⟩
      · rintro ⟨data, isData, isIp, polygon, inside, test⟩
        have member := (members (data, polygon)).mpr
          (mem_polygonsOf.mpr ⟨isData, inside⟩)
        refine ⟨?_, (data, polygon), member, isIp, test⟩
        obtain ⟨i, isPolygon⟩ := List.getElem?_of_mem member
        obtain ⟨info, found, -⟩ :=
          (grids.index ip i).mpr ⟨(data, polygon), isPolygon, isIp⟩
        apply AList.mem_keys.mpr
        apply AList.lookup_isSome.mp
        rw [Option.mem_def.mp found]
        rfl
    · intro ip
      unfold queryIPInfo
      rw [grids.first ip, List.nil_append]
      rw [show (new : IpRanges D).stIPRangeConfig = [] from rfl, firsts,
        ← find?_polygonsOf, Option.map_map]
      rfl
  · refine ⟨iff_of_false (by rw [load, failed]; simp) overflow, ?_⟩
    intro ranges isRanges
    rw [load, failed] at isRanges
    contradiction

end IpRanges
end Drc
end Pilot2Cloud
