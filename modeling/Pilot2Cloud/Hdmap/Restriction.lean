import Pilot2Cloud.Hdmap.MapBlock

/-!
# The restriction recorded for a cell

The areas with a corner of a cell are compared one after another.  As long as
their numbers fit, the outcome is a selection among these areas that does not
depend on numbers.  It is the most restrictive one unless an area with a height
limit follows a no-fly area.
-/

namespace Pilot2Cloud
namespace Hdmap

open Foundation

/-! ## Numbers of areas -/

section Numbers

variable {K : Type*}

/-- The area with the number that is recorded for a cell. -/
def areaOf (restriction : List (MapArea K)) (resdictionI : Int8) :
    Option (MapArea K) :=
  if 0 < resdictionI then restriction[(resdictionI.toInt - 1).toNat]?
  else none

/-- The area that is recorded for a cell. -/
def LoadedMap.recorded (map : LoadedMap K) (j i : Int) :
    Option (MapArea K) :=
  areaOf map.restriction (map.resdictionI j i)

/-- The number stands for the selected area. -/
inductive Describes (restriction : List (MapArea K)) :
    Int8 → Option (MapArea K) → Prop
  | none : Describes restriction 0 none
  | area (k : Nat) (few : k < 127) (area : MapArea K)
      (found : restriction[k]? = some area) :
      Describes restriction (.ofInt (k + 1)) (some area)

theorem toInt_number {k : Nat} (few : k < 127) :
    (Int8.ofInt (k + 1)).toInt = k + 1 := by
  apply Int8.toInt_ofInt_of_le <;> omega

theorem number_ne_zero {k : Nat} (few : k < 127) :
    Int8.ofInt (k + 1) ≠ 0 := by
  intro zero
  have value := toInt_number few
  rw [zero] at value
  change (0 : Int) = k + 1 at value
  omega

/-- A described number selects the area that it describes. -/
theorem Describes.areaOf_eq {restriction : List (MapArea K)} {number : Int8}
    {selected : Option (MapArea K)}
    (describes : Describes restriction number selected) :
    areaOf restriction number = selected := by
  cases describes with
  | none => rfl
  | area k few area found =>
      have positive : (0 : Int8) < .ofInt (k + 1) := by
        rw [Int8.lt_iff_toInt_lt, toInt_number few]
        exact Int.natCast_succ_pos k
      rw [areaOf, if_pos positive, toInt_number few, add_sub_cancel_right,
        Int.toNat_natCast, found]

/-- The selected area is read with its number. -/
theorem Describes.reads {restriction : List (MapArea K)} {number : Int8}
    {selected : MapArea K}
    (describes : Describes restriction number (some selected)) :
    number ≠ 0 ∧
      restrictionAt restriction (number.toInt - 1) = some selected := by
  cases describes with
  | area k few _ found =>
      refine ⟨number_ne_zero few, ?_⟩
      rw [toInt_number few, add_sub_cancel_right, restrictionAt,
        if_neg (by omega), Int.toNat_natCast, found]

end Numbers

variable {K : Type*} [Field K] [LinearOrder K]

/-! ## The selection -/

/-- No restriction, a height limit, or no-fly, in this order. -/
abbrev Restriction (K : Type*) := WithBot (WithTop K)

/-- What an area allows, from every height to none at all. -/
def MapArea.restriction (area : MapArea K) : Restriction K :=
  if area.NoFly then ⊤ else ((area.heightLimit : WithTop K) : Restriction K)

/-- What the selected area allows. -/
def restrictionOf (selected : Option (MapArea K)) : Restriction K :=
  (selected.map MapArea.restriction).getD ⊥

/-- What `set_map_block_area` does to the area selected for a cell when the
next area has a corner of the cell. -/
def selectArea (selected : Option (MapArea K)) (area : MapArea K) :
    Option (MapArea K) :=
  match selected with
  | none => some area
  | some previous =>
      if area.NoFly ∨ previous.heightLimit < area.heightLimit then some area
      else some previous

/-- The area that is selected from some areas. -/
def selectAreas (areas : List (MapArea K)) : Option (MapArea K) :=
  areas.foldl selectArea none

/-- A no-fly area is always selected. -/
theorem selectArea_of_noFly {selected : Option (MapArea K)} {area : MapArea K}
    (noFly : area.NoFly) : selectArea selected area = some area := by
  cases selected with
  | none => rfl
  | some previous => exact if_pos (.inl noFly)

/-- An area with a height limit replaces a recorded one with a lower limit. -/
theorem recordArea_of_recorded {restriction : List (MapArea K)}
    {corner : MapArea K → Bool} {number : Int8} {area previous : MapArea K}
    (k : Nat) (reaches : corner area = true) (nonzero : number ≠ 0)
    (limited : ¬area.NoFly)
    (reads : restrictionAt restriction (number.toInt - 1) = some previous) :
    recordArea restriction corner number area k =
      if previous.heightLimit < area.heightLimit then
        some (.ofInt (k + 1))
      else some number := by
  rw [recordArea, if_pos reaches, if_neg (by simp [nonzero, limited]), reads]

/-- Comparing the next area keeps the number that of the selected area. -/
theorem Describes.recordArea {restriction : List (MapArea K)} {number : Int8}
    {selected : Option (MapArea K)}
    (describes : Describes restriction number selected)
    (corner : MapArea K → Bool) {k : Nat} (few : k < 127) {area : MapArea K}
    (found : restriction[k]? = some area) :
    ∃ next, recordArea restriction corner number area k = some next ∧
      Describes restriction next
        (if corner area then selectArea selected area else selected) := by
  cases reaches : corner area with
  | false =>
      refine ⟨number, ?_, describes⟩
      simp [Hdmap.recordArea, reaches]
  | true =>
      have own : Describes restriction (.ofInt (k + 1)) (some area) :=
        .area k few area found
      cases describes with
      | none =>
          refine ⟨.ofInt (k + 1), ?_, own⟩
          simp [Hdmap.recordArea, reaches]
      | area earlier earlierFew previous earlierFound =>
          have described : Describes restriction (.ofInt (earlier + 1))
              (some previous) :=
            .area earlier earlierFew previous earlierFound
          obtain ⟨nonzero, reads⟩ := described.reads
          by_cases noFly : area.NoFly
          · refine ⟨.ofInt (k + 1), ?_, ?_⟩
            · simp [Hdmap.recordArea, reaches, noFly]
            · simpa [selectArea, noFly] using own
          · rw [recordArea_of_recorded k reaches nonzero noFly reads]
            by_cases higher : previous.heightLimit < area.heightLimit
            · refine ⟨.ofInt (k + 1), if_pos higher, ?_⟩
              simpa only [selectArea, noFly, higher, or_true, if_true] using own
            · refine ⟨.ofInt (earlier + 1), if_neg higher, ?_⟩
              simpa only [selectArea, noFly, higher, or_self, if_true,
                if_false] using described

/-- The number recorded for a cell after the areas at the start of the file. -/
def recordPrefix (restriction : List (MapArea K)) (corner : MapArea K → Bool)
    (early : List (MapArea K)) : Option Int8 :=
  early.zipIdx.foldlM
    (fun number indexed =>
      recordArea restriction corner number indexed.1 indexed.2)
    0

/-- Every area is recorded when the prefix is the whole list. -/
theorem recordPrefix_self (restriction : List (MapArea K))
    (corner : MapArea K → Bool) :
    recordPrefix restriction corner restriction =
      recordAreas restriction corner :=
  rfl

theorem recordPrefix_concat {restriction early : List (MapArea K)}
    {corner : MapArea K → Bool} (area : MapArea K) :
    recordPrefix restriction corner (early ++ [area]) =
      (recordPrefix restriction corner early).bind fun number =>
        recordArea restriction corner number area early.length := by
  simp [recordPrefix, List.zipIdx_append]

/-- After at most 127 areas the number is that of the area selected among those
with a corner of the cell. -/
theorem recordPrefix_describes {restriction early late : List (MapArea K)}
    (split : restriction = early ++ late) (few : early.length ≤ 127)
    (corner : MapArea K → Bool) :
    ∃ number, recordPrefix restriction corner early = some number ∧
      Describes restriction number (selectAreas (early.filter corner)) := by
  induction early using List.reverseRecOn generalizing late with
  | nil => exact ⟨0, rfl, .none⟩
  | append_singleton early area inductionHypothesis =>
      rw [List.length_append, List.length_singleton] at few
      rw [List.append_assoc] at split
      obtain ⟨number, recorded, describes⟩ :=
        inductionHypothesis split (by omega)
      have found : restriction[early.length]? = some area := by
        rw [split]
        simp
      obtain ⟨next, records, describesNext⟩ :=
        describes.recordArea corner (by omega) found
      refine ⟨next, ?_, ?_⟩
      · rw [recordPrefix_concat, recorded]
        exact records
      · cases reaches : corner area <;>
          simpa [selectAreas, reaches] using describesNext

/-- With at most 127 areas the number that is recorded for a cell is that of the
area selected among those with a corner of it. -/
theorem recordAreas_describes {restriction : List (MapArea K)}
    (few : restriction.length ≤ 127) (corner : MapArea K → Bool) :
    ∃ number, recordAreas restriction corner = some number ∧
      Describes restriction number
        (selectAreas (restriction.filter corner)) :=
  recordPrefix_describes (List.append_nil restriction).symm few corner

/-! ## The most restrictive area -/

@[simp] theorem selectAreas_append_singleton (areas : List (MapArea K))
    (area : MapArea K) :
    selectAreas (areas ++ [area]) = selectArea (selectAreas areas) area := by
  rw [selectAreas, List.foldl_append]
  rfl

theorem mem_of_selectAreas {areas : List (MapArea K)} {area : MapArea K}
    (selected : selectAreas areas = some area) : area ∈ areas := by
  induction areas using List.reverseRecOn with
  | nil => cases selected
  | append_singleton areas last inductionHypothesis =>
      rw [selectAreas_append_singleton, selectArea.eq_def] at selected
      split at selected
      · cases selected
        exact List.mem_append_right _ List.mem_cons_self
      · next previous before =>
        split at selected <;> cases selected
        · exact List.mem_append_right _ List.mem_cons_self
        · exact List.mem_append_left _ (inductionHypothesis before)

/-- The most restrictive of some areas. -/
def mostRestrictive (areas : List (MapArea K)) : Restriction K :=
  (areas.map MapArea.restriction : Multiset (Restriction K)).sup

/-- The selection takes the greater restriction unless a height limit comes
after no-fly. -/
theorem restrictionOf_selectArea {selected : Option (MapArea K)}
    {area : MapArea K}
    (unmixed : ∀ previous, selected = some previous → previous.NoFly →
      area.heightLimit ≤ restrictNoFly) :
    restrictionOf (selectArea selected area) =
      max (restrictionOf selected) area.restriction := by
  cases selected with
  | none => exact (bot_sup_eq _).symm
  | some previous =>
      by_cases noFly : area.NoFly
      · simp [selectArea, restrictionOf, MapArea.restriction, noFly]
      · by_cases previousNoFly : previous.NoFly
        · have low := unmixed previous rfl previousNoFly
          rw [← previousNoFly] at low
          simp [selectArea, restrictionOf, MapArea.restriction, noFly,
            previousNoFly, low.not_gt]
        · by_cases higher : previous.heightLimit < area.heightLimit
          · simp [selectArea, restrictionOf, MapArea.restriction, noFly,
              previousNoFly, higher, higher.le]
          · simp [selectArea, restrictionOf, MapArea.restriction, noFly,
              previousNoFly, higher, not_lt.mp higher]

/-- No height limit is found among the areas together with a no-fly area. -/
def Unmixed (areas : List (MapArea K)) : Prop :=
  ∀ area ∈ areas, area.NoFly → ∀ other ∈ areas,
    other.heightLimit ≤ restrictNoFly

/-- The selected area has the most restrictive limit, as long as no-fly areas
and limits are not mixed. -/
theorem restrictionOf_selectAreas {areas : List (MapArea K)}
    (unmixed : Unmixed areas) :
    restrictionOf (selectAreas areas) = mostRestrictive areas := by
  induction areas using List.reverseRecOn with
  | nil => rfl
  | append_singleton areas area inductionHypothesis =>
      have early : Unmixed areas := by
        intro first firstMem noFly other otherMem
        exact unmixed first (List.mem_append_left _ firstMem) noFly other
          (List.mem_append_left _ otherMem)
      rw [selectAreas_append_singleton, restrictionOf_selectArea,
        inductionHypothesis early, mostRestrictive, mostRestrictive,
        List.map_append, ← Multiset.coe_add, Multiset.sup_add]
      · simp
      · intro previous selected noFly
        exact unmixed previous
          (List.mem_append_left _ (mem_of_selectAreas selected)) noFly area
          (List.mem_append_right _ List.mem_cons_self)

/-- The most restrictive limit does not depend on the order of the areas. -/
theorem mostRestrictive_perm {areas others : List (MapArea K)}
    (perm : areas.Perm others) :
    mostRestrictive areas = mostRestrictive others := by
  rw [mostRestrictive, mostRestrictive,
    Multiset.coe_eq_coe.mpr (perm.map MapArea.restriction)]

/-- A no-fly area is the most restrictive one. -/
theorem mostRestrictive_eq_top {areas : List (MapArea K)} {area : MapArea K}
    (mem : area ∈ areas) (noFly : area.NoFly) : mostRestrictive areas = ⊤ := by
  rw [eq_top_iff]
  apply Multiset.le_sup
  rw [Multiset.mem_coe, List.mem_map]
  exact ⟨area, mem, if_pos noFly⟩

end Hdmap
end Pilot2Cloud
