import Pilot2Cloud.Hdmap.Restriction

/-!
# Numbers of areas that do not fit

The number of an area is stored in eight bits, so the 128th area gets a negative
one.  A cell whose number is negative counts as not restricted, and comparing it
with a further area reads outside of the array.  This settles exactly which
cells get the same restriction for every order of the areas.
-/

namespace Pilot2Cloud
namespace Hdmap

open Foundation

variable {K : Type*} [Field K] [LinearOrder K]

/-! ## Steps -/

section Steps

variable {restriction early late : List (MapArea K)}
  {corner : MapArea K → Bool} {number : Int8} {area : MapArea K}

/-- An area that misses the cell leaves its number. -/
theorem recordArea_of_missed (k : Nat) (missed : corner area = false) :
    recordArea restriction corner number area k = some number := by
  simp [recordArea, missed]

/-- A no-fly area that reaches the cell puts its own number there. -/
theorem recordArea_of_noFly (k : Nat) (reaches : corner area = true)
    (noFly : area.NoFly) :
    recordArea restriction corner number area k = some (.ofInt (k + 1)) := by
  rw [recordArea, if_pos reaches, if_pos (.inr noFly)]

/-- A negative number is used to read in front of the array. -/
theorem recordArea_of_negative (k : Nat) (reaches : corner area = true)
    (limited : ¬area.NoFly) (negative : number.toInt < 0) :
    recordArea restriction corner number area k = none := by
  have nonzero : number ≠ 0 := by
    rintro rfl
    exact lt_irrefl _ negative
  have before : number.toInt - 1 < 0 := by omega
  rw [recordArea, if_pos reaches, if_neg (by simp [nonzero, limited]),
    restrictionAt, if_pos before]

/-- Late areas that miss the cell leave the number of the early ones. -/
theorem recordPrefix_of_missed (missed : ∀ area ∈ late, corner area = false) :
    recordPrefix restriction corner (early ++ late) =
      recordPrefix restriction corner early := by
  induction late using List.reverseRecOn with
  | nil => rw [List.append_nil]
  | append_singleton late area inductionHypothesis =>
      rw [List.forall_mem_append, List.forall_mem_singleton] at missed
      rw [← List.append_assoc, recordPrefix_concat,
        inductionHypothesis missed.1]
      simp only [recordArea_of_missed _ missed.2]
      exact Option.bind_fun_some _

/-- A negative number stays, unless it is used. -/
theorem recordPrefix_of_negative
    (recorded : recordPrefix restriction corner early = some number)
    (negative : number.toInt < 0)
    (limited : ∀ area ∈ late, corner area = true → ¬area.NoFly) :
    recordPrefix restriction corner (early ++ late) = none ∨
      recordPrefix restriction corner (early ++ late) = some number := by
  induction late using List.reverseRecOn with
  | nil =>
      rw [List.append_nil]
      exact .inr recorded
  | append_singleton late area inductionHypothesis =>
      rw [List.forall_mem_append, List.forall_mem_singleton] at limited
      rw [← List.append_assoc, recordPrefix_concat]
      obtain undefined | same := inductionHypothesis limited.1
      · rw [undefined]
        exact .inl rfl
      · rw [same, Option.bind_some]
        cases reaches : corner area with
        | false => exact .inr (recordArea_of_missed _ reaches)
        | true =>
            exact .inl (recordArea_of_negative _ reaches
              (limited.2 reaches) negative)

/-- The number of a highest area stays. -/
theorem recordPrefix_of_highest {top : MapArea K}
    (recorded : recordPrefix restriction corner early = some number)
    (describes : Describes restriction number (some top))
    (highest : ∀ area ∈ late, corner area = true →
      ¬area.NoFly ∧ area.heightLimit ≤ top.heightLimit) :
    recordPrefix restriction corner (early ++ late) = some number := by
  induction late using List.reverseRecOn with
  | nil => rwa [List.append_nil]
  | append_singleton late area inductionHypothesis =>
      rw [List.forall_mem_append, List.forall_mem_singleton] at highest
      rw [← List.append_assoc, recordPrefix_concat,
        inductionHypothesis highest.1, Option.bind_some]
      cases reaches : corner area with
      | false => exact recordArea_of_missed _ reaches
      | true =>
          obtain ⟨limited, lower⟩ := highest.2 reaches
          obtain ⟨nonzero, reads⟩ := describes.reads
          rw [recordArea_of_recorded _ reaches nonzero limited reads]
          exact if_neg lower.not_gt

/-- Where all areas of a cell are no-fly the number counts the areas up to the
last of them. -/
theorem recordPrefix_of_noFly
    (noFly : ∀ area ∈ early, corner area = true → area.NoFly) :
    ∃ count : Nat,
      recordPrefix restriction corner early = some (.ofInt count) ∧
      (early.filter corner).length ≤ count ∧ count ≤ early.length := by
  induction early using List.reverseRecOn with
  | nil => exact ⟨0, rfl, Nat.zero_le _, Nat.zero_le _⟩
  | append_singleton early area inductionHypothesis =>
      rw [List.forall_mem_append, List.forall_mem_singleton] at noFly
      obtain ⟨count, recorded, atLeast, atMost⟩ := inductionHypothesis noFly.1
      rw [recordPrefix_concat, recorded, Option.bind_some, List.filter_append,
        List.length_append, List.length_append, List.length_singleton]
      cases reaches : corner area with
      | false =>
          refine ⟨count, recordArea_of_missed _ reaches, ?_, by omega⟩
          rw [List.filter_cons_of_neg (by simp [reaches])]
          exact atLeast
      | true =>
          refine ⟨early.length + 1,
            recordArea_of_noFly _ reaches (noFly.2 reaches), ?_, le_rfl⟩
          rw [List.filter_cons_of_pos reaches]
          exact Nat.add_le_add (List.length_filter_le _ _) le_rfl

end Steps

/-! ## Orders -/

/-- A cell gets the same restriction for every order of the areas, no-fly if it
has a corner in a no-fly area. -/
def CellIndependent (areas : List (MapArea K)) (corner : MapArea K → Bool) :
    Prop :=
  ∃ outcome : Restriction K, ∀ order, order.Perm areas →
    ∃ number, recordAreas order corner = some number ∧
      restrictionOf (areaOf order number) = outcome ∧
      ∀ area ∈ order, area.NoFly → corner area →
        restrictionOf (areaOf order number) = ⊤

/-- An area of the cell with this limit. -/
def HasLimit (corner : MapArea K → Bool) (limit : K) (area : MapArea K) : Bool :=
  corner area && decide (area.heightLimit = limit)

/-- Fewer than 127 areas do not have the highest limit of the cell. -/
def HighestEarly (areas : List (MapArea K)) (corner : MapArea K → Bool) : Prop :=
  ∀ top ∈ areas.filter corner,
    (∀ area ∈ areas.filter corner, area.heightLimit ≤ top.heightLimit) →
      areas.countP (fun area => !HasLimit corner top.heightLimit area) < 127

/-- All areas are no-fly, and the numbers that the last one of the cell can have
are positive although they do not fit. -/
def WrapsToNoFly (areas : List (MapArea K)) (corner : MapArea K → Bool) : Prop :=
  (∀ area ∈ areas, area.NoFly) ∧
    ∀ count : Nat, (areas.filter corner).length ≤ count →
      count ≤ areas.length → 0 < Int8.ofInt count

/-- No area of the cell is no-fly and one with the highest limit always comes
early; or one is no-fly, none has a height limit, and the numbers fit or
happen to stand for no-fly areas. -/
def Settled (areas : List (MapArea K)) (corner : MapArea K → Bool) : Prop :=
  if ∃ area ∈ areas.filter corner, area.NoFly then
    areas.length ≤ 127 ∧ Unmixed (areas.filter corner) ∨
      127 < areas.length ∧ WrapsToNoFly areas corner
  else HighestEarly areas corner

section Orders

variable {areas order : List (MapArea K)} {corner : MapArea K → Bool}

omit [Field K] [LinearOrder K] in
theorem areaOf_of_nonpos {number : Int8} (nonpos : ¬0 < number) :
    areaOf areas number = none :=
  if_neg nonpos

omit [Field K] [LinearOrder K] in
/-- A number of eight bits stands for one of the first 127 areas. -/
theorem areaOf_of_pos {number : Int8} (positive : 0 < number) :
    ∃ index < 127, ∀ areas : List (MapArea K),
      areaOf areas number = areas[index]? := by
  have isPositive : 0 < number.toInt := Int8.lt_iff_toInt_lt.mp positive
  have few := number.toInt_lt
  exact ⟨(number.toInt - 1).toNat, by omega, fun areas => if_pos positive⟩

theorem restrictionOf_some {area : MapArea K} (limited : ¬area.NoFly) :
    restrictionOf (some area) =
      ((area.heightLimit : WithTop K) : Restriction K) :=
  if_neg limited

theorem restrictionOf_ne_top {area : MapArea K} (limited : ¬area.NoFly) :
    restrictionOf (some area) ≠ ⊤ := by
  rw [restrictionOf_some limited]
  exact fun isTop => WithTop.coe_ne_top (WithBot.coe_injective isTop)

/-- Two elements of a list can be put last. -/
theorem exists_perm_last {α : Type*} {elements : List α} {first last : α}
    (firstMem : first ∈ elements) (lastMem : last ∈ elements)
    (ne : last ≠ first) :
    ∃ early, (early ++ [first, last]).Perm elements := by
  classical
  have lastLeft : last ∈ elements.erase first :=
    (List.mem_erase_of_ne ne).mpr lastMem
  have addLast := (List.perm_cons_erase lastLeft).symm.cons first
  have addFirst := (List.perm_cons_erase firstMem).symm
  exact ⟨(elements.erase first).erase last,
    List.perm_append_comm.trans (addLast.trans addFirst)⟩

/-! ### Cells with a no-fly area -/

/-- A no-fly area that is the last one of the cell is recorded. -/
theorem eq_of_last {early late : List (MapArea K)} {area : MapArea K}
    {number : Int8} (reaches : corner area = true) (noFly : area.NoFly)
    (missed : ∀ area ∈ late, corner area = false)
    (recorded : recordAreas (early ++ [area] ++ late) corner = some number) :
    number = .ofInt (early.length + 1) := by
  rw [← recordPrefix_self, recordPrefix_of_missed missed, recordPrefix_concat,
    Option.bind_eq_some_iff] at recorded
  obtain ⟨before, -, last⟩ := recorded
  rw [recordArea_of_noFly _ reaches noFly] at last
  exact (Option.some_inj.mp last).symm

/-- The last no-fly area of the cell has to get a number that stands for a
no-fly area. -/
theorem CellIndependent.top_of_last (independent : CellIndependent areas corner)
    {early late : List (MapArea K)} {area : MapArea K}
    (perm : (early ++ [area] ++ late).Perm areas)
    (reaches : corner area = true) (noFly : area.NoFly)
    (missed : ∀ area ∈ late, corner area = false) :
    restrictionOf (areaOf (early ++ [area] ++ late)
      (.ofInt (early.length + 1))) = ⊤ := by
  obtain ⟨outcome, independent⟩ := independent
  obtain ⟨number, recorded, -, isTop⟩ := independent _ perm
  rw [← eq_of_last reaches noFly missed recorded]
  exact isTop area (by simp) noFly reaches

/-- A number that stands for a no-fly area is positive. -/
theorem pos_of_top {number : Int8}
    (top : restrictionOf (areaOf areas number) = ⊤) : 0 < number := by
  by_contra nonpos
  rw [areaOf_of_nonpos nonpos] at top
  exact bot_ne_top top

/-- With more areas than numbers all of them have to be no-fly: one that is not
can be put where the number of the last area points. -/
theorem CellIndependent.allNoFly (independent : CellIndependent areas corner)
    (many : 127 < areas.length) {area : MapArea K} (member : area ∈ areas)
    (reaches : corner area = true) (noFly : area.NoFly) :
    ∀ other ∈ areas, other.NoFly := by
  intro other otherMember
  by_contra limited
  have apart : area ≠ other := by
    rintro rfl
    contradiction
  obtain ⟨early, perm⟩ := exists_perm_last otherMember member apart
  have count : early.length + 2 = areas.length := by
    rw [← perm.length_eq, List.length_append]
    rfl
  -- `other` may stand anywhere before the last area
  have top : ∀ index, restrictionOf (areaOf
      (early.take index ++ other :: early.drop index ++ [area])
      (.ofInt (early.length + 2))) = ⊤ := by
    intro index
    have inserted : (early.take index ++ other :: early.drop index).Perm
        (early ++ [other]) := by
      have front : (early.take index ++ other :: early.drop index).Perm
          (other :: (early.take index ++ early.drop index)) :=
        List.perm_middle
      rw [List.take_append_drop] at front
      exact front.trans (List.perm_append_singleton other early).symm
    have reordered : (early.take index ++ other :: early.drop index ++
        [area] ++ []).Perm areas := by
      rw [List.append_nil]
      refine (inserted.append_right [area]).trans ?_
      rwa [List.append_assoc]
    have last := independent.top_of_last reordered reaches noFly
      (List.forall_mem_nil _)
    rw [List.append_nil, inserted.length_eq, List.length_append] at last
    exact last
  obtain ⟨index, few, points⟩ := areaOf_of_pos (pos_of_top (top 0))
  have found : (early.take index ++ other :: early.drop index ++
      [area])[index]? = some other := by
    have full : (early.take index).length = index :=
      List.length_take_of_le (by omega)
    rw [List.append_assoc, List.getElem?_append_right full.le, full,
      Nat.sub_self]
    rfl
  have atOther := top index
  rw [points, found] at atOther
  exact restrictionOf_ne_top limited atOther

/-- The number of the last area is that of any count between the areas of the
cell and all areas. -/
theorem CellIndependent.wrapsToNoFly
    (independent : CellIndependent areas corner)
    (many : 127 < areas.length) {area : MapArea K} (member : area ∈ areas)
    (reaches : corner area = true) (noFly : area.NoFly) :
    WrapsToNoFly areas corner := by
  have allNoFly := independent.allNoFly many member reaches noFly
  refine ⟨allNoFly, fun count atLeast atMost => ?_⟩
  have hit : area ∈ areas.filter corner :=
    List.mem_filter.mpr ⟨member, reaches⟩
  obtain ⟨hits, last, split⟩ :=
    (List.eq_nil_or_concat' _).resolve_left (List.ne_nil_of_mem hit)
  have lastHit : last ∈ areas.filter corner := by
    rw [split]
    exact List.mem_append_right _ List.mem_cons_self
  obtain ⟨lastMem, lastReaches⟩ := List.mem_filter.mp lastHit
  let misses := areas.filter fun area => !corner area
  have total : (hits ++ [last] ++ misses).Perm areas := by
    rw [← split]
    exact List.filter_append_perm corner areas
  have lengths := total.length_eq
  rw [split] at atLeast
  simp only [List.length_append, List.length_singleton] at atLeast lengths
  -- as many other areas before the last one as the count needs
  let before := count - (hits.length + 1)
  have reordered : (misses.take before ++ hits ++ [last] ++
      misses.drop before).Perm areas := by
    refine List.Perm.trans ?_ total
    rw [List.append_assoc (misses.take before) hits [last]]
    refine (List.perm_append_comm.append_right _).trans ?_
    rw [List.append_assoc, List.take_append_drop]
  have missed : ∀ area ∈ misses.drop before, corner area = false := by
    intro area member
    simpa using (List.mem_filter.mp (List.mem_of_mem_drop member)).2
  have top := independent.top_of_last reordered lastReaches
    (allNoFly last lastMem) missed
  have full : (misses.take before).length = before :=
    List.length_take_of_le (by omega)
  have counted : (((misses.take before ++ hits).length : Int) + 1) = count := by
    rw [List.length_append, full]
    omega
  rw [counted] at top
  exact pos_of_top top

/-- A height limit that comes right after a no-fly area wins over it. -/
theorem selectAreas_of_mixture (early : List (MapArea K))
    {area other : MapArea K} (noFly : area.NoFly)
    (limited : restrictNoFly < other.heightLimit) :
    selectAreas (early ++ [area, other]) = some other := by
  have split : early ++ [area, other] = (early ++ [area]) ++ [other] := by
    simp
  have first : selectAreas (early ++ [area]) = some area := by
    rw [selectAreas_append_singleton, selectArea_of_noFly noFly]
  rw [split, selectAreas_append_singleton, first, selectArea]
  rw [← noFly] at limited
  exact if_pos (.inr limited)

/-- In a file with at most 127 areas the area after a no-fly one must not have
a limit. -/
theorem CellIndependent.unmixed (independent : CellIndependent areas corner)
    (few : areas.length ≤ 127) : Unmixed (areas.filter corner) := by
  intro area mem noFly other otherMem
  rw [List.mem_filter] at mem otherMem
  by_contra limited
  rw [not_le] at limited
  have apart : other ≠ area := by
    rintro rfl
    exact limited.ne noFly.symm
  obtain ⟨early, perm⟩ := exists_perm_last mem.1 otherMem.1 apart
  obtain ⟨outcome, independent⟩ := independent
  obtain ⟨number, recorded, -, isTop⟩ := independent _ perm
  obtain ⟨_, records, describes⟩ :=
    recordAreas_describes (perm.length_eq.trans_le few) corner
  obtain rfl := Option.some_inj.mp (recorded.symm.trans records)
  have filtered : (early ++ [area, other]).filter corner =
      early.filter corner ++ [area, other] := by
    simp [mem.2, otherMem.2]
  rw [filtered, selectAreas_of_mixture _ noFly limited] at describes
  have top := isTop area (by simp) noFly mem.2
  rw [describes.areaOf_eq] at top
  exact restrictionOf_ne_top
    (fun otherNoFly => limited.ne otherNoFly.symm) top

/-- Whether areas mix no-fly areas and limits does not depend on their order. -/
theorem Unmixed.perm {others : List (MapArea K)} (unmixed : Unmixed areas)
    (perm : others.Perm areas) : Unmixed others := by
  intro area mem noFly other otherMem
  exact unmixed area (perm.mem_iff.mp mem) noFly other
    (perm.mem_iff.mp otherMem)

/-- With at most 127 areas a cell without a mixture gets the most restrictive
of the areas with a corner of it. -/
theorem cellIndependent_of_unmixed (few : areas.length ≤ 127)
    (unmixed : Unmixed (areas.filter corner)) :
    CellIndependent areas corner := by
  refine ⟨mostRestrictive (areas.filter corner), fun order perm => ?_⟩
  have hits := perm.filter corner
  obtain ⟨number, recorded, describes⟩ :=
    recordAreas_describes (perm.length_eq.trans_le few) corner
  have outcome : restrictionOf (areaOf order number) =
      mostRestrictive (areas.filter corner) := by
    rw [describes.areaOf_eq, restrictionOf_selectAreas (unmixed.perm hits),
      mostRestrictive_perm hits]
  refine ⟨number, recorded, outcome, fun area member noFly reaches => ?_⟩
  rw [outcome]
  exact mostRestrictive_eq_top
    (List.mem_filter.mpr ⟨perm.mem_iff.mp member, reaches⟩) noFly

/-- A cell whose number wraps to a no-fly area does not depend on the order. -/
theorem cellIndependent_of_wrapsToNoFly (many : 127 < areas.length)
    (wraps : WrapsToNoFly areas corner) : CellIndependent areas corner := by
  obtain ⟨allNoFly, positive⟩ := wraps
  refine ⟨⊤, fun order perm => ?_⟩
  have noFly : ∀ area ∈ order, area.NoFly :=
    fun area member => allNoFly area (perm.mem_iff.mp member)
  obtain ⟨count, recorded, atLeast, atMost⟩ : ∃ count : Nat,
      recordAreas order corner = some (.ofInt count) ∧
      (order.filter corner).length ≤ count ∧ count ≤ order.length :=
    recordPrefix_of_noFly fun area member _ => noFly area member
  rw [(perm.filter corner).length_eq] at atLeast
  rw [perm.length_eq] at atMost
  obtain ⟨index, small, points⟩ := areaOf_of_pos (positive count atLeast atMost)
  have within : index < order.length := by
    rw [perm.length_eq]
    exact small.trans many
  have isTop : restrictionOf (areaOf order (.ofInt count)) = ⊤ := by
    rw [points, List.getElem?_eq_getElem within]
    exact if_pos (noFly _ (List.getElem_mem within))
  exact ⟨.ofInt count, recorded, isTop, fun _ _ _ _ => isTop⟩

/-! ### Cells without a no-fly area -/

/-- An area of the cell whose limit is above those before it is recorded. -/
theorem recordPrefix_of_raised {restriction early late : List (MapArea K)}
    {top : MapArea K} (split : restriction = early ++ top :: late)
    (few : early.length ≤ 127) (reaches : corner top = true)
    (limited : ¬top.NoFly)
    (lower : ∀ area ∈ early.filter corner,
      area.heightLimit < top.heightLimit) :
    recordPrefix restriction corner (early ++ [top]) =
      some (.ofInt (early.length + 1)) := by
  obtain ⟨number, recorded, describes⟩ :=
    recordPrefix_describes split few corner
  rw [recordPrefix_concat, recorded, Option.bind_some]
  cases selected : selectAreas (early.filter corner) with
  | none =>
      rw [selected] at describes
      cases describes
      rw [recordArea, if_pos reaches, if_pos (.inl rfl)]
  | some previous =>
      rw [selected] at describes
      obtain ⟨nonzero, reads⟩ := describes.reads
      rw [recordArea_of_recorded _ reaches nonzero limited reads]
      exact if_pos (lower previous (mem_of_selectAreas selected))

omit [Field K] in
theorem hasLimit_iff {limit : K} {area : MapArea K} :
    HasLimit corner limit area = true ↔
      corner area = true ∧ area.heightLimit = limit := by
  rw [HasLimit, Bool.and_eq_true, decide_eq_true_eq]

/-- A highest area of the cell among the first 127 areas stays recorded. -/
theorem recordAreas_of_early {early late : List (MapArea K)} {top : MapArea K}
    (few : early.length < 127) (reaches : corner top = true)
    (limited : ∀ area ∈ early ++ top :: late, corner area = true →
      ¬area.NoFly ∧ area.heightLimit ≤ top.heightLimit)
    (lower : ∀ area ∈ early, HasLimit corner top.heightLimit area = false) :
    recordAreas (early ++ top :: late) corner =
        some (.ofInt (early.length + 1)) ∧
      restrictionOf (areaOf (early ++ top :: late)
        (.ofInt (early.length + 1))) =
          ((top.heightLimit : WithTop K) : Restriction K) := by
  have describes : Describes (early ++ top :: late)
      (.ofInt (early.length + 1)) (some top) :=
    .area early.length few top (by simp)
  have topLimited := (limited top (by simp) reaches).1
  have recorded : recordPrefix (early ++ top :: late) corner (early ++ [top]) =
      some (.ofInt (early.length + 1)) := by
    apply recordPrefix_of_raised rfl few.le reaches topLimited
    intro area member
    obtain ⟨isEarly, hit⟩ := List.mem_filter.mp member
    refine lt_of_le_of_ne
      (limited area (List.mem_append_left _ isEarly) hit).2 fun same => ?_
    have has := hasLimit_iff.mpr ⟨hit, same⟩
    rw [lower area isEarly] at has
    cases has
  constructor
  · have highest : ∀ area ∈ late, corner area = true →
        ¬area.NoFly ∧ area.heightLimit ≤ top.heightLimit :=
      fun area member => limited area
        (List.mem_append_right _ (List.mem_cons_of_mem _ member))
    have stays := recordPrefix_of_highest recorded describes highest
    rwa [List.append_assoc, List.singleton_append, recordPrefix_self] at stays
  · rw [describes.areaOf_eq]
    exact restrictionOf_some topLimited

/-- Areas without a corner of the cell leave it without a restriction. -/
theorem cellIndependent_of_missed
    (missed : ∀ area ∈ areas, corner area = false) :
    CellIndependent areas corner := by
  refine ⟨⊥, fun order perm => ?_⟩
  have stillMissed : ∀ area ∈ order, corner area = false :=
    fun area member => missed area (perm.mem_iff.mp member)
  refine ⟨0, ?_, rfl, fun area member _ reaches => ?_⟩
  · have none : recordPrefix order corner ([] ++ order) =
        recordPrefix order corner [] := recordPrefix_of_missed stillMissed
    exact none
  · rw [stillMissed area member] at reaches
    cases reaches

theorem cellIndependent_of_highestEarly
    (limited : ∀ area ∈ areas.filter corner, ¬area.NoFly)
    (highestEarly : HighestEarly areas corner) :
    CellIndependent areas corner := by
  by_cases covered : ∃ area ∈ areas, corner area = true
  swap
  · apply cellIndependent_of_missed
    intro area member
    exact Bool.eq_false_iff.mpr fun reaches => covered ⟨area, member, reaches⟩
  obtain ⟨hit, hitMem, reaches⟩ := covered
  obtain ⟨top, topMem, highest⟩ :=
    Set.exists_max_image {area | area ∈ areas.filter corner}
      MapArea.heightLimit (List.finite_toSet _)
      ⟨hit, List.mem_filter.mpr ⟨hitMem, reaches⟩⟩
  have few := highestEarly top topMem highest
  refine ⟨((top.heightLimit : WithTop K) : Restriction K),
    fun order perm => ?_⟩
  have hits : ∀ area ∈ order, corner area = true → area ∈ areas.filter corner :=
    fun area member reaches =>
      List.mem_filter.mpr ⟨perm.mem_iff.mp member, reaches⟩
  -- the first area in this order with the highest limit
  obtain ⟨first, found⟩ : ∃ first,
      order.find? (HasLimit corner top.heightLimit) = some first := by
    rw [← Option.isSome_iff_exists, List.find?_isSome]
    have topHit := List.mem_filter.mp topMem
    exact ⟨top, perm.mem_iff.mpr topHit.1, hasLimit_iff.mpr ⟨topHit.2, rfl⟩⟩
  obtain ⟨has, early, late, rfl, before⟩ :=
    List.find?_eq_some_iff_append.mp found
  obtain ⟨firstReaches, sameLimit⟩ := hasLimit_iff.mp has
  have earlyFew : early.length < 127 := by
    rw [← perm.countP_eq, List.countP_append, List.countP_eq_length.mpr before]
      at few
    omega
  rw [← sameLimit] at before highest ⊢
  obtain ⟨recorded, outcome⟩ := recordAreas_of_early earlyFew firstReaches
    (fun area member reaches => ⟨limited area (hits area member reaches),
      highest area (hits area member reaches)⟩)
    (fun area member => by simpa using before area member)
  exact ⟨_, recorded, outcome, fun area member noFly reaches =>
    absurd noFly (limited area (hits area member reaches))⟩

/-- The number of an area after 127 others is negative and stays so. -/
theorem not_pos_of_late {early late : List (MapArea K)} {top : MapArea K}
    {number : Int8} (count : early.length = 127) (reaches : corner top = true)
    (limited : ∀ area ∈ early ++ top :: late, corner area = true →
      ¬area.NoFly)
    (lower : ∀ area ∈ early.filter corner, area.heightLimit < top.heightLimit)
    (recorded : recordAreas (early ++ top :: late) corner = some number) :
    ¬0 < number := by
  have raised : recordPrefix (early ++ top :: late) corner (early ++ [top]) =
      some (.ofInt (early.length + 1)) :=
    recordPrefix_of_raised rfl count.le reaches (limited top (by simp) reaches)
      lower
  rw [count] at raised
  have lateLimited : ∀ area ∈ late, corner area = true → ¬area.NoFly :=
    fun area member => limited area
      (List.mem_append_right _ (List.mem_cons_of_mem _ member))
  have stays := recordPrefix_of_negative raised (by decide) lateLimited
  rw [List.append_assoc, List.singleton_append, recordPrefix_self, recorded]
    at stays
  obtain undefined | same := stays
  · cases undefined
  · rw [Option.some_inj.mp same]
    decide

/-- An area with the highest limit of the cell must not come after 127 others
without it. -/
theorem CellIndependent.highestEarly
    (independent : CellIndependent areas corner)
    (limited : ∀ area ∈ areas.filter corner, ¬area.NoFly) :
    HighestEarly areas corner := by
  intro top topMem highest
  by_contra! many
  obtain ⟨outcome, independent⟩ := independent
  obtain ⟨topIn, topReaches⟩ := List.mem_filter.mp topMem
  let others := areas.filter fun area => !HasLimit corner top.heightLimit area
  rw [List.countP_eq_length_filter] at many
  obtain ⟨front, back, split⟩ := List.append_of_mem (List.mem_filter.mpr
    ⟨topIn, hasLimit_iff.mpr ⟨topReaches, rfl⟩⟩)
  have total : (top :: (front ++ back ++ others)).Perm areas := by
    refine List.Perm.trans ?_
      (List.filter_append_perm (HasLimit corner top.heightLimit) areas)
    rw [split, ← List.cons_append]
    exact List.perm_middle.symm.append_right others
  have reordered : (others.take 127 ++
      top :: (others.drop 127 ++ (front ++ back))).Perm areas := by
    refine List.Perm.trans ?_ total
    refine List.perm_middle.trans (List.Perm.cons top ?_)
    rw [← List.append_assoc, List.take_append_drop]
    exact List.perm_append_comm
  have hits : ∀ {order : List (MapArea K)}, order.Perm areas → ∀ area ∈ order,
      corner area = true → area ∈ areas.filter corner :=
    fun perm area member reaches =>
      List.mem_filter.mpr ⟨perm.mem_iff.mp member, reaches⟩
  -- first in the file the area is recorded
  have first : outcome = ((top.heightLimit : WithTop K) : Restriction K) := by
    obtain ⟨number, recorded, same, -⟩ := independent _ total
    obtain ⟨records, limit⟩ : recordAreas ([] ++ top :: _) corner = _ ∧ _ :=
      recordAreas_of_early (Nat.zero_lt_succ 126) topReaches
        (fun area member reaches => ⟨limited area (hits total _ member reaches),
          highest area (hits total _ member reaches)⟩)
        (List.forall_mem_nil _)
    obtain rfl := Option.some_inj.mp (recorded.symm.trans records)
    exact same.symm.trans limit
  -- and after 127 others its number is lost
  obtain ⟨number, recorded, same, -⟩ := independent _ reordered
  have lower : ∀ area ∈ (others.take 127).filter corner,
      area.heightLimit < top.heightLimit := by
    intro area member
    obtain ⟨isOther, hit⟩ := List.mem_filter.mp member
    obtain ⟨isArea, without⟩ := List.mem_filter.mp (List.mem_of_mem_take isOther)
    refine lt_of_le_of_ne (highest area (List.mem_filter.mpr ⟨isArea, hit⟩))
      fun equal => ?_
    rw [hasLimit_iff.mpr ⟨hit, equal⟩] at without
    cases without
  have lost := not_pos_of_late (List.length_take_of_le many) topReaches
    (fun area member reaches => limited area (hits reordered _ member reaches))
    lower recorded
  rw [areaOf_of_nonpos lost, first] at same
  exact WithBot.coe_ne_bot same.symm

/-- Exactly the settled cells get the same restriction for every order. -/
theorem cellIndependent_iff_settled :
    CellIndependent areas corner ↔ Settled areas corner := by
  unfold Settled
  split
  · next noFly =>
    obtain ⟨area, member, noFly⟩ := noFly
    obtain ⟨isArea, reaches⟩ := List.mem_filter.mp member
    constructor
    · intro independent
      obtain few | many := le_or_gt areas.length 127
      · exact .inl ⟨few, independent.unmixed few⟩
      · exact .inr ⟨many, independent.wrapsToNoFly many isArea reaches noFly⟩
    · rintro (⟨few, unmixed⟩ | ⟨many, wraps⟩)
      · exact cellIndependent_of_unmixed few unmixed
      · exact cellIndependent_of_wrapsToNoFly many wraps
  · next limited =>
    push Not at limited
    exact ⟨fun independent => independent.highestEarly limited,
      cellIndependent_of_highestEarly limited⟩

end Orders

end Hdmap
end Pilot2Cloud
