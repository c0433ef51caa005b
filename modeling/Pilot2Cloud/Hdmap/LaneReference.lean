import Mathlib
import Pilot2Cloud.Hdmap.LaneLookup

/-!
# The lane look-up and its reference

The reference takes the block whose rectangle contains the coordinate, and
checks both markers of each lane anew.  The cache changes nothing as long as its
rows suffice, and their number depends on the lanes of the block alone.
-/

namespace Pilot2Cloud
namespace Hdmap

open Foundation

/-! ## The reference -/

section Definitions

variable {K : Type} [Field K] [LinearOrder K]

namespace BlockTable

variable (map : BlockTable K)

/-- The loop over the lanes with the sides of the markers checked anew. -/
def plainLanes (utm_x utm_y : K) (lanes : List BlockLane) : LaneSearch K :=
  lanes.foldl
    (fun search lane => search.consider lane.lane_i
      (map.leftSide utm_x utm_y lane) (map.rightSide utm_x utm_y lane))
    ⟨-1, -1⟩

/-- The search in a block without a cache. -/
def plainBlock (utm_x utm_y : K) (block : BlockInfo) : IDResult K :=
  match map.searchAreas utm_x utm_y block with
  | some found => .PF_MAP_SUCCESS found
  | none => map.laneResult (map.plainLanes utm_x utm_y block.lanes)

/-- The search in a block that may be missing. -/
def plainEntry (utm_x utm_y : K) : Option BlockInfo → IDResult K
  | none => .PF_MAP_ERR
  | some block => map.plainBlock utm_x utm_y block

/-- The rectangle of a block contains the coordinate. -/
structure InBlock (j i : ℕ) (utm_x utm_y : K) : Prop where
  row : j < map.gu32BlockCount_y.toNat
  column : i < map.gu32BlockCount_x.toNat
  atX : InInterval map.gdbUtmOffset_x (map.gu32Block_w.toNat : K) i utm_x
  atY : InInterval map.gdbUtmOffset_y (map.gu32Block_h.toNat : K) j utm_y

/-- The number of the block in a row and a column. -/
def numberOf (j i : ℕ) : ℕ := map.gu32BlockCount_x.toNat * j + i

/-- The coordinate is in the rectangle of the map. -/
def InMap (utm_x utm_y : K) : Prop := ∃ j i, map.InBlock j i utm_x utm_y

variable [FloorRing K]

/-- The look-up does not leave the rows of the cache, fails outside of the map,
and gives the result of the reference inside. -/
def MeetsReference (utm_x utm_y : K) : Prop :=
  ∃ result, map.getIDByUtm utm_x utm_y = some result ∧
    (¬map.InMap utm_x utm_y → result = .PF_MAP_ERR) ∧
    ∀ j i, map.InBlock j i utm_x utm_y →
      result = map.plainEntry utm_x utm_y (map.pastMapBlock (map.numberOf j i))

end BlockTable
end Definitions

/-! ## The rows that are needed -/

namespace BlockLane

/-- The markers of a lane. -/
def ranges (lane : BlockLane) : List MarkerRange := [lane.left, lane.right]

/-- The left marker is the right one. -/
def OneMarker (lane : BlockLane) : Prop :=
  0 < lane.left.nodeLineCount ∧ lane.left = lane.right

instance : DecidablePred OneMarker :=
  fun _ => inferInstanceAs (Decidable (_ ∧ _))

end BlockLane

/-- The markers of lanes. -/
def markerRanges (lanes : List BlockLane) : List MarkerRange :=
  lanes.flatMap BlockLane.ranges

/-- The different markers that are in the block. -/
def presentMarkers (ranges : List MarkerRange) : Finset MarkerRange :=
  (ranges.filter (0 < ·.nodeLineCount)).toFinset

/-- How many rows the lanes take: one for each marker, one for each time that a
marker is named that is not in the block, and one for each lane whose markers
are the same. -/
def rowsNeeded (lanes : List BlockLane) : ℕ :=
  (markerRanges lanes).countP (¬0 < ·.nodeLineCount) +
    (presentMarkers (markerRanges lanes)).card +
    lanes.countP (BlockLane.OneMarker ·)

namespace BlockInfo

variable (block : BlockInfo)

/-- A marker has the same node range in all lanes. -/
def SameRanges : Prop :=
  ∀ range ∈ markerRanges block.lanes, ∀ other ∈ markerRanges block.lanes,
    range.lanemarker_i = other.lanemarker_i → range = other

end BlockInfo

/-- The IDs of the markers are unique and not zero. -/
structure BlockTable.UniqueIDs {K : Type} (map : BlockTable K) : Prop where
  nonzero : ∀ i, (map.pastLanemarker i).ID ≠ 0
  injective : ∀ i j, (map.pastLanemarker i).ID = (map.pastLanemarker j).ID →
    i = j

theorem BlockTable.UniqueIDs.markerID_ne_zero {K : Type}
    {map : BlockTable K} (ids : map.UniqueIDs) (range : MarkerRange) :
    map.markerID range ≠ 0 :=
  ids.nonzero range.lanemarker_i

/-! ## Counting rows -/

@[simp] theorem markerRanges_append (done lanes : List BlockLane) :
    markerRanges (done ++ lanes) = markerRanges done ++ markerRanges lanes :=
  List.flatMap_append

@[simp] theorem markerRanges_singleton (lane : BlockLane) :
    markerRanges [lane] = [lane.left, lane.right] := rfl

/-- The left marker is found in the rows for the lanes before. -/
def RecallsLeft (done : List BlockLane) (lane : BlockLane) : Prop :=
  0 < lane.left.nodeLineCount ∧ lane.left ∈ markerRanges done ∧
    lane.left ≠ lane.right

instance (done : List BlockLane) (lane : BlockLane) :
    Decidable (RecallsLeft done lane) :=
  inferInstanceAs (Decidable (_ ∧ _ ∧ _))

/-- The right marker is found in the rows for the lanes before. -/
def RecallsRight (done : List BlockLane) (lane : BlockLane) : Prop :=
  0 < lane.right.nodeLineCount ∧ lane.right ∈ markerRanges done

instance (done : List BlockLane) (lane : BlockLane) :
    Decidable (RecallsRight done lane) :=
  inferInstanceAs (Decidable (_ ∧ _))

/-- One more range adds a marker when it has nodes and is new. -/
theorem card_presentMarkers_concat (ranges : List MarkerRange)
    (range : MarkerRange) :
    (presentMarkers (ranges ++ [range])).card =
      (presentMarkers ranges).card +
        if 0 < range.nodeLineCount ∧ range ∉ ranges then 1 else 0 := by
  unfold presentMarkers
  by_cases present : 0 < range.nodeLineCount
  · by_cases known : range ∈ ranges <;>
      simp [present, known, List.toFinset_append]
  · simp [present]

/-- A lane takes a row for each marker that is not found. -/
theorem rowsNeeded_concat (done : List BlockLane) (lane : BlockLane) :
    rowsNeeded (done ++ [lane]) =
      rowsNeeded done + (if RecallsLeft done lane then 0 else 1) +
        if RecallsRight done lane then 0 else 1 := by
  have split : markerRanges (done ++ [lane]) =
      (markerRanges done ++ [lane.left]) ++ [lane.right] := by simp
  unfold rowsNeeded
  rw [split, card_presentMarkers_concat, card_presentMarkers_concat,
    List.countP_append, List.countP_append, List.countP_append,
    List.countP_singleton, List.countP_singleton, List.countP_singleton]
  unfold RecallsLeft RecallsRight BlockLane.OneMarker
  simp only [decide_eq_true_eq, List.mem_append, List.mem_singleton]
  obtain ⟨lane_i, left, right⟩ := lane
  dsimp only
  by_cases one : left = right
  · subst one
    by_cases present : 0 < left.nodeLineCount
    · by_cases known : left ∈ markerRanges done <;>
        simp only [present, known] <;> simp <;> omega
    · simp only [present]
      simp
      omega
  · have other : right ≠ left := Ne.symm one
    by_cases leftPresent : 0 < left.nodeLineCount <;>
      by_cases rightPresent : 0 < right.nodeLineCount <;>
      by_cases leftKnown : left ∈ markerRanges done <;>
      by_cases rightKnown : right ∈ markerRanges done <;>
      simp only [leftPresent, rightPresent, leftKnown, rightKnown,
        other] <;> simp [one] <;> omega

/-! ## What is recorded -/

section Rows

variable {K : Type} [Field K] [LinearOrder K] {map : BlockTable K}
  {utm_x utm_y : K} {done : List BlockLane} {lane : BlockLane}
  {rows used : List (MarkerEntry K)}

/-- The row that is written for a marker, unless it is found. -/
def newRow (ID : ℤ) (fresh : MarkerSide K) (recalls : Prop)
    [Decidable recalls] : List (MarkerEntry K) :=
  if recalls then [] else [⟨ID, fresh.1, fresh.2⟩]

omit [Field K] [LinearOrder K] in
theorem mem_newRow {ID : ℤ} {fresh : MarkerSide K} {recalls : Prop}
    [Decidable recalls] {entry : MarkerEntry K} :
    entry ∈ newRow ID fresh recalls ↔
      ¬recalls ∧ entry = ⟨ID, fresh.1, fresh.2⟩ := by
  unfold newRow
  split_ifs with found <;> simp [found]

omit [Field K] [LinearOrder K] in
@[simp] theorem length_newRow (ID : ℤ) (fresh : MarkerSide K)
    (recalls : Prop) [Decidable recalls] :
    (newRow ID fresh recalls).length = if recalls then 0 else 1 := by
  unfold newRow
  split_ifs <;> rfl

omit [Field K] [LinearOrder K] in
/-- A marker is recorded, if there is room. -/
theorem exists_recordSide {ID : ℤ} (nonzero : ID ≠ 0) (fresh : MarkerSide K)
    (recalls : Prop) [Decidable recalls]
    (holds : SlotCache.Holds MarkerEntry.Free rows used)
    (room : (used ++ newRow ID fresh recalls).length ≤ rows.length) :
    ∃ stored, recordSide rows used.length ID fresh
        (if recalls then some fresh else none) =
        some ⟨stored, (used ++ newRow ID fresh recalls).length, fresh⟩ ∧
      stored.length = rows.length ∧
      SlotCache.Holds MarkerEntry.Free stored
        (used ++ newRow ID fresh recalls) := by
  unfold newRow at room ⊢
  by_cases found : recalls
  · rw [if_pos found, if_pos found, List.append_nil]
    exact ⟨rows, rfl, rfl, holds⟩
  · rw [if_neg found, List.length_append, List.length_singleton] at room
    have notFree :
        ¬MarkerEntry.Free (⟨ID, fresh.1, fresh.2⟩ : MarkerEntry K) := nonzero
    obtain ⟨stored, isStored, sameLength, holds⟩ :=
      holds.exists_store notFree room
    rw [if_neg found, if_neg found]
    refine ⟨stored, ?_, sameLength, holds⟩
    unfold recordSide
    rw [isStored, List.length_append, List.length_singleton]
    rfl

omit [Field K] [LinearOrder K] in
/-- A row beyond the last one is not defined. -/
theorem recordSide_of_full (ID : ℤ) (fresh : MarkerSide K) (recalls : Prop)
    [Decidable recalls] (holds : SlotCache.Holds MarkerEntry.Free rows used)
    (full : rows.length < (used ++ newRow ID fresh recalls).length) :
    recordSide rows used.length ID fresh
      (if recalls then some fresh else none) = none := by
  unfold newRow at full
  by_cases found : recalls
  · rw [if_pos found, List.append_nil] at full
    exact absurd holds.length_le full.not_ge
  · rw [if_neg found, List.length_append, List.length_singleton] at full
    rw [if_neg found]
    unfold recordSide
    rw [SlotCache.store_of_full _ (Nat.lt_succ_iff.mp full)]
    rfl

/-- A marker in the block has one side on the left and on the right of a
lane. -/
theorem markerSide_of_present {range : MarkerRange}
    (present : 0 < range.nodeLineCount) (absent other : LineSide) :
    map.markerSide utm_x utm_y absent range =
      map.markerSide utm_x utm_y other range := by
  unfold BlockTable.markerSide
  rw [if_neg present.ne', if_neg present.ne']

/-- What the rows hold after some of the lanes of a block. -/
structure Cached (map : BlockTable K) (utm_x utm_y : K)
    (done : List BlockLane) (rows used : List (MarkerEntry K)) : Prop where
  holds : SlotCache.Holds MarkerEntry.Free rows used
  length : rows.length = 64
  sound : ∀ entry ∈ used, ∃ range ∈ markerRanges done,
    entry.ID = map.markerID range ∧
      (0 < range.nodeLineCount → ∀ absent, (entry.state, entry.distance) =
        map.markerSide utm_x utm_y absent range)
  complete : ∀ range ∈ markerRanges done, 0 < range.nodeLineCount →
    ∃ entry ∈ used, entry.ID = map.markerID range
  number : used.length = rowsNeeded done

omit [LinearOrder K] [Field K] in
/-- The right side that is found is that of the last entry of the right
marker. -/
theorem foldl_look_right (found : FoundSides K) :
    (used.foldl (map.look lane) found).right =
      used.foldl
        (fun side entry =>
          if map.Shows lane.right entry then some (entry.state, entry.distance)
          else side)
        found.right := by
  induction used generalizing found with
  | nil => rfl
  | cons entry used inductionHypothesis =>
      rw [List.foldl_cons, List.foldl_cons, inductionHypothesis]
      congr 1
      unfold BlockTable.look
      split_ifs <;> rfl

omit [LinearOrder K] [Field K] in
/-- The left side that is found is that of the last entry of the left marker. -/
theorem foldl_look_left (found : FoundSides K) :
    (used.foldl (map.look lane) found).left =
      used.foldl
        (fun side entry =>
          if ¬map.Shows lane.right entry ∧ map.Shows lane.left entry then
            some (entry.state, entry.distance)
          else side)
        found.left := by
  induction used generalizing found with
  | nil => rfl
  | cons entry used inductionHypothesis =>
      rw [List.foldl_cons, List.foldl_cons, inductionHypothesis]
      congr 1
      unfold BlockTable.look
      split_ifs <;> simp_all

/-- The ranges that lanes name, of which two for one marker are the same. -/
def Agree (map : BlockTable K) (ranges : List MarkerRange) : Prop :=
  ∀ range ∈ ranges, ∀ other ∈ ranges,
    map.markerID range = map.markerID other → range = other

namespace Cached

omit [LinearOrder K] [Field K] in
/-- Lanes of one block with the same ranges agree on their markers. -/
theorem agree_of_sameRanges {block : BlockInfo} (ids : map.UniqueIDs)
    (same : block.SameRanges) : Agree map (markerRanges block.lanes) := by
  intro range isRange other isOther sameID
  exact same range isRange other isOther (ids.injective _ _ sameID)

/-- A row that is for a marker has its side. -/
theorem eq_of_shows (cached : Cached map utm_x utm_y done rows used)
    (agree : Agree map (markerRanges (done ++ [lane]))) {range : MarkerRange}
    (isRange : range ∈ lane.ranges) (absent : LineSide) :
    ∀ entry ∈ used, map.Shows range entry →
      range ∈ markerRanges done ∧ (entry.state, entry.distance) =
        map.markerSide utm_x utm_y absent range := by
  intro entry isEntry shows
  obtain ⟨present, sameID⟩ := shows
  obtain ⟨other, isOther, isID, side⟩ := cached.sound entry isEntry
  have isSame : range = other := by
    apply agree range _ other _ (sameID.symm.trans isID)
    · rw [markerRanges_append]
      exact List.mem_append_right _ isRange
    · rw [markerRanges_append]
      exact List.mem_append_left _ isOther
  subst isSame
  exact ⟨isOther, side present absent⟩

/-- What a search finds for the right marker of a lane. -/
theorem found_right (cached : Cached map utm_x utm_y done rows used)
    (agree : Agree map (markerRanges (done ++ [lane]))) :
    (used.foldl (map.look lane) ⟨none, none⟩).right =
      if RecallsRight done lane then some (map.rightSide utm_x utm_y lane)
      else none := by
  have isRange : lane.right ∈ lane.ranges := by simp [BlockLane.ranges]
  have side := cached.eq_of_shows agree isRange .LEFT_SIDE
  rw [foldl_look_right, SlotCache.foldl_recall (map.Shows lane.right)
    (fun entry => (entry.state, entry.distance))
    fun entry isEntry shows => (side entry isEntry shows).2]
  apply if_congr _ rfl rfl
  constructor
  · rintro ⟨entry, isEntry, shows⟩
    exact ⟨shows.1, (side entry isEntry shows).1⟩
  · rintro ⟨present, known⟩
    obtain ⟨entry, isEntry, sameID⟩ := cached.complete _ known present
    exact ⟨entry, isEntry, present, sameID⟩

/-- What a search finds for the left marker of a lane. -/
theorem found_left (cached : Cached map utm_x utm_y done rows used)
    (agree : Agree map (markerRanges (done ++ [lane]))) :
    (used.foldl (map.look lane) ⟨none, none⟩).left =
      if RecallsLeft done lane then some (map.leftSide utm_x utm_y lane)
      else none := by
  have isLeft : lane.left ∈ lane.ranges := by simp [BlockLane.ranges]
  have isRight : lane.right ∈ lane.ranges := by simp [BlockLane.ranges]
  have side := cached.eq_of_shows agree isLeft .RIGHT_SIDE
  rw [foldl_look_left, SlotCache.foldl_recall
    (fun entry => ¬map.Shows lane.right entry ∧ map.Shows lane.left entry)
    (fun entry => (entry.state, entry.distance))
    fun entry isEntry shows => (side entry isEntry shows.2).2]
  apply if_congr _ rfl rfl
  constructor
  · rintro ⟨entry, isEntry, notRight, shows⟩
    refine ⟨shows.1, (side entry isEntry shows).1, ?_⟩
    intro one
    rw [← one] at notRight
    exact notRight shows
  · rintro ⟨present, known, two⟩
    obtain ⟨entry, isEntry, sameID⟩ := cached.complete _ known present
    refine ⟨entry, isEntry, ?_, present, sameID⟩
    rintro ⟨-, rightID⟩
    apply two
    apply agree _ _ _ _ (sameID.symm.trans rightID)
    · rw [markerRanges_append]
      exact List.mem_append_right _ isLeft
    · rw [markerRanges_append]
      exact List.mem_append_right _ isRight

/-- The rows after the left marker of a lane. -/
def afterLeft (map : BlockTable K) (utm_x utm_y : K) (done : List BlockLane)
    (lane : BlockLane) (used : List (MarkerEntry K)) : List (MarkerEntry K) :=
  used ++ newRow (map.markerID lane.left) (map.leftSide utm_x utm_y lane)
    (RecallsLeft done lane)

/-- The rows after a lane. -/
def after (map : BlockTable K) (utm_x utm_y : K) (done : List BlockLane)
    (lane : BlockLane) (used : List (MarkerEntry K)) : List (MarkerEntry K) :=
  afterLeft map utm_x utm_y done lane used ++
    newRow (map.markerID lane.right) (map.rightSide utm_x utm_y lane)
      (RecallsRight done lane)

/-- The rows after a lane are those that it needs. -/
theorem length_after (cached : Cached map utm_x utm_y done rows used)
    (lane : BlockLane) :
    (after map utm_x utm_y done lane used).length =
      rowsNeeded (done ++ [lane]) := by
  unfold after afterLeft
  rw [List.length_append, List.length_append, length_newRow, length_newRow,
    rowsNeeded_concat, cached.number]

/-- The rows after a lane are right again. -/
theorem concat (cached : Cached map utm_x utm_y done rows used)
    {stored : List (MarkerEntry K)}
    (holds : SlotCache.Holds MarkerEntry.Free stored
      (after map utm_x utm_y done lane used))
    (length : stored.length = 64) :
    Cached map utm_x utm_y (done ++ [lane]) stored
      (after map utm_x utm_y done lane used) where
  holds := holds
  length := length
  number := cached.length_after lane
  sound := by
    intro entry isEntry
    unfold after afterLeft at isEntry
    rw [List.mem_append, List.mem_append, mem_newRow, mem_newRow] at isEntry
    rw [markerRanges_append, markerRanges_singleton]
    obtain (isOld | ⟨-, rfl⟩) | ⟨-, rfl⟩ := isEntry
    · obtain ⟨range, isRange, side⟩ := cached.sound entry isOld
      exact ⟨range, List.mem_append_left _ isRange, side⟩
    · refine ⟨lane.left, by simp, rfl, ?_⟩
      exact fun present absent => markerSide_of_present present _ absent
    · refine ⟨lane.right, by simp, rfl, ?_⟩
      exact fun present absent => markerSide_of_present present _ absent
  complete := by
    intro range isRange present
    rw [markerRanges_append, markerRanges_singleton, List.mem_append,
      List.mem_cons, List.mem_singleton] at isRange
    unfold after afterLeft
    by_cases known : range ∈ markerRanges done
    · obtain ⟨entry, isEntry, sameID⟩ := cached.complete range known present
      exact ⟨entry, List.mem_append_left _ (List.mem_append_left _ isEntry),
        sameID⟩
    · obtain isLeft | isRight := isRange.resolve_left known
      · subst isLeft
        have notRecalled : ¬RecallsLeft done lane := fun recalls =>
          known recalls.2.1
        exact ⟨_, List.mem_append_left _ (List.mem_append_right _
          (mem_newRow.mpr ⟨notRecalled, rfl⟩)), rfl⟩
      · subst isRight
        have notRecalled : ¬RecallsRight done lane := fun recalls =>
          known recalls.2
        exact ⟨_, List.mem_append_right _
          (mem_newRow.mpr ⟨notRecalled, rfl⟩), rfl⟩

/-- A lane for which there is room is considered with the sides of its markers
checked anew. -/
theorem exists_step (cached : Cached map utm_x utm_y done rows used)
    (ids : map.UniqueIDs) (agree : Agree map (markerRanges (done ++ [lane])))
    (room : rowsNeeded (done ++ [lane]) ≤ 64) :
    ∃ stored, Cached map utm_x utm_y (done ++ [lane]) stored
        (after map utm_x utm_y done lane used) ∧
      ∀ lanes search,
        map.searchLanes utm_x utm_y (lane :: lanes) rows search =
          map.searchLanes utm_x utm_y lanes stored
            (search.consider lane.lane_i (map.leftSide utm_x utm_y lane)
              (map.rightSide utm_x utm_y lane)) := by
  have fits : (after map utm_x utm_y done lane used).length ≤ 64 :=
    (cached.length_after lane).trans_le room
  have leftFits : (afterLeft map utm_x utm_y done lane used).length ≤ 64 := by
    unfold after at fits
    rw [List.length_append] at fits
    omega
  obtain ⟨leftRows, isLeft, leftLength, leftHolds⟩ := exists_recordSide
    (ids.markerID_ne_zero lane.left) (map.leftSide utm_x utm_y lane)
    (RecallsLeft done lane) cached.holds (leftFits.trans cached.length.ge)
  rw [cached.length] at leftLength
  obtain ⟨rightRows, isRight, rightLength, rightHolds⟩ := exists_recordSide
    (ids.markerID_ne_zero lane.right) (map.rightSide utm_x utm_y lane)
    (RecallsRight done lane) leftHolds (fits.trans leftLength.ge)
  refine ⟨rightRows, cached.concat rightHolds (rightLength.trans leftLength),
    ?_⟩
  intro lanes search
  rw [BlockTable.searchLanes, cached.holds.scan_eq]
  dsimp only
  rw [cached.found_left agree, cached.found_right agree, isLeft,
    Option.bind_some, isRight, Option.bind_some]

/-- A lane for which there is no room is not defined. -/
theorem searchLanes_of_full (cached : Cached map utm_x utm_y done rows used)
    (ids : map.UniqueIDs) (agree : Agree map (markerRanges (done ++ [lane])))
    (full : 64 < rowsNeeded (done ++ [lane])) (lanes : List BlockLane)
    (search : LaneSearch K) :
    map.searchLanes utm_x utm_y (lane :: lanes) rows search = none := by
  have exceeds : 64 < (after map utm_x utm_y done lane used).length :=
    full.trans_eq (cached.length_after lane).symm
  rw [BlockTable.searchLanes, cached.holds.scan_eq]
  dsimp only
  rw [cached.found_left agree, cached.found_right agree]
  by_cases leftFits : (afterLeft map utm_x utm_y done lane used).length ≤ 64
  · obtain ⟨leftRows, isLeft, leftLength, leftHolds⟩ := exists_recordSide
      (ids.markerID_ne_zero lane.left) (map.leftSide utm_x utm_y lane)
      (RecallsLeft done lane) cached.holds (leftFits.trans cached.length.ge)
    rw [cached.length] at leftLength
    rw [isLeft, Option.bind_some]
    have noRight := recordSide_of_full (map.markerID lane.right)
      (map.rightSide utm_x utm_y lane) (RecallsRight done lane) leftHolds
      (leftLength.trans_lt exceeds)
    rw [noRight, Option.bind_none]
  · have noLeft := recordSide_of_full (map.markerID lane.left)
      (map.leftSide utm_x utm_y lane) (RecallsLeft done lane) cached.holds
      (cached.length.trans_lt (not_le.mp leftFits))
    rw [noLeft, Option.bind_none]

/-- One more lane is looked at after the lanes before it. -/
theorem plainLanes_concat (map : BlockTable K) (utm_x utm_y : K)
    (done : List BlockLane) (lane : BlockLane) :
    map.plainLanes utm_x utm_y (done ++ [lane]) =
      (map.plainLanes utm_x utm_y done).consider lane.lane_i
        (map.leftSide utm_x utm_y lane) (map.rightSide utm_x utm_y lane) := by
  unfold BlockTable.plainLanes
  rw [List.foldl_append, List.foldl_cons, List.foldl_nil]

theorem rowsNeeded_le_append (done lanes : List BlockLane) :
    rowsNeeded done ≤ rowsNeeded (done ++ lanes) := by
  induction lanes using List.reverseRecOn with
  | nil => rw [List.append_nil]
  | append_singleton lanes lane inductionHypothesis =>
      rw [← List.append_assoc, rowsNeeded_concat]
      omega

/-- The loop over the lanes gives what it gives without a cache, if the rows
suffice. -/
theorem searchLanes_eq (cached : Cached map utm_x utm_y done rows used)
    (ids : map.UniqueIDs) (lanes : List BlockLane)
    (agree : Agree map (markerRanges (done ++ lanes))) :
    map.searchLanes utm_x utm_y lanes rows
        (map.plainLanes utm_x utm_y done) =
      if rowsNeeded (done ++ lanes) ≤ 64 then
        some (map.plainLanes utm_x utm_y (done ++ lanes))
      else none := by
  induction lanes generalizing done rows used with
  | nil =>
      have fits : rowsNeeded done ≤ 64 := by
        rw [← cached.number, ← cached.length]
        exact cached.holds.length_le
      rw [List.append_nil, if_pos fits]
      rfl
  | cons lane lanes inductionHypothesis =>
      have split : done ++ lane :: lanes = (done ++ [lane]) ++ lanes := by simp
      rw [split] at agree ⊢
      have agreeFirst : Agree map (markerRanges (done ++ [lane])) := by
        intro range isRange other isOther
        rw [markerRanges_append] at agree
        exact agree range (List.mem_append_left _ isRange) other
          (List.mem_append_left _ isOther)
      by_cases room : rowsNeeded (done ++ [lane]) ≤ 64
      · obtain ⟨stored, cachedNext, isStep⟩ :=
          cached.exists_step ids agreeFirst room
        rw [isStep, ← plainLanes_concat]
        exact inductionHypothesis cachedNext agree
      · have exceeds := rowsNeeded_le_append (done ++ [lane]) lanes
        rw [cached.searchLanes_of_full ids agreeFirst (not_le.mp room),
          if_neg (by omega)]

/-- The empty rows hold the results of no lanes. -/
theorem of_emptyRows (map : BlockTable K) (utm_x utm_y : K) :
    Cached map utm_x utm_y [] emptyRows [] where
  holds := SlotCache.Holds.of_free fun entry isEntry => by
    rw [List.eq_of_mem_replicate isEntry]
    exact rfl
  length := List.length_replicate
  sound := List.forall_mem_nil _
  complete := List.forall_mem_nil _
  number := rfl

end Cached

namespace BlockTable

/-- The rows suffice for the lanes, unless something comes before them. -/
def RowsFit (map : BlockTable K) (utm_x utm_y : K) (block : BlockInfo) :
    Prop :=
  map.searchAreas utm_x utm_y block ≠ none ∨ rowsNeeded block.lanes ≤ 64

/-- The search in a block gives what it gives without a cache exactly if the
rows suffice, and is not defined otherwise. -/
theorem searchBlock_eq_some_iff {block : BlockInfo} {result : IDResult K}
    (ids : map.UniqueIDs) (same : block.SameRanges) :
    map.searchBlock utm_x utm_y block = some result ↔
      map.RowsFit utm_x utm_y block ∧
        result = map.plainBlock utm_x utm_y block := by
  unfold searchBlock plainBlock RowsFit
  cases found : map.searchAreas utm_x utm_y block with
  | some element => simp [eq_comm]
  | none =>
      have lanes : map.searchLanes utm_x utm_y block.lanes emptyRows ⟨-1, -1⟩ =
          if rowsNeeded block.lanes ≤ 64 then
            some (map.plainLanes utm_x utm_y block.lanes) else none :=
        (Cached.of_emptyRows map utm_x utm_y).searchLanes_eq ids block.lanes
          (Cached.agree_of_sameRanges ids same)
      dsimp only
      rw [lanes]
      by_cases fits : rowsNeeded block.lanes ≤ 64
      · simp [fits, eq_comm]
      · simp [fits]

end BlockTable
end Rows

/-! ## The block of a coordinate -/

namespace BlockTable

section Table

variable {K : Type} [Field K] [LinearOrder K] {map : BlockTable K}

/-- The block with a number that is accepted. -/
def blockOf (map : BlockTable K) (number : ℕ) : Option BlockInfo :=
  if number < 2 ^ 31 ∧
      number < map.gu32BlockCount_x.toNat * map.gu32BlockCount_y.toNat then
    map.pastMapBlock number
  else none

omit [Field K] [LinearOrder K] in
theorem blockAt_eq (number : UInt32) :
    map.blockAt number = map.blockOf number.toNat := by
  have fits := map.countFits
  have negative : number.toInt32 < 0 ↔ ¬number.toNat < 2 ^ 31 := by
    rw [Int32.lt_iff_toInt_lt, ← Int32.toInt_toBitVec,
      UInt32.toBitVec_toInt32, BitVec.toInt_eq_toNat_cond,
      UInt32.toNat_toBitVec, Int32.toInt_zero]
    have less := number.toNat_lt
    split_ifs <;> omega
  have beyond : map.gu32BlockCount_x * map.gu32BlockCount_y ≤ number ↔
      ¬number.toNat <
        map.gu32BlockCount_x.toNat * map.gu32BlockCount_y.toNat := by
    rw [UInt32.le_iff_toNat_le, UInt32.toNat_mul, Nat.mod_eq_of_lt fits,
      not_lt]
  unfold blockAt blockOf
  dsimp only
  by_cases accepted : number.toNat < 2 ^ 31 ∧
      number.toNat < map.gu32BlockCount_x.toNat * map.gu32BlockCount_y.toNat
  · rw [if_pos accepted, if_neg]
    rw [UInt32.toUInt32_toInt32, negative, beyond]
    tauto
  · rw [if_neg accepted, if_pos]
    rw [UInt32.toUInt32_toInt32, negative, beyond]
    tauto

variable [FloorRing K] {utm_x utm_y : K} {row column : ℕ}

/-- The quotients for the row and the column can be converted. -/
structure Quotients (map : BlockTable K) (utm_x utm_y : K)
    (row column : ℕ) : Prop where
  height : map.gu32Block_h ≠ 0
  width : map.gu32Block_w ≠ 0
  isRow : truncate ((utm_y - map.gdbUtmOffset_y) /
    (map.gu32Block_h.toNat : K)) = row
  isColumn : truncate ((utm_x - map.gdbUtmOffset_x) /
    (map.gu32Block_w.toNat : K)) = column
  rowFits : row < 2 ^ 32
  columnFits : column < 2 ^ 32

/-- A quotient is the truncated one of the exact difference when the size is not
zero. -/
theorem quotient_eq_some_iff {utm offset : K} {size result : UInt32} :
    quotient utm offset size = some result ↔
      size ≠ 0 ∧ truncate ((utm - offset) / (size.toNat : K)) =
        result.toNat := by
  unfold quotient toUnsigned32
  rw [Option.ite_none_left_eq_some, Option.ite_none_right_eq_some,
    Option.some_inj]
  apply and_congr_right
  intro _
  have fits := result.toNat_lt
  generalize truncate ((utm - offset) / (size.toNat : K)) = value
  constructor
  · rintro ⟨⟨nonneg, less⟩, rfl⟩
    rw [UInt32.toNat_ofNat']
    omega
  · rintro rfl
    refine ⟨⟨by omega, by omega⟩, ?_⟩
    rw [Int.toNat_natCast, UInt32.ofNat_toNat]

/-- The number of a block is defined if the quotients can be converted. -/
theorem blockNumber_eq_some_iff {number : UInt32} :
    map.blockNumber utm_x utm_y = some number ↔
      ∃ row column, map.Quotients utm_x utm_y row column ∧
        number.toNat = map.numberOf row column % 2 ^ 32 := by
  unfold blockNumber
  rw [Option.bind_eq_some_iff]
  constructor
  · rintro ⟨row, isRow, rest⟩
    obtain ⟨column, isColumn, rfl⟩ := Option.map_eq_some_iff.mp rest
    obtain ⟨height, isRow⟩ := quotient_eq_some_iff.mp isRow
    obtain ⟨width, isColumn⟩ := quotient_eq_some_iff.mp isColumn
    refine ⟨row.toNat, column.toNat, ⟨height, width, isRow, isColumn,
      row.toNat_lt, column.toNat_lt⟩, ?_⟩
    rw [UInt32.toNat_add, UInt32.toNat_mul, Nat.mod_add_mod]
    rfl
  · rintro ⟨row, column, quotients, isNumber⟩
    refine ⟨UInt32.ofNat row, ?_, ?_⟩
    · rw [quotient_eq_some_iff, UInt32.toNat_ofNat_of_lt' quotients.rowFits]
      exact ⟨quotients.height, quotients.isRow⟩
    · rw [Option.map_eq_some_iff]
      refine ⟨UInt32.ofNat column, ?_, ?_⟩
      · rw [quotient_eq_some_iff,
          UInt32.toNat_ofNat_of_lt' quotients.columnFits]
        exact ⟨quotients.width, quotients.isColumn⟩
      · apply UInt32.toNat_inj.mp
        rw [isNumber, UInt32.toNat_add, UInt32.toNat_mul, Nat.mod_add_mod,
          UInt32.toNat_ofNat_of_lt' quotients.rowFits,
          UInt32.toNat_ofNat_of_lt' quotients.columnFits]
        rfl

omit [FloorRing K] in
@[simp]
theorem plainEntry_none : map.plainEntry utm_x utm_y none = .PF_MAP_ERR := rfl

omit [FloorRing K] in
/-- A search of a block returns exactly when the rows hold its markers, and then
it returns the plain result. -/
theorem searchEntry_eq_some_iff {number : ℕ} {result : IDResult K}
    (ids : map.UniqueIDs)
    (same : ∀ number block, map.pastMapBlock number = some block →
      block.SameRanges) :
    map.searchEntry utm_x utm_y (map.blockOf number) = some result ↔
      (∀ block, map.blockOf number = some block →
        map.RowsFit utm_x utm_y block) ∧
      result = map.plainEntry utm_x utm_y (map.blockOf number) := by
  cases isBlock : map.blockOf number with
  | none => simp [searchEntry, plainEntry_none, eq_comm]
  | some block =>
      have inTable : map.pastMapBlock number = some block := by
        unfold blockOf at isBlock
        rw [Option.ite_none_right_eq_some] at isBlock
        exact isBlock.2
      unfold searchEntry
      rw [searchBlock_eq_some_iff ids (same _ _ inTable)]
      simp [plainEntry]

/-- The look-up gives the result of the block to which the quotients lead. -/
theorem getIDByUtm_eq_some_iff {result : IDResult K} (ids : map.UniqueIDs)
    (same : ∀ number block, map.pastMapBlock number = some block →
      block.SameRanges) :
    map.getIDByUtm utm_x utm_y = some result ↔
      ∃ row column, map.Quotients utm_x utm_y row column ∧
        (∀ block, map.blockOf (map.numberOf row column % 2 ^ 32) =
          some block → map.RowsFit utm_x utm_y block) ∧
        result = map.plainEntry utm_x utm_y
          (map.blockOf (map.numberOf row column % 2 ^ 32)) := by
  unfold getIDByUtm
  rw [Option.bind_eq_some_iff]
  constructor
  · rintro ⟨number, isNumber, isResult⟩
    obtain ⟨row, column, quotients, isNumber⟩ :=
      blockNumber_eq_some_iff.mp isNumber
    refine ⟨row, column, quotients, ?_⟩
    rw [← isNumber]
    rw [blockAt_eq] at isResult
    exact (searchEntry_eq_some_iff ids same).mp isResult
  · rintro ⟨row, column, quotients, fits, isResult⟩
    have less : map.numberOf row column % 2 ^ 32 < 2 ^ 32 :=
      Nat.mod_lt _ (by norm_num)
    have isNumber := UInt32.toNat_ofNat_of_lt' less
    refine ⟨UInt32.ofNat (map.numberOf row column % 2 ^ 32),
      blockNumber_eq_some_iff.mpr ⟨row, column, quotients, isNumber⟩, ?_⟩
    rw [blockAt_eq, isNumber]
    exact (searchEntry_eq_some_iff ids same).mpr ⟨fits, isResult⟩

/-! ## When the look-up meets the reference -/

omit [Field K] [LinearOrder K] [FloorRing K] in
theorem numberOf_lt {j i : ℕ} (inRow : j < map.gu32BlockCount_y.toNat)
    (inColumn : i < map.gu32BlockCount_x.toNat) :
    map.numberOf j i <
      map.gu32BlockCount_x.toNat * map.gu32BlockCount_y.toNat := by
  calc
    map.gu32BlockCount_x.toNat * j + i <
        map.gu32BlockCount_x.toNat * (j + 1) := by
      rw [Nat.mul_succ]
      exact Nat.add_lt_add_left inColumn _
    _ ≤ map.gu32BlockCount_x.toNat * map.gu32BlockCount_y.toNat :=
      Nat.mul_le_mul_left _ inRow

variable [IsStrictOrderedRing K]

/-- In the rectangle of a block the quotients are its row and column. -/
theorem InBlock.quotients {j i : ℕ} (inBlock : map.InBlock j i utm_x utm_y) :
    map.Quotients utm_x utm_y j i where
  height := by
    intro isZero
    have positive := inBlock.atY.width_pos
    rw [isZero] at positive
    simp at positive
  width := by
    intro isZero
    have positive := inBlock.atX.width_pos
    rw [isZero] at positive
    simp at positive
  isRow := inBlock.atY.truncate_eq (Int.natCast_nonneg j)
  isColumn := inBlock.atX.truncate_eq (Int.natCast_nonneg i)
  rowFits := inBlock.row.trans map.gu32BlockCount_y.toNat_lt
  columnFits := inBlock.column.trans map.gu32BlockCount_x.toNat_lt

omit [IsStrictOrderedRing K] in
/-- The row and the column of a place are unique. -/
theorem Quotients.unique {otherRow otherColumn : ℕ}
    (quotients : map.Quotients utm_x utm_y row column)
    (others : map.Quotients utm_x utm_y otherRow otherColumn) :
    row = otherRow ∧ column = otherColumn :=
  ⟨Int.natCast_inj.mp (quotients.isRow.symm.trans others.isRow),
    Int.natCast_inj.mp (quotients.isColumn.symm.trans others.isColumn)⟩

/-- In the rectangle of a block the quotients lead to it, if its number is one
of type `S32`. -/
theorem InBlock.blockOf_eq {j i : ℕ} (inBlock : map.InBlock j i utm_x utm_y)
    (quotients : map.Quotients utm_x utm_y row column) :
    map.blockOf (map.numberOf row column % 2 ^ 32) =
      if map.numberOf j i < 2 ^ 31 then map.pastMapBlock (map.numberOf j i)
      else none := by
  obtain ⟨rfl, rfl⟩ := quotients.unique inBlock.quotients
  have less := numberOf_lt inBlock.row inBlock.column
  rw [Nat.mod_eq_of_lt (less.trans map.countFits)]
  unfold blockOf
  exact if_congr (and_iff_left less) rfl rfl

/-- The quotients lead to the block of the coordinate, or to nothing. -/
structure LeadsTo (map : BlockTable K) (utm_x utm_y : K)
    (entered : Option BlockInfo) : Prop where
  rowsFit : ∀ block, entered = some block → map.RowsFit utm_x utm_y block
  outside : ¬map.InMap utm_x utm_y →
    map.plainEntry utm_x utm_y entered = .PF_MAP_ERR
  inside : ∀ j i, map.InBlock j i utm_x utm_y → map.numberOf j i < 2 ^ 31 ∨
    map.plainEntry utm_x utm_y (map.pastMapBlock (map.numberOf j i)) =
      .PF_MAP_ERR

/-- The look-up meets its reference exactly if the quotients can be converted,
outside of the map they lead to no block that holds the coordinate, the number
of a block inside is one of type `S32`, and the rows of the cache suffice. -/
theorem meetsReference_iff (ids : map.UniqueIDs)
    (same : ∀ number block, map.pastMapBlock number = some block →
      block.SameRanges) :
    map.MeetsReference utm_x utm_y ↔
      ∃ row column, map.Quotients utm_x utm_y row column ∧
        map.LeadsTo utm_x utm_y
          (map.blockOf (map.numberOf row column % 2 ^ 32)) := by
  constructor
  · rintro ⟨result, isResult, outside, inside⟩
    obtain ⟨row, column, quotients, fits, rfl⟩ :=
      (getIDByUtm_eq_some_iff ids same).mp isResult
    refine ⟨row, column, quotients, fits, outside, ?_⟩
    intro j i inBlock
    by_cases small : map.numberOf j i < 2 ^ 31
    · exact .inl small
    · right
      rw [← inside j i inBlock, inBlock.blockOf_eq quotients, if_neg small]
      exact plainEntry_none
  · rintro ⟨row, column, quotients, leads⟩
    refine ⟨_, (getIDByUtm_eq_some_iff ids same).mpr
      ⟨row, column, quotients, leads.rowsFit, rfl⟩, leads.outside, ?_⟩
    intro j i inBlock
    rw [inBlock.blockOf_eq quotients]
    by_cases small : map.numberOf j i < 2 ^ 31
    · rw [if_pos small]
    · rw [if_neg small, (leads.inside j i inBlock).resolve_left small]
      exact plainEntry_none

end Table
end BlockTable

/-! ## Two tables -/

/-- A block with one connection, which it belongs to as a whole. -/
def connectionBlock : BlockInfo where
  connections := [⟨0, 0, 0, 0⟩]
  lanes := []
  noRunZone_i := [-1, -1, -1]
  connectionsFit := by decide
  lanesFit := by decide
  threeZones := rfl

/-- A block with 33 lanes whose markers are not in the block. -/
def crowdedBlock : BlockInfo where
  connections := []
  lanes := List.replicate 33 ⟨0, ⟨0, 0, 0⟩, ⟨1, 0, 0⟩⟩
  noRunZone_i := [-1, -1, -1]
  connectionsFit := by decide
  lanesFit := by decide
  threeZones := rfl

/-- A map of two blocks, one of which is above the other. -/
def twoRows (upper lower : BlockInfo) : BlockTable ℚ where
  gu32BlockCount_x := 1
  gu32BlockCount_y := 2
  gu32Block_w := 10
  gu32Block_h := 10
  gdbUtmOffset_x := 0
  gdbUtmOffset_y := 0
  countFits := by decide
  pastMapBlock := fun number =>
    if number = 0 then some lower else if number = 1 then some upper else none
  pstConnection := fun connection_i => connection_i + 1
  pastExtrapoint := fun extrapoint_i => ⟨extrapoint_i + 1, 0, []⟩
  pastLanemarker := fun lanemarker_i => ⟨2 * lanemarker_i + 1, 0, []⟩
  pastNoRunZone := fun zone_i => ⟨zone_i, ⟨0, [], by decide⟩, 0, 0⟩
  pstLane := fun lane_i => ⟨lane_i, 0, 0⟩
  drivingDirection := fun _ _ _ => none
  connectionLane := fun _ _ _ => -2

section TwoRows

variable {upper lower : BlockInfo}

theorem twoRows_uniqueIDs : (twoRows upper lower).UniqueIDs where
  nonzero := by
    intro i
    change 2 * i + 1 ≠ 0
    omega
  injective := by
    intro i j same
    change 2 * i + 1 = 2 * j + 1 at same
    omega

theorem connectionBlock_sameRanges : connectionBlock.SameRanges :=
  List.forall_mem_nil _

theorem crowdedBlock_sameRanges : crowdedBlock.SameRanges := by
  unfold BlockInfo.SameRanges
  decide +kernel

theorem twoRows_sameRanges (upperSame : upper.SameRanges)
    (lowerSame : lower.SameRanges) :
    ∀ number block, (twoRows upper lower).pastMapBlock number = some block →
      block.SameRanges := by
  intro number block isBlock
  change (if number = 0 then some lower
    else if number = 1 then some upper else none) = some block at isBlock
  split_ifs at isBlock
  · rw [← Option.some_inj.mp isBlock]
    exact lowerSame
  · rw [← Option.some_inj.mp isBlock]
    exact upperSame

theorem twoRows_quotients (upper lower : BlockInfo) {column : ℕ}
    (small : column < 10) :
    (twoRows upper lower).Quotients (10 * column + 5) 5 0 column where
  height := by
    change (10 : UInt32) ≠ 0
    decide
  width := by
    change (10 : UInt32) ≠ 0
    decide
  isRow := by
    change truncate (((5 : ℚ) - 0) / ((10 : ℕ) : ℚ)) = ((0 : ℕ) : ℤ)
    rw [truncate_of_nonneg (by norm_num), Int.floor_eq_iff]
    norm_num
  isColumn := by
    change truncate ((10 * (column : ℚ) + 5 - 0) / ((10 : ℕ) : ℚ)) =
      (column : ℤ)
    have nonneg : (0 : ℚ) ≤ column := Nat.cast_nonneg column
    rw [truncate_of_nonneg (div_nonneg (by linarith) (by norm_num)),
      Int.floor_eq_iff]
    push_cast
    constructor <;> linarith
  rowFits := by norm_num
  columnFits := by omega

theorem twoRows_not_inMap :
    ¬(twoRows upper lower).InMap 15 5 := by
  rintro ⟨j, i, inBlock⟩
  have first : i < 1 := inBlock.column
  obtain rfl : i = 0 := Nat.lt_one_iff.mp first
  have beyond : (15 : ℚ) < 0 + ((10 : ℕ) : ℚ) * (((0 : ℕ) : ℤ) + 1) :=
    inBlock.atX.upper
  norm_num at beyond

end TwoRows

/-- A block with two lanes that share a marker. -/
def sharedBlock : BlockInfo where
  connections := []
  lanes := [⟨0, ⟨0, 0, 0⟩, ⟨1, 0, 0⟩⟩, ⟨1, ⟨1, 0, 0⟩, ⟨2, 0, 0⟩⟩]
  noRunZone_i := [-1, -1, -1]
  connectionsFit := by decide
  lanesFit := by decide
  threeZones := rfl

/-- The look-up meets its reference in the lower block. -/
theorem meetsReference_iff_shared :
    (twoRows connectionBlock sharedBlock).MeetsReference 5 5 := by
  have same : sharedBlock.SameRanges := by
    unfold BlockInfo.SameRanges
    decide +kernel
  have inside := twoRows_quotients connectionBlock sharedBlock
    (by norm_num : 0 < 10)
  norm_num at inside
  apply (BlockTable.meetsReference_iff twoRows_uniqueIDs
    (twoRows_sameRanges connectionBlock_sameRanges same)).mpr
  refine ⟨0, 0, inside, ?_, ?_, ?_⟩
  · intro block isBlock
    obtain rfl : sharedBlock = block := Option.some.inj isBlock
    exact .inr (by decide +kernel)
  · intro notInMap
    refine absurd ⟨0, 0, ?_, ?_, ?_, ?_⟩ notInMap
    · decide
    · decide
    · constructor
      · norm_num [twoRows]
      · norm_num [twoRows]
        decide
    · constructor
      · norm_num [twoRows]
      · norm_num [twoRows]
        decide
  · intro j i inBlock
    left
    have row : j < 2 := inBlock.row
    have column : i < 1 := inBlock.column
    have number : (twoRows connectionBlock sharedBlock).numberOf j i =
      1 * j + i := rfl
    omega

/-- At the right of the lower block the look-up gives what is in the upper one,
and in a crowded block it writes beyond the rows of the cache. -/
theorem not_meetsReference_beside :
    (twoRows connectionBlock crowdedBlock).UniqueIDs ∧
      (∀ number block, (twoRows connectionBlock crowdedBlock).pastMapBlock
        number = some block → block.SameRanges) ∧
      ¬(twoRows connectionBlock crowdedBlock).MeetsReference 15 5 ∧
      ¬(twoRows connectionBlock crowdedBlock).MeetsReference 5 5 := by
  have ids : (twoRows connectionBlock crowdedBlock).UniqueIDs :=
    twoRows_uniqueIDs
  have same := twoRows_sameRanges connectionBlock_sameRanges
    crowdedBlock_sameRanges
  refine ⟨ids, same, ?_, ?_⟩
  · rintro ⟨result, isResult, outside, -⟩
    obtain ⟨row, column, quotients, -, rfl⟩ :=
      (BlockTable.getIDByUtm_eq_some_iff ids same).mp isResult
    have beside := twoRows_quotients connectionBlock crowdedBlock
      (by norm_num : 1 < 10)
    norm_num at beside
    obtain ⟨rfl, rfl⟩ := quotients.unique beside
    have failed := outside twoRows_not_inMap
    change IDResult.PF_MAP_SUCCESS _ = IDResult.PF_MAP_ERR at failed
    cases failed
  · rintro ⟨result, isResult, -, -⟩
    obtain ⟨row, column, quotients, fits, -⟩ :=
      (BlockTable.getIDByUtm_eq_some_iff ids same).mp isResult
    have inside := twoRows_quotients connectionBlock crowdedBlock
      (by norm_num : 0 < 10)
    norm_num at inside
    obtain ⟨rfl, rfl⟩ := quotients.unique inside
    obtain something | few := fits crowdedBlock rfl
    · exact something rfl
    · exact absurd few (by decide +kernel)

end Hdmap
end Pilot2Cloud
