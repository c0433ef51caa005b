import Pilot2Cloud.Foundation.Outcome
import Pilot2Cloud.Hdmap.MapFile

/-!
# The table of ground heights

A file lists points with their heights.  When it is read, the number of points
for each metre is computed.  The search for a point jumps forward by as many
entries as there should be up to its coordinate, and looks around from where it
has gone far enough.
-/

namespace Pilot2Cloud
namespace Hdmap

open Foundation

/-- What the language leaves undefined. -/
inductive UtmZFault
  | outOfBounds
  | overflow
  | divisionByZero
  deriving DecidableEq

/-- `PF_MAP_UTM_XYZ_ST`. -/
structure MapUtmXyz (K : Type) where
  x : ℤ
  y : ℤ
  z : K
  deriving DecidableEq

/-- `pstMapUtmXYZ`, which has `gs32MapUtmXYZCount` entries, and
`gs32MapUtmX_Y`. -/
structure UtmTable (K : Type) where
  pstMapUtmXYZ : List (MapUtmXyz K)
  gs32MapUtmX_Y : ℤ
  deriving DecidableEq

/-- A number of type `S32`. -/
def FitsSigned32 (number : ℤ) : Prop :=
  -2 ^ 31 ≤ number ∧ number < 2 ^ 31

instance (number : ℤ) : Decidable (FitsSigned32 number) :=
  inferInstanceAs (Decidable (_ ∧ _))

/-- The result of an operation on numbers of type `S32`. -/
def signed32 (number : ℤ) : Except UtmZFault ℤ :=
  if FitsSigned32 number then .ok number else .error .overflow

/-! ## Reading the file -/

section Reading

variable {K : Type} [Field K] [LinearOrder K] [FloorRing K]

/-- The size of an entry. -/
def sizeofMapUtmXyz : ℤ := 16

/-- The numbers of a line, for the format `%lf,%lf,%lf`. -/
def scanRow (scan : Scanner K) (line : Text) : Option (K × K × K) :=
  (scan.double line).bind fun dbx =>
    (scanLiteral [','] dbx.2).bind fun text =>
      (scan.double text).bind fun dby =>
        (scanLiteral [','] dby.2).bind fun text =>
          (scan.double text).map fun dbz => (dbx.1, dby.1, dbz.1)

/-- An entry with the integer parts of the coordinates. -/
def entryOfRow (row : K × K × K) : Except UtmZFault (MapUtmXyz K) :=
  match toSigned32 row.1, toSigned32 row.2.1 with
  | some x, some y => .ok ⟨x, y, row.2.2⟩
  | _, _ => .error .overflow

/-- The entries of the lines, at most `capacity` of them, unless a line cannot
be read. -/
def readRows (scan : Scanner K) :
    ℕ → List Text → Except UtmZFault (Option (List (MapUtmXyz K)))
  | _, [] => .ok (some [])
  | capacity, line :: lines =>
      match scanRow scan line with
      | none =>
          if Contains line "," then .ok none
          else readRows scan capacity lines
      | some row =>
          match capacity with
          | 0 => .ok none
          | capacity + 1 => do
              let entry ← entryOfRow row
              let entries ← readRows scan capacity lines
              .ok (entries.map fun entries => entry :: entries)

/-- `index/(x_last-x_first)`, of type `U32`, as a number of type `S32` that is
at least one. -/
def utmXyOf (entries : List (MapUtmXyz K)) : Except UtmZFault ℤ :=
  match entries.head?, entries.getLast? with
  | some first, some last => do
      let difference ← signed32 (last.x - first.x)
      if difference = 0 then .error .divisionByZero
      else
        let quotient := Int.bmod (entries.length / (difference % 2 ^ 32)) (2 ^ 32)
        .ok (if quotient < 1 then 1 else quotient)
  | _, _ => .error .outOfBounds

/-- What follows the first line, which has the count. -/
def utmTableOf (scan : Scanner K) (malloc : ℤ → Bool) (count : ℤ)
    (lines : List Text) : Except UtmZFault (Option (UtmTable K)) :=
  -- a negative count asks for nearly 2^64 bytes
  if count < 0 ∨ malloc (count * sizeofMapUtmXyz) = false then .ok none
  else do
    let entries ← readRows scan count.toNat lines
    match entries with
    | none => .ok none
    | some entries => do
        let utmXy ← utmXyOf entries
        .ok (some ⟨entries, utmXy⟩)

/-- `pf_map_utmZ_file_read`, for a file whose lines fit into the buffer. -/
def utmZFileRead (scan : Scanner K) (malloc : ℤ → Bool) (file : Text) :
    Except UtmZFault (Option (UtmTable K)) :=
  match fileLines file with
  | [] => .ok none
  | header :: lines =>
      match scanInt scan "POINT_X,POINT_Y,grid_code," header with
      | none => .ok none
      | some count => do
          let count ← signed32 count
          utmTableOf scan malloc count lines

end Reading

/-! ## The search -/

section Search

variable {K : Type}

section Definitions

variable [Field K] [LinearOrder K] [FloorRing K]

/-- `PF_MAP_ERR`. -/
def PF_MAP_ERR : K := -((2 : ℕ) : K)

namespace UtmTable

variable (table : UtmTable K) (s32x s32y : ℤ)

/-- The number of points of the table. -/
def count : ℤ := table.pstMapUtmXYZ.length

/-- The entry with an index. -/
def entryAt (i : ℤ) : Except UtmZFault (MapUtmXyz K) :=
  if 0 ≤ i ∧ i < table.count then
    match table.pstMapUtmXYZ[i.toNat]? with
    | some entry => .ok entry
    | none => .error .outOfBounds
  else .error .outOfBounds

/-- The loop over the entries from `i` on. -/
def forward : List (MapUtmXyz K) → Option K
  | [] => none
  | entry :: entries =>
      if s32x < entry.x then none
      else if entry.x = s32x ∧ entry.y = s32y then some entry.z
      else forward entries

/-- The loop over the entries before `step`, the last one first. -/
def backward : List (MapUtmXyz K) → K
  | [] => PF_MAP_ERR
  | entry :: entries =>
      if entry.x < s32x then PF_MAP_ERR
      else if entry.x = s32x ∧ entry.y = s32y then entry.z
      else backward entries

/-- What follows at an entry that is far enough. -/
def lookAround (step : ℤ) (entry : MapUtmXyz K) : K :=
  let found :=
    if entry.x = s32x then
      forward s32x s32y (table.pstMapUtmXYZ.drop step.toNat)
    else none
  found.getD
    (backward s32x s32y (table.pstMapUtmXYZ.take step.toNat).reverse)

/-- The entry with an index, and how far it is from the coordinate. -/
def stepAt (i : ℤ) : Except UtmZFault (MapUtmXyz K × ℤ) := do
  let entry ← table.entryAt i
  let step ← signed32 (s32x - entry.x)
  .ok (entry, step)

/-- Where a jump over `step` metres goes. -/
def jump (i step : ℤ) : Except UtmZFault ℤ := do
  let entries ← signed32 (step * table.gs32MapUtmX_Y)
  let i ← signed32 (i + entries)
  .ok (if table.count ≤ i then table.count - 1 else i)

/-- The outer loop, for at most so many rounds. -/
def search : ℕ → ℤ → Option (Except UtmZFault K)
  | 0, _ => none
  | rounds + 1, i =>
      if i < table.count then
        match table.stepAt s32x i with
        | .error fault => some (.error fault)
        | .ok (entry, step) =>
            if 0 < step then
              match table.jump i step with
              | .error fault => some (.error fault)
              | .ok i => search rounds i
            else some (.ok (table.lookAround s32x s32y i entry))
      else some (.ok PF_MAP_ERR)

/-- `pf_map_get_utm_z_by_xy`, for at most so many rounds of its loop. -/
def getUtmZByXy (utm_x utm_y : K) (rounds : ℕ) : Option (Except UtmZFault K) :=
  match toSigned32 utm_x, toSigned32 utm_y with
  | some s32x, some s32y => table.search s32x s32y rounds 0
  | _, _ => some (.error .overflow)

end UtmTable
/-! ## What is expected of the search -/

namespace UtmTable

variable (table : UtmTable K) (s32x s32y : ℤ)

/-- The height of an entry with the coordinates, or the report that there is
none. -/
def IsHeight (height : K) : Prop :=
  (∃ entry ∈ table.pstMapUtmXYZ,
      entry.x = s32x ∧ entry.y = s32y ∧ height = entry.z) ∨
    (∀ entry ∈ table.pstMapUtmXYZ, ¬(entry.x = s32x ∧ entry.y = s32y)) ∧
      height = PF_MAP_ERR

/-- The search comes to an end with the right result, and without a fault. -/
def FindsHeight (utm_x utm_y : K) : Prop :=
  ∃ rounds height, table.getUtmZByXy utm_x utm_y rounds = some (.ok height) ∧
    table.IsHeight (truncate utm_x) (truncate utm_y) height

/-- The entries are in the order of their first coordinates. -/
def Sorted : Prop :=
  table.pstMapUtmXYZ.Pairwise fun entry later => entry.x ≤ later.x

/-- Where the jumps come to, if numbers had no bounds. -/
def landing : ℕ → ℤ
  | 0 => 0
  | rounds + 1 =>
      match table.pstMapUtmXYZ[(landing rounds).toNat]? with
      | some entry =>
          if entry.x < s32x then
            min (landing rounds + (s32x - entry.x) * table.gs32MapUtmX_Y)
              (table.count - 1)
          else landing rounds
      | none => landing rounds

/-- The coordinate is not too far before the entries and not behind them, and
no jump leaves the numbers of type `S32`. -/
structure Searchable : Prop where
  notBefore : ∀ first, table.pstMapUtmXYZ.head? = some first →
    first.x - s32x ≤ 2 ^ 31
  notBehind : ∃ entry ∈ table.pstMapUtmXYZ, s32x ≤ entry.x
  jumpsFit : ∀ rounds entry,
    table.pstMapUtmXYZ[(table.landing s32x rounds).toNat]? = some entry →
      entry.x < s32x →
        table.landing s32x rounds +
          (s32x - entry.x) * table.gs32MapUtmX_Y < 2 ^ 31

/-- What the loader guarantees for sorted entries. -/
structure Loaded : Prop where
  nonempty : table.pstMapUtmXYZ ≠ []
  positive : 1 ≤ table.gs32MapUtmX_Y
  spread : ∀ entry ∈ table.pstMapUtmXYZ, ∀ other ∈ table.pstMapUtmXYZ,
    other.x - entry.x < 2 ^ 31
  sorted : table.Sorted

end UtmTable

end Definitions

/-! ## What is loaded -/

/-- A signed result is the number itself, when it fits. -/
theorem signed32_eq_ok {number result : ℤ} :
    signed32 number = .ok result ↔ FitsSigned32 number ∧ number = result := by
  unfold signed32
  split_ifs with fits
  · simp [fits]
  · simp [fits]

/-- A density that is computed is at least one and comes from the first and the
last entry. -/
theorem utmXyOf_eq_ok {entries : List (MapUtmXyz K)} {utmXy : ℤ}
    (computed : utmXyOf entries = .ok utmXy) :
    1 ≤ utmXy ∧ ∃ first last, entries.head? = some first ∧
      entries.getLast? = some last ∧ FitsSigned32 (last.x - first.x) := by
  unfold utmXyOf at computed
  split at computed
  case h_1 first last isFirst isLast =>
    obtain ⟨difference, isDifference, rest⟩ := bind_eq_ok_iff.mp computed
    obtain ⟨fits, rfl⟩ := signed32_eq_ok.mp isDifference
    split_ifs at rest with isZero
    cases rest
    refine ⟨?_, first, last, isFirst, isLast, fits⟩
    split_ifs with isSmall
    · exact le_rfl
    · exact not_lt.mp isSmall
  case h_2 => cases computed

/-- A table that is read has the density of its entries. -/
theorem utmZFileRead_eq_ok [Field K] [LinearOrder K] [FloorRing K]
    {scan : Scanner K} {malloc : ℤ → Bool}
    {file : Text} {table : UtmTable K}
    (loaded : utmZFileRead scan malloc file = .ok (some table)) :
    utmXyOf table.pstMapUtmXYZ = .ok table.gs32MapUtmX_Y := by
  unfold utmZFileRead at loaded
  split at loaded
  · cases loaded
  · split at loaded
    · cases loaded
    · obtain ⟨count, -, read⟩ := bind_eq_ok_iff.mp loaded
      unfold utmTableOf at read
      split_ifs at read
      · cases read
      · obtain ⟨entries, -, computed⟩ := bind_eq_ok_iff.mp read
        cases entries with
        | none => cases computed
        | some entries =>
            obtain ⟨utmXy, isUtmXy, made⟩ := bind_eq_ok_iff.mp computed
            cases made
            exact isUtmXy

namespace UtmTable.Sorted

variable {table : UtmTable K} {entry : MapUtmXyz K}

/-- No entry lies before the first one. -/
theorem first_le (sorted : table.Sorted) {first : MapUtmXyz K}
    (isFirst : table.pstMapUtmXYZ.head? = some first)
    (isEntry : entry ∈ table.pstMapUtmXYZ) :
    first.x ≤ entry.x := by
  obtain ⟨rest, isCons⟩ := List.head?_eq_some_iff.mp isFirst
  unfold UtmTable.Sorted at sorted
  rw [isCons] at sorted isEntry
  obtain rfl | later := List.mem_cons.mp isEntry
  · exact le_rfl
  · exact (List.pairwise_cons.mp sorted).1 entry later

/-- No entry lies behind the last one. -/
theorem le_last (sorted : table.Sorted) {last : MapUtmXyz K}
    (isLast : table.pstMapUtmXYZ.getLast? = some last)
    (isEntry : entry ∈ table.pstMapUtmXYZ) :
    entry.x ≤ last.x := by
  obtain ⟨front, isConcat⟩ := List.getLast?_eq_some_iff.mp isLast
  unfold UtmTable.Sorted at sorted
  rw [isConcat] at sorted isEntry
  obtain before | isSame := List.mem_append.mp isEntry
  · exact (List.pairwise_append.mp sorted).2.2 entry before last
      (List.mem_singleton_self last)
  · rw [List.mem_singleton.mp isSame]

end UtmTable.Sorted

theorem UtmTable.Loaded.of_file [Field K] [LinearOrder K] [FloorRing K]
    {scan : Scanner K} {malloc : ℤ → Bool}
    {file : Text} {table : UtmTable K}
    (loaded : utmZFileRead scan malloc file = .ok (some table))
    (sorted : table.Sorted) : table.Loaded := by
  obtain ⟨positive, first, last, isFirst, isLast, fits⟩ :=
    utmXyOf_eq_ok (utmZFileRead_eq_ok loaded)
  refine ⟨?_, positive, ?_, sorted⟩
  · intro isEmpty
    rw [isEmpty] at isFirst
    cases isFirst
  · intro entry isEntry other isOther
    have lower := sorted.first_le isFirst isEntry
    have upper := sorted.le_last isLast isOther
    have bound := fits.2
    omega

/-! ## Around an entry that is far enough -/

section LookAround

variable {s32x s32y : ℤ}

/-- A height that the search returns is that of an entry at the place. -/
theorem forward_eq_some {entries : List (MapUtmXyz K)} {height : K}
    (found : UtmTable.forward s32x s32y entries = some height) :
    ∃ entry ∈ entries,
      entry.x = s32x ∧ entry.y = s32y ∧ height = entry.z := by
  induction entries with
  | nil => cases found
  | cons entry entries inductionHypothesis =>
      unfold UtmTable.forward at found
      split_ifs at found with isBehind isHere
      · obtain rfl := Option.some_inj.mp found
        exact ⟨entry, List.mem_cons_self, isHere.1, isHere.2, rfl⟩
      · obtain ⟨later, isMember, same⟩ := inductionHypothesis found
        exact ⟨later, List.mem_cons_of_mem _ isMember, same⟩

/-- The loop over the later entries misses none with the coordinates. -/
theorem forward_eq_none {entries : List (MapUtmXyz K)}
    (sorted : entries.Pairwise fun entry later => entry.x ≤ later.x)
    (missed : UtmTable.forward s32x s32y entries = none) :
    ∀ entry ∈ entries, ¬(entry.x = s32x ∧ entry.y = s32y) := by
  induction entries with
  | nil =>
      intro entry isMember
      cases isMember
  | cons first entries inductionHypothesis =>
      obtain ⟨smallest, rest⟩ := List.pairwise_cons.mp sorted
      unfold UtmTable.forward at missed
      split_ifs at missed with isBehind isHere
      · intro entry isMember isThere
        have notBefore : first.x ≤ entry.x := by
          obtain rfl | later := List.mem_cons.mp isMember
          · exact le_rfl
          · exact smallest entry later
        have same := isThere.1
        omega
      · exact List.forall_mem_cons.mpr
          ⟨isHere, inductionHypothesis rest missed⟩

variable [Field K]

/-- The loop over the earlier entries finds one with the coordinates if there
is one. -/
theorem backward_isHeight {entries : List (MapUtmXyz K)}
    (sorted : entries.Pairwise fun entry earlier => earlier.x ≤ entry.x) :
    (∃ entry ∈ entries, entry.x = s32x ∧ entry.y = s32y ∧
        UtmTable.backward s32x s32y entries = entry.z) ∨
      (∀ entry ∈ entries, ¬(entry.x = s32x ∧ entry.y = s32y)) ∧
        UtmTable.backward s32x s32y entries = PF_MAP_ERR := by
  induction entries with
  | nil =>
      refine .inr ⟨?_, rfl⟩
      intro entry isMember
      cases isMember
  | cons last entries inductionHypothesis =>
      obtain ⟨greatest, rest⟩ := List.pairwise_cons.mp sorted
      unfold UtmTable.backward
      split_ifs with isBefore isHere
      · refine .inr ⟨?_, rfl⟩
        intro entry isMember isThere
        have notBehind : entry.x ≤ last.x := by
          obtain rfl | earlier := List.mem_cons.mp isMember
          · exact le_rfl
          · exact greatest entry earlier
        have same := isThere.1
        omega
      · exact .inl ⟨last, List.mem_cons_self, isHere.1, isHere.2, rfl⟩
      · obtain ⟨entry, isMember, found⟩ | ⟨missed, isError⟩ :=
          inductionHypothesis rest
        · exact .inl ⟨entry, List.mem_cons_of_mem _ isMember, found⟩
        · exact .inr ⟨List.forall_mem_cons.mpr ⟨isHere, missed⟩, isError⟩

/-- Where the later entries do not have the coordinates, the loop over the
earlier ones gives the result. -/
theorem isHeight_backward {table : UtmTable K} (sorted : table.Sorted)
    {step : ℕ}
    (missed : ∀ entry ∈ table.pstMapUtmXYZ.drop step,
      ¬(entry.x = s32x ∧ entry.y = s32y)) :
    table.IsHeight s32x s32y
      (UtmTable.backward s32x s32y (table.pstMapUtmXYZ.take step).reverse) := by
  have sortedEarly : (table.pstMapUtmXYZ.take step).reverse.Pairwise
      fun entry earlier => earlier.x ≤ entry.x :=
    List.pairwise_reverse.mpr (sorted.take)
  obtain ⟨entry, isMember, isX, isY, isHeight⟩ | ⟨missedEarly, isError⟩ :=
    @backward_isHeight _ s32x s32y _ _ sortedEarly
  · have isEarly := List.mem_reverse.mp isMember
    exact .inl ⟨entry, List.mem_of_mem_take isEarly, isX, isY, isHeight⟩
  · refine .inr ⟨?_, isError⟩
    intro entry isMember
    rw [← List.take_append_drop step table.pstMapUtmXYZ] at isMember
    obtain isEarly | isLate := List.mem_append.mp isMember
    · exact missedEarly entry (List.mem_reverse.mpr isEarly)
    · exact missed entry isLate

/-- From an entry that is far enough all entries with the coordinates can be
found. -/
theorem lookAround_isHeight {table : UtmTable K} (sorted : table.Sorted)
    {step : ℤ} {entry : MapUtmXyz K}
    (isHere : table.pstMapUtmXYZ[step.toNat]? = some entry)
    (isFar : s32x ≤ entry.x) :
    table.IsHeight s32x s32y (table.lookAround s32x s32y step entry) := by
  have sortedLate : (table.pstMapUtmXYZ.drop step.toNat).Pairwise
      fun entry later => entry.x ≤ later.x := sorted.drop
  unfold UtmTable.lookAround
  dsimp only
  split_ifs with isSame
  · cases found : UtmTable.forward s32x s32y
        (table.pstMapUtmXYZ.drop step.toNat) with
    | some height =>
        obtain ⟨later, isLate, isThere⟩ := forward_eq_some found
        exact .inl ⟨later, List.mem_of_mem_drop isLate, isThere⟩
    | none =>
        exact isHeight_backward sorted (forward_eq_none sortedLate found)
  · apply isHeight_backward sorted
    intro later isLate isThere
    obtain ⟨inside, rfl⟩ := List.getElem?_eq_some_iff.mp isHere
    rw [List.drop_eq_getElem_cons inside] at sortedLate isLate
    have notBefore : table.pstMapUtmXYZ[step.toNat].x ≤ later.x := by
      obtain rfl | isBehind := List.mem_cons.mp isLate
      · exact le_rfl
      · exact (List.pairwise_cons.mp sortedLate).1 later isBehind
    have same := isThere.1
    omega

end LookAround

/-! ## The jumps -/

section Jumps

variable {table : UtmTable K} {s32x s32y : ℤ}

theorem exists_entryAt {i : ℤ} (nonneg : 0 ≤ i) (inside : i < table.count) :
    ∃ entry, table.pstMapUtmXYZ[i.toNat]? = some entry ∧
      table.entryAt i = .ok entry := by
  have short : i.toNat < table.pstMapUtmXYZ.length := by
    unfold UtmTable.count at inside
    omega
  refine ⟨table.pstMapUtmXYZ[i.toNat], List.getElem?_eq_getElem short, ?_⟩
  unfold UtmTable.entryAt
  rw [if_pos ⟨nonneg, inside⟩, List.getElem?_eq_getElem short]

theorem stepAt_eq {i : ℤ} {entry : MapUtmXyz K}
    (isHere : table.entryAt i = .ok entry) :
    table.stepAt s32x i =
      if FitsSigned32 (s32x - entry.x) then .ok (entry, s32x - entry.x)
      else .error .overflow := by
  unfold UtmTable.stepAt signed32
  rw [isHere, ok_bind]
  split_ifs
  · exact ok_bind _ _
  · exact error_bind _ _

/-- One round of the loop. -/
theorem search_succ [Field K] {rounds : ℕ} {i : ℤ} {entry : MapUtmXyz K}
    (inside : i < table.count) (isHere : table.entryAt i = .ok entry)
    (fits : FitsSigned32 (s32x - entry.x)) :
    table.search s32x s32y (rounds + 1) i =
      if entry.x < s32x then
        match table.jump i (s32x - entry.x) with
        | .error fault => some (.error fault)
        | .ok i => table.search s32x s32y rounds i
      else some (.ok (table.lookAround s32x s32y i entry)) := by
  rw [UtmTable.search, if_pos inside, stepAt_eq isHere, if_pos fits]
  exact if_congr sub_pos rfl rfl

/-- A jump ends at the last entry at most, as long as its sum fits. -/
theorem jump_eq_ok {i step next : ℤ} (nonneg : 0 ≤ i) (positive : 0 < step)
    (dense : 1 ≤ table.gs32MapUtmX_Y) :
    table.jump i step = .ok next ↔
      i + step * table.gs32MapUtmX_Y < 2 ^ 31 ∧
        next = min (i + step * table.gs32MapUtmX_Y) (table.count - 1) := by
  have forwards : 0 < step * table.gs32MapUtmX_Y :=
    Int.mul_pos positive (by omega)
  unfold UtmTable.jump
  generalize step * table.gs32MapUtmX_Y = entries at forwards ⊢
  constructor
  · intro jumps
    obtain ⟨_, isProduct, rest⟩ := bind_eq_ok_iff.mp jumps
    obtain ⟨-, rfl⟩ := signed32_eq_ok.mp isProduct
    obtain ⟨_, isSum, isNext⟩ := bind_eq_ok_iff.mp rest
    obtain ⟨fits, rfl⟩ := signed32_eq_ok.mp isSum
    refine ⟨fits.2, ?_⟩
    split_ifs at isNext with isBehind
    · cases isNext
      omega
    · cases isNext
      omega
  · rintro ⟨fits, rfl⟩
    have productFits : FitsSigned32 entries := ⟨by omega, by omega⟩
    have sumFits : FitsSigned32 (i + entries) := ⟨by omega, by omega⟩
    refine bind_eq_ok_iff.mpr
      ⟨entries, signed32_eq_ok.mpr ⟨productFits, rfl⟩, ?_⟩
    refine bind_eq_ok_iff.mpr
      ⟨i + entries, signed32_eq_ok.mpr ⟨sumFits, rfl⟩, ?_⟩
    split_ifs with isBehind
    · rw [min_eq_right (by omega)]
    · rw [min_eq_left (by omega)]

/-- A landing moves on while its entry lies before the place. -/
theorem landing_succ {rounds : ℕ} {entry : MapUtmXyz K}
    (isHere : table.pstMapUtmXYZ[(table.landing s32x rounds).toNat]? =
      some entry) :
    table.landing s32x (rounds + 1) =
      if entry.x < s32x then
        min (table.landing s32x rounds +
          (s32x - entry.x) * table.gs32MapUtmX_Y) (table.count - 1)
      else table.landing s32x rounds := by
  rw [UtmTable.landing, isHere]

/-- What is reached by some rounds, as long as numbers have no bounds, is an
entry. -/
structure Landed (table : UtmTable K) (s32x : ℤ) (rounds : ℕ) (i : ℤ) :
    Prop where
  lands : table.landing s32x rounds = i
  nonneg : 0 ≤ i
  inside : i < table.count
  jumped : i = 0 ∨ ∃ entry ∈ table.pstMapUtmXYZ, entry.x < s32x

theorem UtmTable.Loaded.landed_zero (loaded : table.Loaded) :
    Landed table s32x 0 0 := by
  have positive := List.length_pos_iff.mpr loaded.nonempty
  refine ⟨rfl, le_rfl, ?_, .inl rfl⟩
  unfold UtmTable.count
  omega

/-- A jump from an entry before the coordinate lands on a later one. -/
theorem Landed.succ {rounds : ℕ} {i : ℤ} {entry : MapUtmXyz K}
    (landed : Landed table s32x rounds i) (loaded : table.Loaded)
    (isHere : table.pstMapUtmXYZ[i.toNat]? = some entry)
    (isBefore : entry.x < s32x) :
    Landed table s32x (rounds + 1)
      (min (i + (s32x - entry.x) * table.gs32MapUtmX_Y) (table.count - 1)) := by
  have forwards : 0 < (s32x - entry.x) * table.gs32MapUtmX_Y :=
    Int.mul_pos (by omega) (by have := loaded.positive; omega)
  have nonneg := landed.nonneg
  have inside := landed.inside
  refine ⟨?_, by omega, by omega,
    .inr ⟨entry, List.mem_of_getElem? isHere, isBefore⟩⟩
  have atRound : table.pstMapUtmXYZ[(table.landing s32x rounds).toNat]? =
      some entry := by
    rw [landed.lands]
    exact isHere
  rw [landing_succ atRound, if_pos isBefore, landed.lands]

/-- A jump that is not clamped, or not from the last entry, goes forward. -/
theorem Landed.lt_jump {rounds : ℕ} {i : ℤ} {entry : MapUtmXyz K}
    (landed : Landed table s32x rounds i) (loaded : table.Loaded)
    (isHere : table.pstMapUtmXYZ[i.toNat]? = some entry)
    (isBefore : entry.x < s32x)
    (notBehind : ∃ entry ∈ table.pstMapUtmXYZ, s32x ≤ entry.x) :
    i < min (i + (s32x - entry.x) * table.gs32MapUtmX_Y)
      (table.count - 1) := by
  have forwards : 0 < (s32x - entry.x) * table.gs32MapUtmX_Y :=
    Int.mul_pos (by omega) (by have := loaded.positive; omega)
  have inside := landed.inside
  suffices notLast : i < table.count - 1 by omega
  by_contra isLast
  have atLast : table.pstMapUtmXYZ.getLast? = some entry := by
    rw [List.getLast?_eq_getElem?, ← isHere]
    unfold UtmTable.count at inside isLast
    congr 1
    omega
  obtain ⟨far, isFar, notBehind⟩ := notBehind
  have upper := loaded.sorted.le_last atLast isFar
  omega

/-- The difference from a coordinate fits where the coordinate is not too far
before the entries and not behind them. -/
theorem Landed.fits {rounds : ℕ} {i : ℤ} {entry : MapUtmXyz K}
    (landed : Landed table s32x rounds i) (loaded : table.Loaded)
    (isHere : table.pstMapUtmXYZ[i.toNat]? = some entry)
    (searchable : table.Searchable s32x) :
    FitsSigned32 (s32x - entry.x) := by
  have isMember := List.mem_of_getElem? isHere
  obtain ⟨far, isFar, notBehind⟩ := searchable.notBehind
  have upper := loaded.spread entry isMember far isFar
  refine ⟨?_, by omega⟩
  obtain rfl | ⟨near, isNear, isBefore⟩ := landed.jumped
  · have isFirst : table.pstMapUtmXYZ.head? = some entry := by
      rw [List.head?_eq_getElem?]
      exact isHere
    have lower := searchable.notBefore entry isFirst
    omega
  · have lower := loaded.spread near isNear entry isMember
    omega

/-- A landing stays where its entry does not lie before the place. -/
theorem landing_of_far {rounds later : ℕ} {entry : MapUtmXyz K}
    (isHere : table.pstMapUtmXYZ[(table.landing s32x rounds).toNat]? =
      some entry)
    (isFar : ¬entry.x < s32x) (isLater : rounds ≤ later) :
    table.landing s32x later = table.landing s32x rounds := by
  induction later, isLater using Nat.le_induction with
  | base => rfl
  | succ later _ inductionHypothesis =>
      rw [← inductionHypothesis] at isHere
      rw [landing_succ isHere, if_neg isFar, inductionHypothesis]

/-- A coordinate within the entries can be searched for in a table that is not
too dense. -/
theorem UtmTable.Loaded.searchable_of_small (loaded : table.Loaded)
    (notBefore : ∀ first, table.pstMapUtmXYZ.head? = some first →
      first.x - s32x ≤ 2 ^ 31)
    (notBehind : ∃ entry ∈ table.pstMapUtmXYZ, s32x ≤ entry.x)
    (small : ∀ entry ∈ table.pstMapUtmXYZ, entry.x < s32x →
      table.count + (s32x - entry.x) * table.gs32MapUtmX_Y ≤ 2 ^ 31) :
    table.Searchable s32x := by
  refine ⟨notBefore, notBehind, ?_⟩
  have inside : ∀ rounds, table.landing s32x rounds < table.count := by
    intro rounds
    induction rounds with
    | zero =>
        have start : Landed table s32x 0 0 := loaded.landed_zero
        exact start.inside
    | succ rounds inductionHypothesis =>
        unfold UtmTable.landing
        split
        · split_ifs
          · omega
          · exact inductionHypothesis
        · exact inductionHypothesis
  intro rounds entry isHere isBefore
  have fits := small entry (List.mem_of_getElem? isHere) isBefore
  have isInside := inside rounds
  omega

end Jumps

/-! ## When the search finds heights -/

section Correctness

variable [Field K] {table : UtmTable K} {s32x s32y : ℤ}

/-- From wherever the jumps have come to, the search ends with the right
result. -/
theorem exists_isHeight (loaded : table.Loaded)
    (searchable : table.Searchable s32x) {rounds : ℕ} {i : ℤ}
    (landed : Landed table s32x rounds i) :
    ∃ more height,
      table.search s32x s32y more i = some (.ok height) ∧
        table.IsHeight s32x s32y height := by
  -- on the number of entries that are left
  induction left : (table.count - i).toNat using Nat.strong_induction_on
    generalizing rounds i with
  | _ left inductionHypothesis =>
      obtain ⟨entry, isHere, isEntry⟩ :=
        exists_entryAt landed.nonneg landed.inside
      have fits := landed.fits loaded isHere searchable
      by_cases isBefore : entry.x < s32x
      · have jumpFits := searchable.jumpsFit rounds entry
          (by rw [landed.lands]; exact isHere) isBefore
        rw [landed.lands] at jumpFits
        have positive : 0 < s32x - entry.x := by omega
        have jumps := (jump_eq_ok landed.nonneg positive
          loaded.positive).mpr ⟨jumpFits, rfl⟩
        have forwards := landed.lt_jump loaded isHere isBefore
          searchable.notBehind
        have next := landed.succ loaded isHere isBefore
        obtain ⟨more, height, found, isHeight⟩ :=
          inductionHypothesis _ (by
            have nextInside := next.inside
            omega) next rfl
        refine ⟨more + 1, height, ?_, isHeight⟩
        rw [search_succ landed.inside isEntry fits, if_pos isBefore, jumps]
        exact found
      · refine ⟨1, _, ?_, lookAround_isHeight loaded.sorted isHere
          (not_lt.mp isBefore)⟩
        rw [search_succ landed.inside isEntry fits, if_neg isBefore]

/-- Where the search ends without a fault, the coordinate is not behind the
entries, and the further jumps fit. -/
theorem searchable_of_ok (loaded : table.Loaded) {more rounds : ℕ} {i : ℤ}
    {height : K} {entry : MapUtmXyz K} (landed : Landed table s32x rounds i)
    (isHere : table.pstMapUtmXYZ[i.toNat]? = some entry)
    (ends : table.search s32x s32y more i = some (.ok height)) :
    FitsSigned32 (s32x - entry.x) ∧
      (∃ far ∈ table.pstMapUtmXYZ, s32x ≤ far.x) ∧
      ∀ later near, rounds ≤ later →
        table.pstMapUtmXYZ[(table.landing s32x later).toNat]? = some near →
          near.x < s32x →
            table.landing s32x later +
              (s32x - near.x) * table.gs32MapUtmX_Y < 2 ^ 31 := by
  induction more generalizing rounds i entry with
  | zero => cases ends
  | succ more inductionHypothesis =>
      obtain ⟨same, isSame, isEntry⟩ :=
        exists_entryAt landed.nonneg landed.inside
      obtain rfl : entry = same :=
        Option.some_inj.mp (isHere.symm.trans isSame)
      have atRound : table.pstMapUtmXYZ[(table.landing s32x rounds).toNat]? =
          some entry := by
        rw [landed.lands]
        exact isHere
      have fits : FitsSigned32 (s32x - entry.x) := by
        by_contra overflows
        rw [UtmTable.search, if_pos landed.inside, stepAt_eq isEntry,
          if_neg overflows] at ends
        cases ends
      rw [search_succ landed.inside isEntry fits] at ends
      refine ⟨fits, ?_⟩
      split_ifs at ends with isBefore
      · cases jumps : table.jump i (s32x - entry.x) with
        | error fault =>
            rw [jumps] at ends
            cases ends
        | ok next =>
            rw [jumps] at ends
            obtain ⟨jumpFits, rfl⟩ := (jump_eq_ok landed.nonneg
              (by omega) loaded.positive).mp jumps
            have landsNext := landed.succ loaded isHere isBefore
            obtain ⟨_, isThere, -⟩ :=
              exists_entryAt landsNext.nonneg landsNext.inside
            obtain ⟨-, exists_far, laterFit⟩ :=
              inductionHypothesis landsNext isThere ends
            refine ⟨exists_far, ?_⟩
            intro later near isLater isNear nearBefore
            obtain rfl | isNext := Nat.eq_or_lt_of_le isLater
            · obtain rfl := Option.some_inj.mp (atRound.symm.trans isNear)
              rw [landed.lands]
              exact jumpFits
            · exact laterFit later near isNext isNear nearBefore
      · refine ⟨⟨entry, List.mem_of_getElem? isHere, not_lt.mp isBefore⟩, ?_⟩
        intro later near isLater isNear nearBefore
        rw [landing_of_far atRound isBefore isLater] at isNear
        obtain rfl := Option.some_inj.mp (atRound.symm.trans isNear)
        exact absurd nearBefore isBefore

variable [LinearOrder K] [FloorRing K]

/-- For a table that was loaded, the search for coordinates that fit finds the
height exactly if the first coordinate is not too far before the entries and not
behind them, and no jump leaves the numbers of type `S32`. -/
theorem findsHeight_iff {scan : Scanner K} {malloc : ℤ → Bool} {file : Text}
    (read : utmZFileRead scan malloc file = .ok (some table))
    (sorted : table.Sorted) {utm_x utm_y : K}
    (xFits : toSigned32 utm_x = some s32x)
    (yFits : toSigned32 utm_y = some s32y) :
    table.FindsHeight utm_x utm_y ↔ table.Searchable s32x := by
  have loaded := UtmTable.Loaded.of_file read sorted
  obtain rfl := eq_truncate_of_toSigned32 xFits
  obtain rfl := eq_truncate_of_toSigned32 yFits
  unfold UtmTable.FindsHeight UtmTable.getUtmZByXy
  rw [xFits, yFits]
  constructor
  · rintro ⟨rounds, height, ends, -⟩
    have landed : Landed table (truncate utm_x) 0 0 := loaded.landed_zero
    obtain ⟨first, isFirst, -⟩ := exists_entryAt landed.nonneg landed.inside
    obtain ⟨fits, notBehind, jumpsFit⟩ :=
      searchable_of_ok loaded landed isFirst ends
    refine ⟨?_, notBehind, fun later near => jumpsFit later near (Nat.zero_le _)⟩
    intro head isHead
    rw [List.head?_eq_getElem?] at isHead
    obtain rfl := Option.some_inj.mp (isFirst.symm.trans isHead)
    have lower := fits.1
    omega
  · intro searchable
    exact exists_isHeight loaded searchable loaded.landed_zero

end Correctness

/-! ## A table of two points -/

/-- A file with two points. -/
def twoPointsFile : Text :=
  "POINT_X,POINT_Y,grid_code,2\n".toList ++ "0,0,5\n".toList ++
    "1,0,6\n".toList

/-- The table of the two points. -/
def twoPoints : UtmTable ℚ where
  pstMapUtmXYZ := [⟨0, 0, 5⟩, ⟨1, 0, 6⟩]
  gs32MapUtmX_Y := 2

theorem twoPoints_read :
    utmZFileRead decimalScanner (fun _ => true) twoPointsFile =
      .ok (some twoPoints) := by
  decide +kernel

theorem twoPoints_sorted : twoPoints.Sorted := by
  simp [UtmTable.Sorted, twoPoints]

/-- The last point is found. -/
theorem findsHeight_twoPoints : twoPoints.FindsHeight 1 0 := by
  have oneFits : toSigned32 (1 : ℚ) = some 1 := by
    decide +kernel
  have zeroFits : toSigned32 (0 : ℚ) = some 0 := by
    decide +kernel
  refine (findsHeight_iff twoPoints_read twoPoints_sorted oneFits
    zeroFits).mpr ?_
  refine (UtmTable.Loaded.of_file twoPoints_read
    twoPoints_sorted).searchable_of_small ?_ ?_ ?_
  · rintro first isFirst
    obtain rfl := Option.some_inj.mp isFirst
    decide
  · exact ⟨⟨1, 0, 6⟩, by simp [twoPoints], le_rfl⟩
  · simp [twoPoints, UtmTable.count]

/-- The search for a point behind the last one does not come to an end. -/
theorem not_findsHeight_behind :
    utmZFileRead decimalScanner (fun _ => true) twoPointsFile =
        .ok (some twoPoints) ∧ twoPoints.Sorted ∧
      ¬twoPoints.FindsHeight 2 0 := by
  refine ⟨twoPoints_read, twoPoints_sorted, ?_⟩
  rintro ⟨rounds, height, ends, -⟩
  have loaded := UtmTable.Loaded.of_file twoPoints_read twoPoints_sorted
  have start : Landed twoPoints 2 0 0 := loaded.landed_zero
  have searches : twoPoints.search 2 0 rounds 0 = some (.ok height) := ends
  obtain ⟨-, ⟨far, isFar, notBehind⟩, -⟩ :=
    searchable_of_ok loaded start rfl searches
  have first_or_last : far = ⟨0, 0, 5⟩ ∨ far = ⟨1, 0, 6⟩ := by
    simpa [twoPoints] using isFar
  obtain rfl | rfl := first_or_last
  · exact absurd notBehind (by decide)
  · exact absurd notBehind (by decide)

end Search
end Hdmap
end Pilot2Cloud
