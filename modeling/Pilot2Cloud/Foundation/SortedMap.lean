import Mathlib.Data.List.Nodup
import Mathlib.Data.List.Pairwise
import Mathlib.Order.Lattice

/-!
# Maps in the order of their keys

A map is a list of entries whose keys increase.  An entry is found by its key,
assigned, inserted where its key is new, and erased.
-/

namespace Foundation

/-- Entries with increasing keys. -/
structure SortedMap (κ α : Type) [LinearOrder κ] where
  entries : List (κ × α)
  sorted : entries.Pairwise fun first second => first.1 < second.1

namespace SortedMap

variable {κ α : Type} [LinearOrder κ]

/-- Put an entry in its place, over an entry with the same key. -/
def putEntry (key : κ) (value : α) : List (κ × α) → List (κ × α)
  | [] => [(key, value)]
  | entry :: entries =>
      if key < entry.1 then (key, value) :: entry :: entries
      else if key = entry.1 then (key, value) :: entries
      else entry :: putEntry key value entries

/-- The entries are the new one and the others with other keys. -/
theorem mem_putEntry {key : κ} {value : α} {entries : List (κ × α)}
    {entry : κ × α}
    (sorted : entries.Pairwise fun first second => first.1 < second.1) :
    entry ∈ putEntry key value entries ↔
      entry = (key, value) ∨ entry ∈ entries ∧ entry.1 ≠ key := by
  induction entries with
  | nil => simp [putEntry]
  | cons other entries inductionHypothesis =>
      obtain ⟨smallest, rest⟩ := List.pairwise_cons.mp sorted
      unfold putEntry
      split_ifs with isBefore isSame
      · rw [List.mem_cons]
        refine or_congr_right ⟨fun isMember => ⟨isMember, ?_⟩, And.left⟩
        obtain rfl | later := List.mem_cons.mp isMember
        · exact ne_of_gt isBefore
        · exact ne_of_gt (isBefore.trans (smallest entry later))
      · rw [List.mem_cons, List.mem_cons]
        refine or_congr_right ⟨fun later => ⟨.inr later, ?_⟩, ?_⟩
        · rw [isSame]
          exact ne_of_gt (smallest entry later)
        · rintro ⟨rfl | later, isOther⟩
          · exact absurd isSame.symm isOther
          · exact later
      · rw [List.mem_cons, List.mem_cons, inductionHypothesis rest]
        constructor
        · rintro (rfl | rfl | ⟨later, isOther⟩)
          · exact .inr ⟨.inl rfl, fun same => isSame same.symm⟩
          · exact .inl rfl
          · exact .inr ⟨.inr later, isOther⟩
        · rintro (rfl | ⟨rfl | later, isOther⟩)
          · exact .inr (.inl rfl)
          · exact .inl rfl
          · exact .inr (.inr ⟨later, isOther⟩)

/-- Putting an entry keeps the keys sorted. -/
theorem sorted_putEntry {key : κ} {value : α} {entries : List (κ × α)}
    (sorted : entries.Pairwise fun first second => first.1 < second.1) :
    (putEntry key value entries).Pairwise fun first second =>
      first.1 < second.1 := by
  induction entries with
  | nil => exact List.pairwise_singleton _ _
  | cons other entries inductionHypothesis =>
      obtain ⟨smallest, rest⟩ := List.pairwise_cons.mp sorted
      unfold putEntry
      split_ifs with isBefore isSame
      · refine List.pairwise_cons.mpr ⟨?_, sorted⟩
        intro entry isMember
        obtain rfl | later := List.mem_cons.mp isMember
        · exact isBefore
        · exact isBefore.trans (smallest entry later)
      · refine List.pairwise_cons.mpr ⟨?_, rest⟩
        intro entry later
        rw [isSame]
        exact smallest entry later
      · refine List.pairwise_cons.mpr ⟨?_, inductionHypothesis rest⟩
        intro entry isMember
        obtain rfl | ⟨later, -⟩ := (mem_putEntry rest).mp isMember
        · exact lt_of_le_of_ne (not_lt.mp isBefore) (Ne.symm isSame)
        · exact smallest entry later

/-- The map without entries. -/
def empty : SortedMap κ α := ⟨[], List.Pairwise.nil⟩

variable (map : SortedMap κ α) (key : κ) (value : α)

/-- The value of a key. -/
def find : Option α :=
  (map.entries.find? fun entry => entry.1 = key).map Prod.snd

/-- Set the value of a key. -/
def assign : SortedMap κ α :=
  ⟨putEntry key value map.entries, sorted_putEntry map.sorted⟩

/-- Set the value of a key that has none. -/
def insert : SortedMap κ α :=
  match map.find key with
  | some _ => map
  | none => map.assign key value

/-- The map without the entry of a key. -/
def erase : SortedMap κ α :=
  ⟨map.entries.filter fun entry => entry.1 ≠ key, map.sorted.filter _⟩

variable {map key value}

/-- A key has one value. -/
theorem value_unique {other : α} (first : (key, value) ∈ map.entries)
    (second : (key, other) ∈ map.entries) :
    value = other := by
  have distinct : (map.entries.map Prod.fst).Nodup :=
    List.pairwise_map.mpr (map.sorted.imp ne_of_lt)
  exact congrArg Prod.snd
    (List.inj_on_of_nodup_map distinct first second rfl)

/-- A key is found with the value of its entry. -/
theorem find_eq_some_iff :
    map.find key = some value ↔ (key, value) ∈ map.entries := by
  constructor
  · intro found
    obtain ⟨⟨other, value⟩, isFirst, rfl⟩ := Option.map_eq_some_iff.mp found
    have sameKey : other = key := by
      simpa using List.find?_some isFirst
    rw [← sameKey]
    exact List.mem_of_find?_eq_some isFirst
  · intro isMember
    cases found : map.find key with
    | none =>
        have absent := List.find?_eq_none.mp (Option.map_eq_none_iff.mp found)
          _ isMember
        simp at absent
    | some other =>
        obtain ⟨⟨same, other⟩, isFirst, rfl⟩ :=
          Option.map_eq_some_iff.mp found
        have sameKey : same = key := by
          simpa using List.find?_some isFirst
        subst sameKey
        exact congrArg some
          (value_unique (List.mem_of_find?_eq_some isFirst) isMember)

/-- A key without an entry is not found. -/
theorem find_eq_none_iff :
    map.find key = none ↔ ∀ value, (key, value) ∉ map.entries := by
  rw [Option.eq_none_iff_forall_ne_some]
  exact forall_congr' fun value => not_congr find_eq_some_iff

@[simp] theorem find_empty : (empty : SortedMap κ α).find key = none := rfl

/-- Assigning a key changes the value of that key only. -/
@[simp] theorem find_assign {other : κ} :
    (map.assign key value).find other =
      if other = key then some value else map.find other := by
  ext result
  rw [find_eq_some_iff]
  unfold assign
  rw [mem_putEntry map.sorted]
  split_ifs with isSame
  · subst isSame
    simp [eq_comm]
  · rw [find_eq_some_iff]
    simp [isSame]

theorem putEntry_of_lt {entries : List (κ × α)}
    (largest : ∀ entry ∈ entries, entry.1 < key) :
    putEntry key value entries = entries ++ [(key, value)] := by
  induction entries with
  | nil => rfl
  | cons entry entries inductionHypothesis =>
      obtain ⟨first, later⟩ := List.forall_mem_cons.mp largest
      unfold putEntry
      rw [if_neg first.not_gt, if_neg first.ne', inductionHypothesis later,
        List.cons_append]

/-- A key behind all others gets its value at the end. -/
theorem entries_assign_of_lt
    (largest : ∀ entry ∈ map.entries, entry.1 < key) :
    (map.assign key value).entries = map.entries ++ [(key, value)] :=
  putEntry_of_lt largest

theorem find_of_lt (largest : ∀ entry ∈ map.entries, entry.1 < key) :
    map.find key = none := by
  rw [find_eq_none_iff]
  intro value isMember
  exact (largest _ isMember).false

theorem putEntry_of_mem {entries : List (κ × α)}
    (sorted : entries.Pairwise fun first second => first.1 < second.1)
    (isMember : (key, value) ∈ entries) :
    putEntry key value entries = entries := by
  induction entries with
  | nil => exact absurd isMember List.not_mem_nil
  | cons entry entries inductionHypothesis =>
      obtain ⟨smallest, rest⟩ := List.pairwise_cons.mp sorted
      unfold putEntry
      obtain rfl | later := List.mem_cons.mp isMember
      · rw [if_neg (lt_irrefl key), if_pos rfl]
      · have ordered : entry.1 < key := smallest _ later
        rw [if_neg ordered.not_gt, if_neg ordered.ne',
          inductionHypothesis rest later]

/-- Setting a value again changes nothing. -/
theorem assign_of_find (found : map.find key = some value) :
    map.assign key value = map := by
  unfold assign
  congr 1
  exact putEntry_of_mem map.sorted (find_eq_some_iff.mp found)

theorem eq_empty (isEmpty : map.entries = []) : map = empty := by
  obtain ⟨entries, sorted⟩ := map
  obtain rfl : entries = [] := isEmpty
  rfl

/-- Inserting a key keeps the value of a key that is there. -/
@[simp] theorem find_insert {other : κ} :
    (map.insert key value).find other =
      if other = key then some ((map.find key).getD value)
      else map.find other := by
  unfold insert
  split
  case h_1 old found =>
    split_ifs with isSame
    · rw [isSame, found]
      rfl
    · rfl
  case h_2 absent =>
    rw [find_assign, absent]
    rfl

/-- Erasing a key removes that key only. -/
@[simp] theorem find_erase {other : κ} :
    (map.erase key).find other =
      if other = key then none else map.find other := by
  ext result
  rw [find_eq_some_iff]
  unfold erase
  split_ifs with isSame
  · simp [isSame]
  · rw [find_eq_some_iff]
    simp [isSame]

end SortedMap
end Foundation
