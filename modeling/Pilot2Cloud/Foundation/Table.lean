import Mathlib.Data.List.Perm.Basic
import Mathlib.Data.List.Nodup

/-!
# Tables with distinct keys

A table is an array of entries with distinct keys.  An entry is found by
scanning for its key, replaced in place, appended, or removed by moving the
last entry into its place.
-/

namespace Foundation

/-- Remove an entry by moving the last one into its place. -/
def swapRemove (entries : List α) (index : Nat) : List α :=
  match entries.getLast? with
  | none => []
  | some last => (entries.set index last).dropLast

/-- Moving the last entry into the place of another only reorders what erasing
the other leaves. -/
theorem swapRemove_perm
    {entries : List α} {index : Nat} (bound : index < entries.length) :
    (swapRemove entries index).Perm (entries.eraseIdx index) := by
  obtain ⟨front, last, rfl⟩ : ∃ front last, entries = front ++ [last] := by
    refine ⟨entries.dropLast, entries.getLast (by
      rintro rfl
      simp at bound), ?_⟩
    rw [List.dropLast_append_getLast]
  rw [swapRemove, List.getLast?_concat]
  rw [List.length_append, List.length_singleton] at bound
  by_cases inFront : index < front.length
  · simp only [List.set_append_left _ _ inFront, List.dropLast_concat,
      List.eraseIdx_append_of_lt_length inFront]
    refine (List.set_perm_cons_eraseIdx inFront last).trans ?_
    exact (List.perm_append_singleton last _).symm
  · have here : index = front.length := by omega
    subst here
    simp [List.eraseIdx_append_of_length_le]

/-- Entries with distinct keys. -/
structure Table (key : α → κ) where
  entries : List α
  distinct : (entries.map key).Nodup

namespace Table

variable {α κ : Type} {key : α → κ}

/-- The table without entries. -/
def empty (key : α → κ) : Table key := ⟨[], List.nodup_nil⟩

variable [DecidableEq κ] (table : Table key)

/-- The entry with a key. -/
def find (wanted : κ) : Option α :=
  table.entries.find? fun entry => key entry = wanted

/-- The position at which the scan for a key stops. -/
def position (wanted : κ) : Nat :=
  table.entries.findIdx fun entry => key entry = wanted

/-- The entry found for a key is the one in the table that has it. -/
theorem find_eq_some_iff {wanted : κ} {entry : α} :
    table.find wanted = some entry ↔
      entry ∈ table.entries ∧ key entry = wanted := by
  constructor
  · intro found
    exact ⟨List.mem_of_find?_eq_some found, by
      simpa using List.find?_some found⟩
  · rintro ⟨member, rfl⟩
    cases found : table.find (key entry) with
    | none =>
        have absent := List.find?_eq_none.mp found entry member
        simp at absent
    | some other =>
        have sameKey : key other = key entry := by
          simpa using List.find?_some found
        rw [List.inj_on_of_nodup_map table.distinct
          (List.mem_of_find?_eq_some found) member sameKey]

@[simp] theorem find_empty (wanted : κ) : (empty key).find wanted = none :=
  rfl

/-- The position of a key is inside the table exactly when the key is found. -/
theorem position_lt_iff {wanted : κ} :
    table.position wanted < table.entries.length ↔
      ∃ entry, table.find wanted = some entry := by
  simp only [position, List.findIdx_lt_length, decide_eq_true_eq,
    find_eq_some_iff]

theorem key_at_position
    {wanted : κ} (bound : table.position wanted < table.entries.length) :
    key table.entries[table.position wanted] = wanted := by
  have here : decide (key table.entries[table.position wanted] = wanted) =
      true :=
    List.findIdx_getElem (w := bound)
  simpa using here

/-- Replace the entry that has the key of `entry`. -/
def update (entry : α) : Table key where
  entries := table.entries.set (table.position (key entry)) entry
  distinct := by
    have sameKeys : (table.entries.set (table.position (key entry))
        entry).map key = table.entries.map key := by
      rw [List.map_set]
      by_cases bound : table.position (key entry) < table.entries.length
      · have here := table.key_at_position bound
        apply List.ext_getElem (by simp)
        intro index inSet inKeys
        rw [List.getElem_set]
        split
        · next same => subst same; simp [here]
        · rfl
      · rw [List.set_eq_of_length_le (by simpa using bound)]
    rw [sameKeys]
    exact table.distinct

/-- Append an entry with a new key. -/
def insert (entry : α) (absent : table.find (key entry) = none) :
    Table key where
  entries := table.entries ++ [entry]
  distinct := by
    rw [List.map_append, List.map_singleton, List.nodup_append]
    refine ⟨table.distinct, List.nodup_singleton _, ?_⟩
    intro present inTable other isNew same
    obtain ⟨member, inEntries, rfl⟩ := List.mem_map.mp inTable
    rw [List.mem_singleton] at isNew
    have notHere := List.find?_eq_none.mp absent member inEntries
    simp [same, isNew] at notHere

/-- Remove the entry with a key. -/
def remove (wanted : κ) : Table key where
  entries :=
    if table.position wanted < table.entries.length then
      swapRemove table.entries (table.position wanted)
    else table.entries
  distinct := by
    split
    · next bound =>
        refine ((swapRemove_perm bound).map key).nodup_iff.mpr ?_
        rw [← List.eraseIdx_map]
        exact table.distinct.eraseIdx _
    · exact table.distinct

/-- Two tables in which the same entries have a key find the same for it. -/
theorem find_congr
    {first second : Table key} {wanted : κ}
    (same : ∀ entry, key entry = wanted →
      (entry ∈ first.entries ↔ entry ∈ second.entries)) :
    first.find wanted = second.find wanted := by
  apply Option.ext
  intro entry
  rw [find_eq_some_iff, find_eq_some_iff]
  constructor
  · rintro ⟨member, rfl⟩
    exact ⟨(same entry rfl).mp member, rfl⟩
  · rintro ⟨member, rfl⟩
    exact ⟨(same entry rfl).mpr member, rfl⟩

/-- An updated entry is found under its key. -/
theorem find_update_same
    {entry old : α} (present : table.find (key entry) = some old) :
    (table.update entry).find (key entry) = some entry := by
  have bound := table.position_lt_iff.mpr ⟨old, present⟩
  exact (table.update entry).find_eq_some_iff.mpr
    ⟨List.mem_set bound entry, rfl⟩

/-- Updating an entry leaves the other keys alone. -/
theorem find_update_other
    (entry : α) {wanted : κ} (other : wanted ≠ key entry) :
    (table.update entry).find wanted = table.find wanted := by
  refine find_congr fun present isWanted => ?_
  simp only [update, List.mem_iff_getElem?, List.getElem?_set]
  constructor
  · rintro ⟨index, found⟩
    split at found
    · split at found
      · injection found with same
        exact absurd (same ▸ isWanted).symm other
      · contradiction
    · exact ⟨index, found⟩
  · rintro ⟨index, found⟩
    refine ⟨index, ?_⟩
    rw [if_neg, found]
    rintro rfl
    obtain ⟨bound, here⟩ := List.getElem?_eq_some_iff.mp found
    have keyHere := table.key_at_position bound
    rw [here] at keyHere
    exact other (isWanted.symm.trans keyHere)

/-- An inserted entry is found under its key. -/
theorem find_insert_same
    {entry : α} (absent : table.find (key entry) = none) :
    (table.insert entry absent).find (key entry) = some entry :=
  (table.insert entry absent).find_eq_some_iff.mpr ⟨by simp [insert], rfl⟩

/-- Inserting an entry leaves the other keys alone. -/
theorem find_insert_other
    {entry : α} {wanted : κ} (absent : table.find (key entry) = none)
    (other : wanted ≠ key entry) :
    (table.insert entry absent).find wanted = table.find wanted := by
  refine find_congr fun present isWanted => ?_
  simp only [insert, List.mem_append, List.mem_singleton]
  refine or_iff_left ?_
  rintro rfl
  exact other isWanted.symm

theorem mem_remove_iff
    {wanted : κ} {entry : α} :
    entry ∈ (table.remove wanted).entries ↔
      ∃ index, index ≠ table.position wanted ∧
        table.entries[index]? = some entry := by
  simp only [remove]
  split
  · next bound =>
      rw [(swapRemove_perm bound).mem_iff, List.mem_eraseIdx_iff_getElem?]
  · next outside =>
      rw [List.mem_iff_getElem?]
      constructor
      · rintro ⟨index, found⟩
        obtain ⟨bound, -⟩ := List.getElem?_eq_some_iff.mp found
        exact ⟨index, by omega, found⟩
      · rintro ⟨index, -, found⟩
        exact ⟨index, found⟩

/-- A removed key is not found. -/
@[simp] theorem find_remove_same (wanted : κ) :
    (table.remove wanted).find wanted = none := by
  cases found : (table.remove wanted).find wanted with
  | none => rfl
  | some entry =>
      obtain ⟨member, isWanted⟩ :=
        (table.remove wanted).find_eq_some_iff.mp found
      obtain ⟨index, elsewhere, here⟩ := table.mem_remove_iff.mp member
      have present := table.find_eq_some_iff.mpr
        ⟨List.mem_of_getElem? here, isWanted⟩
      have bound := table.position_lt_iff.mpr ⟨entry, present⟩
      have sameKey : (table.entries.map key)[table.position wanted]? =
          (table.entries.map key)[index]? := by
        rw [List.getElem?_map, List.getElem?_map, here,
          List.getElem?_eq_getElem bound, Option.map_some, Option.map_some,
          table.key_at_position bound, isWanted]
      have samePosition := (List.getElem?_inj
        (by rw [List.length_map]; exact bound) table.distinct).mp sameKey
      exact absurd samePosition.symm elsewhere

/-- Removing a key leaves the other keys alone. -/
theorem find_remove_other
    {removed wanted : κ} (other : wanted ≠ removed) :
    (table.remove removed).find wanted = table.find wanted := by
  refine find_congr fun present isWanted => ?_
  rw [mem_remove_iff, List.mem_iff_getElem?]
  constructor
  · rintro ⟨index, -, found⟩
    exact ⟨index, found⟩
  · rintro ⟨index, found⟩
    refine ⟨index, ?_, found⟩
    rintro rfl
    obtain ⟨bound, here⟩ := List.getElem?_eq_some_iff.mp found
    have keyHere := table.key_at_position bound
    rw [here, isWanted] at keyHere
    exact other keyHere

end Table
end Foundation
