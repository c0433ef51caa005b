import Mathlib.Data.Finset.Card
import Mathlib.Data.Finset.Insert
import Mathlib.Order.Interval.Finset.Nat

/-!
# Open addressing with linear probing

A table of slots in which an entry is put into the first free slot behind the
one that belongs to its key.  Entries are never taken out, so that the slots
from there to the entry stay occupied, and a search may stop at a free slot.
-/

namespace Foundation
namespace LinearProbing

variable {α : Type*} {size : Nat} {start : α → Nat}
  {slots : Nat → Option α} {stored : List α} {entry : α}

/-- The slot at an offset from the first one that is probed. -/
def probe (size first offset : Nat) : Nat :=
  (first + offset) % size

theorem probe_lt (positive : 0 < size) (first offset : Nat) :
    probe size first offset < size :=
  Nat.mod_lt _ positive

/-- Every slot is probed. -/
theorem exists_probe {slot : Nat} (inside : slot < size) (first : Nat) :
    ∃ offset < size, probe size first offset = slot := by
  have firstInside : first % size < size := Nat.mod_lt _ (by omega)
  refine ⟨(slot + (size - first % size)) % size, Nat.mod_lt _ (by omega), ?_⟩
  have total : first % size + (slot + (size - first % size)) = slot + size := by
    omega
  rw [probe, Nat.add_mod_mod, ← Nat.mod_add_mod, total, Nat.add_mod_right,
    Nat.mod_eq_of_lt inside]

/-- The slots that are not free. -/
def occupied (size : Nat) (slots : Nat → Option α) : Finset Nat :=
  (Finset.range size).filter fun slot => (slots slot).isSome

/-- The table holds some entries: each of them can be reached from its start
past slots that are not free. -/
structure Holds (size : Nat) (start : α → Nat) (slots : Nat → Option α)
    (stored : List α) : Prop where
  few : (occupied size slots).card ≤ stored.length
  isStored : ∀ slot < size, ∀ entry ∈ slots slot, entry ∈ stored
  chained : ∀ entry ∈ stored, ∃ offset < size,
    slots (probe size (start entry) offset) = some entry ∧
      ∀ before < offset,
        (slots (probe size (start entry) before)).isSome

theorem holds_empty : Holds size start (fun _ => none) [] where
  few := by
    rw [List.length_nil, Nat.le_zero, Finset.card_eq_zero]
    exact Finset.filter_eq_empty_iff.mpr fun slot _ => by simp
  isStored := by
    intro slot _ entry isHere
    contradiction
  chained := by
    intro entry isEntry
    contradiction

/-- The first free slot in the order in which they are probed. -/
structure FirstFree (size : Nat) (slots : Nat → Option α)
    (first offset : Nat) : Prop where
  inside : offset < size
  free : slots (probe size first offset) = none
  taken : ∀ before < offset, (slots (probe size first before)).isSome

/-- The slots are taken up to the first free one, or all of them are. -/
theorem exists_firstFree_or (size first : Nat) (slots : Nat → Option α) :
    (∃ offset, FirstFree size slots first offset) ∨
      ∀ offset < size, (slots (probe size first offset)).isSome := by
  classical
  by_cases someFree : ∃ offset, offset < size ∧
      slots (probe size first offset) = none
  · have inside := (Nat.find_spec someFree).1
    refine .inl ⟨Nat.find someFree, inside, (Nat.find_spec someFree).2, ?_⟩
    intro before earlier
    rw [Option.isSome_iff_ne_none]
    intro free
    exact Nat.find_min someFree earlier ⟨by omega, free⟩
  · refine .inr fun offset bound => ?_
    rw [Option.isSome_iff_ne_none]
    intro free
    exact someFree ⟨offset, bound, free⟩

/-- A table that is not full has a first free slot. -/
theorem Holds.exists_firstFree (holds : Holds size start slots stored)
    (room : stored.length < size) (first : Nat) :
    ∃ offset, FirstFree size slots first offset := by
  apply (exists_firstFree_or size first slots).resolve_right
  intro allTaken
  have full : Finset.range size ⊆ occupied size slots := by
    intro slot isSlot
    obtain ⟨offset, bound, rfl⟩ :=
      exists_probe (Finset.mem_range.mp isSlot) first
    exact Finset.mem_filter.mpr ⟨isSlot, allTaken offset bound⟩
  have count := (Finset.card_le_card full).trans holds.few
  rw [Finset.card_range] at count
  omega

/-- An entry is put into the first free slot. -/
theorem Holds.put (holds : Holds size start slots stored) {offset : Nat}
    (first : FirstFree size slots (start entry) offset) :
    Holds size start
      (Function.update slots (probe size (start entry) offset) (some entry))
      (stored ++ [entry]) := by
  have stays : ∀ slot, (slots slot).isSome →
      Function.update slots (probe size (start entry) offset) (some entry)
        slot = slots slot := by
    intro slot isTaken
    apply Function.update_of_ne
    rintro rfl
    rw [first.free] at isTaken
    contradiction
  refine ⟨?_, ?_, ?_⟩
  · have grown : occupied size (Function.update slots
        (probe size (start entry) offset) (some entry)) ⊆
        insert (probe size (start entry) offset) (occupied size slots) := by
      intro slot isTaken
      obtain ⟨inside, isSome⟩ := Finset.mem_filter.mp isTaken
      rw [Finset.mem_insert]
      by_cases here : slot = probe size (start entry) offset
      · exact .inl here
      · rw [Function.update_of_ne here] at isSome
        exact .inr (Finset.mem_filter.mpr ⟨inside, isSome⟩)
    calc
      _ ≤ (insert (probe size (start entry) offset)
          (occupied size slots)).card := Finset.card_le_card grown
      _ ≤ (occupied size slots).card + 1 := Finset.card_insert_le _ _
      _ ≤ (stored ++ [entry]).length := by
        rw [List.length_append, List.length_singleton]
        exact Nat.add_le_add_right holds.few 1
  · intro slot inside other isHere
    rw [List.mem_append, List.mem_singleton]
    by_cases here : slot = probe size (start entry) offset
    · subst here
      rw [Function.update_self, Option.mem_some_iff] at isHere
      exact .inr isHere.symm
    · rw [Function.update_of_ne here] at isHere
      exact .inl (holds.isStored slot inside other isHere)
  · intro other isOther
    rw [List.mem_append, List.mem_singleton] at isOther
    obtain isOld | rfl := isOther
    · obtain ⟨place, inside, isHere, before⟩ := holds.chained other isOld
      refine ⟨place, inside, ?_, ?_⟩
      · rw [stays _ (by rw [isHere]; rfl)]
        exact isHere
      · intro earlier bound
        rw [stays _ (before earlier bound)]
        exact before earlier bound
    · refine ⟨offset, first.inside, Function.update_self _ _ _, ?_⟩
      intro before earlier
      rw [stays _ (first.taken before earlier)]
      exact first.taken before earlier

/-- The entry that a search meets first.  The slots before it hold others. -/
theorem Holds.exists_first (holds : Holds size start slots stored)
    (isStored : entry ∈ stored) :
    ∃ offset < size, slots (probe size (start entry) offset) = some entry ∧
      ∀ before < offset, ∃ other ∈ stored, other ≠ entry ∧
        slots (probe size (start entry) before) = some other := by
  classical
  have found : ∃ offset, slots (probe size (start entry) offset) =
      some entry := by
    obtain ⟨offset, -, isHere, -⟩ := holds.chained entry isStored
    exact ⟨offset, isHere⟩
  obtain ⟨offset, inside, isHere, before⟩ := holds.chained entry isStored
  have notLater : Nat.find found ≤ offset := Nat.find_min' found isHere
  refine ⟨Nat.find found, by omega, Nat.find_spec found, ?_⟩
  intro earlier bound
  obtain ⟨other, isOther⟩ :=
    Option.isSome_iff_exists.mp (before earlier (by omega))
  refine ⟨other, ?_, ?_, isOther⟩
  · exact holds.isStored _ (probe_lt (by omega) _ _) other isOther
  · rintro rfl
    exact Nat.find_min found bound isOther

end LinearProbing
end Foundation
