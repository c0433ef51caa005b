import Mathlib

/-!
# A cache in an array

Entries are stored one behind another in an array whose other slots are free.
A search passes over the entries up to the first free slot, which is where the
next entry goes.  If entries with the same key have the same value, it does not
matter which of them is the last one that a search meets.
-/

namespace Foundation
namespace SlotCache

variable {ε σ : Type*}

/-- The state after a search, and the index of the slot at which it ends. -/
def scan (free : ε → Prop) [DecidablePred free] (look : σ → ε → σ) :
    List ε → σ → ℕ × σ
  | [], state => (0, state)
  | entry :: slots, state =>
      if free entry then (0, state)
      else
        let rest := scan free look slots (look state entry)
        (rest.1 + 1, rest.2)

/-- An entry is written to a slot, which is not defined beyond the array. -/
def store (slots : List ε) (index : ℕ) (entry : ε) : Option (List ε) :=
  if index < slots.length then some (slots.set index entry) else none

theorem store_of_full {slots : List ε} {index : ℕ} (entry : ε)
    (full : slots.length ≤ index) : store slots index entry = none :=
  if_neg full.not_gt

/-- The entries are in front of the free slots. -/
structure Holds (free : ε → Prop) (slots used : List ε) : Prop where
  filled : ∀ entry ∈ used, ¬free entry
  exists_free : ∃ rest, slots = used ++ rest ∧ ∀ entry ∈ rest, free entry

namespace Holds

variable {free : ε → Prop} {slots used : List ε}

theorem of_free (allFree : ∀ entry ∈ slots, free entry) :
    Holds free slots [] where
  filled := List.forall_mem_nil _
  exists_free := ⟨slots, rfl, allFree⟩

theorem length_le (holds : Holds free slots used) :
    used.length ≤ slots.length := by
  obtain ⟨rest, rfl, -⟩ := holds.exists_free
  simp

/-- A search meets all entries. -/
theorem scan_eq [DecidablePred free] (holds : Holds free slots used)
    (look : σ → ε → σ) (state : σ) :
    scan free look slots state = (used.length, used.foldl look state) := by
  obtain ⟨filled, rest, rfl, isFree⟩ := holds
  induction used generalizing state with
  | nil =>
      cases rest with
      | nil => rfl
      | cons entry rest => exact if_pos (isFree entry List.mem_cons_self)
  | cons entry used inductionHypothesis =>
      obtain ⟨notFree, filled⟩ := List.forall_mem_cons.mp filled
      rw [List.cons_append, scan, if_neg notFree,
        inductionHypothesis (look state entry) filled]
      rfl

/-- The next entry goes behind the others, if there is room. -/
theorem exists_store {entry : ε} (holds : Holds free slots used)
    (notFree : ¬free entry) (room : used.length < slots.length) :
    ∃ stored, store slots used.length entry = some stored ∧
      stored.length = slots.length ∧ Holds free stored (used ++ [entry]) := by
  refine ⟨_, if_pos room, List.length_set, ?_, ?_⟩
  · intro other isOther
    obtain isOld | isNew := List.mem_append.mp isOther
    · exact holds.filled other isOld
    · rw [List.mem_singleton.mp isNew]
      exact notFree
  · obtain ⟨rest, rfl, isFree⟩ := holds.exists_free
    cases rest with
    | nil => simp at room
    | cons first rest =>
        refine ⟨rest, by simp, ?_⟩
        exact fun other isOther => isFree other (List.mem_cons_of_mem _ isOther)

end Holds

/-! ## What a search recalls -/

/-- The entries that match have one value, which the last of them gives. -/
theorem foldl_recall {ν : Type*} {used : List ε} (isMatch : ε → Prop)
    [DecidablePred isMatch] (value : ε → ν) {common : ν}
    (same : ∀ entry ∈ used, isMatch entry → value entry = common)
    (start : Option ν) :
    used.foldl
        (fun found entry => if isMatch entry then some (value entry) else found)
        start =
      if ∃ entry ∈ used, isMatch entry then some common else start := by
  induction used generalizing start with
  | nil => simp
  | cons entry used inductionHypothesis =>
      obtain ⟨first, same⟩ := List.forall_mem_cons.mp same
      rw [List.foldl_cons, inductionHypothesis same]
      by_cases later : ∃ other ∈ used, isMatch other
      · rw [if_pos later, if_pos (List.exists_mem_cons_of_exists later)]
      · rw [if_neg later]
        by_cases isFirst : isMatch entry
        · rw [if_pos isFirst, first isFirst,
            if_pos ⟨entry, List.mem_cons_self, isFirst⟩]
        · rw [if_neg isFirst, if_neg]
          intro found
          exact (List.or_exists_of_exists_mem_cons found).elim isFirst later

end SlotCache
end Foundation
