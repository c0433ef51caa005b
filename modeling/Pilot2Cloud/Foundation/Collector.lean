import Mathlib.Data.Finset.Card
import Mathlib.Data.Finset.Range
import Mathlib.Data.List.Count
import Mathlib.Data.List.TakeWhile

/-!
# Collecting numbered parts

When the parts of a whole are numbered from zero and none is taken twice, as
many parts as there are make up the whole.  A collector with one slot counts
the parts of one whole at a time and forgets them when a part of another whole
arrives; of two wholes it completes both only when the parts of one all come
before the parts of the other.
-/

namespace Foundation

/-- A list without repetition of as many numbers as there are below a bound
contains all of them. -/
theorem mem_of_nodup_of_length
    {parts : List Nat} {total : Nat}
    (nodup : parts.Nodup) (bounded : ∀ part ∈ parts, part < total)
    (complete : parts.length = total) :
    ∀ part < total, part ∈ parts := by
  have subset : parts.toFinset ⊆ Finset.range total := by
    intro part member
    rw [List.mem_toFinset] at member
    exact Finset.mem_range.mpr (bounded part member)
  have same : parts.toFinset = Finset.range total := by
    refine Finset.eq_of_subset_of_card_le subset ?_
    rw [Finset.card_range, List.toFinset_card_of_nodup nodup, complete]
  intro part below
  rw [← List.mem_toFinset, same]
  exact Finset.mem_range.mpr below

/-- The whole whose parts a slot is counting, and how many it has counted. -/
abbrev Slot (τ : Type) := Option (τ × Nat)

section Slot

variable {τ : Type} [DecidableEq τ] (total : τ → Nat) (opens : τ → Bool)

/-- How many parts of a whole a slot has counted. -/
def Slot.taken : Slot τ → τ → Nat
  | none, _ => 0
  | some (current, count), whole => if current = whole then count else 0

@[simp] theorem Slot.taken_none (whole : τ) : Slot.taken none whole = 0 := rfl

@[simp] theorem Slot.taken_some (current whole : τ) (count : Nat) :
    Slot.taken (some (current, count)) whole =
      if current = whole then count else 0 :=
  rfl

/-- A part arrives: the new slot, and the whole it completes.  A slot for
another whole is given up, and not every whole can be opened. -/
def Slot.collect (slot : Slot τ) (whole : τ) : Slot τ × List τ :=
  if slot.taken whole = 0 ∧ opens whole = false then (none, [])
  else if slot.taken whole + 1 = total whole then (none, [whole])
  else (some (whole, slot.taken whole + 1), [])

/-- The parts of a sequence arrive. -/
def Slot.collectAll : Slot τ → List τ → Slot τ × List τ
  | slot, [] => (slot, [])
  | slot, whole :: later =>
      let (next, complete) := slot.collect total opens whole
      let (final, completeLater) := collectAll next later
      (final, complete ++ completeLater)

variable {total opens}

/-- A refused part leaves the slot as it is. -/
theorem Slot.collect_of_refused
    {slot : Slot τ} {whole : τ} (forgotten : slot.taken whole = 0)
    (refused : opens whole = false) :
    slot.collect total opens whole = (none, []) := by
  rw [collect, if_pos ⟨forgotten, refused⟩]

/-- The last part completes the whole. -/
theorem Slot.collect_of_last
    {slot : Slot τ} {whole : τ}
    (served : slot.taken whole = 0 → opens whole = true)
    (last : slot.taken whole + 1 = total whole) :
    slot.collect total opens whole = (none, [whole]) := by
  rw [collect, if_neg fun refused => by simp [served refused.1] at refused,
    if_pos last]

/-- Another part is counted. -/
theorem Slot.collect_of_more
    {slot : Slot τ} {whole : τ}
    (served : slot.taken whole = 0 → opens whole = true)
    (more : slot.taken whole + 1 ≠ total whole) :
    slot.collect total opens whole =
      (some (whole, slot.taken whole + 1), []) := by
  rw [collect, if_neg fun refused => by simp [served refused.1] at refused,
    if_neg more]

/-- What a slot has counted of a whole and what it has completed of it comes
from parts that arrived. -/
theorem Slot.count_collect_mul_add_le
    (total : τ → Nat) (opens : τ → Bool) (slot : Slot τ)
    (whole arriving : τ) :
    (slot.collect total opens arriving).2.count whole * total whole +
        taken (slot.collect total opens arriving).1 whole ≤
      slot.taken whole + [arriving].count whole := by
  unfold collect
  by_cases same : arriving = whole
  · subst same
    split
    · simp
    · split
      · next complete => simp [complete]
      · simp
  · split
    · simp
    · split <;> simp [same]

/-- Over a whole sequence of parts, too. -/
theorem Slot.count_collectAll_mul_le
    (total : τ → Nat) (opens : τ → Bool) (slot : Slot τ) (parts : List τ)
    (whole : τ) :
    (slot.collectAll total opens parts).2.count whole * total whole ≤
      slot.taken whole + parts.count whole := by
  induction parts generalizing slot with
  | nil => simp [collectAll]
  | cons part parts inductionHypothesis =>
      have here := slot.count_collect_mul_add_le total opens whole part
      have later := inductionHypothesis (slot.collect total opens part).1
      have split : (part :: parts).count whole =
          [part].count whole + parts.count whole := by
        rw [← List.count_append, List.singleton_append]
      simp only [collectAll, List.count_append, Nat.add_mul, split]
      omega

/-- A whole of which no more parts arrive than it has is completed once at
most. -/
theorem Slot.count_collectAll_le_one
    (opens : τ → Bool) {parts : List τ} {whole : τ} (positive : 0 < total whole)
    (allParts : parts.count whole = total whole) :
    (Slot.collectAll total opens none parts).2.count whole ≤ 1 := by
  have bound := Slot.count_collectAll_mul_le total opens none parts whole
  rw [taken_none, Nat.zero_add, allParts] at bound
  exact Nat.le_of_mul_le_mul_right (by rwa [Nat.one_mul]) positive

/-- Parts are collected one after another. -/
theorem Slot.collectAll_append (slot : Slot τ) (early late : List τ) :
    slot.collectAll total opens (early ++ late) =
      ((collectAll total opens (slot.collectAll total opens early).1 late).1,
        (slot.collectAll total opens early).2 ++
          (collectAll total opens (slot.collectAll total opens early).1
            late).2) := by
  induction early generalizing slot with
  | nil => simp [collectAll]
  | cons whole early inductionHypothesis =>
      simp [collectAll, inductionHypothesis]

/-- What is completed can be opened, or was being collected before. -/
theorem Slot.opens_of_mem_collectAll
    {slot : Slot τ} {parts : List τ} {whole : τ}
    (complete : whole ∈ (slot.collectAll total opens parts).2) :
    opens whole = true ∨ slot.taken whole ≠ 0 := by
  induction parts generalizing slot with
  | nil => simp [collectAll] at complete
  | cons part parts inductionHypothesis =>
      simp only [collectAll, List.mem_append] at complete
      by_contra refused
      rw [not_or, Bool.not_eq_true, not_not] at refused
      rcases complete with now | later
      · unfold collect at now
        split at now
        · simp at now
        · split at now
          · simp only [List.mem_singleton] at now
            subst now
            simp_all
          · simp at now
      · rcases inductionHypothesis later with opened | taken
        · simp [refused.1] at opened
        · unfold collect at taken
          split at taken
          · simp at taken
          · split at taken
            · simp at taken
            · rw [taken_some] at taken
              split at taken
              · next same =>
                  subst same
                  simp_all
              · simp at taken

/-- Too few parts do not complete a whole. -/
theorem Slot.not_mem_collectAll_of_few
    {slot : Slot τ} {parts : List τ} {whole : τ}
    (few : slot.taken whole + parts.count whole < total whole) :
    whole ∉ (slot.collectAll total opens parts).2 := by
  intro complete
  have bound := slot.count_collectAll_mul_le total opens parts whole
  have once := List.count_pos_iff.mpr complete
  have atLeast := Nat.le_mul_of_pos_left (total whole) once
  omega

/-- A part of another whole makes the slot forget. -/
theorem Slot.taken_collect_of_ne
    {slot : Slot τ} {whole arriving : τ} (other : arriving ≠ whole) :
    taken (slot.collect total opens arriving).1 whole = 0 := by
  unfold collect
  split
  · rfl
  · split <;> simp [other]

/-- Only the whole of the arriving part is completed. -/
theorem Slot.eq_of_mem_collect
    {slot : Slot τ} {whole arriving : τ}
    (complete : whole ∈ (slot.collect total opens arriving).2) :
    whole = arriving := by
  unfold collect at complete
  split at complete
  · simp at complete
  · split at complete
    · exact List.mem_singleton.mp complete
    · simp at complete

/-- A whole whose parts start to arrive first is completed only if all of them
arrive before any other part. -/
theorem Slot.not_mem_dropWhile_of_collectAll
    {whole : τ} {parts : List τ}
    (allParts : (whole :: parts).count whole = total whole)
    (complete :
      whole ∈ (Slot.collectAll total opens none (whole :: parts)).2) :
    whole ∉ (whole :: parts).dropWhile (· = whole) := by
  intro member
  obtain ⟨early, rest, split⟩ : ∃ early rest,
      (whole :: parts).takeWhile (· = whole) = early ∧
        (whole :: parts).dropWhile (· = whole) = rest :=
    ⟨_, _, rfl, rfl⟩
  have joined := List.takeWhile_append_dropWhile
    (p := fun part => decide (part = whole)) (l := whole :: parts)
  rw [split.1, split.2] at joined
  rw [split.2] at member
  cases rest with
  | nil => simp at member
  | cons arriving late =>
      have other : arriving ≠ whole := by
        have head := List.head?_dropWhile_not
          (fun part => decide (part = whole)) (whole :: parts)
        rw [split.2] at head
        simpa using head
      have counted : early.count whole + late.count whole = total whole := by
        rw [← allParts, ← joined, List.count_append,
          List.count_cons_of_ne other]
      have some : 0 < early.count whole := by
        rw [List.count_pos_iff, ← split.1, List.takeWhile_cons]
        simp
      have later : 0 < late.count whole := by
        rw [List.count_pos_iff]
        exact (List.mem_cons.mp member).resolve_left other.symm
      rw [← joined, collectAll_append, List.mem_append, collectAll,
        List.mem_append] at complete
      rcases complete with inEarly | here | inLate
      · exact not_mem_collectAll_of_few (by simp; omega) inEarly
      · exact other (eq_of_mem_collect here).symm
      · exact not_mem_collectAll_of_few
          (by rw [taken_collect_of_ne other]; omega) inLate

/-- A whole whose parts arrive among those of one other is completed only if its
own parts come first. -/
theorem Slot.replicate_of_collectAll
    {whole other : τ} (different : whole ≠ other) {parts : List τ}
    (allParts : (whole :: parts).count whole = total whole)
    (complete :
      whole ∈ (Slot.collectAll total opens none (whole :: parts)).2)
    (only : ∀ part ∈ whole :: parts, part = whole ∨ part = other) :
    whole :: parts = List.replicate (total whole) whole ++
      List.replicate ((whole :: parts).count other) other := by
  have absent := not_mem_dropWhile_of_collectAll allParts complete
  have joined := List.takeWhile_append_dropWhile
    (p := fun part => decide (part = whole)) (l := whole :: parts)
  have early : ∀ part ∈ (whole :: parts).takeWhile (· = whole),
      part = whole := by
    intro part member
    simpa using List.mem_takeWhile_imp member
  have late : ∀ part ∈ (whole :: parts).dropWhile (· = whole),
      part = other := by
    intro part member
    have inParts := (List.dropWhile_sublist _).subset member
    rcases only part inParts with rfl | isOther
    · exact absurd member absent
    · exact isOther
  rw [List.eq_replicate_of_mem early, List.eq_replicate_of_mem late]
    at joined
  have wholes := congrArg (List.count whole) joined
  have others := congrArg (List.count other) joined
  rw [List.count_append, List.count_replicate_self,
    List.count_replicate, if_neg (by simpa using different.symm), allParts,
    Nat.add_zero] at wholes
  rw [List.count_append, List.count_replicate_self,
    List.count_replicate, if_neg (by simpa using different),
    Nat.zero_add] at others
  rw [wholes, others] at joined
  exact joined.symm

/-- Of two wholes, all of whose parts arrive, both are completed only if the
parts of one come before those of the other. -/
theorem Slot.sequential_of_collectAll
    {first second : τ} (different : first ≠ second) {parts : List τ}
    (only : ∀ part ∈ parts, part = first ∨ part = second)
    (allFirst : parts.count first = total first)
    (allSecond : parts.count second = total second)
    (completeFirst :
      first ∈ (Slot.collectAll total opens none parts).2)
    (completeSecond :
      second ∈ (Slot.collectAll total opens none parts).2) :
    parts = List.replicate (total first) first ++
        List.replicate (total second) second ∨
      parts = List.replicate (total second) second ++
        List.replicate (total first) first := by
  cases parts with
  | nil => simp [collectAll] at completeFirst
  | cons part parts =>
      rcases only part List.mem_cons_self with rfl | rfl
      · left
        rw [← allSecond]
        exact replicate_of_collectAll different allFirst completeFirst only
      · right
        rw [← allFirst]
        exact replicate_of_collectAll different.symm allSecond completeSecond
          fun part member => (only part member).symm

end Slot

end Foundation
