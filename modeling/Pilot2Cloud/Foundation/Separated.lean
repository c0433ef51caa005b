import Mathlib.Data.List.Infix

/-!
# Searching in separated segments

Segments are joined with a separator that occurs in none of them.  A pattern of
such segments is found in the joined ones exactly where its first segment is the
end of a segment, its last one the beginning of a segment, and those in between
are segments.
-/

namespace Foundation

variable {α : Type*} {separator : α}

/-- The segments start with the pattern, of which the last part may be shorter
than its segment. -/
def StartsWith : List (List α) → List (List α) → Prop
  | [], _ => True
  | _ :: _, [] => False
  | [part], segment :: _ => part <+: segment
  | part :: next :: pattern, segment :: segments =>
      part = segment ∧ StartsWith (next :: pattern) segments

/-- The pattern is found in the segments, of which the first part may be shorter
than its segment. -/
def Occurs (pattern : List (List α)) : List (List α) → Prop
  | [] => False
  | segment :: segments =>
      (∃ start, start <:+ segment ∧ StartsWith pattern (start :: segments)) ∨
        Occurs pattern segments

/-! ## The first separator -/

/-- A part without separators in front of one ends there. -/
theorem prefix_append_cons_iff {part segment rest : List α}
    (noSeparator : separator ∉ part) :
    part <+: segment ++ separator :: rest ↔ part <+: segment := by
  constructor
  · intro isPrefix
    obtain inside | beyond :=
      List.prefix_or_prefix_of_prefix isPrefix (List.prefix_append _ _)
    · exact inside
    · obtain ⟨more, rfl⟩ := beyond
      rw [List.prefix_append_right_inj] at isPrefix
      cases more with
      | nil => exact List.append_nil _ ▸ List.prefix_refl _
      | cons first more =>
          obtain ⟨same, -⟩ := List.cons_prefix_cons.mp isPrefix
          rw [same] at noSeparator
          exact absurd (List.mem_append_right _ List.mem_cons_self) noSeparator
  · intro inside
    exact inside.trans (List.prefix_append _ _)

/-- What is in front of the first separator, and what is behind it. -/
theorem append_cons_prefix_iff {part segment pattern rest : List α}
    (noSeparator : separator ∉ part) (noneHere : separator ∉ segment) :
    part ++ separator :: pattern <+: segment ++ separator :: rest ↔
      part = segment ∧ pattern <+: rest := by
  constructor
  · intro isPrefix
    have first : part <+: segment :=
      (prefix_append_cons_iff noSeparator).mp
        ((List.prefix_append _ _).trans isPrefix)
    obtain ⟨more, rfl⟩ := first
    rw [List.append_assoc, List.prefix_append_right_inj] at isPrefix
    cases more with
    | nil =>
        refine ⟨(List.append_nil _).symm, ?_⟩
        exact (List.cons_prefix_cons.mp isPrefix).2
    | cons next more =>
        obtain ⟨same, -⟩ := List.cons_prefix_cons.mp isPrefix
        rw [← same] at noneHere
        exact absurd (List.mem_append_right _ List.mem_cons_self) noneHere
  · rintro ⟨rfl, later⟩
    rw [List.prefix_append_right_inj, List.cons_prefix_cons]
    exact ⟨rfl, later⟩

/-- A text is found behind the first separator, or it starts in front of it. -/
theorem infix_append_cons_iff {text segment rest : List α} :
    text <:+: segment ++ separator :: rest ↔
      (∃ start, start <:+ segment ∧ text <+: start ++ separator :: rest) ∨
        text <:+: rest := by
  rw [List.infix_iff_prefix_suffix]
  constructor
  · rintro ⟨tail, isPrefix, isSuffix⟩
    obtain ⟨front, split⟩ := isSuffix
    obtain ⟨middle, same, back⟩ | ⟨middle, same, back⟩ :=
      List.append_eq_append_iff.mp split
    · left
      exact ⟨middle, ⟨front, same.symm⟩, back ▸ isPrefix⟩
    · cases middle with
      | nil =>
          left
          refine ⟨[], List.nil_suffix, ?_⟩
          rw [List.nil_append] at back ⊢
          rw [back]
          exact isPrefix
      | cons first middle =>
          right
          obtain ⟨-, rfl⟩ := List.cons.inj back
          exact isPrefix.isInfix.trans (List.suffix_append _ _).isInfix
  · rintro (⟨start, ⟨front, rfl⟩, isPrefix⟩ | inside)
    · exact ⟨_, isPrefix, front, (List.append_assoc _ _ _).symm⟩
    · obtain ⟨tail, isPrefix, isSuffix⟩ := List.infix_iff_prefix_suffix.mp inside
      refine ⟨tail, isPrefix, isSuffix.trans ?_⟩
      exact (List.suffix_cons _ _).trans (List.suffix_append _ _)

/-! ## Segments -/

/-- The joined segments start with the joined pattern. -/
theorem intercalate_prefix_iff {part segment : List α}
    {pattern segments : List (List α)}
    (plain : ∀ piece ∈ part :: pattern, separator ∉ piece)
    (plainHere : ∀ piece ∈ segment :: segments, separator ∉ piece) :
    [separator].intercalate (part :: pattern) <+:
        [separator].intercalate (segment :: segments) ↔
      StartsWith (part :: pattern) (segment :: segments) := by
  induction pattern generalizing part segment segments with
  | nil =>
      rw [List.intercalate_singleton]
      unfold StartsWith
      cases segments with
      | nil => rw [List.intercalate_singleton]
      | cons next segments =>
          rw [List.intercalate_cons_cons, List.append_assoc]
          exact prefix_append_cons_iff (plain part List.mem_cons_self)
  | cons nextPart pattern inductionHypothesis =>
      obtain ⟨plainPart, plainPattern⟩ := List.forall_mem_cons.mp plain
      obtain ⟨plainSegment, plainSegments⟩ := List.forall_mem_cons.mp plainHere
      rw [List.intercalate_cons_cons, List.append_assoc]
      unfold StartsWith
      cases segments with
      | nil =>
          rw [List.intercalate_singleton]
          apply iff_of_false
          · intro isPrefix
            apply plainSegment
            apply isPrefix.subset
            exact List.mem_append_right _ List.mem_cons_self
          · rintro ⟨-, impossible⟩
            unfold StartsWith at impossible
            exact impossible
      | cons nextSegment segments =>
          rw [List.intercalate_cons_cons, List.append_assoc]
          refine (append_cons_prefix_iff plainPart plainSegment).trans ?_
          exact and_congr_right fun _ =>
            inductionHypothesis plainPattern plainSegments

/-- The same from the middle of the first segment on. -/
theorem intercalate_prefix_of_suffix {part segment start : List α}
    {pattern segments : List (List α)}
    (plain : ∀ piece ∈ part :: pattern, separator ∉ piece)
    (plainHere : ∀ piece ∈ segment :: segments, separator ∉ piece)
    (isSuffix : start <:+ segment) :
    [separator].intercalate (part :: pattern) <+:
        [separator].intercalate (start :: segments) ↔
      StartsWith (part :: pattern) (start :: segments) := by
  obtain ⟨plainSegment, plainSegments⟩ := List.forall_mem_cons.mp plainHere
  apply intercalate_prefix_iff plain
  rw [List.forall_mem_cons]
  exact ⟨fun inside => plainSegment (isSuffix.subset inside), plainSegments⟩

/-- The joined pattern is found in the joined segments exactly if the pattern
occurs in the segments. -/
theorem intercalate_infix_iff {part segment : List α}
    {pattern segments : List (List α)}
    (plain : ∀ piece ∈ part :: pattern, separator ∉ piece)
    (plainHere : ∀ piece ∈ segment :: segments, separator ∉ piece) :
    [separator].intercalate (part :: pattern) <:+:
        [separator].intercalate (segment :: segments) ↔
      Occurs (part :: pattern) (segment :: segments) := by
  induction segments generalizing segment with
  | nil =>
      rw [List.infix_iff_prefix_suffix, List.intercalate_singleton]
      unfold Occurs
      unfold Occurs
      rw [or_false]
      apply exists_congr
      intro start
      rw [and_comm]
      apply and_congr_right
      intro isSuffix
      rw [← intercalate_prefix_of_suffix plain plainHere isSuffix,
        List.intercalate_singleton]
  | cons next segments inductionHypothesis =>
      rw [List.intercalate_cons_cons, List.append_assoc]
      refine infix_append_cons_iff.trans ?_
      unfold Occurs
      apply or_congr
      · apply exists_congr
        intro start
        apply and_congr_right
        intro isSuffix
        rw [← intercalate_prefix_of_suffix plain plainHere isSuffix,
          List.intercalate_cons_cons, List.append_assoc]
        rfl
      · exact inductionHypothesis (List.forall_mem_cons.mp plainHere).2

/-! ## Patterns of one and two parts -/

/-- A part that has no separators is found inside of a segment. -/
theorem occurs_singleton_iff {part : List α} {segments : List (List α)} :
    Occurs [part] segments ↔ ∃ segment ∈ segments, part <:+: segment := by
  induction segments with
  | nil => simp [Occurs]
  | cons segment segments inductionHypothesis =>
      unfold Occurs StartsWith
      rw [inductionHypothesis, List.exists_mem_cons_iff,
        List.infix_iff_prefix_suffix]
      simp only [and_comm]

/-- The end of a segment and the beginning of the next one. -/
theorem occurs_pair_cons_iff {first second segment next : List α}
    {segments : List (List α)} :
    Occurs [first, second] (segment :: next :: segments) ↔
      (first <:+ segment ∧ second <+: next) ∨
        Occurs [first, second] (next :: segments) := by
  rw [Occurs]
  unfold StartsWith StartsWith
  apply or_congr_left
  constructor
  · rintro ⟨start, isSuffix, rfl, isPrefix⟩
    exact ⟨isSuffix, isPrefix⟩
  · rintro ⟨isSuffix, isPrefix⟩
    exact ⟨first, isSuffix, rfl, isPrefix⟩

@[simp] theorem not_occurs_pair_singleton {first second segment : List α} :
    ¬Occurs [first, second] [segment] := by
  unfold Occurs StartsWith Occurs StartsWith
  simp

/-- Nothing is found among segments that do not begin with the second part. -/
theorem occurs_pair_append_iff {first second last : List α}
    {prior segments : List (List α)}
    (others : ∀ segment ∈ prior ++ [last], ¬second <+: segment) :
    Occurs [first, second] (prior ++ last :: segments) ↔
      Occurs [first, second] (last :: segments) := by
  induction prior with
  | nil => exact Iff.rfl
  | cons segment prior inductionHypothesis =>
      have later := inductionHypothesis
        (List.forall_mem_cons.mp others).2
      rw [← later]
      cases prior with
      | nil =>
          rw [List.singleton_append, occurs_pair_cons_iff]
          apply or_iff_right
          rintro ⟨-, isPrefix⟩
          exact others last (by simp) isPrefix
      | cons next prior =>
          rw [List.cons_append, List.cons_append, occurs_pair_cons_iff]
          apply or_iff_right
          rintro ⟨-, isPrefix⟩
          exact others next (by simp) isPrefix

/-! ## Patterns with a separator in front -/

/-- Behind the separator the pattern begins with a segment. -/
theorem occurs_nil_cons_iff {part segment : List α}
    {pattern segments : List (List α)} :
    Occurs ([] :: part :: pattern) (segment :: segments) ↔
      StartsWith (part :: pattern) segments ∨
        Occurs ([] :: part :: pattern) segments := by
  rw [Occurs]
  apply or_congr_left
  constructor
  · rintro ⟨start, -, starts⟩
    unfold StartsWith at starts
    exact starts.2
  · intro starts
    refine ⟨[], List.nil_suffix, ?_⟩
    unfold StartsWith
    exact ⟨rfl, starts⟩

/-- Nothing is found among segments that do not begin the pattern. -/
theorem occurs_nil_append_iff {part last : List α}
    {pattern prior segments : List (List α)}
    (others : ∀ segment ∈ prior ++ [last], ∀ rest,
      ¬StartsWith (part :: pattern) (segment :: rest)) :
    Occurs ([] :: part :: pattern) (prior ++ last :: segments) ↔
      Occurs ([] :: part :: pattern) (last :: segments) := by
  induction prior with
  | nil => exact Iff.rfl
  | cons segment prior inductionHypothesis =>
      rw [← inductionHypothesis (List.forall_mem_cons.mp others).2,
        List.cons_append, occurs_nil_cons_iff]
      apply or_iff_right
      cases prior with
      | nil => exact others last (by simp) _
      | cons next prior => exact others next (by simp) _

end Foundation
