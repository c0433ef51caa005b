import Pilot2Cloud.Foundation.IndexRing

/-!
# Rings of values

An array in which the used indices of a ring hold values is a queue of these
values.
-/

namespace Foundation

/-- A ring buffer and the values that are stored in its array. -/
structure StoredRing (α : Type) where
  ring : IndexRing
  stored : Nat → α

namespace StoredRing

variable {α : Type} (queue : StoredRing α)

/-- The values at the used indices in order. -/
def contents : List α :=
  queue.ring.slots.map queue.stored

/-- Store a value at the tail and use its index. -/
def put (value : α) : StoredRing α :=
  ⟨queue.ring.pushBack, Function.update queue.stored queue.ring.tail value⟩

/-- Store a value before the head and use its index. -/
def putFront (value : α) : StoredRing α :=
  ⟨queue.ring.pushFront,
    Function.update queue.stored queue.ring.pushFront.head value⟩

/-- What is stored at the head. -/
def first : α :=
  queue.stored queue.ring.head

/-- Stop using the index at the head. -/
def rest : StoredRing α :=
  ⟨queue.ring.popFront, queue.stored⟩

/-- The values at the used indices, which may say where they are, are related to
the items of a list. -/
def Represents {β : Type} (relation : Nat → α → β → Prop) (items : List β) :
    Prop :=
  List.Forall₂ (fun index item => relation index (queue.stored index) item)
    queue.ring.slots items

variable {queue}

@[simp] theorem length_contents :
    queue.contents.length = queue.ring.length := by
  rw [contents, List.length_map, IndexRing.length_slots]

/-- Putting a value appends it to the contents. -/
theorem contents_put {value : α} (notFull : ¬queue.ring.Full) :
    (queue.put value).contents = queue.contents ++ [value] := by
  have isFree := IndexRing.tail_not_mem_slots notFull
  have isRing : (queue.put value).ring = queue.ring.pushBack := rfl
  have isStored : (queue.put value).stored =
      Function.update queue.stored queue.ring.tail value := rfl
  rw [contents, isRing, isStored, IndexRing.slots_pushBack notFull,
    List.map_append, List.map_singleton, Function.update_self]
  congr 1
  apply List.map_congr_left
  intro index used
  apply Function.update_of_ne
  rintro rfl
  exact isFree used

/-- Putting a value at the front puts it before the contents. -/
theorem contents_putFront {value : α} (notFull : ¬queue.ring.Full) :
    (queue.putFront value).contents = value :: queue.contents := by
  have isFree := IndexRing.head_pushFront_not_mem_slots notFull
  have isRing : (queue.putFront value).ring = queue.ring.pushFront := rfl
  have isStored : (queue.putFront value).stored =
      Function.update queue.stored queue.ring.pushFront.head value := rfl
  rw [contents, isRing, isStored, IndexRing.slots_pushFront notFull,
    List.map_cons, Function.update_self]
  congr 1
  apply List.map_congr_left
  intro index used
  apply Function.update_of_ne
  rintro rfl
  exact isFree used

theorem contents_eq_cons (notEmpty : queue.ring.tail ≠ queue.ring.head) :
    queue.contents = queue.first :: queue.rest.contents := by
  unfold contents
  rw [IndexRing.slots_popFront notEmpty]
  rfl

/-- A stored ring has no contents exactly when its ring is empty. -/
@[simp] theorem contents_eq_nil_iff :
    queue.contents = [] ↔ queue.ring.tail = queue.ring.head := by
  rw [← List.length_eq_zero_iff, length_contents,
    IndexRing.length_eq_zero_iff]

/-! ## Related items -/

namespace Represents

variable {β : Type} {relation other : Nat → α → β → Prop} {items : List β}
  {item : β} {value : α}

theorem length_eq (represents : queue.Represents relation items) :
    items.length = queue.ring.length := by
  rw [← IndexRing.length_slots]
  exact (List.Forall₂.length_eq represents).symm

/-- A relation that holds wherever another one does. -/
theorem mono (represents : queue.Represents relation items)
    (implies : ∀ index ∈ queue.ring.slots, ∀ item,
      relation index (queue.stored index) item →
        other index (queue.stored index) item) :
    queue.Represents other items := by
  unfold Represents at represents ⊢
  rw [List.forall₂_iff_get] at represents ⊢
  obtain ⟨sameLength, related⟩ := represents
  refine ⟨sameLength, ?_⟩
  intro position isSlot isItem
  exact implies _ (List.get_mem _ _) _ (related position isSlot isItem)

/-- A value that is stored at a free index changes nothing. -/
theorem of_free {free : Nat} (represents : queue.Represents relation items)
    (isFree : free ∉ queue.ring.slots) (value : α) :
    List.Forall₂
      (fun index item =>
        relation index (Function.update queue.stored free value index) item)
      queue.ring.slots items := by
  unfold Represents at represents
  rw [List.forall₂_iff_get] at represents ⊢
  obtain ⟨sameLength, related⟩ := represents
  refine ⟨sameLength, ?_⟩
  intro position isSlot isItem
  rw [Function.update_of_ne]
  · exact related position isSlot isItem
  · intro same
    exact isFree (same ▸ List.get_mem _ _)

/-- Putting a related value represents the items with the new item last. -/
theorem put (represents : queue.Represents relation items)
    (notFull : ¬queue.ring.Full)
    (related : relation queue.ring.tail value item) :
    (queue.put value).Represents relation (items ++ [item]) := by
  have old := represents.of_free (IndexRing.tail_not_mem_slots notFull) value
  change List.Forall₂ _ queue.ring.pushBack.slots _
  rw [IndexRing.slots_pushBack notFull]
  apply List.rel_append old
  refine .cons ?_ .nil
  rw [Function.update_self]
  exact related

/-- Putting a related value at the front represents the items with the new item
first. -/
theorem putFront (represents : queue.Represents relation items)
    (notFull : ¬queue.ring.Full)
    (related : relation queue.ring.pushFront.head value item) :
    (queue.putFront value).Represents relation (item :: items) := by
  have old := represents.of_free
    (IndexRing.head_pushFront_not_mem_slots notFull) value
  change List.Forall₂ _ queue.ring.pushFront.slots _
  rw [IndexRing.slots_pushFront notFull]
  refine .cons ?_ old
  change relation _
    (Function.update queue.stored queue.ring.pushFront.head value _) item
  rw [Function.update_self]
  exact related

/-- The first value is related to the first item. -/
theorem exists_rest (represents : queue.Represents relation items)
    (notEmpty : queue.ring.tail ≠ queue.ring.head) :
    ∃ item rest, items = item :: rest ∧
      relation queue.ring.head queue.first item ∧
      queue.rest.Represents relation rest := by
  unfold Represents at represents
  rw [IndexRing.slots_popFront notEmpty] at represents
  cases represents with
  | cons related rest => exact ⟨_, _, rfl, related, rest⟩

theorem eq_nil_iff (represents : queue.Represents relation items) :
    items = [] ↔ queue.ring.tail = queue.ring.head := by
  rw [← List.length_eq_zero_iff, represents.length_eq,
    IndexRing.length_eq_zero_iff]

end Represents
end StoredRing
end Foundation
