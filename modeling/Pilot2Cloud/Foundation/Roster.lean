import Mathlib.Data.List.Perm.Basic
import Mathlib.Data.List.Nodup
import Mathlib.Data.Finset.Card
import Mathlib.Data.Set.Card
import Mathlib.Logic.Function.Basic
import Pilot2Cloud.Foundation.Table

/-!
# Rosters

A roster is an array with a count of the places that are used.  A new member is
written to the first place that is not, and a member is struck off by writing
the last one to its place.
-/

namespace Foundation

/-- The places of an array, how many are used, and the places that were
written. -/
structure Roster (α : Type) where
  slots : Nat → α
  total : Nat
  written : List Nat

namespace Roster

variable {α : Type} (roster : Roster α)

/-- The members in their order. -/
def members : List α :=
  (List.range roster.total).map roster.slots

/-- A member is written to the place after the last. -/
def add (member : α) : Roster α where
  slots := Function.update roster.slots roster.total member
  total := roster.total + 1
  written := roster.total :: roster.written

/-- The place of a member, or the total. -/
def position [DecidableEq α] (member : α) : Nat :=
  roster.members.findIdx fun other => other = member

/-- Write the last member to a place and use one place less. -/
def strike (position : Nat) : Roster α where
  slots := Function.update roster.slots position (roster.slots (roster.total - 1))
  total := roster.total - 1
  written := position :: roster.written

variable {roster} {member other : α} {position : Nat}

@[simp] theorem length_members : roster.members.length = roster.total := by
  rw [members, List.length_map, List.length_range]

/-- Adding a member appends it to the members. -/
@[simp] theorem members_add :
    (roster.add member).members = roster.members ++ [member] := by
  have isTotal : (roster.add member).total = roster.total + 1 := rfl
  have isSlots : (roster.add member).slots =
      Function.update roster.slots roster.total member := rfl
  rw [members, isTotal, isSlots, List.range_succ, List.map_append,
    List.map_singleton, Function.update_self]
  congr 1
  apply List.map_congr_left
  intro place isUsed
  apply Function.update_of_ne
  exact Nat.ne_of_lt (List.mem_range.mp isUsed)

/-- Striking a member moves the last one into its place. -/
theorem members_strike (bound : position < roster.total) :
    (roster.strike position).members = swapRemove roster.members position := by
  obtain ⟨count, isCount⟩ : ∃ count, roster.total = count + 1 :=
    Nat.exists_eq_add_one.mpr (Nat.zero_lt_of_lt bound)
  have isMembers : roster.members =
      (List.range count).map roster.slots ++ [roster.slots count] := by
    rw [members, isCount, List.range_succ, List.map_append, List.map_singleton]
  rw [swapRemove, isMembers, List.getLast?_concat]
  apply List.ext_getElem
  · simp [strike, isCount]
  · intro place isBefore isInside
    have isPlace : place < count := by
      simpa [strike, isCount] using isBefore
    simp only [members, strike, isCount, Nat.add_sub_cancel, List.getElem_map,
      List.getElem_range, List.getElem_dropLast, List.getElem_set]
    by_cases same : position = place
    · rw [if_pos same, same, Function.update_self]
    · rw [if_neg same, Function.update_of_ne (Ne.symm same),
        List.getElem_append_left (by simpa using isPlace), List.getElem_map,
        List.getElem_range]

section

variable [DecidableEq α]

@[simp] theorem position_lt_iff :
    roster.position member < roster.total ↔ member ∈ roster.members := by
  rw [← length_members, position, List.findIdx_lt_length]
  simp

/-- Without a member only the member is missing. -/
theorem members_strike_perm (isMember : member ∈ roster.members) :
    (roster.strike (roster.position member)).members.Perm
      (roster.members.erase member) := by
  have bound := position_lt_iff.mpr isMember
  have inside : roster.position member < roster.members.length := by
    rwa [length_members]
  rw [members_strike bound]
  refine (swapRemove_perm inside).trans (List.Perm.of_eq ?_)
  rw [List.erase_eq_eraseIdx_of_idxOf rfl]
  congr 1

end

/-- The members of a roster are the ones of a set, each once. -/
structure Lists (roster : Roster α) (live : Set α) : Prop where
  distinct : roster.members.Nodup
  mem_iff : ∀ member, member ∈ roster.members ↔ member ∈ live

namespace Lists

variable {live : Set α}

/-- The total is the number of the members. -/
theorem ncard_eq (lists : roster.Lists live) : live.ncard = roster.total := by
  classical
  have isSet : live = ↑roster.members.toFinset := by
    ext member
    rw [List.coe_toFinset]
    exact (lists.mem_iff member).symm
  rw [isSet, Set.ncard_coe_finset, List.toFinset_card_of_nodup lists.distinct,
    length_members]

/-- The roster with a new member lists the live members and the new one. -/
theorem add (lists : roster.Lists live) (isNew : member ∉ live) :
    (roster.add member).Lists (insert member live) where
  distinct := by
    rw [members_add]
    refine List.Nodup.append lists.distinct (List.nodup_singleton _) ?_
    rw [List.disjoint_singleton]
    intro isMember
    exact isNew ((lists.mem_iff member).mp isMember)
  mem_iff other := by
    rw [members_add, List.mem_append, lists.mem_iff, List.mem_singleton,
      Set.mem_insert_iff, or_comm]

theorem strike [DecidableEq α] (lists : roster.Lists live)
    (isMember : member ∈ live) :
    (roster.strike (roster.position member)).Lists (live \ {member}) where
  distinct :=
    (members_strike_perm ((lists.mem_iff member).mpr isMember)).nodup_iff.mpr
      (lists.distinct.erase _)
  mem_iff other := by
    rw [(members_strike_perm
        ((lists.mem_iff member).mpr isMember)).mem_iff,
      lists.distinct.mem_erase_iff, lists.mem_iff, Set.mem_sdiff,
      Set.mem_singleton_iff, and_comm]

end Lists

end Roster
end Foundation
