import Mathlib.Data.List.Basic
import Mathlib.Data.List.Nodup
import Mathlib.Data.Set.Insert
import Mathlib.Logic.Function.Basic

/-!
# Intrusive doubly linked lists

A node of an intrusive list holds the pointers to its neighbours.  A list is a
ring through a head that is no element of it.  Many rings, each through a head
of its own, share one memory of pointers, and an operation on one of them leaves
the others as they are.
-/

namespace Foundation

/-- The pointers stored in the nodes at all addresses. -/
structure Links (α : Type) where
  next : α → α
  prev : α → α

namespace Links

variable {α : Type} {links other : Links α} {start stop head node : α}
  {nodes front back : List α}

/-- Each of two nodes points at the other. -/
def Joined (links : Links α) (left right : α) : Prop :=
  links.next left = right ∧ links.prev right = left

/-- A chain of nodes from a start to a stop. -/
def Path (links : Links α) : α → List α → α → Prop
  | start, [], stop => links.Joined start stop
  | start, node :: nodes, stop =>
      links.Joined start node ∧ links.Path node nodes stop

@[simp] theorem path_nil :
    links.Path start [] stop ↔ links.Joined start stop :=
  .rfl

@[simp] theorem path_cons :
    links.Path start (node :: nodes) stop ↔
      links.Joined start node ∧ links.Path node nodes stop :=
  .rfl

/-- A path through a node is a path to the node and a path from it. -/
theorem path_append :
    links.Path start (front ++ node :: back) stop ↔
      links.Path start front node ∧ links.Path node back stop := by
  induction front generalizing start with
  | nil => exact .rfl
  | cons first front inductionHypothesis =>
      rw [List.cons_append, path_cons, path_cons, inductionHypothesis,
        and_assoc]

/-- A path depends on the pointers forward of all its nodes but the last and on
the pointers back of all but the first. -/
theorem Path.congr
    (path : links.Path start nodes stop)
    (sameNext : ∀ node ∈ start :: nodes, other.next node = links.next node)
    (samePrev : ∀ node ∈ nodes ++ [stop],
      other.prev node = links.prev node) :
    other.Path start nodes stop := by
  induction nodes generalizing start with
  | nil =>
      exact ⟨(sameNext start (by simp)).trans path.1,
        (samePrev stop (by simp)).trans path.2⟩
  | cons node nodes inductionHypothesis =>
      refine ⟨⟨(sameNext start (by simp)).trans path.1.1,
        (samePrev node (by simp)).trans path.1.2⟩, ?_⟩
      apply inductionHypothesis path.2
      · intro item member
        exact sameNext item (.tail _ member)
      · intro item member
        exact samePrev item (.tail _ member)

theorem Path.next_start (path : links.Path start nodes stop) :
    links.next start = nodes.headD stop := by
  cases nodes with
  | nil => exact path.1
  | cons node nodes => exact path.1.1

theorem Path.next_mem (path : links.Path start nodes stop) :
    links.next start ∈ nodes ++ [stop] := by
  rw [path.next_start]
  cases nodes <;> simp

theorem Path.prev_mem (path : links.Path start nodes stop) :
    links.prev stop ∈ start :: nodes := by
  induction nodes generalizing start with
  | nil =>
      rw [path.2]
      exact .head _
  | cons node nodes inductionHypothesis =>
      exact .tail _ (inductionHypothesis path.2)

/-- A ring of distinct nodes through a head. -/
structure Ring (links : Links α) (head : α) (nodes : List α) : Prop where
  nodup : (head :: nodes).Nodup
  path : links.Path head nodes head

/-- A ring depends only on the links of its own nodes. -/
theorem Ring.congr
    (ring : links.Ring head nodes)
    (sameNext : ∀ node ∈ head :: nodes, other.next node = links.next node)
    (samePrev : ∀ node ∈ head :: nodes, other.prev node = links.prev node) :
    other.Ring head nodes := by
  refine ⟨ring.nodup, ring.path.congr sameNext fun node member => ?_⟩
  exact samePrev node (by simpa [or_comm] using member)

theorem Ring.next_mem (ring : links.Ring head nodes) :
    links.next head ∈ head :: nodes := by
  simpa [or_comm] using ring.path.next_mem

theorem Ring.prev_mem (ring : links.Ring head nodes) :
    links.prev head ∈ head :: nodes :=
  ring.path.prev_mem

/-- Where the walk of a ring goes on from one of its nodes. -/
theorem Ring.next_node
    (ring : links.Ring head (front ++ node :: back)) :
    links.next node = back.headD head :=
  (path_append.mp ring.path).2.next_start

theorem Ring.next_head (ring : links.Ring head nodes) :
    links.next head = nodes.headD head :=
  ring.path.next_start

theorem Ring.next_node_mem
    (ring : links.Ring head nodes) (member : node ∈ nodes) :
    links.next node ∈ head :: nodes := by
  obtain ⟨front, back, rfl⟩ := List.append_of_mem member
  have forward := (path_append.mp ring.path).2.next_mem
  rw [List.mem_append, List.mem_singleton] at forward
  rcases forward with inBack | isHead
  · exact .tail _ (List.mem_append_right _ (.tail _ inBack))
  · rw [isHead]
    exact .head _

theorem Ring.prev_node_mem
    (ring : links.Ring head nodes) (member : node ∈ nodes) :
    links.prev node ∈ head :: nodes := by
  obtain ⟨front, back, rfl⟩ := List.append_of_mem member
  have backward := (path_append.mp ring.path).1.prev_mem
  rw [← List.cons_append]
  exact List.mem_append_left _ backward

section Operations

variable [DecidableEq α]

/-- Make a head point at itself. -/
def init (links : Links α) (head : α) : Links α where
  next := Function.update links.next head head
  prev := Function.update links.prev head head

/-- Put a node right behind a head. -/
def insertHead (links : Links α) (head node : α) : Links α :=
  let first := links.next head
  { next := Function.update (Function.update links.next node first) head node
    prev := Function.update (Function.update links.prev first node) node head }

/-- Put a node right before a head. -/
def insertTail (links : Links α) (head node : α) : Links α :=
  let last := links.prev head
  { prev := Function.update (Function.update links.prev node last) head node
    next := Function.update (Function.update links.next node head) last node }

/-- Make the neighbours of a node point at each other. -/
def remove (links : Links α) (node : α) : Links α :=
  let prev := Function.update links.prev (links.next node) (links.prev node)
  { prev := prev
    next := Function.update links.next (prev node) (links.next node) }

@[simp] theorem remove_prev :
    (links.remove node).prev =
      Function.update links.prev (links.next node) (links.prev node) :=
  rfl

/-- The pointer back of the removed node is still what it was when the pointer
forward of its predecessor is set. -/
theorem remove_next :
    (links.remove node).next =
      Function.update links.next (links.prev node) (links.next node) := by
  have unchanged :
      Function.update links.prev (links.next node) (links.prev node) node =
        links.prev node := by
    by_cases same : node = links.next node
    · rw [← same, Function.update_self]
    · exact Function.update_of_ne same _ _
  rw [remove, unchanged]

/-- Initialising a head gives the empty ring. -/
theorem ring_init : (links.init head).Ring head [] :=
  ⟨List.nodup_singleton head, Function.update_self _ _ _,
    Function.update_self _ _ _⟩

/-- Inserting at the head puts the node first. -/
theorem Ring.insertHead
    (ring : links.Ring head nodes) (loose : node ∉ head :: nodes) :
    (links.insertHead head node).Ring head (node :: nodes) := by
  rw [List.mem_cons, not_or] at loose
  obtain ⟨headFresh, distinct⟩ := List.nodup_cons.mp ring.nodup
  refine ⟨?_, ⟨?_, ?_⟩, ?_⟩
  · simp [headFresh, distinct, Ne.symm loose.1, loose.2]
  · exact Function.update_self _ _ _
  · exact Function.update_self _ _ _
  · cases nodes with
    | nil =>
        obtain ⟨forward, -⟩ := ring.path
        constructor <;> simp [Links.insertHead, forward, loose.1, Ne.symm loose.1]
    | cons first nodes =>
        obtain ⟨⟨forward, -⟩, rest⟩ := ring.path
        rw [List.mem_cons, not_or] at headFresh loose
        obtain ⟨firstFresh, -⟩ := List.nodup_cons.mp distinct
        refine ⟨⟨?_, ?_⟩, rest.congr ?_ ?_⟩
        · simp [Links.insertHead, forward, loose.1]
        · simp [Links.insertHead, forward, Ne.symm loose.2.1]
        · intro item member
          have notHead : item ≠ head := by
            rintro rfl
            exact (List.mem_cons.mp member).elim headFresh.1 headFresh.2
          have notNode : item ≠ node := by
            rintro rfl
            exact (List.mem_cons.mp member).elim loose.2.1 loose.2.2
          simp [Links.insertHead, notHead, notNode]
        · intro item member
          rw [List.mem_append, List.mem_singleton] at member
          have notFirst : item ≠ first := by
            rintro rfl
            exact member.elim firstFresh (Ne.symm headFresh.1)
          have notNode : item ≠ node := by
            rintro rfl
            exact member.elim loose.2.2 loose.1
          simp [Links.insertHead, forward, notFirst, notNode]

/-- Inserting at the tail puts the node last. -/
theorem Ring.insertTail
    (ring : links.Ring head nodes) (loose : node ∉ head :: nodes) :
    (links.insertTail head node).Ring head (nodes ++ [node]) := by
  obtain ⟨headFresh, distinct⟩ := List.nodup_cons.mp ring.nodup
  rw [List.mem_cons, not_or] at loose
  refine ⟨?_, ?_⟩
  · rw [← List.cons_append]
    refine List.nodup_append.mpr ⟨ring.nodup, List.nodup_singleton node, ?_⟩
    rintro item member _ (_ | ⟨_, ⟨⟩⟩) rfl
    exact (List.mem_cons.mp member).elim loose.1 loose.2
  · rcases List.eq_nil_or_concat nodes with rfl | ⟨front, last, rfl⟩
    · obtain ⟨-, backward⟩ := ring.path
      refine ⟨⟨?_, ?_⟩, ?_, ?_⟩ <;>
        simp [Links.insertTail, backward, loose.1]
    · rw [List.concat_eq_append] at *
      obtain ⟨toLast, -, backward⟩ := path_append.mp ring.path
      simp only [List.mem_append, List.mem_singleton, not_or] at headFresh loose
      obtain ⟨-, -, apart⟩ := List.nodup_append.mp distinct
      rw [List.append_assoc]
      refine path_append.mpr ⟨toLast.congr ?_ ?_, ⟨?_, ?_⟩, ?_, ?_⟩
      · intro item member
        have notLast : item ≠ last := by
          rintro rfl
          exact (List.mem_cons.mp member).elim (Ne.symm headFresh.2)
            fun inFront => apart item inFront item (.head _) rfl
        have notNode : item ≠ node := by
          rintro rfl
          exact (List.mem_cons.mp member).elim loose.1 loose.2.1
        simp [Links.insertTail, backward, notLast, notNode]
      · intro item member
        rw [List.mem_append, List.mem_singleton] at member
        have notHead : item ≠ head := by
          rintro rfl
          exact member.elim headFresh.1 headFresh.2
        have notNode : item ≠ node := by
          rintro rfl
          exact member.elim loose.2.1 loose.2.2
        simp [Links.insertTail, notHead, notNode]
      all_goals simp [Links.insertTail, backward, loose.1, loose.2.2]

/-- Removing the node between two paths joins the paths. -/
theorem Path.remove
    (before : links.Path start front node) (after : links.Path node back stop)
    (distinct : (start :: front ++ node :: back).Nodup)
    (fresh : stop ∉ front ++ node :: back) :
    (links.remove node).Path start (front ++ back) stop := by
  induction front generalizing start with
  | nil =>
      obtain ⟨-, backward⟩ := before
      obtain ⟨startFresh, distinctBack⟩ := List.nodup_cons.mp distinct
      cases back with
      | nil =>
          obtain ⟨forward, -⟩ := after
          constructor <;> simp [remove_next, remove_prev, forward, backward]
      | cons first back =>
          obtain ⟨⟨forward, -⟩, rest⟩ := after
          have firstFresh : first ∉ back :=
            (List.nodup_cons.mp (List.nodup_cons.mp distinctBack).2).1
          refine ⟨⟨?_, ?_⟩, rest.congr ?_ ?_⟩
          · simp [remove_next, forward, backward]
          · simp [remove_prev, forward, backward]
          · intro item member
            have notStart : item ≠ start := by
              rintro rfl
              exact startFresh (.tail _ member)
            rw [remove_next, backward, Function.update_of_ne notStart]
          · intro item member
            rw [List.mem_append, List.mem_singleton] at member
            have notFirst : item ≠ first := by
              rintro rfl
              rcases member with inBack | rfl
              · exact firstFresh inBack
              · exact fresh (by simp)
            rw [remove_prev, forward, Function.update_of_ne notFirst]
  | cons first front inductionHypothesis =>
      obtain ⟨⟨forward, backward⟩, rest⟩ := before
      obtain ⟨startFresh, distinctRest⟩ := List.nodup_cons.mp distinct
      have notPrev : links.prev node ≠ start := by
        intro same
        have member := rest.prev_mem
        rw [same] at member
        exact startFresh (List.mem_append_left _ member)
      have notNext : links.next node ≠ first := by
        intro same
        have member := after.next_mem
        rw [same, List.mem_append, List.mem_singleton] at member
        rcases member with inBack | rfl
        · exact (List.nodup_cons.mp distinctRest).1
            (List.mem_append_right _ (.tail _ inBack))
        · exact fresh (.head _)
      refine ⟨⟨?_, ?_⟩, inductionHypothesis rest distinctRest fun member =>
        fresh (.tail _ member)⟩
      · rw [remove_next, Function.update_of_ne (Ne.symm notPrev), forward]
      · rw [remove_prev, Function.update_of_ne (Ne.symm notNext), backward]

/-- Removing a node erases it from the ring. -/
theorem Ring.remove
    (ring : links.Ring head nodes) (member : node ∈ nodes) :
    (links.remove node).Ring head (nodes.erase node) := by
  obtain ⟨headFresh, distinct⟩ := List.nodup_cons.mp ring.nodup
  refine ⟨List.nodup_cons.mpr ⟨fun isMember =>
    headFresh (List.mem_of_mem_erase isMember), distinct.erase node⟩, ?_⟩
  obtain ⟨front, back, rfl⟩ := List.append_of_mem member
  have nodeFresh : node ∉ front := by
    intro inFront
    exact (List.nodup_append.mp distinct).2.2 node inFront node (.head _) rfl
  rw [List.erase_append_right _ nodeFresh, List.erase_cons_head]
  obtain ⟨before, after⟩ := path_append.mp ring.path
  exact before.remove after ring.nodup headFresh

end Operations

/-! ## Many rings in one memory -/

/-- The rings through some heads, no two of which share a node. -/
structure Rings (links : Links α) (heads : Set α) (members : α → List α) :
    Prop where
  ring : ∀ head ∈ heads, links.Ring head (members head)
  apart : ∀ head ∈ heads, ∀ stop ∈ heads, head ≠ stop →
    (head :: members head).Disjoint (stop :: members stop)

/-- A node that is neither a head nor linked in a ring. -/
def Loose (heads : Set α) (members : α → List α) (node : α) : Prop :=
  ∀ head ∈ heads, node ∉ head :: members head

namespace Rings

variable {heads : Set α} {members : α → List α}

/-- There is nothing to say about no rings. -/
theorem empty : links.Rings ∅ members :=
  ⟨fun _ isHead => isHead.elim, fun _ isHead => isHead.elim⟩

/-- An operation that gives one ring new members and touches no pointer of
another keeps the rings. -/
theorem of_update [DecidableEq α]
    (rings : links.Rings heads members) (isHead : head ∈ heads)
    (changed : other.Ring head nodes)
    (fresh : ∀ stop ∈ heads, stop ≠ head →
      nodes.Disjoint (stop :: members stop))
    (frame : ∀ stop ∈ heads, stop ≠ head → ∀ node ∈ stop :: members stop,
      other.next node = links.next node ∧ other.prev node = links.prev node) :
    other.Rings heads (Function.update members head nodes) := by
  have headFresh : ∀ stop ∈ heads, stop ≠ head →
      (head :: nodes).Disjoint (stop :: members stop) := by
    intro stop isStop different
    refine List.disjoint_cons_left.mpr ⟨?_, fresh stop isStop different⟩
    exact (List.disjoint_cons_left.mp
      (rings.apart head isHead stop isStop (Ne.symm different))).1
  refine ⟨fun stop isStop => ?_, fun left isLeft right isRight different => ?_⟩
  · by_cases same : stop = head
    · rw [same, Function.update_self]
      exact changed
    · rw [Function.update_of_ne same]
      exact (rings.ring stop isStop).congr
        (fun item member => (frame stop isStop same item member).1)
        (fun item member => (frame stop isStop same item member).2)
  · by_cases leftHead : left = head
    · subst leftHead
      rw [Function.update_self, Function.update_of_ne (Ne.symm different)]
      exact headFresh right isRight (Ne.symm different)
    · rw [Function.update_of_ne leftHead]
      by_cases rightHead : right = head
      · subst rightHead
        rw [Function.update_self]
        exact List.disjoint_symm (headFresh left isLeft different)
      · rw [Function.update_of_ne rightHead]
        exact rings.apart left isLeft right isRight different

/-- The nodes of one ring are not those of another. -/
theorem ne_of_mem
    (rings : links.Rings heads members) (isHead : head ∈ heads)
    (isStop : stop ∈ heads) (different : stop ≠ head) {left right : α}
    (inHead : left ∈ head :: members head)
    (inStop : right ∈ stop :: members stop) :
    right ≠ left := by
  rintro rfl
  exact rings.apart head isHead stop isStop (Ne.symm different) inHead inStop

section Operations

variable [DecidableEq α]

/-- Inserting at the head of one ring leaves the others alone. -/
theorem insertHead
    (rings : links.Rings heads members) (isHead : head ∈ heads)
    (loose : Loose heads members node) :
    (links.insertHead head node).Rings heads
      (Function.update members head (node :: members head)) := by
  have ring := rings.ring head isHead
  refine rings.of_update isHead (ring.insertHead (loose head isHead)) ?_ ?_
  · intro stop isStop different
    refine List.disjoint_cons_left.mpr ⟨loose stop isStop, ?_⟩
    exact (List.disjoint_cons_left.mp
      (rings.apart head isHead stop isStop (Ne.symm different))).2
  · intro stop isStop different item member
    have notNode : item ≠ node := by
      rintro rfl
      exact loose stop isStop member
    have notHead := rings.ne_of_mem isHead isStop different (.head _) member
    have notFirst :=
      rings.ne_of_mem isHead isStop different ring.next_mem member
    simp [Links.insertHead, notNode, notHead, notFirst]

/-- Inserting at the tail of one ring leaves the others alone. -/
theorem insertTail
    (rings : links.Rings heads members) (isHead : head ∈ heads)
    (loose : Loose heads members node) :
    (links.insertTail head node).Rings heads
      (Function.update members head (members head ++ [node])) := by
  have ring := rings.ring head isHead
  refine rings.of_update isHead (ring.insertTail (loose head isHead)) ?_ ?_
  · intro stop isStop different
    refine List.disjoint_append_left.mpr ⟨?_, ?_⟩
    · exact (List.disjoint_cons_left.mp
        (rings.apart head isHead stop isStop (Ne.symm different))).2
    · exact List.singleton_disjoint.mpr (loose stop isStop)
  · intro stop isStop different item member
    have notNode : item ≠ node := by
      rintro rfl
      exact loose stop isStop member
    have notHead := rings.ne_of_mem isHead isStop different (.head _) member
    have notLast :=
      rings.ne_of_mem isHead isStop different ring.prev_mem member
    simp [Links.insertTail, notNode, notHead, notLast]

/-- Removing a node from one ring leaves the others alone. -/
theorem remove
    (rings : links.Rings heads members) (isHead : head ∈ heads)
    (member : node ∈ members head) :
    (links.remove node).Rings heads
      (Function.update members head ((members head).erase node)) := by
  have ring := rings.ring head isHead
  refine rings.of_update isHead (ring.remove member) ?_ ?_
  · intro stop isStop different
    refine List.disjoint_of_subset_left List.erase_subset ?_
    exact (List.disjoint_cons_left.mp
      (rings.apart head isHead stop isStop (Ne.symm different))).2
  · intro stop isStop different item inStop
    have notNext := rings.ne_of_mem isHead isStop different
      (ring.next_node_mem member) inStop
    have notPrev := rings.ne_of_mem isHead isStop different
      (ring.prev_node_mem member) inStop
    rw [remove_next, remove_prev, Function.update_of_ne notPrev,
      Function.update_of_ne notNext]
    exact ⟨rfl, rfl⟩

/-- A removed node is loose. -/
theorem loose_of_remove
    (rings : links.Rings heads members) (isHead : head ∈ heads)
    (member : node ∈ members head) :
    Loose heads
      (Function.update members head ((members head).erase node)) node := by
  intro stop isStop
  by_cases same : stop = head
  · obtain ⟨headFresh, distinct⟩ :=
      List.nodup_cons.mp (rings.ring head isHead).nodup
    rw [same, Function.update_self, List.mem_cons, not_or]
    refine ⟨?_, distinct.not_mem_erase⟩
    rintro rfl
    exact headFresh member
  · rw [Function.update_of_ne same]
    intro inStop
    exact rings.ne_of_mem isHead isStop same (.tail _ member) inStop rfl

/-- A fresh head starts an empty ring. -/
theorem init
    (rings : links.Rings heads members) (loose : Loose heads members head)
    (isEmpty : members head = []) :
    (links.init head).Rings (insert head heads) members := by
  refine ⟨?_, ?_⟩
  · rintro stop (rfl | isStop)
    · rw [isEmpty]
      exact ring_init
    · refine (rings.ring stop isStop).congr ?_ ?_ <;>
      · intro item member
        have notHead : item ≠ head := by
          rintro rfl
          exact loose stop isStop member
        simp [Links.init, notHead]
  · rintro left (rfl | isLeft) right (rfl | isRight) unequal
    · exact absurd rfl unequal
    · rw [isEmpty]
      exact List.singleton_disjoint.mpr (loose right isRight)
    · rw [isEmpty]
      exact List.disjoint_singleton.mpr (loose left isLeft)
    · exact rings.apart left isLeft right isRight unequal

end Operations
end Rings
end Links
end Foundation
