import Mathlib.Data.List.Basic

/-!
# Closed chains

A list of nodes is read as a closed chain: each node follows the one before it
and the first follows the last.  A property of nodes changes along an even
number of its edges.
-/

namespace Foundation
namespace ClosedChain

variable {Node : Type*}

/-- The edges of a chain whose first node follows the given one. -/
def edgesFrom : Node → List Node → List (Node × Node)
  | _, [] => []
  | previous, node :: nodes => (previous, node) :: edgesFrom node nodes

/-- The edges of a closed chain. -/
def edges (nodes : List Node) : List (Node × Node) :=
  match nodes.getLast? with
  | none => []
  | some last => edgesFrom last nodes

/-- An odd number of edges passes the test. -/
def parity (test : Node × Node → Bool) : List (Node × Node) → Bool
  | [] => false
  | edge :: rest => test edge ^^ parity test rest

@[simp] theorem parity_nil (test : Node × Node → Bool) :
    parity test [] = false :=
  rfl

@[simp] theorem parity_cons (test : Node × Node → Bool) (edge : Node × Node)
    (rest : List (Node × Node)) :
    parity test (edge :: rest) = (test edge ^^ parity test rest) :=
  rfl

/-- Tests that agree on the edges have the same parity. -/
theorem parity_congr {first second : Node × Node → Bool}
    {chain : List (Node × Node)}
    (same : ∀ edge ∈ chain, first edge = second edge) :
    parity first chain = parity second chain := by
  induction chain with
  | nil => rfl
  | cons edge rest inductionHypothesis =>
      rw [List.forall_mem_cons] at same
      rw [parity_cons, parity_cons, same.1, inductionHypothesis same.2]

/-- A test that fails on all edges is even. -/
theorem parity_of_none {test : Node × Node → Bool}
    {chain : List (Node × Node)} (none : ∀ edge ∈ chain, test edge = false) :
    parity test chain = false := by
  induction chain with
  | nil => rfl
  | cons edge rest inductionHypothesis =>
      rw [List.forall_mem_cons] at none
      rw [parity_cons, none.1, inductionHypothesis none.2]
      rfl

/-- The parity of an exclusive disjunction. -/
theorem parity_xor (first second : Node × Node → Bool)
    (chain : List (Node × Node)) :
    parity (fun edge => first edge ^^ second edge) chain =
      (parity first chain ^^ parity second chain) := by
  induction chain with
  | nil => rfl
  | cons edge rest inductionHypothesis =>
      rw [parity_cons, parity_cons, parity_cons, inductionHypothesis]
      cases first edge <;> cases second edge <;> simp

/-- The parity is that of the number of edges. -/
theorem parity_eq_countP (test : Node × Node → Bool)
    (chain : List (Node × Node)) :
    parity test chain = decide (chain.countP test % 2 = 1) := by
  induction chain with
  | nil => rfl
  | cons edge rest inductionHypothesis =>
      rw [parity_cons, List.countP_cons, inductionHypothesis]
      cases test edge with
      | false => simp
      | true =>
          rw [if_pos rfl, Bool.true_xor, ← decide_not, decide_eq_decide]
          omega

/-- Along a chain a property changes an odd number of times if its ends
differ. -/
theorem parity_change_edgesFrom (side : Node → Bool) (previous : Node)
    (nodes : List Node) :
    parity (fun edge => side edge.1 ^^ side edge.2)
        (edgesFrom previous nodes) =
      (side previous ^^ side (nodes.getLast?.getD previous)) := by
  induction nodes generalizing previous with
  | nil => simp [edgesFrom]
  | cons node nodes inductionHypothesis =>
      rw [edgesFrom, parity_cons, inductionHypothesis, List.getLast?_cons,
        Option.getD_some]
      cases side previous <;> cases side node <;> simp

/-- Along a closed chain a property changes an even number of times. -/
theorem parity_change (side : Node → Bool) (nodes : List Node) :
    parity (fun edge => side edge.1 ^^ side edge.2) (edges nodes) =
      false := by
  rw [edges]
  cases ends : nodes.getLast? with
  | none => rfl
  | some last =>
      dsimp only
      rw [parity_change_edgesFrom, ends, Option.getD_some, Bool.xor_self]

/-! ## Other nodes -/

section Map

variable {Other : Type*} (f : Node → Other)

/-- The edges of mapped nodes. -/
theorem edgesFrom_map (previous : Node) (nodes : List Node) :
    edgesFrom (f previous) (nodes.map f) =
      (edgesFrom previous nodes).map fun edge => (f edge.1, f edge.2) := by
  induction nodes generalizing previous with
  | nil => rfl
  | cons node nodes inductionHypothesis =>
      rw [List.map_cons, edgesFrom, edgesFrom, List.map_cons,
        inductionHypothesis]

/-- The edges of mapped nodes that form a ring. -/
theorem edges_map (nodes : List Node) :
    edges (nodes.map f) =
      (edges nodes).map fun edge => (f edge.1, f edge.2) := by
  rw [edges, edges, List.getLast?_map]
  cases nodes.getLast? with
  | none => rfl
  | some last => exact edgesFrom_map f last nodes

/-- The parity of a test on mapped edges. -/
theorem parity_map (test : Other × Other → Bool)
    (chain : List (Node × Node)) :
    parity test (chain.map fun edge => (f edge.1, f edge.2)) =
      parity (fun edge => test (f edge.1, f edge.2)) chain := by
  induction chain with
  | nil => rfl
  | cons edge rest inductionHypothesis =>
      rw [List.map_cons, parity_cons, parity_cons, inductionHypothesis]

end Map

/-- The ends of an edge are nodes. -/
theorem mem_of_mem_edgesFrom {previous : Node} {nodes : List Node}
    {edge : Node × Node} (mem : edge ∈ edgesFrom previous nodes) :
    edge.1 ∈ previous :: nodes ∧ edge.2 ∈ nodes := by
  induction nodes generalizing previous with
  | nil => cases mem
  | cons node nodes inductionHypothesis =>
      rw [edgesFrom, List.mem_cons] at mem
      obtain rfl | mem := mem
      · exact ⟨List.mem_cons_self, List.mem_cons_self⟩
      · obtain ⟨first, second⟩ := inductionHypothesis mem
        exact ⟨List.mem_cons_of_mem _ first, List.mem_cons_of_mem _ second⟩

/-- Edges join nodes of the chain. -/
theorem mem_of_mem_edges {nodes : List Node} {edge : Node × Node}
    (mem : edge ∈ edges nodes) : edge.1 ∈ nodes ∧ edge.2 ∈ nodes := by
  rw [edges] at mem
  cases ends : nodes.getLast? with
  | none =>
      rw [ends] at mem
      cases mem
  | some last =>
      rw [ends] at mem
      obtain ⟨first, second⟩ := mem_of_mem_edgesFrom mem
      refine ⟨?_, second⟩
      rw [List.mem_cons] at first
      obtain same | first := first
      · rw [same]
        exact List.mem_of_getLast? ends
      · exact first

/-- An edge joins neighbours. -/
theorem mem_edgesFrom_iff {previous : Node} {nodes : List Node}
    {edge : Node × Node} :
    edge ∈ edgesFrom previous nodes ↔
      ∃ index : Nat, (previous :: nodes)[index]? = some edge.1 ∧
        nodes[index]? = some edge.2 := by
  induction nodes generalizing previous with
  | nil => simp [edgesFrom]
  | cons node nodes inductionHypothesis =>
      rw [edgesFrom, List.mem_cons, inductionHypothesis]
      constructor
      · rintro (rfl | ⟨index, isFirst, isSecond⟩)
        · exact ⟨0, rfl, rfl⟩
        · exact ⟨index + 1, isFirst, isSecond⟩
      · rintro ⟨_ | index, isFirst, isSecond⟩
        · exact .inl (Prod.ext (Option.some_inj.mp isFirst).symm
            (Option.some_inj.mp isSecond).symm)
        · exact .inr ⟨index, isFirst, isSecond⟩

/-- An edge goes from a node to the next one, and from the last one to the
first. -/
theorem mem_edges_iff {nodes : List Node} {edge : Node × Node} :
    edge ∈ edges nodes ↔
      ∃ index : Nat, index < nodes.length ∧ nodes[index]? = some edge.1 ∧
        nodes[(index + 1) % nodes.length]? = some edge.2 := by
  rw [edges]
  cases ends : nodes.getLast? with
  | none =>
      rw [List.getLast?_eq_none_iff.mp ends]
      simp
  | some last =>
      have nonempty : 0 < nodes.length :=
        List.length_pos_of_mem (List.mem_of_getLast? ends)
      have isLast : nodes[nodes.length - 1]? = some last := by
        rw [← List.getLast?_eq_getElem?, ends]
      rw [mem_edgesFrom_iff]
      constructor
      · rintro ⟨_ | index, isFirst, isSecond⟩
        · refine ⟨nodes.length - 1, by omega, isLast.trans isFirst, ?_⟩
          rw [Nat.sub_add_cancel nonempty, Nat.mod_self]
          exact isSecond
        · have inside := (List.getElem?_eq_some_iff.mp isSecond).1
          refine ⟨index, by omega, isFirst, ?_⟩
          rw [Nat.mod_eq_of_lt inside]
          exact isSecond
      · rintro ⟨index, inside, isFirst, isSecond⟩
        by_cases atEnd : index + 1 = nodes.length
        · rw [atEnd, Nat.mod_self] at isSecond
          refine ⟨0, ?_, isSecond⟩
          rw [show index = nodes.length - 1 by omega, isLast] at isFirst
          exact isFirst
        · rw [Nat.mod_eq_of_lt (by omega)] at isSecond
          exact ⟨index + 1, isFirst, isSecond⟩

end ClosedChain
end Foundation
