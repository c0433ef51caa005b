import Mathlib.Data.List.Basic
import Mathlib.Data.List.Induction

/-!
# Runs of a transition relation

A step relation takes a state and a label to a next state.  A run takes the
steps of a list of labels.  Whatever every step preserves is preserved by every
run, and a property of states and labels can be required at every step that a
list of labels makes.
-/

namespace Foundation

variable {σ ε : Type}

/-- The steps of a list of labels, from one state to another. -/
inductive Run (step : σ → ε → σ → Prop) : σ → List ε → σ → Prop
  | nil (state : σ) : Run step state [] state
  | cons {state middle final : σ} {label : ε} {labels : List ε}
      (first : step state label middle) (rest : Run step middle labels final) :
      Run step state (label :: labels) final

/-- At every step that the labels make from a state, the state before the step
and its label have a property. -/
def Along (step : σ → ε → σ → Prop) (property : σ → ε → Prop) :
    σ → List ε → Prop
  | _, [] => True
  | state, label :: labels =>
      property state label ∧
        ∀ next, step state label next → Along step property next labels

variable {step : σ → ε → σ → Prop} {invariant : σ → Prop}
  {property other : σ → ε → Prop} {state final : σ} {labels : List ε}

/-- What every step preserves, every run preserves. -/
theorem Run.preserves
    (kept : ∀ state label next, invariant state → step state label next →
      invariant next)
    (run : Run step state labels final) (start : invariant state) :
    invariant final := by
  induction run with
  | nil => exact start
  | cons first _ inductionHypothesis =>
      exact inductionHypothesis (kept _ _ _ start first)

/-- What every step with a good label preserves, a run of good labels
preserves. -/
theorem Run.preserves_of_forall_mem {good : ε → Prop}
    (kept : ∀ state label next, invariant state → good label →
      step state label next → invariant next)
    (run : Run step state labels final) (all : ∀ label ∈ labels, good label)
    (start : invariant state) : invariant final := by
  induction run with
  | nil => exact start
  | cons first _ inductionHypothesis =>
      obtain ⟨here, later⟩ := List.forall_mem_cons.mp all
      exact inductionHypothesis later (kept _ _ _ start here first)

theorem Run.append_iff {early late : List ε} :
    Run step state (early ++ late) final ↔
      ∃ middle, Run step state early middle ∧ Run step middle late final := by
  induction early generalizing state with
  | nil =>
      constructor
      · intro run
        exact ⟨state, .nil state, run⟩
      · rintro ⟨middle, ⟨⟩, run⟩
        exact run
  | cons label early inductionHypothesis =>
      constructor
      · rintro (_ | ⟨first, rest⟩)
        obtain ⟨middle, front, back⟩ := inductionHypothesis.mp rest
        exact ⟨middle, .cons first front, back⟩
      · rintro ⟨middle, _ | ⟨first, front⟩, back⟩
        exact .cons first (inductionHypothesis.mpr ⟨middle, front, back⟩)

theorem Run.concat {next : σ} {label : ε}
    (run : Run step state labels final) (last : step final label next) :
    Run step state (labels ++ [label]) next :=
  Run.append_iff.mpr ⟨final, run, .cons last (.nil next)⟩

/-- What holds of the labels so far and of the state they lead to, and is kept
by one more label, holds of every run. -/
theorem Run.history {holds : List ε → σ → Prop}
    (kept : ∀ early middle label next, Run step state early middle →
      holds early middle → step middle label next →
      holds (early ++ [label]) next)
    (start : holds [] state) (run : Run step state labels final) :
    holds labels final := by
  induction labels using List.reverseRecOn generalizing final with
  | nil =>
      cases run
      exact start
  | append_singleton early label inductionHypothesis =>
      obtain ⟨middle, front, back⟩ := Run.append_iff.mp run
      rcases back with _ | ⟨last, rest⟩
      cases rest
      exact kept early middle label final front (inductionHypothesis front)
        last

/-- What does not hold at the start of a run and holds at its end has become
true in one of its steps. -/
theorem Run.exists_change
    (run : Run step state labels final) (holds : σ → Prop)
    (before : ¬holds state) (after : holds final) :
    ∃ early label late middle next, labels = early ++ label :: late ∧
      Run step state early middle ∧ step middle label next ∧
      ¬holds middle ∧ holds next ∧ Run step next late final := by
  induction run with
  | nil => exact absurd after before
  | @cons state middle final label labels first rest inductionHypothesis =>
      by_cases changed : holds middle
      · exact ⟨[], label, labels, state, middle, rfl, .nil state, first,
          before, changed, rest⟩
      · obtain ⟨early, last, late, source, target, rfl, front, change⟩ :=
          inductionHypothesis changed after
        exact ⟨label :: early, last, late, source, target, rfl,
          .cons first front, change⟩

/-- The runs of a step function are its executions. -/
theorem Run.iff_foldlM {step : σ → ε → Option σ} :
    Run (fun source label target => step source label = some target) state
        labels final ↔
      labels.foldlM step state = some final := by
  induction labels generalizing state with
  | nil =>
      constructor
      · rintro ⟨⟩
        rfl
      · intro same
        obtain rfl := Option.some_inj.mp same
        exact .nil state
  | cons label labels inductionHypothesis =>
      rw [List.foldlM_cons, Option.bind_eq_bind, Option.bind_eq_some_iff]
      constructor
      · rintro (_ | ⟨first, rest⟩)
        exact ⟨_, first, inductionHypothesis.mp rest⟩
      · rintro ⟨next, first, rest⟩
        exact .cons first (inductionHypothesis.mpr rest)

/-- Steps that are always possible make a run. -/
theorem Run.of_foldl {step : σ → ε → σ} :
    Run (fun source label target => step source label = target) state labels
      (labels.foldl step state) := by
  induction labels generalizing state with
  | nil => exact .nil state
  | cons label labels inductionHypothesis =>
      exact .cons rfl inductionHypothesis

/-- The states that a run of some of the first labels comes to. -/
def Reached (step : σ → ε → σ → Prop) (start : σ) (labels : List ε)
    (middle : σ) : Prop :=
  ∃ early late, labels = early ++ late ∧ Run step start early middle

theorem Reached.head_or_tail {label : ε}
    {middle : σ} (reached : Reached step state (label :: labels) middle) :
    middle = state ∨
      ∃ next, step state label next ∧ Reached step next labels middle := by
  obtain ⟨early, late, split, run⟩ := reached
  cases run with
  | nil => exact .inl rfl
  | cons first rest =>
      obtain ⟨rfl, rfl⟩ := List.cons.inj split
      exact .inr ⟨_, first, _, late, rfl, rest⟩

theorem Reached.start : Reached step state labels state :=
  ⟨[], labels, rfl, .nil state⟩

theorem Reached.tail {label : ε} {middle next : σ}
    (first : step state label next) (reached : Reached step next labels middle) :
    Reached step state (label :: labels) middle := by
  obtain ⟨early, late, rfl, run⟩ := reached
  exact ⟨label :: early, late, rfl, .cons first run⟩

namespace Along

/-- The property holds wherever a run has come to a label. -/
theorem iff_forall_run :
    Along step property state labels ↔
      ∀ early label late middle, labels = early ++ label :: late →
        Run step state early middle → property middle label := by
  induction labels generalizing state with
  | nil => simp [Along]
  | cons label labels inductionHypothesis =>
      constructor
      · rintro ⟨here, later⟩ early last late middle split run
        cases run with
        | nil =>
            obtain ⟨rfl, -⟩ := List.cons.inj split
            exact here
        | cons first rest =>
            obtain ⟨rfl, splitRest⟩ := List.cons.inj split
            exact inductionHypothesis.mp (later _ first) _ _ _ _ splitRest
              rest
      · intro everywhere
        refine ⟨everywhere [] label labels state rfl (.nil state), ?_⟩
        intro next first
        refine inductionHypothesis.mpr ?_
        rintro early last late middle rfl run
        exact everywhere (label :: early) last late middle rfl
          (.cons first run)

/-- The property holds along the first steps, and then along the others from
wherever a run of the first ones has come to. -/
theorem of_append {early late : List ε}
    (along : Along step property state (early ++ late)) :
    Along step property state early ∧
      ∀ middle, Run step state early middle →
        Along step property middle late := by
  rw [iff_forall_run] at along
  constructor
  · rw [iff_forall_run]
    rintro before label after source rfl run
    refine along before label (after ++ late) source ?_ run
    rw [List.append_assoc, List.cons_append]
  · intro middle run
    rw [iff_forall_run]
    rintro before label after source rfl rest
    refine along (early ++ before) label after source ?_
      (Run.append_iff.mpr ⟨middle, run, rest⟩)
    rw [List.append_assoc]

/-- Properties that agree wherever an invariant holds agree along the steps
from a state with the invariant. -/
theorem congr
    (kept : ∀ state label next, invariant state → step state label next →
      invariant next)
    (same : ∀ state label, invariant state →
      (property state label ↔ other state label))
    (start : invariant state) :
    Along step property state labels ↔ Along step other state labels := by
  induction labels generalizing state with
  | nil => exact .rfl
  | cons label labels inductionHypothesis =>
      refine and_congr (same state label start) (forall_congr' fun next => ?_)
      exact forall_congr' fun first =>
        inductionHypothesis (kept state label next start first)

theorem mono
    (weaker : ∀ state label, property state label → other state label)
    (along : Along step property state labels) :
    Along step other state labels := by
  induction labels generalizing state with
  | nil => trivial
  | cons label labels inductionHypothesis =>
      exact ⟨weaker _ _ along.1, fun next first =>
        inductionHypothesis (along.2 next first)⟩

/-- What holds of every label holds along the steps. -/
theorem and_forall_mem
    {good : ε → Prop} (along : Along step property state labels)
    (all : ∀ label ∈ labels, good label) :
    Along step (fun state label => property state label ∧ good label) state
      labels := by
  induction labels generalizing state with
  | nil => trivial
  | cons label labels inductionHypothesis =>
      obtain ⟨here, later⟩ := List.forall_mem_cons.mp all
      exact ⟨⟨along.1, here⟩, fun next first =>
        inductionHypothesis (along.2 next first) later⟩

/-- A property of the labels alone holds along the steps of a run exactly when
it holds of every label. -/
theorem iff_forall_mem {good : ε → Prop} (run : Run step state labels final)
    (functional : ∀ state label next other, step state label next →
      step state label other → next = other) :
    Along step (fun _ label => good label) state labels ↔
      ∀ label ∈ labels, good label := by
  induction run with
  | nil => simp [Along]
  | @cons state middle final label labels first rest inductionHypothesis =>
      rw [List.forall_mem_cons, ← inductionHypothesis]
      apply and_congr_right
      intro _
      constructor
      · intro later
        exact later middle first
      · intro along next other
        obtain rfl := functional state label middle next first other
        exact along

/-- What a step guarantees whenever an invariant and a property hold before it,
it guarantees along the steps, if the invariant is kept. -/
theorem of_invariant
    (kept : ∀ state label next, invariant state → property state label →
      step state label next → invariant next)
    (gives : ∀ state label, invariant state → property state label →
      other state label)
    (start : invariant state) (along : Along step property state labels) :
    Along step other state labels := by
  induction labels generalizing state with
  | nil => trivial
  | cons label labels inductionHypothesis =>
      refine ⟨gives state label start along.1, fun next first => ?_⟩
      exact inductionHypothesis (kept state label next start along.1 first)
        (along.2 next first)

/-- Labels whose steps are all possible make a run. -/
theorem exists_run
    (possible : ∀ state label, property state label →
      ∃ next, step state label next)
    (along : Along step property state labels) :
    ∃ final, Run step state labels final := by
  induction labels generalizing state with
  | nil => exact ⟨state, .nil state⟩
  | cons label labels inductionHypothesis =>
      obtain ⟨next, first⟩ := possible state label along.1
      obtain ⟨final, rest⟩ := inductionHypothesis (along.2 next first)
      exact ⟨final, .cons first rest⟩

/-- What holds at the start and is kept wherever the property holds is true of
every state reached along steps with the property. -/
theorem of_reached (invariant : σ → Prop) {middle : σ}
    (kept : ∀ state label next, invariant state → property state label →
      step state label next → invariant next)
    (start : invariant state) (along : Along step property state labels)
    (reached : Reached step state labels middle) :
    invariant middle := by
  induction labels generalizing state with
  | nil =>
      obtain ⟨early, late, split, run⟩ := reached
      obtain ⟨rfl, -⟩ := List.append_eq_nil_iff.mp split.symm
      cases run
      exact start
  | cons label labels inductionHypothesis =>
      obtain rfl | ⟨next, first, later⟩ := reached.head_or_tail
      · exact start
      · exact inductionHypothesis (kept state label next start along.1 first)
          (along.2 next first) later

/-- Where steps are functional and turn a good state into a bad one exactly when
they lack the property, all states of a run are good exactly when all its steps
have the property.  An invariant has to be kept by the steps that have it. -/
theorem iff_reached_of_kept (invariant : σ → Prop) {good : σ → Prop}
    (functional : ∀ state label next other, step state label next →
      step state label other → next = other)
    (kept : ∀ state label next, invariant state → good state →
      property state label → step state label next → invariant next)
    (good_iff : ∀ state label next, invariant state → good state →
      step state label next → (property state label ↔ good next))
    (start : invariant state) (goodStart : good state)
    (run : Run step state labels final) :
    Along step property state labels ↔
      ∀ middle, Reached step state labels middle → good middle := by
  constructor
  · intro along middle reached
    refine (along.of_reached (fun state => invariant state ∧ good state) ?_
      ⟨start, goodStart⟩ reached).2
    intro source label target both here first
    exact ⟨kept source label target both.1 both.2 here first,
      (good_iff source label target both.1 both.2 first).mp here⟩
  · intro everywhere
    induction run with
    | nil => trivial
    | @cons state middle final label labels first rest inductionHypothesis =>
        have there := everywhere middle (Reached.tail first .start)
        have here :=
          (good_iff state label middle start goodStart first).mpr there
        refine ⟨here, fun next other => ?_⟩
        obtain rfl := functional state label middle next first other
        exact inductionHypothesis
          (kept state label middle start goodStart here first) there
          fun last reached => everywhere last (reached.tail first)

/-- As `iff_reached_of_kept`, with an invariant that every step keeps. -/
theorem iff_reached (invariant : σ → Prop) {good : σ → Prop}
    (functional : ∀ state label next other, step state label next →
      step state label other → next = other)
    (kept : ∀ state label next, invariant state → step state label next →
      invariant next)
    (good_iff : ∀ state label next, invariant state → good state →
      step state label next → (property state label ↔ good next))
    (start : invariant state) (goodStart : good state)
    (run : Run step state labels final) :
    Along step property state labels ↔
      ∀ middle, Reached step state labels middle → good middle :=
  iff_reached_of_kept invariant functional
    (fun state label next here _ _ first => kept state label next here first)
    good_iff start goodStart run

/-- Where the property is what a step needs to be possible and to keep an
invariant, it holds along the labels exactly when they make a run all of whose
states are good. -/
theorem iff_exists_run (invariant : σ → Prop) {good : σ → Prop}
    (functional : ∀ state label next other, step state label next →
      step state label other → next = other)
    (sound : ∀ state label, invariant state → property state label →
      ∃ next, step state label next ∧ invariant next)
    (complete : ∀ state label next, invariant state → step state label next →
      good next → property state label)
    (isGood : ∀ state, invariant state → good state)
    (start : invariant state) :
    Along step property state labels ↔
      (∃ final, Run step state labels final) ∧
        ∀ middle, Reached step state labels middle → good middle := by
  have kept : ∀ state label next, invariant state → property state label →
      step state label next → invariant next := by
    intro state label next here has first
    obtain ⟨other, second, there⟩ := sound state label here has
    obtain rfl := functional state label next other first second
    exact there
  constructor
  · intro along
    refine ⟨?_, fun middle reached =>
      isGood middle (along.of_reached invariant kept start reached)⟩
    induction labels generalizing state with
    | nil => exact ⟨state, .nil state⟩
    | cons label labels inductionHypothesis =>
        obtain ⟨next, first, there⟩ := sound state label start along.1
        obtain ⟨final, rest⟩ :=
          inductionHypothesis there (along.2 next first)
        exact ⟨final, .cons first rest⟩
  · rintro ⟨⟨final, run⟩, everywhere⟩
    induction run with
    | nil => trivial
    | @cons state middle final label labels first rest inductionHypothesis =>
        have here : property state label :=
          complete state label middle start first
            (everywhere middle (Reached.tail first .start))
        refine ⟨here, fun next other => ?_⟩
        obtain rfl := functional state label middle next first other
        exact inductionHypothesis (kept state label middle start here first)
          fun last reached => everywhere last (reached.tail first)

end Along
end Foundation
