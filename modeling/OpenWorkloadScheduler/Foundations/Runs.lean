import Mathlib.Order.Basic

/-!
# Runs of a labelled transition system

A run is a sequence of labelled steps.  An invariant of the steps is an
invariant of the runs, and a property that one step makes stable stays.
-/

namespace OpenWorkloadScheduler.Foundations

universe u v

variable {State : Type u} {Label : Type v}

/-- The labelled steps lead from the first state to the last one. -/
inductive Run (step : State → Label → State → Prop) : State → List Label → State → Prop where
  | stay (state : State) : Run step state [] state
  | next {before between after : State} {label : Label} {labels : List Label} :
      step before label between → Run step between labels after →
        Run step before (label :: labels) after

/-- The steps whose label and whose starting state meet a condition. -/
def Guarded (step : State → Label → State → Prop) (condition : State → Label → Prop) :
    State → Label → State → Prop :=
  fun before label after => step before label after ∧ condition before label

variable {step : State → Label → State → Prop}

theorem Run.append {first second third : State} {labels others : List Label}
    (run : Run step first labels second) (rest : Run step second others third) :
    Run step first (labels ++ others) third := by
  induction run with
  | stay state => exact rest
  | next stepped _ inductionHypothesis => exact .next stepped (inductionHypothesis rest)

theorem Run.mono {weaker : State → Label → State → Prop} {before after : State}
    {labels : List Label}
    (implied : ∀ before label after, step before label after → weaker before label after)
    (run : Run step before labels after) :
    Run weaker before labels after := by
  induction run with
  | stay state => exact .stay state
  | next stepped _ inductionHypothesis =>
      exact .next (implied _ _ _ stepped) inductionHypothesis

/-- Where an invariant makes each step one of another kind that keeps it, a run is one of
that kind. -/
theorem Run.monoKeeping {other : State → Label → State → Prop} {invariant : State → Prop}
    {before after : State} {labels : List Label} (run : Run step before labels after)
    (kept : ∀ before label after, invariant before → step before label after →
      other before label after ∧ invariant after)
    (initial : invariant before) : Run other before labels after := by
  induction run with
  | stay state => exact .stay state
  | next stepped _ inductionHypothesis =>
      obtain ⟨made, holds⟩ := kept _ _ _ initial stepped
      exact .next made (inductionHypothesis holds)

theorem Run.guarded {condition : State → Label → Prop} {before after : State}
    {labels : List Label} (run : Run step before labels after)
    (met : ∀ label ∈ labels, ∀ state, condition state label) :
    Run (Guarded step condition) before labels after := by
  induction run with
  | stay state => exact .stay state
  | next stepped _ inductionHypothesis =>
      exact .next ⟨stepped, met _ List.mem_cons_self _⟩
        (inductionHypothesis fun label member => met label (List.mem_cons_of_mem _ member))

/-- What every step keeps, every run keeps. -/
theorem Run.keeps {invariant : State → Prop} {before after : State} {labels : List Label}
    (kept : ∀ before label after, invariant before → step before label after →
      invariant after)
    (run : Run step before labels after) (initial : invariant before) :
    invariant after := by
  induction run with
  | stay state => exact initial
  | next stepped _ inductionHypothesis =>
      exact inductionHypothesis (kept _ _ _ initial stepped)

/-- What every step keeps of the labels so far and of the state, every run keeps. -/
theorem Run.traces {property : List Label → State → Prop} {before after : State}
    {labels : List Label}
    (kept : ∀ earlier before label after, property earlier before → step before label after →
      property (earlier ++ [label]) after)
    (run : Run step before labels after) (initial : property [] before) :
    property labels after := by
  have general : ∀ earlier, property earlier before → property (earlier ++ labels) after := by
    clear initial
    induction run with
    | stay state =>
        intro earlier holds
        rwa [List.append_nil]
    | @next before between after label labels stepped _ inductionHypothesis =>
        intro earlier holds
        have rest := inductionHypothesis (earlier ++ [label]) (kept _ _ _ _ holds stepped)
        rwa [List.append_assoc] at rest
  exact general [] initial

/-- A run passes through a state before each of its labels. -/
theorem Run.split {before after : State} {earlier later : List Label} {label : Label}
    (run : Run step before (earlier ++ label :: later) after) :
    ∃ between next, Run step before earlier between ∧ step between label next ∧
      Run step next later after := by
  induction earlier generalizing before with
  | nil =>
      cases run with
      | next stepped rest => exact ⟨before, _, .stay before, stepped, rest⟩
  | cons head earlier inductionHypothesis =>
      cases run with
      | next stepped rest =>
          obtain ⟨between, next, first, second, last⟩ := inductionHypothesis rest
          exact ⟨between, next, .next stepped first, second, last⟩

/-- Where a step leads to one state only, so does a run. -/
theorem Run.unique {before after other : State} {labels : List Label}
    (functional : ∀ before label after other, step before label after →
      step before label other → after = other)
    (run : Run step before labels after) (another : Run step before labels other) :
    after = other := by
  induction run with
  | stay state =>
      cases another
      rfl
  | next stepped _ inductionHypothesis =>
      cases another with
      | next otherStepped rest =>
          cases functional _ _ _ _ stepped otherStepped
          exact inductionHypothesis rest

/-- A run and one more step. -/
theorem Run.snoc {first second third : State} {labels : List Label} {label : Label}
    (run : Run step first labels second) (stepped : step second label third) :
    Run step first (labels ++ [label]) third :=
  run.append (.next stepped (.stay third))

/-- What comes to hold along a run has come to hold by one of its steps. -/
theorem Run.origin {property : State → Prop} {before after : State} {labels : List Label}
    (run : Run step before labels after) (initial : ¬ property before)
    (holds : property after) :
    ∃ earlier label later between next, labels = earlier ++ label :: later ∧
      Run step before earlier between ∧ ¬ property between ∧ step between label next ∧
        property next ∧ Run step next later after := by
  induction run with
  | stay state => exact absurd holds initial
  | @next before between after label labels stepped rest inductionHypothesis =>
      by_cases begun : property between
      · exact ⟨[], label, labels, before, between, rfl, .stay before, initial, stepped, begun,
          rest⟩
      · obtain ⟨earlier, other, later, middle, next, split, run, unheld, made, held, finish⟩ :=
          inductionHypothesis begun holds
        refine ⟨label :: earlier, other, later, middle, next, ?_, .next stepped run, unheld, made,
          held, finish⟩
        rw [split, List.cons_append]

/-! ## Steps that are computed -/

/-- Perform the labels in turn, where each of them can be performed. -/
def performAll (perform : State → Label → Option State) : State → List Label → Option State
  | state, [] => some state
  | state, label :: labels =>
    (perform state label).bind fun after => performAll perform after labels

theorem run_of_performAll {perform : State → Label → Option State} {before after : State}
    {labels : List Label} (performed : performAll perform before labels = some after) :
    Run (fun before label after => perform before label = some after) before labels after := by
  induction labels generalizing before with
  | nil =>
      cases performed
      exact .stay _
  | cons label labels inductionHypothesis =>
      obtain ⟨between, stepped, rest⟩ := Option.bind_eq_some_iff.mp performed
      exact .next stepped (inductionHypothesis rest)

end OpenWorkloadScheduler.Foundations
