import Mathlib.Logic.Relation
import Mathlib.Order.WellFoundedSet
import OpenWorkloadScheduler.Foundations.Runs

/-!
# Progress

A finite part of an acyclic relation has a minimal element; a system in which some
step always makes a measure smaller comes to its end; and a relation that raises a
potential each time reaches the bound of the potential.
-/

namespace OpenWorkloadScheduler.Foundations

universe u v

/-! ## Minimal elements -/

/-- Among finitely many elements of an acyclic relation, one has no predecessor. -/
theorem exists_minimal_of_acyclic {Alpha : Type u} {relation : Alpha → Alpha → Prop}
    (acyclic : ∀ element, ¬ Relation.TransGen relation element element)
    {elements : Set Alpha} (finite : elements.Finite) (nonempty : elements.Nonempty) :
    ∃ element ∈ elements, ∀ other ∈ elements, ¬ relation other element := by
  have strict : IsStrictOrder Alpha (Relation.TransGen relation) :=
    { irrefl := acyclic
      trans := fun _ _ _ => Relation.TransGen.trans }
  have wellFounded : elements.WellFoundedOn (Relation.TransGen relation) :=
    finite.wellFoundedOn
  obtain ⟨element, member⟩ := nonempty
  obtain ⟨⟨minimal, minimalMember⟩, _, least⟩ :=
    wellFounded.has_min Set.univ ⟨⟨element, member⟩, trivial⟩
  exact ⟨minimal, minimalMember, fun other otherMember related =>
    least ⟨other, otherMember⟩ trivial (.single related)⟩

/-! ## Runs that end -/

section Runs

variable {State : Type u} {Label : Type v} {step : State → Label → State → Prop}

/-- Where some step always leads nearer to the end, some run leads there. -/
theorem exists_run_of_progress {invariant done : State → Prop} (distance : State → Nat)
    (progress : ∀ state, invariant state → ¬ done state →
      ∃ label after, step state label after ∧ invariant after ∧
        distance after < distance state)
    (state : State) (holds : invariant state) :
    ∃ labels after, Run step state labels after ∧ invariant after ∧ done after := by
  induction number : distance state using Nat.strong_induction_on generalizing state with
  | _ number inductionHypothesis =>
      by_cases ended : done state
      · exact ⟨[], state, .stay state, holds, ended⟩
      · obtain ⟨label, between, stepped, kept, nearer⟩ := progress state holds ended
        rw [number] at nearer
        obtain ⟨labels, after, rest, finished⟩ :=
          inductionHypothesis (distance between) nearer between kept rfl
        exact ⟨label :: labels, after, .next stepped rest, finished⟩

end Runs

/-! ## Repetition -/

section Repetition

variable {State : Type u} {relation : State → State → Prop}

/-- The relation, the given number of times in a row. -/
inductive Repeated (relation : State → State → Prop) : Nat → State → State → Prop where
  | none (state : State) : Repeated relation 0 state state
  | more {number : Nat} {before between after : State} :
      Repeated relation number before between → relation between after →
        Repeated relation (number + 1) before after

theorem Repeated.keeps {invariant : State → Prop} {number : Nat} {before after : State}
    (repeated : Repeated relation number before after)
    (kept : ∀ before after, invariant before → relation before after → invariant after)
    (initial : invariant before) : invariant after := by
  induction repeated with
  | none state => exact initial
  | more _ related inductionHypothesis => exact kept _ _ (inductionHypothesis initial) related

/-- A potential that each time grows, unless it has come to its bound, comes there. -/
theorem Repeated.reaches {invariant : State → Prop} {number : Nat} {before after : State}
    (repeated : Repeated relation number before after) {potential : State → Nat} {bound : Nat}
    (kept : ∀ before after, invariant before → relation before after → invariant after)
    (grows : ∀ before after, invariant before → relation before after →
      bound ≤ potential after ∨ potential before < potential after)
    (initial : invariant before) :
    bound ≤ potential after ∨ number ≤ potential after := by
  induction repeated with
  | none state => exact Or.inr (Nat.zero_le _)
  | @more number before between after earlier related inductionHypothesis =>
      have holds := earlier.keeps kept initial
      rcases grows between after holds related with reached | larger
      · exact Or.inl reached
      · rcases inductionHypothesis initial with reached | counted
        · exact Or.inl (by omega)
        · exact Or.inr (by omega)

end Repetition

end OpenWorkloadScheduler.Foundations
