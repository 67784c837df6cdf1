import OpenWorkloadScheduler.Foundations.Effects

/-!
# Computations that succeed without their disturbances

A state may carry disturbances that a computation meets on its way, and `calm`
takes them out.  A computation that gives up at the first disturbance behaves
alike in the calmed state whenever it has got to a good result.  The rules below
show this along the parts of a computation.
-/

namespace OpenWorkloadScheduler.Foundations

universe u

variable {Exc State Alpha Beta : Type u} {calm : State → State}

/-- A good result is the same from the calmed state, in which it is reached too. -/
def Survives (calm : State → State) (good : Alpha → Prop)
    (computation : EStateM Exc State Alpha) : Prop :=
  ∀ before value after, computation before = .ok value after → good value →
    computation (calm before) = .ok value (calm after)

/-- The computation comes to no good result. -/
def Hopeless (good : Alpha → Prop) (computation : EStateM Exc State Alpha) : Prop :=
  ∀ before value after, computation before = .ok value after → ¬ good value

theorem hopeless_throw (raised : Exc) (good : Alpha → Prop) :
    Hopeless good (throw raised : EStateM Exc State Alpha) := by
  intro before value after ran
  cases ran

theorem hopeless_pure {good : Alpha → Prop} {value : Alpha} (bad : ¬ good value) :
    Hopeless good (pure value : EStateM Exc State Alpha) := by
  rintro before _ after ⟨⟩
  exact bad

theorem Hopeless.bind {first : EStateM Exc State Alpha}
    {next : Alpha → EStateM Exc State Beta} {good : Beta → Prop}
    (nextHopeless : ∀ value, Hopeless good (next value)) :
    Hopeless good (first >>= next) := by
  intro before value after ran
  obtain ⟨middle, between, _, rest⟩ := bind_eq_ok_iff.mp ran
  exact nextHopeless middle between value after rest

theorem Hopeless.survives {computation : EStateM Exc State Alpha} {good : Alpha → Prop}
    (hopeless : Hopeless good computation) : Survives calm good computation :=
  fun before value after ran holds => absurd holds (hopeless before value after ran)

section Rules

variable {good : Alpha → Prop} {other : Beta → Prop}

theorem survives_pure (value : Alpha) :
    Survives calm good (pure value : EStateM Exc State Alpha) := by
  rintro before _ after ⟨⟩ _
  rfl

theorem survives_throw (raised : Exc) :
    Survives calm good (throw raised : EStateM Exc State Alpha) :=
  (hopeless_throw raised good).survives

/-- After a bad result of the first part nothing good comes. -/
theorem survives_bind {first : EStateM Exc State Alpha}
    {next : Alpha → EStateM Exc State Beta} (firstSurvives : Survives calm good first)
    (nextSurvives : ∀ value, good value → Survives calm other (next value))
    (nextHopeless : ∀ value, ¬ good value → Hopeless other (next value)) :
    Survives calm other (first >>= next) := by
  intro before value after ran holds
  obtain ⟨middle, between, firstRan, nextRan⟩ := bind_eq_ok_iff.mp ran
  have middleGood : good middle := Classical.byContradiction fun bad =>
    nextHopeless middle bad between value after nextRan holds
  rw [bind_of_ok (firstSurvives before middle between firstRan middleGood)]
  exact nextSurvives middle middleGood between value after nextRan holds

theorem survives_bind_of_any {first : EStateM Exc State Alpha}
    {next : Alpha → EStateM Exc State Beta}
    (firstSurvives : Survives calm (fun _ => True) first)
    (nextSurvives : ∀ value, Survives calm other (next value)) :
    Survives calm other (first >>= next) :=
  survives_bind firstSurvives (fun value _ => nextSurvives value)
    fun _ bad => absurd trivial bad

theorem survives_bind_of_some {first : EStateM Exc State (Option Alpha)}
    {next : Option Alpha → EStateM Exc State Beta}
    (firstSurvives : Survives calm (·.isSome = true) first)
    (nextSurvives : ∀ value, Survives calm other (next (some value)))
    (nextHopeless : Hopeless other (next none)) :
    Survives calm other (first >>= next) := by
  refine survives_bind firstSurvives (fun value present => ?_) fun value absent => ?_
  · obtain ⟨value, rfl⟩ := Option.isSome_iff_exists.mp present
    exact nextSurvives value
  · rw [Option.not_isSome_iff_eq_none.mp absent]
    exact nextHopeless

theorem survives_get_bind {next : State → EStateM Exc State Beta}
    (same : ∀ state, next (calm state) = next state)
    (nextSurvives : ∀ state, Survives calm other (next state)) :
    Survives calm other ((get : EStateM Exc State State) >>= next) := by
  intro before value after ran holds
  rw [bind_get] at ran
  rw [bind_get, same]
  exact nextSurvives before before value after ran holds

theorem survives_ite {decision : Prop} [Decidable decision]
    {first second : EStateM Exc State Alpha} (firstSurvives : Survives calm good first)
    (secondSurvives : Survives calm good second) :
    Survives calm good (if decision then first else second) := by
  split
  · exact firstSurvives
  · exact secondSurvives

theorem survives_mapM {Item : Type u} {action : Item → EStateM Exc State Alpha}
    (actionSurvives : ∀ item, Survives calm (fun _ => True) (action item))
    (items : List Item) :
    Survives calm (fun _ => True) (items.mapM action) := by
  induction items with
  | nil =>
      rw [List.mapM_nil]
      exact survives_pure []
  | cons item items inductionHypothesis =>
      rw [List.mapM_cons]
      refine survives_bind_of_any (actionSurvives item) fun value => ?_
      exact survives_bind_of_any inductionHypothesis fun values => survives_pure _

end Rules

section Loops

variable {Exc State Item : Type} {calm : State → State}

theorem survives_bind_of_true {Alpha : Type} {good : Alpha → Prop}
    {first : EStateM Exc State Bool} {next : Bool → EStateM Exc State Alpha}
    (firstSurvives : Survives calm (· = true) first)
    (nextSurvives : Survives calm good (next true))
    (nextHopeless : Hopeless good (next false)) :
    Survives calm good (first >>= next) := by
  refine survives_bind firstSurvives (fun value accepted => ?_) fun value refused => ?_
  · rw [accepted]
    exact nextSurvives
  · cases value with
    | true => exact absurd rfl refused
    | false => exact nextHopeless

theorem survives_andThen {first second : EStateM Exc State Bool}
    (firstSurvives : Survives calm (· = true) first)
    (secondSurvives : Survives calm (· = true) second) :
    Survives calm (· = true) (andThen first second) :=
  survives_bind_of_true firstSurvives secondSurvives (hopeless_pure Bool.false_ne_true)

theorem survives_allTrue {action : Item → EStateM Exc State Bool}
    (actionSurvives : ∀ item, Survives calm (· = true) (action item)) (items : List Item) :
    Survives calm (· = true) (allTrue action items) := by
  induction items with
  | nil => exact survives_pure true
  | cons item items inductionHypothesis =>
      exact survives_andThen (actionSurvives item) inductionHypothesis

end Loops

end OpenWorkloadScheduler.Foundations
