import Mathlib.Order.Defs.Unbundled

/-!
# Computations that keep their state when they raise

`EStateM` models code with exceptions and a mutable state: what was written
before an exception is still there after it.  This module has the rules by which
such computations are composed: how a `bind` runs, which relations between the
initial and the final state hold along every exit, and the loop that stops at
the first element refused.
-/

namespace OpenWorkloadScheduler.Foundations

universe u

variable {Exc State Alpha Beta : Type u}

/-! ## Running a sequence -/

theorem bind_of_ok {first : EStateM Exc State Alpha} {next : Alpha → EStateM Exc State Beta}
    {before after : State} {value : Alpha}
    (ran : first before = .ok value after) :
    (first >>= next) before = next value after := by
  change EStateM.bind first next before = _
  unfold EStateM.bind
  rw [ran]

theorem bind_of_error {first : EStateM Exc State Alpha}
    {next : Alpha → EStateM Exc State Beta}
    {before after : State} {raised : Exc}
    (ran : first before = .error raised after) :
    (first >>= next) before = .error raised after := by
  change EStateM.bind first next before = _
  unfold EStateM.bind
  rw [ran]

theorem bind_get (next : State → EStateM Exc State Beta) (state : State) :
    ((get : EStateM Exc State State) >>= next) state = next state state :=
  rfl

theorem bind_of_eq {first other : EStateM Exc State Alpha}
    {next : Alpha → EStateM Exc State Beta} {before between : State}
    (same : first before = other between) :
    (first >>= next) before = (other >>= next) between := by
  cases ran : other between with
  | ok value after => rw [bind_of_ok (same.trans ran), bind_of_ok ran]
  | error raised after => rw [bind_of_error (same.trans ran), bind_of_error ran]

theorem bind_eq_ok_iff {first : EStateM Exc State Alpha}
    {next : Alpha → EStateM Exc State Beta} {before after : State} {value : Beta} :
    (first >>= next) before = .ok value after ↔
      ∃ middle between, first before = .ok middle between ∧
        next middle between = .ok value after := by
  cases ran : first before with
  | ok middle between =>
      rw [bind_of_ok ran]
      constructor
      · intro finished
        exact ⟨middle, between, rfl, finished⟩
      · rintro ⟨_, _, same, finished⟩
        cases same
        exact finished
  | error raised between =>
      rw [bind_of_error ran]
      constructor
      · intro impossible
        cases impossible
      · rintro ⟨_, _, impossible, _⟩
        cases impossible

theorem returned_of_mapM {Item : Type u} {action : Item → EStateM Exc State Alpha}
    {items : List Item} {before after : State} {values : List Alpha}
    (ran : items.mapM action before = .ok values after) :
    ∀ value ∈ values, ∃ item between later, action item between = .ok value later := by
  induction items generalizing before values with
  | nil =>
      cases ran
      exact fun _ member => absurd member List.not_mem_nil
  | cons item items inductionHypothesis =>
      rw [List.mapM_cons] at ran
      obtain ⟨first, between, firstRan, rest⟩ := bind_eq_ok_iff.mp ran
      obtain ⟨others, later, othersRan, ⟨⟩⟩ := bind_eq_ok_iff.mp rest
      intro value member
      rcases List.mem_cons.mp member with rfl | member
      · exact ⟨item, before, between, firstRan⟩
      · exact inductionHypothesis othersRan value member

theorem map_of_mapM {Item Key : Type u} {action : Item → EStateM Exc State Alpha}
    {keyOf : Alpha → Key} {key : Item → Key} {items : List Item} {before after : State}
    {values : List Alpha}
    (returned : ∀ item value between later, action item between = .ok value later →
      keyOf value = key item)
    (ran : items.mapM action before = .ok values after) :
    values.map keyOf = items.map key := by
  induction items generalizing before values with
  | nil =>
      cases ran
      rfl
  | cons item items inductionHypothesis =>
      rw [List.mapM_cons] at ran
      obtain ⟨first, between, firstRan, rest⟩ := bind_eq_ok_iff.mp ran
      obtain ⟨others, later, othersRan, ⟨⟩⟩ := bind_eq_ok_iff.mp rest
      rw [List.map_cons, List.map_cons, returned item first before between firstRan,
        inductionHypothesis othersRan]

/-! ## Sequences of conversions -/

@[simp]
theorem except_ok_bind (value : Alpha) (next : Alpha → Except Exc Beta) :
    (Except.ok value >>= next) = next value :=
  rfl

theorem except_bind_eq_ok_iff {first : Except Exc Alpha} {next : Alpha → Except Exc Beta}
    {value : Beta} :
    (first >>= next) = .ok value ↔
      ∃ middle, first = .ok middle ∧ next middle = .ok value := by
  cases first with
  | error raised => exact ⟨nofun, fun ⟨_, impossible, _⟩ => nomatch impossible⟩
  | ok middle =>
      constructor
      · intro finished
        exact ⟨middle, rfl, finished⟩
      · rintro ⟨_, ⟨⟩, finished⟩
        exact finished

section Conversions

variable {Item : Type u} {convert : Item → Except Exc Alpha} {items : List Item}

theorem mapM_ok {result : Item → Alpha}
    (converted : ∀ item ∈ items, convert item = .ok (result item)) :
    items.mapM convert = .ok (items.map result) := by
  induction items with
  | nil => rfl
  | cons item items inductionHypothesis =>
      have rest := inductionHypothesis fun other member =>
        converted other (List.mem_cons_of_mem item member)
      rw [List.mapM_cons, converted item List.mem_cons_self, rest]
      rfl

theorem mapM_error {item : Item} {raised : Exc} (member : item ∈ items)
    (refused : convert item = .error raised) :
    ∃ first, items.mapM convert = .error first := by
  induction items with
  | nil => cases member
  | cons head items inductionHypothesis =>
      rw [List.mapM_cons]
      cases converted : convert head with
      | error first => exact ⟨first, rfl⟩
      | ok value =>
          rcases List.mem_cons.mp member with rfl | member
          · rw [refused] at converted
            cases converted
          · obtain ⟨first, left⟩ := inductionHypothesis member
            rw [left]
            exact ⟨first, rfl⟩

end Conversions

/-! ## Relations kept along every exit -/

/-- The state in which a computation is left, by a return or by an exception. -/
def finalState : EStateM.Result Exc State Alpha → State
  | .ok _ state => state
  | .error _ state => state

/-- The computation is left by an exception. -/
def raises : EStateM.Result Exc State Alpha → Bool
  | .ok _ _ => false
  | .error _ _ => true

@[simp]
theorem finalState_ok (value : Alpha) (state : State) :
    finalState (.ok value state : EStateM.Result Exc State Alpha) = state :=
  rfl

@[simp]
theorem finalState_error (raised : Exc) (state : State) :
    finalState (.error raised state : EStateM.Result Exc State Alpha) = state :=
  rfl

/-- The value that a computation has returned, if it has. -/
def returned : EStateM.Result Exc State Alpha → Option Alpha
  | .ok value _ => some value
  | .error _ _ => none

@[simp]
theorem returned_ok (value : Alpha) (state : State) :
    returned (.ok value state : EStateM.Result Exc State Alpha) = some value :=
  rfl

@[simp]
theorem returned_error (raised : Exc) (state : State) :
    returned (.error raised state : EStateM.Result Exc State Alpha) = none :=
  rfl

@[simp]
theorem returned_pure (value : Alpha) (state : State) :
    returned ((pure value : EStateM Exc State Alpha) state) = some value :=
  rfl

@[simp]
theorem returned_throw (raised : Exc) (state : State) :
    returned ((throw raised : EStateM Exc State Alpha) state) = none :=
  rfl

/-- What follows a computation and passes on its value. -/
theorem returned_bind_of_same {first : EStateM Exc State Alpha}
    {next : Alpha → EStateM Exc State Alpha} {state : State}
    (same : ∀ value after, returned (next value after) = some value) :
    returned ((first >>= next) state) = returned (first state) := by
  cases ran : first state with
  | ok value after =>
      rw [bind_of_ok ran]
      exact same value after
  | error raised after => rw [bind_of_error ran, returned_error]

theorem returned_bind_ne {first : EStateM Exc State Alpha}
    {next : Alpha → EStateM Exc State Beta} {state : State} {value : Beta}
    (other : ∀ middle after, returned (next middle after) ≠ some value) :
    returned ((first >>= next) state) ≠ some value := by
  cases ran : first state with
  | ok middle after =>
      rw [bind_of_ok ran]
      exact other middle after
  | error raised after =>
      rw [bind_of_error ran]
      simp

theorem tryCatch_of_ok {action : EStateM Exc State Alpha}
    {handler : Exc → EStateM Exc State Alpha} {state after : State} {value : Alpha}
    (ran : action state = .ok value after) : tryCatch action handler state = .ok value after := by
  change EStateM.tryCatch action handler state = _
  unfold EStateM.tryCatch
  rw [ran]

/-- What no handler returns has been returned by the computation itself. -/
theorem returned_tryCatch_eq_some_iff {action : EStateM Exc State Alpha}
    {handler : Exc → EStateM Exc State Alpha} {state : State} {value : Alpha}
    (other : ∀ raised after, returned (handler raised after) ≠ some value) :
    returned (tryCatch action handler state) = some value ↔
      returned (action state) = some value := by
  change returned (EStateM.tryCatch action handler state) = some value ↔ _
  unfold EStateM.tryCatch
  cases ran : action state with
  | ok result after => exact Iff.rfl
  | error raised after => exact iff_of_false (other raised after) (by simp)

/-- What follows a computation and changes nothing does not move its final state. -/
theorem finalState_bind_of_still {first : EStateM Exc State Alpha}
    {next : Alpha → EStateM Exc State Beta} {state : State}
    (still : ∀ value after, finalState (next value after) = after) :
    finalState ((first >>= next) state) = finalState (first state) := by
  cases ran : first state with
  | ok value after =>
      rw [bind_of_ok ran]
      exact still value after
  | error raised after => rw [bind_of_error ran, finalState_error, finalState_error]

theorem finalState_tryCatch_of_still {action : EStateM Exc State Alpha}
    {handler : Exc → EStateM Exc State Alpha} {state : State}
    (still : ∀ raised after, finalState (handler raised after) = after) :
    finalState (tryCatch action handler state) = finalState (action state) := by
  change finalState (EStateM.tryCatch action handler state) = _
  unfold EStateM.tryCatch
  cases ran : action state with
  | ok value after => rfl
  | error raised after => exact still raised after

/-- Every exit of the computation is related to its entry. -/
def Within (relation : State → State → Prop) (computation : EStateM Exc State Alpha) : Prop :=
  ∀ state, relation state (finalState (computation state))

theorem Within.mono {weaker relation : State → State → Prop}
    {computation : EStateM Exc State Alpha}
    (implied : ∀ before after, relation before after → weaker before after)
    (within : Within relation computation) :
    Within weaker computation :=
  fun state => implied _ _ (within state)

theorem Within.of_ok {relation : State → State → Prop} {computation : EStateM Exc State Alpha}
    {before after : State} {value : Alpha} (within : Within relation computation)
    (ran : computation before = .ok value after) : relation before after := by
  have related := within before
  rwa [ran] at related

section Rules

variable {relation : State → State → Prop} [IsPreorder State relation]

theorem within_pure (value : Alpha) :
    Within relation (pure value : EStateM Exc State Alpha) :=
  fun state => refl state

theorem within_throw (raised : Exc) :
    Within relation (throw raised : EStateM Exc State Alpha) :=
  fun state => refl state

theorem within_get : Within relation (get : EStateM Exc State State) :=
  fun state => refl state

theorem within_bind {first : EStateM Exc State Alpha}
    {next : Alpha → EStateM Exc State Beta}
    (firstWithin : Within relation first)
    (nextWithin : ∀ value, Within relation (next value)) :
    Within relation (first >>= next) := by
  intro state
  have step := firstWithin state
  cases ran : first state with
  | ok value after =>
      rw [bind_of_ok ran]
      rw [ran] at step
      exact IsTrans.trans _ _ _ step (nextWithin value after)
  | error raised after =>
      rw [bind_of_error ran]
      rw [ran] at step
      exact step

/-- A handler goes on from the state in which the exception was raised. -/
theorem within_tryCatch {action : EStateM Exc State Alpha}
    {handler : Exc → EStateM Exc State Alpha} (actionWithin : Within relation action)
    (handlerWithin : ∀ raised, Within relation (handler raised)) :
    Within relation (tryCatch action handler) := by
  intro state
  have step := actionWithin state
  change relation state (finalState (EStateM.tryCatch action handler state))
  unfold EStateM.tryCatch
  cases ran : action state with
  | ok value after =>
      rw [ran] at step
      exact step
  | error raised after =>
      rw [ran] at step
      exact IsTrans.trans _ _ _ step (handlerWithin raised after)

theorem within_mapM {Item : Type u} {action : Item → EStateM Exc State Alpha}
    (actionWithin : ∀ item, Within relation (action item)) (items : List Item) :
    Within relation (items.mapM action) := by
  induction items with
  | nil =>
      rw [List.mapM_nil]
      exact within_pure []
  | cons item items inductionHypothesis =>
      rw [List.mapM_cons]
      refine within_bind (actionWithin item) fun value => ?_
      exact within_bind inductionHypothesis fun values => within_pure (value :: values)

end Rules

/-! ## Loops that stop at the first refusal -/

section Loops

variable {Exc State : Type} {Item : Type}

/-- Go on with the second computation if the first one answers `true`. -/
def andThen (first second : EStateM Exc State Bool) : EStateM Exc State Bool := do
  if ← first then second else pure false

/-- Apply the action to the items in turn, as long as it answers `true`. -/
def allTrue (action : Item → EStateM Exc State Bool) : List Item → EStateM Exc State Bool
  | [] => pure true
  | item :: items => andThen (action item) (allTrue action items)

/-- The condition holds of every item in the state in which the loop reaches it. -/
def AlongLoop (action : Item → EStateM Exc State Bool) (condition : Item → State → Prop) :
    List Item → State → Prop
  | [], _ => True
  | item :: items, state =>
      condition item state ∧
        ∀ after, action item state = .ok true after →
          AlongLoop action condition items after

section Steps

variable {first second : EStateM Exc State Bool} {before after : State}

theorem andThen_of_true (accepted : first before = .ok true after) :
    andThen first second before = second after := by
  rw [andThen, bind_of_ok accepted]
  rfl

theorem andThen_of_error {raised : Exc} (left : first before = .error raised after) :
    andThen first second before = .error raised after := by
  rw [andThen, bind_of_error left]

theorem andThen_of_not_true (refused : ∀ after, first before ≠ .ok true after) :
    finalState (andThen first second before) = finalState (first before) := by
  rw [andThen]
  cases ran : first before with
  | error raised after => rw [bind_of_error ran]
  | ok accepted after =>
      cases accepted with
      | true => exact absurd ran (refused after)
      | false =>
          rw [bind_of_ok ran]
          rfl

/-- Of a computation that returns `true` with a property or does not return it, the first
holds where it has returned `true`. -/
theorem holds_of_ok_true {result : EStateM.Result Exc State Bool} {property : State → Prop}
    {otherwise : Prop}
    (cases : (∃ after, result = .ok true after ∧ property after) ∨
      (∀ after, result ≠ .ok true after) ∧ otherwise)
    (ran : result = .ok true after) : property after := by
  rcases cases with ⟨other, otherRan, holds⟩ | ⟨refused, _⟩
  · rw [ran] at otherRan
    cases otherRan
    exact holds
  · exact absurd ran (refused after)

theorem andThen_eq_true_iff :
    andThen first second before = .ok true after ↔
      ∃ between, first before = .ok true between ∧ second between = .ok true after := by
  rw [andThen, bind_eq_ok_iff]
  constructor
  · rintro ⟨accepted, between, ran, rest⟩
    cases accepted with
    | true => exact ⟨between, ran, rest⟩
    | false => cases rest
  · rintro ⟨between, ran, rest⟩
    exact ⟨true, between, ran, rest⟩

theorem related_andThen {relation : State → State → Prop} [IsPreorder State relation]
    (secondWithin : Within relation second) :
    relation (finalState (first before)) (finalState (andThen first second before)) := by
  rw [andThen]
  cases ran : first before with
  | error raised after =>
      rw [bind_of_error ran]
      exact refl after
  | ok accepted after =>
      rw [bind_of_ok ran]
      cases accepted with
      | false => exact refl after
      | true => exact secondWithin after

theorem within_andThen {relation : State → State → Prop} [IsPreorder State relation]
    (firstWithin : Within relation first) (secondWithin : Within relation second) :
    Within relation (andThen first second) :=
  fun state => IsTrans.trans _ _ _ (firstWithin state) (related_andThen secondWithin)

theorem andThen_pure_true (computation : EStateM Exc State Bool) :
    andThen computation (pure true) = computation := by
  funext state
  rw [andThen]
  cases ran : computation state with
  | error raised after => rw [bind_of_error ran]
  | ok accepted after =>
      rw [bind_of_ok ran]
      cases accepted <;> rfl

theorem andThen_assoc (first second third : EStateM Exc State Bool) :
    andThen (andThen first second) third = andThen first (andThen second third) := by
  funext state
  cases ran : first state with
  | error raised after => rw [andThen_of_error (andThen_of_error ran), andThen_of_error ran]
  | ok accepted after =>
      cases accepted with
      | true =>
          rw [andThen_of_true ran]
          exact bind_of_eq (andThen_of_true ran)
      | false =>
          have stopped : andThen first second state = .ok false after := by
            rw [andThen, bind_of_ok ran]
            rfl
          rw [andThen, bind_of_ok stopped, andThen, bind_of_ok ran]
          rfl

end Steps

theorem allTrue_append (action : Item → EStateM Exc State Bool) (items others : List Item) :
    allTrue action (items ++ others) = andThen (allTrue action items) (allTrue action others) := by
  induction items with
  | nil => rfl
  | cons item items inductionHypothesis =>
      rw [List.cons_append, allTrue, allTrue, inductionHypothesis, andThen_assoc]

theorem allTrue_map {Other : Type} (action : Item → EStateM Exc State Bool)
    (item : Other → Item) (others : List Other) :
    allTrue action (others.map item) = allTrue (fun other => action (item other)) others := by
  induction others with
  | nil => rfl
  | cons other others inductionHypothesis =>
      rw [List.map_cons, allTrue, allTrue, inductionHypothesis]

theorem within_allTrue_of_mem {relation : State → State → Prop} [IsPreorder State relation]
    {action : Item → EStateM Exc State Bool} {items : List Item}
    (actionWithin : ∀ item ∈ items, Within relation (action item)) :
    Within relation (allTrue action items) := by
  induction items with
  | nil => exact within_pure true
  | cons item items inductionHypothesis =>
      apply within_andThen (actionWithin item List.mem_cons_self)
      exact inductionHypothesis fun other member =>
        actionWithin other (List.mem_cons_of_mem item member)

theorem within_allTrue {relation : State → State → Prop} [IsPreorder State relation]
    {action : Item → EStateM Exc State Bool}
    (actionWithin : ∀ item, Within relation (action item)) (items : List Item) :
    Within relation (allTrue action items) :=
  within_allTrue_of_mem fun item _ => actionWithin item

end Loops

/-! ## Properties kept under a condition -/

/-- From states with the property, the computation returns to such states, and
it is left in one of them exactly when its entry meets the condition. -/
structure Keeps (property : State → Prop) (computation : EStateM Exc State Alpha)
    (condition : State → Prop) : Prop where
  returned : ∀ {state value after}, property state →
    computation state = .ok value after → property after
  exact : ∀ {state}, property state →
    (property (finalState (computation state)) ↔ condition state)

section Conditions

variable {property : State → Prop}

/-- A computation that every exit of which keeps the property. -/
theorem keeps_of_within {computation : EStateM Exc State Alpha}
    {relation : State → State → Prop}
    (kept : ∀ before after, relation before after → property before → property after)
    (within : Within relation computation) :
    Keeps property computation fun _ => True := by
  constructor
  · intro state value after holds ran
    have related := within state
    rw [ran] at related
    exact kept state after related holds
  · intro state holds
    exact ⟨fun _ => trivial, fun _ => kept _ _ (within state) holds⟩

theorem keeps_pure (value : Alpha) :
    Keeps property (pure value : EStateM Exc State Alpha) fun _ => True := by
  constructor
  · rintro state _ _ holds ⟨⟩
    exact holds
  · intro state holds
    exact ⟨fun _ => trivial, fun _ => holds⟩

theorem keeps_bind {first : EStateM Exc State Alpha}
    {next : Alpha → EStateM Exc State Beta}
    {firstCondition : State → Prop} {nextCondition : Alpha → State → Prop}
    (firstKeeps : Keeps property first firstCondition)
    (nextKeeps : ∀ value, Keeps property (next value) (nextCondition value)) :
    Keeps property (first >>= next) fun state =>
      firstCondition state ∧
        ∀ value after, first state = .ok value after → nextCondition value after := by
  constructor
  · intro state value after holds ran
    obtain ⟨middle, between, firstRan, nextRan⟩ := bind_eq_ok_iff.mp ran
    exact (nextKeeps middle).returned (firstKeeps.returned holds firstRan) nextRan
  · intro state holds
    have entry := firstKeeps.exact holds
    cases ran : first state with
    | ok middle between =>
        have there := firstKeeps.returned holds ran
        rw [bind_of_ok ran, (nextKeeps middle).exact there]
        rw [ran] at entry
        constructor
        · intro condition
          refine ⟨entry.mp there, ?_⟩
          rintro _ _ ⟨⟩
          exact condition
        · rintro ⟨_, condition⟩
          exact condition middle between rfl
    | error raised between =>
        rw [bind_of_error ran]
        rw [ran] at entry
        exact ⟨fun there => ⟨entry.mp there, nofun⟩, fun condition => entry.mpr condition.1⟩

theorem keeps_ite {decision : Prop} [Decidable decision]
    {first second : EStateM Exc State Alpha} {firstCondition secondCondition : State → Prop}
    (firstKeeps : Keeps property first firstCondition)
    (secondKeeps : Keeps property second secondCondition) :
    Keeps property (if decision then first else second) fun state =>
      if decision then firstCondition state else secondCondition state := by
  split
  · exact firstKeeps
  · exact secondKeeps

theorem Keeps.congr {computation : EStateM Exc State Alpha}
    {condition other : State → Prop}
    (keeps : Keeps property computation condition)
    (same : ∀ state, condition state ↔ other state) :
    Keeps property computation other :=
  ⟨keeps.returned, fun holds => (keeps.exact holds).trans (same _)⟩

end Conditions

section Steps

variable {Exc State Item : Type} {property : State → Prop}

theorem keeps_andThen {first second : EStateM Exc State Bool}
    {firstCondition secondCondition : State → Prop}
    (firstKeeps : Keeps property first firstCondition)
    (secondKeeps : Keeps property second secondCondition) :
    Keeps property (andThen first second) fun state =>
      firstCondition state ∧
        ∀ after, first state = .ok true after → secondCondition after := by
  have restKeeps : ∀ accepted : Bool,
      Keeps property (if accepted then second else pure false)
        fun state => if accepted then secondCondition state else True :=
    fun accepted => keeps_ite secondKeeps (keeps_pure false)
  refine (keeps_bind firstKeeps restKeeps).congr fun state => ?_
  refine and_congr_right fun _ => ⟨?_, ?_⟩
  · intro continues after accepted
    exact continues true after accepted
  · intro continues value after ran
    cases value with
    | true => exact continues after ran
    | false => trivial

theorem keeps_allTrue {action : Item → EStateM Exc State Bool}
    {condition : Item → State → Prop}
    (actionKeeps : ∀ item, Keeps property (action item) (condition item))
    (items : List Item) :
    Keeps property (allTrue action items) (AlongLoop action condition items) := by
  induction items with
  | nil => exact keeps_pure true
  | cons item items inductionHypothesis =>
      exact keeps_andThen (actionKeeps item) inductionHypothesis

end Steps

end OpenWorkloadScheduler.Foundations
