import OpenWorkloadScheduler.Foundations.Effects

/-!
# Loops whose state is known after each prefix

A loop that goes through a list and answers `true` for each element passes
through one state for each prefix of the list.  Whether it gets to the end is a
condition on each element and on the elements before it.
-/

namespace OpenWorkloadScheduler.Foundations

variable {Item Part : Type}

/-! ## Conditions on an element and on those before it -/

/-- The condition holds of each item together with the items before it, of which
some are already done. -/
def EachAfter (condition : List Item → Item → Prop) : List Item → List Item → Prop
  | _, [] => True
  | done, item :: items => condition done item ∧ EachAfter condition (done ++ [item]) items

section Conditions

variable {condition other : List Item → Item → Prop}

theorem eachAfter_append {done items rest : List Item} :
    EachAfter condition done (items ++ rest) ↔
      EachAfter condition done items ∧ EachAfter condition (done ++ items) rest := by
  induction items generalizing done with
  | nil => simp [EachAfter]
  | cons item items inductionHypothesis =>
      rw [List.cons_append, EachAfter, EachAfter, inductionHypothesis, List.append_assoc,
        List.singleton_append, and_assoc]

/-- A condition on the parts of each item, after the parts of the items before. -/
theorem eachAfter_flatMap {partCondition : List Part → Part → Prop}
    {parts : Item → List Part} {done items : List Item} :
    EachAfter (fun done item => EachAfter partCondition (done.flatMap parts) (parts item))
        done items ↔
      EachAfter partCondition (done.flatMap parts) (items.flatMap parts) := by
  induction items generalizing done with
  | nil => simp [EachAfter]
  | cons item items inductionHypothesis =>
      rw [EachAfter, List.flatMap_cons, eachAfter_append, inductionHypothesis,
        List.flatMap_append, List.flatMap_singleton]

theorem eachAfter_map {partCondition : List Part → Part → Prop} {part : Item → Part}
    {done items : List Item} :
    EachAfter partCondition (done.map part) (items.map part) ↔
      EachAfter (fun done item => partCondition (done.map part) (part item)) done items := by
  induction items generalizing done with
  | nil => simp [EachAfter]
  | cons item items inductionHypothesis =>
      rw [List.map_cons, EachAfter, EachAfter, ← inductionHypothesis, List.map_append,
        List.map_singleton]

theorem eachAfter_iff_split {done items : List Item} :
    EachAfter condition done items ↔
      ∀ before item rest, items = before ++ item :: rest → condition (done ++ before) item := by
  induction items generalizing done with
  | nil => simp [EachAfter]
  | cons head items inductionHypothesis =>
      rw [EachAfter, inductionHypothesis]
      constructor
      · rintro ⟨first, later⟩ before item rest equality
        cases before with
        | nil =>
            cases equality
            rwa [List.append_nil]
        | cons next before =>
            injection equality with headEquality restEquality
            rw [headEquality] at later
            have there := later before item rest restEquality
            rwa [List.append_assoc, List.singleton_append] at there
      · intro each
        refine ⟨?_, fun before item rest equality => ?_⟩
        · have there := each [] head items rfl
          rwa [List.append_nil] at there
        · have there := each (head :: before) item rest (by rw [equality, List.cons_append])
          rwa [List.append_assoc, List.singleton_append]

theorem EachAfter.congr {done items : List Item}
    (same : ∀ before item rest, items = before ++ item :: rest →
      (condition (done ++ before) item ↔ other (done ++ before) item)) :
    EachAfter condition done items ↔ EachAfter other done items := by
  rw [eachAfter_iff_split, eachAfter_iff_split]
  exact forall₄_congr fun before item rest equality => same before item rest equality

end Conditions

/-! ## Computations that answer `true` -/

section Loops

variable {Exc State : Type}

/-- Under the condition the computation answers `true` in the given state, and
without it the computation raises. -/
structure Answers (computation : EStateM Exc State Bool) (before : State)
    (condition : Prop) (after : State) : Prop where
  returns : condition → computation before = .ok true after
  refuses : ¬ condition → raises (computation before) = true

theorem Answers.congr {computation : EStateM Exc State Bool} {before after : State}
    {condition other : Prop} (answers : Answers computation before condition after)
    (same : condition ↔ other) :
    Answers computation before other after :=
  ⟨fun holds => answers.returns (same.mpr holds),
    fun fails => answers.refuses fun holds => fails (same.mp holds)⟩

theorem Answers.of_ok {computation : EStateM Exc State Bool} {before after other : State}
    {condition : Prop} {answer : Bool} (answers : Answers computation before condition after)
    (ran : computation before = .ok answer other) : condition ∧ answer = true ∧ other = after := by
  by_cases holds : condition
  · rw [answers.returns holds] at ran
    cases ran
    exact ⟨holds, rfl, rfl⟩
  · have raised := answers.refuses holds
    rw [ran] at raised
    cases raised

theorem answers_andThen {first second : EStateM Exc State Bool} {before between after : State}
    {condition secondCondition : Prop}
    (firstAnswers : Answers first before condition between)
    (secondAnswers : condition → Answers second between secondCondition after) :
    Answers (andThen first second) before (condition ∧ secondCondition) after := by
  constructor
  · rintro ⟨holds, secondHolds⟩
    rw [andThen_of_true (firstAnswers.returns holds)]
    exact (secondAnswers holds).returns secondHolds
  · intro fails
    by_cases holds : condition
    · rw [andThen_of_true (firstAnswers.returns holds)]
      exact (secondAnswers holds).refuses fun secondHolds => fails ⟨holds, secondHolds⟩
    · have refused := firstAnswers.refuses holds
      cases ran : first before with
      | ok accepted after =>
          rw [ran] at refused
          cases refused
      | error raised after =>
          rw [andThen_of_error ran]
          rfl

/-- The state after each prefix is known, provided that the condition has held
along it. -/
theorem answers_allTrue {action : Item → EStateM Exc State Bool}
    {after : List Item → State} {condition : List Item → Item → Prop}
    {done items : List Item}
    (actionAnswers : ∀ before item rest, items = before ++ item :: rest →
      Answers (action item) (after (done ++ before)) (condition (done ++ before) item)
        (after (done ++ before ++ [item]))) :
    Answers (allTrue action items) (after done) (EachAfter condition done items)
      (after (done ++ items)) := by
  induction items generalizing done with
  | nil =>
      rw [List.append_nil]
      exact ⟨fun _ => rfl, fun fails => absurd trivial fails⟩
  | cons item items inductionHypothesis =>
      have first := actionAnswers [] item items rfl
      rw [List.append_nil] at first
      refine answers_andThen first fun _ => ?_
      have rest := @inductionHypothesis (done ++ [item]) ?_
      · rwa [List.append_assoc, List.singleton_append] at rest
      · intro before other others equality
        have there := actionAnswers (item :: before) other others
          (by rw [equality, List.cons_append])
        rwa [List.append_assoc done [item] before, List.singleton_append]

end Loops

/-! ## Rows inserted one after the other -/

/-- An insertion that refuses a row or adds it, and that refuses a row which
clashes with one that is there. -/
structure Inserts {Exc State Row : Type} (insert : State → Row → Except Exc State)
    (add : State → List Row → State) (allowed : State → Row → Prop)
    (clash : Row → Row → Prop) : Prop where
  step : ∀ {before after row},
    insert before row = .ok after ↔ allowed before row ∧ after = add before [row]
  allowed_add : ∀ {state first second},
    allowed (add state [first]) second ↔ allowed state second ∧ ¬ clash first second
  add_nil : ∀ state, add state [] = state
  add_add : ∀ state rows others, add (add state rows) others = add state (rows ++ others)

/-- Rows are inserted when each of them is allowed and no two of them clash. -/
theorem Inserts.foldlM_eq_ok_iff {Exc State Row : Type}
    {insert : State → Row → Except Exc State} {add : State → List Row → State}
    {allowed : State → Row → Prop} {clash : Row → Row → Prop}
    (inserts : Inserts insert add allowed clash) {before after : State} {rows : List Row} :
    rows.foldlM insert before = .ok after ↔
      (rows.Pairwise (fun first second => ¬ clash first second) ∧
        ∀ row ∈ rows, allowed before row) ∧ after = add before rows := by
  induction rows generalizing before with
  | nil =>
      rw [List.foldlM_nil, inserts.add_nil]
      simp [pure, Except.pure, eq_comm]
  | cons row rows inductionHypothesis =>
      rw [List.foldlM_cons, except_bind_eq_ok_iff, List.pairwise_cons, List.forall_mem_cons]
      simp only [inserts.step, inductionHypothesis]
      constructor
      · rintro ⟨_, ⟨first, rfl⟩, ⟨apart, rest⟩, rfl⟩
        refine ⟨⟨⟨fun other member => ?_, apart⟩, first, fun other member => ?_⟩, ?_⟩
        · exact (inserts.allowed_add.mp (rest other member)).2
        · exact (inserts.allowed_add.mp (rest other member)).1
        · rw [inserts.add_add, List.singleton_append]
      · rintro ⟨⟨⟨separate, apart⟩, first, rest⟩, rfl⟩
        refine ⟨_, ⟨first, rfl⟩, ⟨apart, fun other member => ?_⟩, ?_⟩
        · exact inserts.allowed_add.mpr ⟨rest other member, separate other member⟩
        · rw [inserts.add_add, List.singleton_append]

end OpenWorkloadScheduler.Foundations
