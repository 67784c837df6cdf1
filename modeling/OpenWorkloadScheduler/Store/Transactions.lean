import OpenWorkloadScheduler.Store.Mysql

/-!
# What the methods of `Mysql` do

One equation for each call of the MySQL library, the parts of the state that
the methods leave alone, and the two questions that their callers ask about
`standalone_execute`: what the server holds after it has returned `true`, and
when it is left by an exception.
-/

namespace OpenWorkloadScheduler.Store

open Rpc Foundations

/-! ## What stays -/

/-- The server and the coming answers are all that may have changed. -/
structure Frame (before after : World) : Prop where
  skeletonFile : after.skeletonFile = before.skeletonFile
  updatesMutex : after.updatesMutex = before.updatesMutex
  planningStartTime : after.planningStartTime = before.planningStartTime
  clock : after.clock = before.clock
  utcOffset : after.utcOffset = before.utcOffset

instance : IsPreorder World Frame where
  refl _ := ⟨rfl, rfl, rfl, rfl, rfl⟩
  trans _ _ _ first second :=
    ⟨second.skeletonFile.trans first.skeletonFile,
      second.updatesMutex.trans first.updatesMutex,
      second.planningStartTime.trans first.planningStartTime,
      second.clock.trans first.clock,
      second.utcOffset.trans first.utcOffset⟩

/-- The coming answers are all that may have changed. -/
def ReadOnly (before after : World) : Prop :=
  after = { before with answers := after.answers }

instance : IsPreorder World ReadOnly where
  refl _ := rfl
  trans _ _ _ first second := by
    unfold ReadOnly at *
    rw [second, first]

theorem ReadOnly.frame {before after : World} (readOnly : ReadOnly before after) :
    Frame before after := by
  rw [readOnly]
  exact ⟨rfl, rfl, rfl, rfl, rfl⟩

theorem ReadOnly.server {before after : World} (readOnly : ReadOnly before after) :
    after.server = before.server := by
  rw [readOnly]

theorem readOnly_answered (world : World) : ReadOnly world world.answered :=
  rfl

theorem within_nextAnswer : Within ReadOnly nextAnswer :=
  fun world => readOnly_answered world

namespace Mysql

theorem within_init (database : Option String) : Within ReadOnly (init database) := by
  refine within_bind within_nextAnswer fun answer => ?_
  cases answer with
  | refused => exact within_throw _
  | failed error => exact within_throw _
  | done =>
      refine within_bind within_get fun world => ?_
      cases database with
      | none => exact within_pure _
      | some name =>
          change Within ReadOnly (if _ then _ else _)
          split
          · exact within_pure _
          · exact within_throw _

theorem within_fetch (query : Query) (database : Option String) :
    Within ReadOnly (fetch query database) := by
  refine within_bind within_nextAnswer fun answer => ?_
  cases answer with
  | refused => exact within_pure _
  | failed error => exact within_pure _
  | done =>
      refine within_bind within_get fun world => ?_
      cases query.run database world.server world.now <;> exact within_pure _

theorem within_queryOneRow (query : Query) (database : Option String) :
    Within ReadOnly (queryOneRow query database) := by
  refine within_bind (within_init database) fun _ => ?_
  refine within_bind (within_fetch query database) fun rows => ?_
  cases rows <;> exact within_pure _

theorem within_queryFullResult (query : Query) (database : Option String) :
    Within ReadOnly (queryFullResult query database) := by
  refine within_bind (within_init database) fun _ => ?_
  refine within_bind (within_fetch query database) fun rows => ?_
  cases rows <;> exact within_pure _

theorem frame_of_server (world : World) (server : Server) :
    Frame world { world with server } :=
  ⟨rfl, rfl, rfl, rfl, rfl⟩

theorem within_atomicExecute (statement : Statement) (session : Session) :
    Within Frame (atomicExecute statement session) := by
  unfold atomicExecute
  split
  · exact within_pure _
  · refine within_bind (within_nextAnswer.mono fun _ _ => ReadOnly.frame) fun answer => ?_
    cases answer with
    | refused => exact within_pure _
    | failed error => exact within_throw _
    | done =>
        dsimp only
        cases statement.run session with
        | error error => exact within_throw _
        | ok session =>
            dsimp only
            split
            · exact within_bind (fun world => frame_of_server world _) fun _ => within_pure _
            · exact within_pure _

theorem within_executeAll (statements : List Statement) (session : Session) :
    Within Frame (executeAll statements session) := by
  induction statements generalizing session with
  | nil => exact within_pure _
  | cons statement statements inductionHypothesis =>
      refine within_bind (within_atomicExecute statement session) fun executed => ?_
      cases executed with
      | none => exact within_bind (within_atomicExecute _ _) fun _ => within_pure _
      | some session => exact inductionHypothesis session

theorem within_commitWork (executed : Option Session) :
    Within Frame (commitWork executed) := by
  cases executed with
  | none => exact within_pure _
  | some session =>
      refine within_bind (within_atomicExecute .commit session) fun committed => ?_
      cases committed with
      | none => exact within_throw _
      | some session =>
          exact within_bind (fun world => frame_of_server world _) fun _ => within_pure _

theorem within_standaloneExecute (statements : List Statement) (database : Option String) :
    Within Frame (standaloneExecute statements database) := by
  refine within_bind ((within_init database).mono fun _ _ => ReadOnly.frame) fun _ => ?_
  refine within_bind within_get fun world => ?_
  refine within_bind (within_atomicExecute _ _) fun started => ?_
  cases started with
  | none => exact within_throw _
  | some session =>
      exact within_bind (within_executeAll statements session) within_commitWork

/-! ## One call -/

/-- The database that a connection asks for exists. -/
def Exists (database : Option String) (server : Server) : Prop :=
  ∀ name ∈ database, (server.schema? name).isSome

instance (database : Option String) (server : Server) : Decidable (Exists database server) :=
  inferInstanceAs (Decidable (∀ name ∈ database, _))

theorem init_of_done {database : Option String} {world : World}
    (done : world.answer = .done) (exist : Exists database world.server) :
    init database world = .ok () world.answered := by
  unfold init
  rw [bind_of_ok (rfl : nextAnswer world = .ok world.answer world.answered), done]
  cases database with
  | none => rfl
  | some name =>
      have present : (world.answered.server.schema? name).isSome := exist name rfl
      change (if (world.answered.server.schema? name).isSome then pure ()
        else throw _ : Action Unit) world.answered = _
      rw [if_pos present]
      rfl

theorem init_of_failure {database : Option String} {world : World}
    (failure : ¬ (world.answer = .done ∧ Exists database world.server)) :
    ∃ message, init database world = .error (.exProcessing message) world.answered := by
  unfold init
  rw [bind_of_ok (rfl : nextAnswer world = .ok world.answer world.answered)]
  cases answer : world.answer with
  | refused => exact ⟨_, rfl⟩
  | failed error => exact ⟨_, rfl⟩
  | done =>
      cases database with
      | none => exact absurd ⟨answer, nofun⟩ failure
      | some name =>
          have absent : ¬ (world.answered.server.schema? name).isSome := by
            intro present
            refine failure ⟨answer, ?_⟩
            rintro _ ⟨⟩
            exact present
          change ∃ raised, (if (world.answered.server.schema? name).isSome then pure ()
            else throw _ : Action Unit) world.answered = _
          rw [if_neg absent]
          exact ⟨_, rfl⟩

/-- A selection reaches the server and returns the rows. -/
structure Selects (query : Query) (database : Option String) (world : World)
    (rows : List Query.ResultRow) : Prop where
  connected : world.answer = .done
  exist : Exists database world.server
  answered : world.answered.answer = .done
  ran : query.run database world.server world.now = .ok rows

theorem fetch_of_ok {query : Query} {database : Option String} {world : World}
    {rows : List Query.ResultRow} (done : world.answer = .done)
    (ran : query.run database world.server world.now = .ok rows) :
    fetch query database world = .ok (some rows) world.answered := by
  have same : query.run database world.answered.server world.answered.now = .ok rows := ran
  rw [fetch, bind_of_ok (rfl : nextAnswer world = .ok world.answer world.answered), done]
  change (get >>= _ : Action _) world.answered = _
  rw [bind_get, same]
  rfl

theorem fetch_of_failure {query : Query} {database : Option String} {world : World}
    (failure : ∀ rows, ¬ (world.answer = .done ∧
      query.run database world.server world.now = .ok rows)) :
    fetch query database world = .ok none world.answered := by
  rw [fetch, bind_of_ok (rfl : nextAnswer world = .ok world.answer world.answered)]
  cases answer : world.answer with
  | refused => rfl
  | failed error => rfl
  | done =>
      have entered : (get : Action World) world.answered = .ok world.answered world.answered := rfl
      change (get >>= _ : Action _) world.answered = _
      rw [bind_of_ok entered]
      cases ran : query.run database world.answered.server world.answered.now with
      | error error => rfl
      | ok rows => exact absurd ⟨answer, ran⟩ (failure rows)

section Selections

variable {query : Query} {database : Option String} {world : World}

theorem queryOneRow_of_selects {rows : List Query.ResultRow}
    (selects : Selects query database world rows) :
    queryOneRow query database world =
      .ok (some (rows.flatMap fun row => row.filterMap id)) world.answered.answered := by
  rw [queryOneRow, bind_of_ok (init_of_done selects.connected selects.exist),
    bind_of_ok (fetch_of_ok selects.answered selects.ran)]
  rfl

theorem queryFullResult_of_selects {rows : List Query.ResultRow}
    (selects : Selects query database world rows) :
    queryFullResult query database world =
      .ok (some (rows.map fun row => row.map fun column => column.getD "NULL"))
        world.answered.answered := by
  rw [queryFullResult, bind_of_ok (init_of_done selects.connected selects.exist),
    bind_of_ok (fetch_of_ok selects.answered selects.ran)]
  rfl

/-- A selection gets its rows, or its caller gets none and nothing changes. -/
theorem selects_cases (query : Query) (database : Option String) (world : World) :
    (∃ rows, Selects query database world rows) ∨
      (init database world = .ok () world.answered ∧
        fetch query database world.answered = .ok none world.answered.answered) ∨
      ∃ message, init database world = .error (.exProcessing message) world.answered := by
  by_cases connects : world.answer = .done ∧ Exists database world.server
  · by_cases selects : ∃ rows, world.answered.answer = .done ∧
        query.run database world.server world.now = .ok rows
    · obtain ⟨rows, answered, ran⟩ := selects
      exact Or.inl ⟨rows, connects.1, connects.2, answered, ran⟩
    · exact Or.inr (Or.inl ⟨init_of_done connects.1 connects.2,
        fetch_of_failure fun rows selected => selects ⟨rows, selected⟩⟩)
  · exact Or.inr (Or.inr (init_of_failure connects))

theorem queryOneRow_cases (query : Query) (database : Option String) (world : World) :
    (∃ rows, Selects query database world rows) ∨
      ∃ after, ReadOnly world after ∧
        (queryOneRow query database world = .ok none after ∨
          ∃ message, queryOneRow query database world = .error (.exProcessing message) after) := by
  rcases selects_cases query database world with
    selects | ⟨connected, fetched⟩ | ⟨message, left⟩
  · exact Or.inl selects
  · refine Or.inr ⟨world.answered.answered, rfl, Or.inl ?_⟩
    rw [queryOneRow, bind_of_ok connected, bind_of_ok fetched]
    rfl
  · refine Or.inr ⟨world.answered, rfl, Or.inr ⟨message, ?_⟩⟩
    rw [queryOneRow, bind_of_error left]

/-- Rows that a caller of `query_one_row` got have been selected. -/
theorem selects_of_queryOneRow {row : List String} {after : World}
    (ran : queryOneRow query database world = .ok (some row) after) :
    ∃ rows, Selects query database world rows ∧
      row = (rows.flatMap fun row => row.filterMap id) ∧ after = world.answered.answered := by
  rcases queryOneRow_cases query database world with
    ⟨rows, selects⟩ | ⟨_, _, none | ⟨message, left⟩⟩
  · rw [queryOneRow_of_selects selects] at ran
    cases ran
    exact ⟨rows, selects, rfl, rfl⟩
  · rw [none] at ran
    cases ran
  · rw [left] at ran
    cases ran

theorem selects_of_queryFullResult {rows : List (List String)} {after : World}
    (ran : queryFullResult query database world = .ok (some rows) after) :
    ∃ rows, Selects query database world rows := by
  rw [queryFullResult] at ran
  rcases selects_cases query database world with
    selects | ⟨connected, fetched⟩ | ⟨message, left⟩
  · exact selects
  · rw [bind_of_ok connected, bind_of_ok fetched] at ran
    cases ran
  · rw [bind_of_error left] at ran
    cases ran

end Selections

/-- The state after a statement has run: a DDL statement reaches the server. -/
def settle (statement : Statement) (session : Session) (world : World) : World :=
  if statement.commits then { world with server := session.work } else world

theorem atomicExecute_of_blank {statement : Statement} {session : Session} {world : World}
    (blank : statement.isBlank = true) :
    atomicExecute statement session world = .ok none world := by
  unfold atomicExecute
  rw [if_pos blank]
  rfl

theorem atomicExecute_of_refused {statement : Statement} {session : Session} {world : World}
    (text : statement.isBlank = false) (refused : world.answer = .refused) :
    atomicExecute statement session world = .ok none world.answered := by
  unfold atomicExecute
  rw [if_neg (by simp [text]),
    bind_of_ok (rfl : nextAnswer world = .ok world.answer world.answered), refused]
  rfl

theorem atomicExecute_of_done {statement : Statement} {session after : Session}
    {world : World} (text : statement.isBlank = false) (done : world.answer = .done)
    (ran : statement.run session = .ok after) :
    atomicExecute statement session world =
      .ok (some after) (settle statement after world.answered) := by
  unfold atomicExecute settle
  rw [if_neg (by simp [text]),
    bind_of_ok (rfl : nextAnswer world = .ok world.answer world.answered), done]
  simp only [ran]
  cases statement.commits <;> rfl

theorem atomicExecute_of_error {statement : Statement} {session : Session}
    {world : World} {error : String} (text : statement.isBlank = false)
    (failure : world.answer = .failed error ∨
      world.answer = .done ∧ statement.run session = .error error) :
    atomicExecute statement session world =
      .error (queryError statement error) world.answered := by
  unfold atomicExecute
  rw [if_neg (by simp [text]),
    bind_of_ok (rfl : nextAnswer world = .ok world.answer world.answered)]
  rcases failure with failed | ⟨done, refused⟩
  · rw [failed]
    rfl
  · rw [done]
    simp only [refused]
    rfl

/-! ## The exits of `standalone_execute` -/

/-- The coming answers let the rest of a transaction, from the given statements
on, be left without an exception.  A statement that is refused is followed by a
rollback, the last statement by the commit. -/
def Completes : List Statement → Session → List Answer → Prop
  | [], _, answers => answers.headD .done = .done
  | statement :: statements, session, answers =>
      if statement.isBlank then ∀ error, answers.headD .done ≠ .failed error
      else
        match answers.headD .done with
        | .failed _ => False
        | .refused => ∀ error, answers.tail.headD .done ≠ .failed error
        | .done =>
            match statement.run session with
            | .error _ => False
            | .ok after => Completes statements after answers.tail

/-- The server can be reached, the schema exists, and the transaction completes. -/
def Transacts (statements : List Statement) (database : Option String) (world : World) :
    Prop :=
  world.answer = .done ∧ Exists database world.server ∧ world.answered.answer = .done ∧
    Completes statements ⟨database, world.server⟩ world.answered.answered.answers

theorem rollbackWork_of_answer {session : Session} {world : World}
    (answered : ∀ error, world.answer ≠ .failed error) :
    rollbackWork session world = .ok none world.answered := by
  have text : Statement.rollback.isBlank = false := by decide
  rw [rollbackWork]
  cases answer : world.answer with
  | done =>
      rw [bind_of_ok (atomicExecute_of_done text answer rfl)]
      rfl
  | refused =>
      rw [bind_of_ok (atomicExecute_of_refused text answer)]
      rfl
  | failed error => exact absurd answer (answered error)

theorem rollbackWork_of_failed {session : Session} {world : World} {error : String}
    (failed : world.answer = .failed error) :
    rollbackWork session world =
      .error (queryError .rollback error) world.answered := by
  have text : Statement.rollback.isBlank = false := by decide
  rw [rollbackWork, bind_of_error (atomicExecute_of_error text (Or.inl failed))]

theorem commitWork_of_done {session : Session} {world : World}
    (done : world.answer = .done) :
    commitWork (some session) world =
      .ok true { world.answered with server := session.work } := by
  have text : Statement.commit.isBlank = false := by decide
  rw [commitWork, bind_of_ok (atomicExecute_of_done text done rfl)]
  rfl

theorem commitWork_of_not_done (session : Session) {world : World}
    (failure : world.answer ≠ .done) :
    ∃ message, commitWork (some session) world =
      .error (.exProcessing message) world.answered := by
  have text : Statement.commit.isBlank = false := by decide
  rw [commitWork]
  cases answer : world.answer with
  | done => exact absurd answer failure
  | refused =>
      rw [bind_of_ok (atomicExecute_of_refused text answer)]
      exact ⟨_, rfl⟩
  | failed error =>
      rw [bind_of_error (atomicExecute_of_error text (Or.inl answer))]
      exact ⟨_, rfl⟩

section Loop

variable {statement : Statement} {statements : List Statement} {session : Session}
  {before after : World}

theorem executeAll_of_refused
    (refused : atomicExecute statement session before = .ok none after) :
    executeAll (statement :: statements) session before = rollbackWork session after := by
  rw [executeAll, bind_of_ok refused]

theorem executeAll_of_done {next : Session}
    (executed : atomicExecute statement session before = .ok (some next) after) :
    executeAll (statement :: statements) session before =
      executeAll statements next after := by
  rw [executeAll, bind_of_ok executed]

theorem executeAll_of_error {raised : Raised}
    (left : atomicExecute statement session before = .error raised after) :
    executeAll (statement :: statements) session before = .error raised after := by
  rw [executeAll, bind_of_error left]

/-- A refused statement ends the transaction with the rollback, and nothing else
can raise after it. -/
theorem raises_executeAll_refused_iff
    (refused : atomicExecute statement session before = .ok none after) :
    raises ((executeAll (statement :: statements) session >>= commitWork) before) = false ↔
      ∀ error, after.answer ≠ .failed error := by
  by_cases answered : ∀ error, after.answer ≠ .failed error
  · rw [bind_of_ok ((executeAll_of_refused refused).trans (rollbackWork_of_answer answered))]
    exact ⟨fun _ => answered, fun _ => rfl⟩
  · obtain ⟨error, failed⟩ := not_forall.mp answered
    rw [bind_of_error ((executeAll_of_refused refused).trans
      (rollbackWork_of_failed (not_not.mp failed)))]
    exact ⟨nofun, fun all => absurd all answered⟩

end Loop

theorem settle_answers (statement : Statement) (session : Session) (world : World) :
    (settle statement session world).answers = world.answers := by
  unfold settle
  split <;> rfl

theorem raises_executeAll_iff (statements : List Statement) (session : Session)
    (world : World) :
    raises ((executeAll statements session >>= commitWork) world) = false ↔
      Completes statements session world.answers := by
  induction statements generalizing session world with
  | nil =>
      rw [executeAll, bind_of_ok (rfl : (pure (some session) : Action _) world = .ok _ world)]
      change _ ↔ world.answer = .done
      by_cases done : world.answer = .done
      · rw [commitWork_of_done done]
        exact ⟨fun _ => done, fun _ => rfl⟩
      · obtain ⟨raised, left⟩ := commitWork_of_not_done session done
        rw [left]
        exact ⟨nofun, fun answer => absurd answer done⟩
  | cons statement statements inductionHypothesis =>
      rw [Completes]
      by_cases blank : statement.isBlank = true
      · rw [if_pos blank]
        exact raises_executeAll_refused_iff (atomicExecute_of_blank blank)
      · have text : statement.isBlank = false := by simpa using blank
        rw [if_neg blank]
        cases answer : world.answers.headD .done with
        | refused =>
            exact raises_executeAll_refused_iff (atomicExecute_of_refused text answer)
        | failed error =>
            rw [bind_of_error (executeAll_of_error
              (atomicExecute_of_error text (Or.inl answer)))]
            exact ⟨nofun, False.elim⟩
        | done =>
            cases ran : statement.run session with
            | error error =>
                rw [bind_of_error (executeAll_of_error
                  (atomicExecute_of_error text (Or.inr ⟨answer, ran⟩)))]
                exact ⟨nofun, False.elim⟩
            | ok after =>
                have executed := atomicExecute_of_done text answer ran
                have rest := inductionHypothesis after (settle statement after world.answered)
                rw [settle_answers] at rest
                rw [bind_of_eq (executeAll_of_done executed)]
                exact rest

/-- The server can be reached and the transaction begins. -/
structure Begins (database : Option String) (world : World) : Prop where
  connected : world.answer = .done
  exist : Exists database world.server
  started : world.answered.answer = .done

/-- A transaction that begins runs on the schemas that the server has then. -/
theorem standaloneExecute_of_begins {statements : List Statement} {database : Option String}
    {world : World} (begins : Begins database world) :
    standaloneExecute statements database world =
      (executeAll statements ⟨database, world.server⟩ >>= commitWork)
        world.answered.answered := by
  have text : Statement.startTransaction.isBlank = false := by decide
  rw [standaloneExecute, bind_of_ok (init_of_done begins.connected begins.exist), bind_get,
    bind_of_ok (atomicExecute_of_done text begins.started rfl)]
  rfl

/-- A transaction that does not begin ends in the same way whatever its statements are. -/
theorem standaloneExecute_of_not_begins {database : Option String} {world : World}
    (failure : ¬ Begins database world) :
    ∃ message after, ReadOnly world after ∧ ∀ statements,
      standaloneExecute statements database world = .error (.exProcessing message) after := by
  have text : Statement.startTransaction.isBlank = false := by decide
  by_cases connects : world.answer = .done ∧ Exists database world.server
  · obtain ⟨done, exist⟩ := connects
    cases answer : world.answered.answer with
    | done => exact absurd ⟨done, exist, answer⟩ failure
    | refused =>
        refine ⟨"standalone_execute:: start transaction failed - ", world.answered.answered, rfl,
          fun statements => ?_⟩
        rw [standaloneExecute, bind_of_ok (init_of_done done exist), bind_get,
          bind_of_ok (atomicExecute_of_refused text answer)]
        rfl
    | failed error =>
        refine ⟨"query: " ++ Statement.startTransaction.text ++ " error: " ++ error,
          world.answered.answered, rfl, fun statements => ?_⟩
        rw [standaloneExecute, bind_of_ok (init_of_done done exist), bind_get,
          bind_of_error (atomicExecute_of_error text (Or.inl answer))]
        rfl
  · obtain ⟨message, left⟩ := init_of_failure connects
    refine ⟨message, world.answered, rfl, fun statements => ?_⟩
    rw [standaloneExecute, bind_of_error left]

/-- `standalone_execute` is left by an exception unless the transaction completes. -/
theorem raises_standaloneExecute_iff (statements : List Statement)
    (database : Option String) (world : World) :
    raises (standaloneExecute statements database world) = false ↔
      Transacts statements database world := by
  by_cases begins : Begins database world
  · rw [standaloneExecute_of_begins begins, raises_executeAll_iff]
    exact ⟨fun completes => ⟨begins.connected, begins.exist, begins.started, completes⟩,
      fun transacts => transacts.2.2.2⟩
  · obtain ⟨message, after, _, left⟩ := standaloneExecute_of_not_begins begins
    rw [left]
    exact ⟨nofun, fun ⟨connected, exist, started, _⟩ =>
      absurd ⟨connected, exist, started⟩ begins⟩

/-! ## What reaches the server -/

/-- The statements, run one after the other. -/
def runAll : List Statement → Session → Except String Session
  | [], session => .ok session
  | statement :: statements, session =>
      match statement.run session with
      | .ok after => runAll statements after
      | .error error => .error error

theorem runAll_cons_eq_ok_iff {statement : Statement} {statements : List Statement}
    {session after : Session} :
    runAll (statement :: statements) session = .ok after ↔
      ∃ next, statement.run session = .ok next ∧ runAll statements next = .ok after := by
  rw [runAll]
  cases statement.run session with
  | error error => simp
  | ok next => simp

/-- The transaction stops at a statement and leaves the server as it is. -/
def StopsAt (result : EStateM.Result Raised World (Option Session)) (world : World) : Prop :=
  (finalState result).server = world.server ∧ ∀ after final, result ≠ .ok (some after) final

theorem stopsAt_rollbackWork (session : Session) (world : World) :
    StopsAt (rollbackWork session world) world := by
  cases answer : world.answer with
  | failed error =>
      rw [rollbackWork_of_failed answer]
      exact ⟨rfl, nofun⟩
  | done =>
      rw [rollbackWork_of_answer (by simp [answer])]
      exact ⟨rfl, nofun⟩
  | refused =>
      rw [rollbackWork_of_answer (by simp [answer])]
      exact ⟨rfl, nofun⟩

/-- A transaction stops at its first statement, or goes on after it. -/
theorem executeAll_cons_cases (statement : Statement) (statements : List Statement)
    (session : Session) (world : World) :
    StopsAt (executeAll (statement :: statements) session world) world ∨
      ∃ after, statement.run session = .ok after ∧
        executeAll (statement :: statements) session world =
          executeAll statements after (settle statement after world.answered) := by
  by_cases blank : statement.isBlank = true
  · rw [executeAll_of_refused (atomicExecute_of_blank blank)]
    exact Or.inl (stopsAt_rollbackWork session world)
  · have text : statement.isBlank = false := by simpa using blank
    cases answer : world.answer with
    | refused =>
        rw [executeAll_of_refused (atomicExecute_of_refused text answer)]
        exact Or.inl (stopsAt_rollbackWork session world.answered)
    | failed error =>
        rw [executeAll_of_error (atomicExecute_of_error text (Or.inl answer))]
        exact Or.inl ⟨rfl, nofun⟩
    | done =>
        cases ran : statement.run session with
        | error error =>
            rw [executeAll_of_error (atomicExecute_of_error text (Or.inr ⟨answer, ran⟩))]
            exact Or.inl ⟨rfl, nofun⟩
        | ok after =>
            exact Or.inr ⟨after, rfl, executeAll_of_done (atomicExecute_of_done text answer ran)⟩

/-- A transaction that got to its end has run all of its statements. -/
theorem runAll_of_executeAll {statements : List Statement} {session after : Session}
    {world final : World}
    (ran : executeAll statements session world = .ok (some after) final) :
    runAll statements session = .ok after := by
  induction statements generalizing session world with
  | nil =>
      cases ran
      rfl
  | cons statement statements inductionHypothesis =>
      rcases executeAll_cons_cases statement statements session world with
        stops | ⟨next, first, rest⟩
      · exact absurd ran (stops.2 after final)
      · rw [rest] at ran
        exact runAll_cons_eq_ok_iff.mpr ⟨next, first, inductionHypothesis ran⟩

section Relations

variable {relation : Server → Server → Prop} [IsPreorder Server relation]
  {inside : Session → Prop} {statements : List Statement}

theorem relates_executeAll (session : Session) (world : World)
    (kept : ∀ statement ∈ statements, ∀ session after : Session, inside session →
      statement.run session = .ok after → inside after ∧ relation session.work after.work)
    (within : inside session) (begun : relation world.server session.work) :
    relation world.server (finalState (executeAll statements session world)).server ∧
      ∀ after final, executeAll statements session world = .ok (some after) final →
        relation world.server after.work := by
  induction statements generalizing session world with
  | nil =>
      refine ⟨refl world.server, ?_⟩
      rintro after final ⟨⟩
      exact begun
  | cons statement statements inductionHypothesis =>
      rcases executeAll_cons_cases statement statements session world with
        stops | ⟨next, first, rest⟩
      · rw [stops.1]
        exact ⟨refl world.server, fun after final ran => absurd ran (stops.2 after final)⟩
      · obtain ⟨withinNext, moved⟩ := kept statement List.mem_cons_self session next within first
        have stepped : relation world.server next.work := IsTrans.trans _ _ _ begun moved
        have later := fun other member => kept other (List.mem_cons_of_mem statement member)
        rw [rest]
        unfold settle
        split
        · -- a DDL statement reaches the server at once
          obtain ⟨left, returned⟩ := inductionHypothesis next
            { world.answered with server := next.work } later withinNext (refl next.work)
          exact ⟨IsTrans.trans _ _ _ stepped left, fun after final ran =>
            IsTrans.trans _ _ _ stepped (returned after final ran)⟩
        · exact inductionHypothesis next world.answered later withinNext stepped

/-- A relation that every statement keeps between the work before and after it, inside of
what the sessions stay in, holds between the servers before and after the transaction,
however it is left. -/
theorem relates_standaloneExecute_inside
    (kept : ∀ statement ∈ statements, ∀ session after : Session, inside session →
      statement.run session = .ok after → inside after ∧ relation session.work after.work)
    {database : Option String} {world : World} (within : inside ⟨database, world.server⟩) :
    relation world.server
      (finalState (standaloneExecute statements database world)).server := by
  by_cases begins : Begins database world
  · rw [standaloneExecute_of_begins begins]
    obtain ⟨left, returned⟩ := relates_executeAll ⟨database, world.server⟩
      world.answered.answered kept within (refl world.server)
    cases executed : executeAll statements ⟨database, world.server⟩
        world.answered.answered with
    | error raised final =>
        rw [bind_of_error executed]
        rw [executed] at left
        exact left
    | ok value final =>
        rw [bind_of_ok executed]
        rw [executed] at left
        cases value with
        | none => exact left
        | some session =>
            by_cases done : final.answer = .done
            · rw [commitWork_of_done done]
              exact returned session final executed
            · obtain ⟨message, raised⟩ := commitWork_of_not_done session done
              rw [raised]
              exact left
  · obtain ⟨message, after, readOnly, raised⟩ := standaloneExecute_of_not_begins begins
    rw [raised, finalState_error, readOnly.server]
    exact refl world.server

/-- The same where the sessions may be any. -/
theorem relates_standaloneExecute
    (kept : ∀ statement ∈ statements, ∀ session after : Session,
      statement.run session = .ok after → relation session.work after.work)
    (database : Option String) (world : World) :
    relation world.server
      (finalState (standaloneExecute statements database world)).server :=
  @relates_standaloneExecute_inside relation _ (fun _ => True) statements
    (fun statement member session after _ ran =>
      ⟨trivial, kept statement member session after ran⟩) database world trivial

end Relations

/-- A transaction that returned `true` has put the work of all its statements on
the server. -/
theorem runAll_of_standaloneExecute {statements : List Statement} {database : Option String}
    {world after : World}
    (ran : standaloneExecute statements database world = .ok true after) :
    ∃ session, runAll statements ⟨database, world.server⟩ = .ok session ∧
      after.server = session.work := by
  by_cases begins : Begins database world
  · rw [standaloneExecute_of_begins begins] at ran
    obtain ⟨value, between, executed, committed⟩ := bind_eq_ok_iff.mp ran
    cases value with
    | none => cases committed
    | some session =>
        refine ⟨session, runAll_of_executeAll executed, ?_⟩
        by_cases done : between.answer = .done
        · rw [commitWork_of_done done] at committed
          cases committed
          rfl
        · obtain ⟨message, raised⟩ := commitWork_of_not_done session done
          rw [raised] at committed
          cases committed
  · obtain ⟨message, left, _, raised⟩ := standaloneExecute_of_not_begins begins
    rw [raised] at ran
    cases ran

/-! ## Without failures -/

/-- No call of the MySQL library fails from here on. -/
def Quiet (world : World) : Prop :=
  world.answers = []

theorem answer_of_quiet {world : World} (quiet : Quiet world) : world.answer = .done := by
  rw [World.answer, quiet]
  rfl

theorem answered_of_quiet {world : World} (quiet : Quiet world) : world.answered = world := by
  unfold World.answered
  rw [quiet]
  cases world
  cases quiet
  rfl

theorem executeAll_cons_of_quiet {statement : Statement} {session next : Session}
    {world : World} (quiet : Quiet world) (known : statement.isBlank = false)
    (first : statement.run session = .ok next) (statements : List Statement) :
    ∃ server, executeAll (statement :: statements) session world =
      executeAll statements next { world with server } := by
  have executed := atomicExecute_of_done known (answer_of_quiet quiet) first
  rw [answered_of_quiet quiet] at executed
  rw [executeAll_of_done executed]
  unfold settle
  split
  · exact ⟨next.work, rfl⟩
  · exact ⟨world.server, rfl⟩

theorem executeAll_of_quiet_ok {statements : List Statement} {session after : Session}
    {world : World} (quiet : Quiet world)
    (known : ∀ statement ∈ statements, statement.isBlank = false)
    (ran : runAll statements session = .ok after) :
    ∃ server, executeAll statements session world =
      .ok (some after) { world with server } := by
  induction statements generalizing session world with
  | nil =>
      cases ran
      exact ⟨world.server, rfl⟩
  | cons statement statements inductionHypothesis =>
      obtain ⟨next, first, rest⟩ := runAll_cons_eq_ok_iff.mp ran
      obtain ⟨known, later⟩ := List.forall_mem_cons.mp known
      obtain ⟨server, step⟩ := executeAll_cons_of_quiet quiet known first statements
      rw [step]
      exact @inductionHypothesis next { world with server } quiet later rest

theorem executeAll_of_quiet_error {statements : List Statement} {session : Session}
    {world : World} {error : String} (quiet : Quiet world)
    (known : ∀ statement ∈ statements, statement.isBlank = false)
    (ran : runAll statements session = .error error) :
    ∃ message after, executeAll statements session world =
      .error (.exProcessing message) after := by
  induction statements generalizing session world with
  | nil => cases ran
  | cons statement statements inductionHypothesis =>
      rw [runAll] at ran
      cases first : statement.run session with
      | error text =>
          have failed := atomicExecute_of_error (known statement List.mem_cons_self)
            (Or.inr ⟨answer_of_quiet quiet, first⟩)
          exact ⟨_, _, executeAll_of_error failed⟩
      | ok next =>
          rw [first] at ran
          obtain ⟨known, later⟩ := List.forall_mem_cons.mp known
          obtain ⟨server, step⟩ := executeAll_cons_of_quiet quiet known first statements
          rw [step]
          exact @inductionHypothesis next { world with server } quiet later ran

section Quietly

variable {statements : List Statement} {database : Option String} {world : World}

theorem begins_of_quiet (quiet : Quiet world) (exist : Exists database world.server) :
    Begins database world :=
  ⟨answer_of_quiet quiet, exist, by rw [answered_of_quiet quiet, answer_of_quiet quiet]⟩

theorem standaloneExecute_of_quiet_ok {after : Session} (quiet : Quiet world)
    (exist : Exists database world.server)
    (known : ∀ statement ∈ statements, statement.isBlank = false)
    (ran : runAll statements ⟨database, world.server⟩ = .ok after) :
    standaloneExecute statements database world =
      .ok true { world with server := after.work } := by
  rw [standaloneExecute_of_begins (begins_of_quiet quiet exist), answered_of_quiet quiet,
    answered_of_quiet quiet]
  obtain ⟨server, executed⟩ := executeAll_of_quiet_ok quiet known ran
  have later : Quiet { world with server } := quiet
  rw [bind_of_ok executed, commitWork_of_done (answer_of_quiet later), answered_of_quiet later]

theorem standaloneExecute_of_quiet_error {error : String} (quiet : Quiet world)
    (known : ∀ statement ∈ statements, statement.isBlank = false)
    (ran : Exists database world.server →
      runAll statements ⟨database, world.server⟩ = .error error) :
    ∃ message after, standaloneExecute statements database world =
      .error (.exProcessing message) after := by
  by_cases exist : Exists database world.server
  · rw [standaloneExecute_of_begins (begins_of_quiet quiet exist), answered_of_quiet quiet,
      answered_of_quiet quiet]
    obtain ⟨message, after, left⟩ := executeAll_of_quiet_error quiet known (ran exist)
    exact ⟨message, after, bind_of_error left⟩
  · obtain ⟨message, after, _, left⟩ :=
      standaloneExecute_of_not_begins fun begins => exist begins.exist
    exact ⟨message, after, left statements⟩

theorem selects_of_quiet {query : Query} {rows : List Query.ResultRow} (quiet : Quiet world)
    (exist : Exists database world.server)
    (ran : query.run database world.server world.now = .ok rows) :
    Selects query database world rows :=
  ⟨answer_of_quiet quiet, exist, by rw [answered_of_quiet quiet, answer_of_quiet quiet], ran⟩

theorem queryFullResult_of_quiet {query : Query} {rows : List Query.ResultRow}
    (quiet : Quiet world) (exist : Exists database world.server)
    (ran : query.run database world.server world.now = .ok rows) :
    queryFullResult query database world =
      .ok (some (rows.map fun row => row.map fun column => column.getD "NULL")) world := by
  rw [queryFullResult_of_selects (selects_of_quiet quiet exist ran), answered_of_quiet quiet,
    answered_of_quiet quiet]

theorem queryOneRow_of_quiet {query : Query} {rows : List Query.ResultRow}
    (quiet : Quiet world) (exist : Exists database world.server)
    (ran : query.run database world.server world.now = .ok rows) :
    queryOneRow query database world =
      .ok (some (rows.flatMap fun row => row.filterMap id)) world := by
  rw [queryOneRow_of_selects (selects_of_quiet quiet exist ran), answered_of_quiet quiet,
    answered_of_quiet quiet]

theorem queryOneRow_of_quiet_failure {query : Query} (quiet : Quiet world)
    (exist : Exists database world.server)
    (failure : ∀ rows, query.run database world.server world.now ≠ .ok rows) :
    queryOneRow query database world = .ok none world := by
  rw [queryOneRow, bind_of_ok (init_of_done (answer_of_quiet quiet) exist),
    answered_of_quiet quiet,
    bind_of_ok (fetch_of_failure fun rows selected => failure rows selected.2),
    answered_of_quiet quiet]
  rfl

end Quietly

end Mysql

end OpenWorkloadScheduler.Store
