import OpenWorkloadScheduler.Store.Transactions

/-!
# Loading the skeleton

What `init_domain_structure` leaves on the server: a schema with every table and
view of the skeleton file, or no schema, or what the statements before a failure
have made of it.
-/

namespace OpenWorkloadScheduler.Store

open Rpc Foundations

/-- The schema has every table and every view of the skeleton. -/
structure Schema.Complete (schema : Schema) : Prop where
  baseTables : ∀ name ∈ skeletonBaseTables, name ∈ schema.baseTables
  views : ∀ name ∈ skeletonViews, name ∈ schema.views

/-- The schema is complete, and the server reads the names as they are meant and tells them
from those in the tables. -/
structure Schema.Legible (names : List String) (schema : Schema) : Prop where
  complete : schema.Complete
  plain : Plain (names ++ schema.tables.names)

/-- A schema that holds the skeleton and no row. -/
def emptySkeleton : Schema where
  baseTables := skeletonBaseTables
  views := skeletonViews

theorem complete_emptySkeleton : emptySkeleton.Complete :=
  ⟨fun _ member => member, fun _ member => member⟩

theorem Schema.Complete.withTables {schema : Schema} (complete : schema.Complete)
    (tables : Tables) : Schema.Complete { schema with tables } :=
  ⟨complete.baseTables, complete.views⟩

namespace Server

@[simp]
theorem setSchema_setSchema (server : Server) (name : String) (first second : Schema) :
    (server.setSchema name first).setSchema name second = server.setSchema name second :=
  congrArg Server.mk (AList.insert_insert server.schemas)

end Server

/-! ## Statements on one schema -/

/-- What a statement of the skeleton file makes of the schema in use. -/
def Effect.changed : Effect → Schema → Except String Schema
  | rows _ _, _ => .error syntaxError
  | relations change, schema => change schema
  | connection _, schema => .ok schema

/-- The statements of the skeleton file and no others. -/
def Statement.isSkeletal : Statement → Bool
  | setVariable _ | createTable _ | dropView _ | dropTable _ | createView _ _ => true
  | _ => false

/-- The schema after all the statements. -/
def changedByAll : List Statement → Schema → Except String Schema
  | [], schema => .ok schema
  | statement :: statements, schema =>
      match statement.effect.changed schema with
      | .ok changed => changedByAll statements changed
      | .error error => .error error

theorem run_of_changed {statement : Statement} (skeletal : statement.isSkeletal = true)
    {server : Server} {name : String} {schema changed : Schema}
    (changes : statement.effect.changed schema = .ok changed) :
    statement.run ⟨some name, server.setSchema name schema⟩ =
      .ok ⟨some name, server.setSchema name changed⟩ := by
  have relations : ∀ change : Schema → Except String Schema, change schema = .ok changed →
      (Effect.relations change).run ⟨some name, server.setSchema name schema⟩ =
        .ok ⟨some name, server.setSchema name changed⟩ := by
    intro change result
    simp [Effect.run, Session.changeSchema, result, Except.map]
  cases statement with
  | setVariable assignment =>
      cases changes
      rfl
  | createTable table | dropView table | dropTable table | createView view selected =>
      exact relations _ changes
  | _ => cases skeletal

theorem runAll_of_changedByAll {statements : List Statement}
    (skeletal : ∀ statement ∈ statements, statement.isSkeletal = true) {server : Server}
    {name : String} {schema changed : Schema}
    (changes : changedByAll statements schema = .ok changed) :
    Mysql.runAll statements ⟨some name, server.setSchema name schema⟩ =
      .ok ⟨some name, server.setSchema name changed⟩ := by
  induction statements generalizing schema with
  | nil =>
      cases changes
      rfl
  | cons statement statements inductionHypothesis =>
      rw [changedByAll] at changes
      cases first : statement.effect.changed schema with
      | error error =>
          rw [first] at changes
          cases changes
      | ok between =>
          rw [first] at changes
          rw [Mysql.runAll, run_of_changed (skeletal statement List.mem_cons_self) first]
          exact inductionHypothesis
            (fun other member => skeletal other (List.mem_cons_of_mem statement member)) changes

/-- The statements of the skeleton file build it in an empty schema. -/
theorem changedByAll_skeletonStatements :
    changedByAll skeletonStatements {} = .ok emptySkeleton := by
  rfl

theorem isSkeletal_skeletonStatements :
    ∀ statement ∈ skeletonStatements, statement.isSkeletal = true := by
  have skeletal : skeletonStatements.all Statement.isSkeletal = true := by
    rfl
  exact List.all_eq_true.mp skeletal

/-! ## Loading without failures -/

/-- The name, read as a pattern, matches the name of a schema. -/
def Server.LikeClash (server : Server) (name : String) : Prop :=
  ∃ other ∈ server.schemas.keys, likeMatch name.toList other.toList = true

instance (server : Server) (name : String) : Decidable (server.LikeClash name) :=
  inferInstanceAs (Decidable (∃ other ∈ server.schemas.keys, _))

namespace Mysql

variable {world : World} {name : String}

theorem exists_none (server : Server) : Exists none server := by
  rintro _ ⟨⟩

theorem known_skeletonStatements :
    ∀ statement ∈ skeletonStatements, statement.isBlank = false := by
  intro statement member
  apply Statement.isBlank_eq_false
  rintro text rfl
  exact nomatch isSkeletal_skeletonStatements _ member

theorem known_createSchema (name : String) :
    ∀ statement ∈ [Statement.createSchema name], statement.isBlank = false :=
  List.forall_mem_singleton.mpr (Statement.isBlank_eq_false nofun)

theorem known_loadedStatements (name : String) :
    ∀ statement ∈ .use name :: skeletonStatements, statement.isBlank = false :=
  List.forall_mem_cons.mpr ⟨Statement.isBlank_eq_false nofun, known_skeletonStatements⟩

theorem loadFile_of_quiet {server : Server} (quiet : Quiet world)
    (opened : world.skeletonFile = true) (identifier : isIdentifier name = true)
    (created : world.server = server.setSchema name {}) :
    loadFile name world =
      .ok true { world with server := server.setSchema name emptySkeleton } := by
  have used : (Statement.use name).run ⟨none, world.server⟩ =
      .ok ⟨some name, server.setSchema name {}⟩ := by
    simp [Statement.run, Statement.effect, Effect.run, identifier, created]
  have ran : runAll (.use name :: skeletonStatements) ⟨none, world.server⟩ =
      .ok ⟨some name, server.setSchema name emptySkeleton⟩ := by
    rw [runAll, used]
    exact runAll_of_changedByAll isSkeletal_skeletonStatements changedByAll_skeletonStatements
  rw [loadFile, bind_get, if_pos opened]
  exact standaloneExecute_of_quiet_ok quiet (exists_none _) (known_loadedStatements name) ran

theorem showDatabasesLike_of_quiet (quiet : Quiet world) :
    queryOneRow (.showDatabasesLike name) none world =
      .ok (some (world.server.schemas.keys.filter fun other =>
        likeMatch name.toList other.toList)) world := by
  rw [queryOneRow_of_quiet quiet (exists_none _) rfl, List.flatMap_map]
  simp

/-- A schema whose name the pattern matches is taken for the one asked for. -/
theorem initDomainStructure_of_clash (quiet : Quiet world)
    (clash : world.server.LikeClash name) :
    initDomainStructure name world = .ok true world := by
  obtain ⟨other, member, matched⟩ := clash
  have found : other ∈ world.server.schemas.keys.filter fun other =>
      likeMatch name.toList other.toList :=
    List.mem_filter.mpr ⟨member, matched⟩
  have some : (world.server.schemas.keys.filter fun other =>
      likeMatch name.toList other.toList).length ≠ 0 := by
    rw [List.length_eq_zero_iff.ne]
    exact List.ne_nil_of_mem found
  rw [initDomainStructure, bind_of_ok (showDatabasesLike_of_quiet quiet)]
  dsimp only
  rw [if_pos some]
  rfl

theorem length_likeMatches (clear : ¬ world.server.LikeClash name) :
    ¬ (world.server.schemas.keys.filter fun other =>
      likeMatch name.toList other.toList).length ≠ 0 := by
  rw [List.length_eq_zero_iff.ne, not_not, List.filter_eq_nil_iff]
  intro other member matched
  exact clear ⟨other, member, matched⟩

/-- Where no name matches the pattern, the schema is created and the skeleton loaded. -/
theorem initDomainStructure_of_clear {rows : List Query.ResultRow}
    (selects : Selects (.showDatabasesLike name) none world rows)
    (clear : ¬ world.server.LikeClash name) :
    initDomainStructure name world =
      (do
        if ← standaloneExecute [.createSchema name] none then loadFile name
        else throw (.exProcessing "Cannot execute the queries") : Action Bool)
          world.answered.answered := by
  have rowsEq := selects.ran
  rw [Query.run, Except.ok.injEq] at rowsEq
  have unmatched := length_likeMatches clear
  rw [initDomainStructure, bind_of_ok (queryOneRow_of_selects selects), ← rowsEq,
    List.flatMap_map]
  dsimp only
  rw [if_neg (by simpa using unmatched)]

theorem initDomainStructure_of_quiet_clear (quiet : Quiet world)
    (clear : ¬ world.server.LikeClash name) :
    initDomainStructure name world =
      (do
        if ← standaloneExecute [.createSchema name] none then loadFile name
        else throw (.exProcessing "Cannot execute the queries") : Action Bool) world := by
  have selects := selects_of_quiet quiet (exists_none _)
    (rfl : (Query.showDatabasesLike name).run none world.server world.now = .ok _)
  rw [initDomainStructure_of_clear selects clear, answered_of_quiet quiet,
    answered_of_quiet quiet]

theorem createSchema_of_quiet (quiet : Quiet world)
    (absent : world.server.schema? name = none) (identifier : isIdentifier name = true) :
    standaloneExecute [.createSchema name] none world =
      .ok true { world with server := world.server.setSchema name {} } := by
  have ran : runAll [.createSchema name] ⟨none, world.server⟩ =
      .ok ⟨none, world.server.setSchema name {}⟩ := by
    simp [runAll, Statement.run, Statement.effect, Effect.run, identifier,
      Server.createSchemaIfNotExists, absent]
  exact standaloneExecute_of_quiet_ok quiet (exists_none _) (known_createSchema name) ran

theorem initDomainStructure_of_quiet (quiet : Quiet world)
    (opened : world.skeletonFile = true) (absent : world.server.schema? name = none)
    (clear : ¬ world.server.LikeClash name) (identifier : isIdentifier name = true) :
    initDomainStructure name world =
      .ok true { world with server := world.server.setSchema name emptySkeleton } := by
  rw [initDomainStructure_of_quiet_clear quiet clear,
    bind_of_ok (createSchema_of_quiet quiet absent identifier)]
  exact @loadFile_of_quiet { world with server := world.server.setSchema name {} } name
    world.server quiet opened identifier rfl

theorem initDomainStructure_of_quiet_error (quiet : Quiet world)
    (clear : ¬ world.server.LikeClash name) (refused : isIdentifier name = false) :
    ∃ message after, initDomainStructure name world = .error (.exProcessing message) after := by
  have ran : runAll [.createSchema name] ⟨none, world.server⟩ = .error syntaxError := by
    simp [runAll, Statement.run, Statement.effect, Effect.run, refused]
  obtain ⟨message, after, left⟩ :=
    standaloneExecute_of_quiet_error quiet (known_createSchema name) fun _ => ran
  rw [initDomainStructure_of_quiet_clear quiet clear, bind_of_error left]
  exact ⟨message, after, rfl⟩

/-- A skeleton file that cannot be opened leaves a schema without tables. -/
theorem initDomainStructure_of_closed (quiet : Quiet world)
    (closed : world.skeletonFile = false) (absent : world.server.schema? name = none)
    (clear : ¬ world.server.LikeClash name) (identifier : isIdentifier name = true) :
    initDomainStructure name world =
      .ok false { world with server := world.server.setSchema name {} } := by
  rw [initDomainStructure_of_quiet_clear quiet clear,
    bind_of_ok (createSchema_of_quiet quiet absent identifier), if_pos rfl,
    loadFile, bind_get]
  simp only [closed, Bool.false_eq_true, if_false]
  rfl

/-! ## Failures before the schema is created -/

/-- The computation is left with the server as it was, by an exception that the
callers catch or with a result that they take for one. -/
def Stops {Alpha : Type} (action : Action Alpha) (refused : Alpha) (world : World) : Prop :=
  ∃ after, Frame world after ∧ after.server = world.server ∧
    (action world = .ok refused after ∨
      ∃ message, action world = .error (.exProcessing message) after)

theorem stops_standaloneExecute_createSchema
    (stop : world.answer ≠ .done ∨ world.answered.answer ≠ .done ∨
      world.answered.answered.answer ≠ .done ∨ isIdentifier name = false) :
    Stops (standaloneExecute [.createSchema name] none) false world := by
  by_cases begins : Begins none world
  · have text : (Statement.createSchema name).isBlank = false :=
      Statement.isBlank_eq_false nofun
    unfold Stops
    rw [standaloneExecute_of_begins begins]
    cases answer : world.answered.answered.answer with
    | refused =>
        have rolled : executeAll [.createSchema name] ⟨none, world.server⟩
            world.answered.answered =
              rollbackWork ⟨none, world.server⟩ world.answered.answered.answered :=
          executeAll_of_refused (atomicExecute_of_refused text answer)
        refine ⟨world.answered.answered.answered.answered, ⟨rfl, rfl, rfl, rfl, rfl⟩, rfl, ?_⟩
        by_cases failed : ∃ error, world.answered.answered.answered.answer = .failed error
        · obtain ⟨error, failed⟩ := failed
          exact Or.inr ⟨_, bind_of_error (rolled.trans (rollbackWork_of_failed failed))⟩
        · exact Or.inl (bind_of_ok (rolled.trans
            (rollbackWork_of_answer fun error same => failed ⟨error, same⟩)))
    | failed error =>
        have left : (executeAll [.createSchema name] ⟨none, world.server⟩ >>= commitWork)
            world.answered.answered =
              .error (queryError (.createSchema name) error) world.answered.answered.answered :=
          bind_of_error (executeAll_of_error (atomicExecute_of_error text (Or.inl answer)))
        exact ⟨world.answered.answered.answered, ⟨rfl, rfl, rfl, rfl, rfl⟩, rfl,
          Or.inr ⟨_, left⟩⟩
    | done =>
        have refused : isIdentifier name = false := by
          rcases stop with connected | started | executed | refused
          · exact absurd begins.connected connected
          · exact absurd begins.started started
          · exact absurd answer executed
          · exact refused
        have ran : (Statement.createSchema name).run ⟨none, world.server⟩ =
            .error syntaxError := by
          simp [Statement.run, Statement.effect, Effect.run, refused]
        have left : (executeAll [.createSchema name] ⟨none, world.server⟩ >>= commitWork)
            world.answered.answered =
              .error (queryError (.createSchema name) syntaxError)
                world.answered.answered.answered :=
          bind_of_error (executeAll_of_error
            (atomicExecute_of_error text (Or.inr ⟨answer, ran⟩)))
        exact ⟨world.answered.answered.answered, ⟨rfl, rfl, rfl, rfl, rfl⟩, rfl,
          Or.inr ⟨_, left⟩⟩
  · obtain ⟨message, after, readOnly, left⟩ := standaloneExecute_of_not_begins begins
    exact ⟨after, readOnly.frame, readOnly.server, Or.inr ⟨message, left _⟩⟩

/-- One of the coming answers of MySQL, up to the given number, is not `done`. -/
def StopsWithin (number : Nat) (answers : List Answer) : Prop :=
  ∃ index < number, answers.getD index .done ≠ .done

instance (number : Nat) (answers : List Answer) : Decidable (StopsWithin number answers) :=
  inferInstanceAs (Decidable (∃ index < number, _))

theorem stopsWithin_add (first second : Nat) (answers : List Answer) :
    StopsWithin (first + second) answers ↔
      StopsWithin first answers ∨ StopsWithin second (answers.drop first) := by
  constructor
  · rintro ⟨index, bounded, notDone⟩
    by_cases early : index < first
    · exact Or.inl ⟨index, early, notDone⟩
    · refine Or.inr ⟨index - first, by omega, ?_⟩
      rw [List.getD_eq_getElem?_getD, List.getElem?_drop, ← List.getD_eq_getElem?_getD,
        Nat.add_sub_cancel' (Nat.le_of_not_lt early)]
      exact notDone
  · rintro (⟨index, bounded, notDone⟩ | ⟨index, bounded, notDone⟩)
    · exact ⟨index, by omega, notDone⟩
    · refine ⟨first + index, by omega, ?_⟩
      rwa [List.getD_eq_getElem?_getD, List.getElem?_drop, ← List.getD_eq_getElem?_getD]
        at notDone

theorem stopsWithin_one (world : World) :
    StopsWithin 1 world.answers ↔ world.answer ≠ .done := by
  rw [World.answer, List.headD_eq_head?_getD, List.head?_eq_getElem?,
    ← List.getD_eq_getElem?_getD]
  constructor
  · rintro ⟨index, bounded, notDone⟩
    rwa [Nat.lt_one_iff.mp bounded] at notDone
  · intro notDone
    exact ⟨0, Nat.one_pos, notDone⟩

theorem not_stopsWithin_two {world : World} (first : world.answer = .done)
    (second : world.answered.answer = .done) : ¬ StopsWithin 2 world.answers := by
  rw [show 2 = 1 + 1 from rfl, stopsWithin_add, List.drop_one]
  refine not_or.mpr ⟨fun stops => (stopsWithin_one world).mp stops first, ?_⟩
  exact fun stops => (stopsWithin_one world.answered).mp stops second

theorem done_of_not_stopsWithin_two {world : World} (goes : ¬ StopsWithin 2 world.answers) :
    world.answer = .done ∧ world.answered.answer = .done := by
  rw [show 2 = 1 + 1 from rfl, stopsWithin_add, List.drop_one, not_or] at goes
  have first := not_not.mp (mt (stopsWithin_one world).mpr goes.1)
  exact ⟨first, not_not.mp (mt (stopsWithin_one world.answered).mpr goes.2)⟩

theorem answers_answered_answered (world : World) :
    world.answered.answered.answers = world.answers.drop 2 := by
  rw [World.answered, World.answered, ← List.drop_one, ← List.drop_one, List.drop_drop]

theorem StopsWithin.rest {number : Nat} {world : World}
    (stops : StopsWithin (number + 1) world.answers) (done : world.answer = .done) :
    StopsWithin number world.answered.answers := by
  rw [Nat.add_comm, stopsWithin_add, List.drop_one] at stops
  exact stops.resolve_left fun first => (stopsWithin_one world).mp first done

theorem StopsWithin.early (stops : StopsWithin 3 world.answers) :
    world.answer ≠ .done ∨ world.answered.answer ≠ .done ∨
      world.answered.answered.answer ≠ .done := by
  by_contra done
  simp only [not_or, not_not] at done
  obtain ⟨first, second, third⟩ := done
  obtain ⟨index, bounded, _⟩ := ((stops.rest first).rest second).rest third
  omega

/-- A preparation that fails before the schema is created leaves no schema. -/
theorem stops_initDomainStructure
    (stop : StopsWithin 2 world.answers ∨ ¬ world.server.LikeClash name ∧
      (StopsWithin 5 world.answers ∨ isIdentifier name = false)) :
    ∃ after, Frame world after ∧ after.server = world.server ∧
      ∃ message, initDomainStructure name world = .error (.exProcessing message) after := by
  rcases queryOneRow_cases (.showDatabasesLike name) none world with
    ⟨rows, selects⟩ | ⟨after, readOnly, refused | ⟨message, left⟩⟩
  · obtain ⟨clear, stop⟩ :=
      stop.resolve_left (not_stopsWithin_two selects.connected selects.answered)
    have stopAfter : world.answered.answered.answer ≠ .done ∨
        world.answered.answered.answered.answer ≠ .done ∨
          world.answered.answered.answered.answered.answer ≠ .done ∨
            isIdentifier name = false := by
      rcases stop with stops | refused
      · rcases ((stops.rest selects.connected).rest selects.answered).early with
          first | second | third
        · exact Or.inl first
        · exact Or.inr (Or.inl second)
        · exact Or.inr (Or.inr (Or.inl third))
      · exact Or.inr (Or.inr (Or.inr refused))
    obtain ⟨after, frame, server, left⟩ := stops_standaloneExecute_createSchema stopAfter
    have entered := initDomainStructure_of_clear selects clear
    refine ⟨after, ⟨frame.skeletonFile, frame.updatesMutex, frame.planningStartTime, frame.clock,
      frame.utcOffset⟩, server, ?_⟩
    rcases left with refused | ⟨message, left⟩
    · exact ⟨_, entered.trans (bind_of_ok refused)⟩
    · exact ⟨_, entered.trans (bind_of_error left)⟩
  · exact ⟨after, readOnly.frame, readOnly.server, _, by
      rw [initDomainStructure, bind_of_ok refused]
      rfl⟩
  · exact ⟨after, readOnly.frame, readOnly.server, message, by
      rw [initDomainStructure, bind_of_error left]⟩

end Mysql

end OpenWorkloadScheduler.Store
