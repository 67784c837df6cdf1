import OpenWorkloadScheduler.Store.Atomicity
import OpenWorkloadScheduler.Store.JobStates
import OpenWorkloadScheduler.Store.Rows

/-!
# The schema that a transaction changes

A transaction of statements on rows changes the rows of the schema that its
connection uses, or nothing at all.
-/

namespace OpenWorkloadScheduler.Store

open Rpc Foundations

/-- Every schema but the one of the given name is as before. -/
def Server.AgreesBeside (name : String) (before after : Server) : Prop :=
  ∀ other, other ≠ name → after.schema? other = before.schema? other

instance (name : String) : IsPreorder Server (Server.AgreesBeside name) where
  refl _ _ _ := rfl
  trans _ _ _ first second other different :=
    (second other different).trans (first other different)

namespace Server

theorem agreesBeside_setSchema (server : Server) (name : String) (schema : Schema) :
    server.AgreesBeside name (server.setSchema name schema) :=
  fun _ different => schema?_setSchema_ne different

theorem AgreesBeside.tables {name other : String} {before after : Server}
    (agrees : before.AgreesBeside name after) (different : other ≠ name) :
    after.tables other = before.tables other := by
  rw [Server.tables, Server.tables, agrees other different]

end Server

/-- The statement changes rows of the schema in use, or it is no SQL at all. -/
def Statement.onRows : Statement → Bool
  | startTransaction | rollback | commit | use _ | createSchema _ | setVariable _ => false
  | createTable _ | dropView _ | dropTable _ | createView _ _ => false
  | _ => true

theorem Statement.staysOpen_of_onRows {statement : Statement}
    (onRows : statement.onRows = true) : statement.staysOpen = true := by
  cases statement with
  | startTransaction | rollback | commit => cases onRows
  | «use» name | createSchema name | setVariable assignment => cases onRows
  | createTable name | dropView name | dropTable name => cases onRows
  | createView name selected => cases onRows
  | _ => rfl

/-- The rows of one schema have gone through a change, and nothing else has. -/
structure ChangesTables (name : String) (change : Tables → Except String Tables)
    (before after : Server) : Prop where
  rows : ∃ schema tables, before.schema? name = some schema ∧
    change schema.tables = .ok tables ∧ after.schema? name = some { schema with tables }
  beside : before.AgreesBeside name after

theorem ChangesTables.of_schema? {name : String} {change : Tables → Except String Tables}
    {before after : Server} {schema : Schema} (changes : ChangesTables name change before after)
    (found : before.schema? name = some schema) :
    ∃ tables, change schema.tables = .ok tables ∧
      after.schema? name = some { schema with tables } := by
  obtain ⟨old, tables, oldFound, changed, stored⟩ := changes.rows
  rw [found, Option.some.injEq] at oldFound
  subst oldFound
  exact ⟨tables, changed, stored⟩

/-- A statement that runs changes the rows of the schema in use. -/
theorem Statement.run_of_onRows {statement : Statement} {session after : Session}
    (onRows : statement.onRows = true) (ran : statement.run session = .ok after) :
    after.database = session.database ∧
      ∃ name, session.database = some name ∧
        ChangesTables name statement.effect.changedRows session.work after.work := by
  have effect : statement.effect.run session = .ok after := ran
  have changes : (∃ table change, statement.effect = .rows table change) ∨
      statement.effect = .connection fun _ => .error syntaxError := by
    cases statement with
    | startTransaction | rollback | commit => cases onRows
    | «use» name | createSchema name | setVariable assignment => cases onRows
    | createTable name | dropView name | dropTable name => cases onRows
    | createView name selected => cases onRows
    | malformed text => exact Or.inr rfl
    | _ => exact Or.inl ⟨_, _, rfl⟩
  rcases changes with ⟨table, change, rows⟩ | failure
  · rw [rows] at effect ⊢
    obtain ⟨name, schema, tables, database, found, _, changed, rfl⟩ :=
      Session.changeTables_eq_ok_iff.mp effect
    exact ⟨rfl, name, database, ⟨schema, tables, found, changed,
      Server.schema?_setSchema_self _ _ _⟩, Server.agreesBeside_setSchema _ _ _⟩
  · rw [failure] at effect
    cases effect

/-- The connection uses no schema but the one of the name. -/
def Session.Inside (name : String) (session : Session) : Prop :=
  session.database = none ∨ session.database = some name

/-- The schema that the statement turns to, whatever is in use. -/
def Statement.turnsTo : Statement → Option String
  | «use» name | createSchema name => some name
  | _ => none

/-- The statement turns to no schema but the one of the name. -/
def Statement.StaysIn (name : String) (statement : Statement) : Prop :=
  statement.turnsTo = none ∨ statement.turnsTo = some name

theorem Statement.staysIn_of_onRows {statement : Statement} (name : String)
    (onRows : statement.onRows = true) : statement.StaysIn name := by
  cases statement with
  | «use» other | createSchema other => cases onRows
  | _ => exact Or.inl rfl

theorem Statement.eq_of_staysIn {name other : String} {statement : Statement}
    (stays : statement.StaysIn name) (turns : statement.turnsTo = some other) : other = name := by
  rcases stays with none | own
  · rw [turns] at none
    cases none
  · exact Option.some.inj (turns.symm.trans own)

theorem Session.changeSchema_eq_ok {session after : Session}
    {change : Schema → Except String Schema}
    (changed : session.changeSchema change = .ok after) :
    ∃ name schema, session.database = some name ∧
      after = { session with work := session.work.setSchema name schema } := by
  rw [changeSchema] at changed
  split at changed
  · cases changed
  · split at changed
    · cases changed
    · rename_i name database _ schema _
      cases ran : change schema with
      | error error =>
          rw [ran] at changed
          cases changed
      | ok next =>
          rw [ran] at changed
          cases changed
          exact ⟨name, next, database, rfl⟩

/-- The schema in use is set. -/
theorem Session.agreesBeside_of_set {name other : String} {session after : Session}
    {schema : Schema} (inside : session.Inside name) (database : session.database = some other)
    (same : after = { session with work := session.work.setSchema other schema }) :
    after.Inside name ∧ session.work.AgreesBeside name after.work := by
  have named : other = name := by
    rcases inside with unused | used
    · rw [database] at unused
      cases unused
    · exact Option.some.inj (database.symm.trans used)
  subst same named
  exact ⟨Or.inr database, Server.agreesBeside_setSchema _ _ _⟩

theorem Effect.agreesBeside_of_rows {name table : String}
    {change : Tables → Except String Tables} {session after : Session}
    (inside : session.Inside name) (ran : (Effect.rows table change).run session = .ok after) :
    after.Inside name ∧ session.work.AgreesBeside name after.work := by
  obtain ⟨other, schema, tables, database, _, _, _, same⟩ :=
    Session.changeTables_eq_ok_iff.mp ran
  exact Session.agreesBeside_of_set inside database same

theorem Effect.agreesBeside_of_relations {name : String} {change : Schema → Except String Schema}
    {session after : Session} (inside : session.Inside name)
    (ran : (Effect.relations change).run session = .ok after) :
    after.Inside name ∧ session.work.AgreesBeside name after.work := by
  obtain ⟨other, schema, database, same⟩ := Session.changeSchema_eq_ok ran
  exact Session.agreesBeside_of_set inside database same

theorem Server.agreesBeside_createSchemaIfNotExists (server : Server) (name : String) :
    server.AgreesBeside name (server.createSchemaIfNotExists name) := by
  rw [createSchemaIfNotExists]
  split
  · exact refl server
  · exact agreesBeside_setSchema server name {}

/-- A statement changes the schema in use, or it creates the one of the name. -/
theorem Statement.agreesBeside_of_run {name : String} {statement : Statement}
    {session after : Session} (stays : statement.StaysIn name) (inside : session.Inside name)
    (ran : statement.run session = .ok after) :
    after.Inside name ∧ session.work.AgreesBeside name after.work := by
  have effect : statement.effect.run session = .ok after := ran
  cases statement with
  | startTransaction | rollback | commit | setVariable assignment =>
      cases effect
      exact ⟨inside, refl session.work⟩
  | malformed text => cases effect
  | «use» other =>
      cases Statement.eq_of_staysIn stays rfl
      rw [Statement.effect, Effect.run] at effect
      split at effect
      · cases effect
      · split at effect
        · cases effect
        · cases effect
          exact ⟨Or.inr rfl, refl session.work⟩
  | createSchema other =>
      cases Statement.eq_of_staysIn stays rfl
      rw [Statement.effect, Effect.run] at effect
      split at effect
      · cases effect
      · cases effect
        exact ⟨inside, Server.agreesBeside_createSchemaIfNotExists _ _⟩
  | createTable other | dropView other | dropTable other | createView other selected =>
      exact Effect.agreesBeside_of_relations inside effect
  | _ => exact Effect.agreesBeside_of_rows inside effect

/-- A transaction that stays in one schema changes no other one, however it is left. -/
theorem Mysql.agreesBeside_standaloneExecute {name : String} {statements : List Statement}
    {database : Option String} (unused : database = none ∨ database = some name)
    (stays : ∀ statement ∈ statements, statement.StaysIn name) (world : World) :
    world.server.AgreesBeside name
      (finalState (standaloneExecute statements database world)).server :=
  relates_standaloneExecute_inside (fun statement member _ _ inside ran =>
    Statement.agreesBeside_of_run (stays statement member) inside ran) unused

namespace Mysql

/-- Statements on rows that run one after the other. -/
theorem changesTables_of_runAll {statements : List Statement} {session after : Session}
    {name : String} {schema : Schema} (onRows : ∀ statement ∈ statements, statement.onRows = true)
    (database : session.database = some name) (found : session.work.schema? name = some schema)
    (ran : runAll statements session = .ok after) :
    ChangesTables name (rowsAfter statements) session.work after.work := by
  induction statements generalizing session schema with
  | nil =>
      cases ran
      exact ⟨⟨schema, schema.tables, found, rfl, found⟩, fun _ _ => rfl⟩
  | cons statement statements inductionHypothesis =>
      obtain ⟨next, first, ran⟩ := runAll_cons_eq_ok_iff.mp ran
      obtain ⟨sameDatabase, other, named, changes⟩ :=
        Statement.run_of_onRows (onRows statement List.mem_cons_self) first
      rw [database, Option.some.injEq] at named
      subst named
      obtain ⟨⟨old, tables, oldFound, changed, nextFound⟩, beside⟩ := changes
      obtain ⟨⟨middle, last, middleFound, rest, lastFound⟩, later⟩ :=
        inductionHypothesis (fun other member => onRows other (List.mem_cons_of_mem _ member))
          (sameDatabase.trans database) nextFound ran
      rw [nextFound, Option.some.injEq] at middleFound
      subst middleFound
      refine ⟨⟨old, last, oldFound, ?_, lastFound⟩, IsTrans.trans _ _ _ beside later⟩
      rw [rowsAfter_cons, changed]
      exact rest

/-- Statements on rows that run find their tables. -/
theorem baseTables_of_runAll {statements : List Statement} {session after : Session}
    {name : String} {schema : Schema} (onRows : ∀ statement ∈ statements, statement.onRows = true)
    (database : session.database = some name) (found : session.work.schema? name = some schema)
    (ran : runAll statements session = .ok after) {statement : Statement}
    (member : statement ∈ statements) {table : String} {change : Tables → Except String Tables}
    (effect : statement.effect = .rows table change) : table ∈ schema.baseTables := by
  induction statements generalizing session schema with
  | nil => cases member
  | cons head statements inductionHypothesis =>
      obtain ⟨next, first, ran⟩ := runAll_cons_eq_ok_iff.mp ran
      rcases List.mem_cons.mp member with rfl | later
      · rw [Statement.run, effect, Effect.run] at first
        obtain ⟨other, same, _, named, sameFound, present, _, _⟩ :=
          Session.changeTables_eq_ok_iff.mp first
        rw [database, Option.some.injEq] at named
        subst named
        rw [found, Option.some.injEq] at sameFound
        subst sameFound
        exact present
      · obtain ⟨sameDatabase, other, named, changes⟩ :=
          Statement.run_of_onRows (onRows head List.mem_cons_self) first
        rw [database, Option.some.injEq] at named
        subst named
        obtain ⟨⟨old, tables, oldFound, _, nextFound⟩, _⟩ := changes
        rw [found, Option.some.injEq] at oldFound
        subst oldFound
        have present : table ∈ ({ schema with tables } : Schema).baseTables :=
          inductionHypothesis
            (fun other member => onRows other (List.mem_cons_of_mem _ member))
            (sameDatabase.trans database) nextFound ran later
        exact present

/-- Changes of the rows of a schema that exists run one after the other. -/
theorem runAll_of_rowsAfter {statements : List Statement} {server : Server} {name : String}
    {schema : Schema} {tables : Tables} (found : server.schema? name = some schema)
    (changes : ∀ statement ∈ statements, statement.ChangesRows schema)
    (ran : rowsAfter statements schema.tables = .ok tables) :
    ∃ session, runAll statements ⟨some name, server⟩ = .ok session := by
  cases statements with
  | nil => exact ⟨_, rfl⟩
  | cons statement statements =>
      obtain ⟨table, change, effect, present⟩ := changes statement List.mem_cons_self
      rw [rowsAfter_cons, effect, Effect.changedRows] at ran
      obtain ⟨middle, first, rest⟩ := except_bind_eq_ok_iff.mp ran
      have stepped : statement.run ⟨some name, server⟩ =
          .ok ⟨some name, server.holding name schema middle⟩ := by
        rw [Statement.run, effect, Effect.run, Session.changeTables_eq_ok_iff]
        exact ⟨name, schema, middle, rfl, found, present, first, rfl⟩
      have later := runAll_of_changesRows
        (fun other member => changes other (List.mem_cons_of_mem statement member))
        server name middle
      rw [rest] at later
      rw [runAll, stepped]
      exact ⟨_, later⟩

/-- A transaction on the rows of a schema that returned `true` has changed them by
all of its statements. -/
theorem changesTables_of_standaloneExecute {statements : List Statement} {name : String}
    {world after : World} (onRows : ∀ statement ∈ statements, statement.onRows = true)
    (ran : standaloneExecute statements (some name) world = .ok true after) :
    ChangesTables name (rowsAfter statements) world.server after.server := by
  obtain ⟨session, all, work⟩ := runAll_of_standaloneExecute ran
  have exist : Exists (some name) world.server := by
    by_cases begins : Begins (some name) world
    · exact begins.exist
    · obtain ⟨message, left, _, raised⟩ := standaloneExecute_of_not_begins begins
      rw [raised] at ran
      cases ran
  obtain ⟨schema, found⟩ := Option.isSome_iff_exists.mp (exist name rfl)
  rw [work]
  exact changesTables_of_runAll onRows rfl found all

/-- Any other exit has changed nothing. -/
theorem server_standaloneExecute_of_onRows {statements : List Statement} {name : String}
    {world : World} (onRows : ∀ statement ∈ statements, statement.onRows = true)
    (failure : ∀ after, standaloneExecute statements (some name) world ≠ .ok true after) :
    (finalState (standaloneExecute statements (some name) world)).server = world.server :=
  server_standaloneExecute_of_not_true
    (fun statement member => Statement.staysOpen_of_onRows (onRows statement member)) failure

theorem server_standaloneExecute_nil (database : Option String) (world : World) :
    (finalState (standaloneExecute [] database world)).server = world.server := by
  by_cases executed : ∃ after, standaloneExecute [] database world = .ok true after
  · obtain ⟨after, ran⟩ := executed
    obtain ⟨session, all, work⟩ := runAll_of_standaloneExecute ran
    cases all
    rw [ran]
    exact work
  · exact server_standaloneExecute_of_not_true (fun _ member => by cases member)
      (not_exists.mp executed)

theorem runAll_ne_ok_of_malformed {statements : List Statement} {text : String}
    (member : .malformed text ∈ statements) (session after : Session) :
    runAll statements session ≠ .ok after := by
  induction statements generalizing session with
  | nil => cases member
  | cons statement statements inductionHypothesis =>
      intro ran
      obtain ⟨next, first, rest⟩ := runAll_cons_eq_ok_iff.mp ran
      rcases List.mem_cons.mp member with rfl | later
      · cases first
      · exact inductionHypothesis later next rest

end Mysql

end OpenWorkloadScheduler.Store
