import OpenWorkloadScheduler.Store.Loading

/-!
# Statements on the rows of one schema

A transaction made of statements on rows acts on the rows of the schema in use
and on nothing else.  When no call of MySQL fails, what it does is the
composition of the changes of its statements.
-/

namespace OpenWorkloadScheduler.Store

open Rpc Foundations

/-- The statement changes rows of a table that the schema has. -/
def Statement.ChangesRows (statement : Statement) (schema : Schema) : Prop :=
  ∃ table change, statement.effect = .rows table change ∧ table ∈ schema.baseTables

theorem Statement.ChangesRows.known {statement : Statement} {schema : Schema}
    (changes : statement.ChangesRows schema) : statement.isBlank = false := by
  apply isBlank_eq_false
  rintro text rfl
  obtain ⟨table, change, effect, _⟩ := changes
  cases effect

/-- What a statement makes of the rows. -/
def Effect.changedRows : Effect → Tables → Except String Tables
  | rows _ change, tables => change tables
  | relations _, tables => .ok tables
  | connection _, tables => .ok tables

/-- What the statements make of the rows, one after the other. -/
def rowsAfter (statements : List Statement) (tables : Tables) : Except String Tables :=
  statements.foldlM (fun tables statement => statement.effect.changedRows tables) tables

theorem rowsAfter_cons (statement : Statement) (statements : List Statement)
    (tables : Tables) :
    rowsAfter (statement :: statements) tables =
      statement.effect.changedRows tables >>= rowsAfter statements :=
  rfl

theorem rowsAfter_append (statements others : List Statement) (tables : Tables) :
    rowsAfter (statements ++ others) tables =
      rowsAfter statements tables >>= rowsAfter others := by
  unfold rowsAfter
  rw [List.foldlM_append]

/-- A server on which one schema has the given rows. -/
def Server.holding (server : Server) (name : String) (schema : Schema) (tables : Tables) :
    Server :=
  server.setSchema name { schema with tables }

theorem run_of_changesRows {statement : Statement} {schema : Schema}
    (changes : statement.ChangesRows schema) (server : Server) (name : String)
    (tables : Tables) :
    statement.run ⟨some name, server.holding name schema tables⟩ =
      (statement.effect.changedRows tables).map fun changed =>
        ⟨some name, server.holding name schema changed⟩ := by
  obtain ⟨table, change, effect, present⟩ := changes
  rw [Statement.run, effect]
  simp only [Effect.run, Effect.changedRows, Session.changeTables, Server.holding,
    Server.schema?_setSchema_self, if_pos present, Server.setSchema_setSchema]

theorem runAll_of_changesRows {statements : List Statement} {schema : Schema}
    (changes : ∀ statement ∈ statements, statement.ChangesRows schema) (server : Server)
    (name : String) (tables : Tables) :
    Mysql.runAll statements ⟨some name, server.holding name schema tables⟩ =
      (rowsAfter statements tables).map fun changed =>
        ⟨some name, server.holding name schema changed⟩ := by
  induction statements generalizing tables with
  | nil => rfl
  | cons statement statements inductionHypothesis =>
      rw [Mysql.runAll, run_of_changesRows (changes statement List.mem_cons_self),
        rowsAfter_cons]
      cases statement.effect.changedRows tables with
      | error error => rfl
      | ok changed =>
          exact inductionHypothesis
            (fun other member => changes other (List.mem_cons_of_mem statement member)) changed

/-- A state in which one schema has the given rows. -/
def World.holding (world : World) (name : String) (schema : Schema) (tables : Tables) :
    World :=
  { world with server := world.server.holding name schema tables }

namespace Mysql

section Transactions

variable {statements : List Statement} {schema : Schema} {world : World}

theorem exists_holding (world : World) (name : String) (schema : Schema) (tables : Tables) :
    Exists (some name) (world.holding name schema tables).server := by
  rintro _ ⟨⟩
  rw [World.holding, Server.holding, Server.schema?_setSchema_self]
  rfl

theorem standaloneExecute_of_rowsAfter_ok (quiet : Quiet world)
    (changes : ∀ statement ∈ statements, statement.ChangesRows schema) (name : String)
    {tables changed : Tables} (ran : rowsAfter statements tables = .ok changed) :
    standaloneExecute statements (some name) (world.holding name schema tables) =
      .ok true (world.holding name schema changed) := by
  have whole := runAll_of_changesRows changes world.server name tables
  rw [ran] at whole
  have later : Quiet (world.holding name schema tables) := quiet
  exact standaloneExecute_of_quiet_ok later (exists_holding world name schema tables)
    (fun statement member => (changes statement member).known) whole

theorem raises_standaloneExecute_of_rowsAfter_error (quiet : Quiet world)
    (changes : ∀ statement ∈ statements, statement.ChangesRows schema) (name : String)
    {tables : Tables} {error : String} (ran : rowsAfter statements tables = .error error) :
    raises (standaloneExecute statements (some name)
      (world.holding name schema tables)) = true := by
  have whole := runAll_of_changesRows changes world.server name tables
  rw [ran] at whole
  have later : Quiet (world.holding name schema tables) := quiet
  obtain ⟨message, after, left⟩ := standaloneExecute_of_quiet_error later
    (fun statement member => (changes statement member).known) fun _ => whole
  rw [left]
  rfl

end Transactions

end Mysql

end OpenWorkloadScheduler.Store
