import OpenWorkloadScheduler.Store.Transactions

/-!
# The states of the jobs over time

Apart from `DELETE` and `REPLACE`, the statements of the program keep the rows of
`job`, and no job that has left the state `waiting` comes back to it.
-/

namespace OpenWorkloadScheduler.Store

open Rpc Foundations

/-! ## One schema -/

namespace Tables

/-- A job of the given name is in state `waiting`. -/
def Waits (tables : Tables) (name : String) : Prop :=
  ∃ row ∈ tables.job, row.jobName = name ∧ row.jobState = some .waiting

instance (tables : Tables) (name : String) : Decidable (tables.Waits name) :=
  inferInstanceAs (Decidable (∃ row ∈ tables.job, _))

/-- The jobs stay, none of them begins to wait, and their key is kept. -/
structure Advances (before after : Tables) : Prop where
  stays : ∀ name, before.hasJob name → after.hasJob name
  settled : ∀ name, before.hasJob name → after.Waits name → before.Waits name
  key : (before.job.map JobRow.jobName).Nodup → (after.job.map JobRow.jobName).Nodup

theorem Advances.of_job_eq {before after : Tables} (same : after.job = before.job) :
    Advances before after := by
  constructor
  · intro name present
    rwa [hasJob, same]
  · intro name _ waits
    rwa [Waits, same] at waits
  · intro nodup
    rwa [same]

instance : IsPreorder Tables Advances where
  refl _ := .of_job_eq rfl
  trans _ _ _ first second :=
    { stays := fun name present => second.stays name (first.stays name present)
      settled := fun name present waits =>
        first.settled name present (second.settled name (first.stays name present) waits)
      key := fun nodup => second.key (first.key nodup) }

theorem advances_insertJob {before after : Tables} {row : JobRow}
    (inserted : before.insertJob row = .ok after) : Advances before after := by
  rw [insertJob] at inserted
  split at inserted
  · cases inserted
  · rename_i absent
    split at inserted
    · cases inserted
    · cases inserted
      constructor
      · intro name present
        rw [hasJob, List.map_append]
        exact List.mem_append_left _ present
      · rintro name present ⟨other, member, sameName, waiting⟩
        rcases List.mem_append.mp member with member | member
        · exact ⟨other, member, sameName, waiting⟩
        · cases List.mem_singleton.mp member
          rw [← sameName] at present
          exact absurd present absent
      · intro nodup
        rw [List.map_append]
        refine nodup.append (List.nodup_singleton _) fun name member same => ?_
        cases List.mem_singleton.mp same
        exact absent member

/-- What the update leaves of each row stays. -/
theorem map_updateJob {Value : Type} {f : JobRow → Value} {tables : Tables} {name : String}
    {update : JobRow → JobRow} (kept : ∀ row, f (update row) = f row) :
    (tables.updateJob name update).job.map f = tables.job.map f := by
  rw [updateJob, List.map_map]
  refine List.map_congr_left fun row _ => ?_
  dsimp only [Function.comp_apply]
  split
  · exact kept row
  · rfl

/-- A row of the updated table comes from a row of the same name; that of the
updated name has the new state. -/
theorem mem_updateJob {tables : Tables} {name : String} {update : JobRow → JobRow}
    {row : JobRow} (named : ∀ row, (update row).jobName = row.jobName) :
    row ∈ (tables.updateJob name update).job ↔
      ∃ old ∈ tables.job, old.jobName = row.jobName ∧
        row = if row.jobName = name then update old else old := by
  rw [updateJob, List.mem_map]
  constructor
  · rintro ⟨old, member, rfl⟩
    refine ⟨old, member, ?_⟩
    by_cases updated : old.jobName = name
    · simp [updated, named]
    · simp [updated]
  · rintro ⟨old, member, sameName, equality⟩
    exact ⟨old, member, by rw [sameName, ← equality]⟩

/-- An update leaves the rows of the other jobs. -/
theorem mem_updateJob_of_ne {tables : Tables} {name : String} {update : JobRow → JobRow}
    {row : JobRow} (named : ∀ row, (update row).jobName = row.jobName)
    (different : row.jobName ≠ name) :
    row ∈ (tables.updateJob name update).job ↔ row ∈ tables.job := by
  rw [mem_updateJob named]
  constructor
  · rintro ⟨old, member, _, equality⟩
    rw [if_neg different] at equality
    rwa [equality]
  · intro member
    exact ⟨row, member, rfl, by rw [if_neg different]⟩

theorem advances_updateJob {tables : Tables} {name : String} {update : JobRow → JobRow}
    (named : ∀ row, (update row).jobName = row.jobName)
    (leaves : ∀ row, (update row).jobState ≠ some .waiting) :
    Advances tables (tables.updateJob name update) := by
  constructor
  · intro other present
    rwa [hasJob, map_updateJob (f := JobRow.jobName) named]
  · rintro other _ ⟨row, member, sameName, waiting⟩
    obtain ⟨old, oldMember, oldName, equality⟩ := (mem_updateJob named).mp member
    split at equality
    · rw [equality] at waiting
      exact absurd waiting (leaves old)
    · cases equality
      exact ⟨row, oldMember, sameName, waiting⟩
  · intro nodup
    rwa [map_updateJob (f := JobRow.jobName) named]

end Tables

/-! ## The statements -/

/-- The statement removes no job and makes none wait that is there. -/
def Statement.settles : Statement → Bool
  | deleteJob _ => false
  | replaceJob _ _ _ _ => false
  | updateJobState _ state => state ≠ .waiting
  | updateJobStateTimes _ state _ _ => state ≠ .waiting
  | updateJobsWhere _ _ _ _ => false
  | _ => true

namespace Server

@[simp]
theorem tables_setSchema_self (server : Server) (name : String) (schema : Schema) :
    (server.setSchema name schema).tables name = schema.tables := by
  rw [tables, schema?_setSchema_self]
  rfl

@[simp]
theorem tables_setSchema_ne {server : Server} {name other : String} {schema : Schema}
    (different : other ≠ name) :
    (server.setSchema name schema).tables other = server.tables other := by
  rw [tables, schema?_setSchema_ne different]
  rfl

theorem tables_of_schema? {server : Server} {name : String} {schema : Schema}
    (found : server.schema? name = some schema) : server.tables name = schema.tables := by
  rw [tables, found]
  rfl

theorem tables_createSchemaIfNotExists (server : Server) (name other : String) :
    (server.createSchemaIfNotExists name).tables other = server.tables other := by
  rw [createSchemaIfNotExists]
  split
  · rfl
  · rename_i absent
    by_cases same : other = name
    · have none : server.schema? name = none := by simpa using absent
      rw [same, tables_setSchema_self, tables, none]
      rfl
    · rw [tables_setSchema_ne same]

/-- In every schema the jobs stay, and none of them begins to wait. -/
def Advances (before after : Server) : Prop :=
  ∀ planning, (before.tables planning).Advances (after.tables planning)

instance : IsPreorder Server Advances where
  refl server planning := refl (server.tables planning)
  trans _ _ _ first second planning := IsTrans.trans _ _ _ (first planning) (second planning)

theorem Advances.of_tables_eq {before after : Server}
    (same : ∀ planning, after.tables planning = before.tables planning) :
    Advances before after := fun planning => .of_job_eq (by rw [same planning])

theorem advances_setSchema {server : Server} {name : String} {schema after : Schema}
    (found : server.schema? name = some schema)
    (advances : schema.tables.Advances after.tables) :
    Advances server (server.setSchema name after) := by
  intro planning
  by_cases same : planning = name
  · rw [same, tables_setSchema_self, tables_of_schema? found]
    exact advances
  · rw [tables_setSchema_ne same]
    exact refl (server.tables planning)

end Server

/-- What `changeTables` returns is the change of the schema in use. -/
theorem Session.changeTables_eq_ok_iff {session after : Session} {table : String}
    {change : Tables → Except String Tables} :
    session.changeTables table change = .ok after ↔
      ∃ name schema tables, session.database = some name ∧
        session.work.schema? name = some schema ∧ table ∈ schema.baseTables ∧
        change schema.tables = .ok tables ∧
        after = { session with work := session.work.setSchema name { schema with tables } } := by
  constructor
  · intro changed
    rw [Session.changeTables] at changed
    split at changed
    · cases changed
    · rename_i name database
      split at changed
      · cases changed
      · rename_i schema found
        split at changed
        · rename_i exist
          cases ran : change schema.tables with
          | error error =>
              rw [ran] at changed
              cases changed
          | ok tables =>
              rw [ran] at changed
              cases changed
              exact ⟨name, schema, tables, database, found, exist, ran, rfl⟩
        · cases changed
  · rintro ⟨name, schema, tables, database, found, exist, ran, rfl⟩
    rw [Session.changeTables, database]
    dsimp only
    rw [found]
    dsimp only
    rw [if_pos exist, ran]
    rfl

namespace Effect

/-- What each effect may do to the rows of `job`. -/
def Settles : Effect → Prop
  | .rows _ change => ∀ before after, change before = .ok after → before.Advances after
  | .relations change =>
      ∀ before after, change before = .ok after → after.tables = before.tables
  | .connection change =>
      ∀ before after, change before = .ok after →
        ∀ planning, after.work.tables planning = before.work.tables planning

theorem Settles.advances {effect : Effect} (settles : effect.Settles) {session after : Session}
    (ran : effect.run session = .ok after) : session.work.Advances after.work := by
  cases effect with
  | rows table change =>
      obtain ⟨name, schema, tables, _, found, _, changed, rfl⟩ :=
        Session.changeTables_eq_ok_iff.mp ran
      exact Server.advances_setSchema found (settles _ _ changed)
  | relations change =>
      rw [run, Session.changeSchema] at ran
      split at ran
      · cases ran
      · split at ran
        · cases ran
        · rename_i schema found
          cases changed : change schema with
          | error error =>
              rw [changed] at ran
              cases ran
          | ok next =>
              rw [changed] at ran
              cases ran
              exact Server.advances_setSchema found
                (.of_job_eq (by rw [settles _ _ changed]))
  | connection change => exact .of_tables_eq (settles _ _ ran)

/-- A change that leaves the table `job` alone. -/
theorem settles_of_job_eq {table : String} {change : Tables → Except String Tables}
    (same : ∀ before after, change before = .ok after → after.job = before.job) :
    (Effect.rows table change).Settles :=
  fun before after changed => .of_job_eq (same before after changed)

end Effect

namespace Tables

theorem job_insertIgnoreNode (tables : Tables) (row : NodeRow) :
    (tables.insertIgnoreNode row).job = tables.job := by
  rw [insertIgnoreNode]
  split <;> rfl

theorem job_of_deleteNode {before after : Tables} {name : String}
    (deleted : before.deleteNode name = .ok after) : after.job = before.job := by
  rw [deleteNode] at deleted
  repeat' split at deleted
  all_goals cases deleted
  rfl

theorem job_of_insertJobsLink {before after : Tables} {row : JobsLinkRow}
    (inserted : before.insertJobsLink row = .ok after) : after.job = before.job := by
  rw [insertJobsLink] at inserted
  repeat' split at inserted
  all_goals cases inserted
  rfl

theorem job_of_insertTimeConstraint {before after : Tables} {row : TimeConstraintRow}
    (inserted : before.insertTimeConstraint row = .ok after) : after.job = before.job := by
  rw [insertTimeConstraint] at inserted
  repeat' split at inserted
  all_goals cases inserted
  rfl

theorem job_of_replaceJobsLink {before after : Tables} {row : JobsLinkRow}
    (replaced : before.replaceJobsLink row = .ok after) : after.job = before.job := by
  rw [replaceJobsLink] at replaced
  exact (job_of_insertJobsLink replaced).trans rfl

theorem job_of_replaceTimeConstraint {before after : Tables} {row : TimeConstraintRow}
    (replaced : before.replaceTimeConstraint row = .ok after) : after.job = before.job := by
  rw [replaceTimeConstraint] at replaced
  exact (job_of_insertTimeConstraint replaced).trans rfl

theorem job_of_insertResource {before after : Tables} {row : ResourceRow}
    (inserted : before.insertResource row = .ok after) : after.job = before.job := by
  rw [insertResource] at inserted
  repeat' split at inserted
  all_goals cases inserted
  rfl

end Tables

theorem Schema.tables_of_createOrReplaceView {before after : Schema} {name : String}
    {selected : List String} (created : before.createOrReplaceView name selected = .ok after) :
    after.tables = before.tables := by
  rw [createOrReplaceView] at created
  repeat' split at created
  all_goals cases created
  all_goals rfl

theorem Schema.tables_createTableIfNotExists (schema : Schema) (name : String) :
    (schema.createTableIfNotExists name).tables = schema.tables := by
  rw [createTableIfNotExists]
  split <;> rfl

theorem Statement.effect_settles {statement : Statement} (settles : statement.settles = true) :
    statement.effect.Settles := by
  cases statement with
  | startTransaction | rollback | commit | setVariable _ =>
      rintro before _ ⟨⟩ planning
      rfl
  | malformed text => exact nofun
  | use name =>
      intro before after ran planning
      dsimp only at ran
      split at ran
      · cases ran
      · split at ran
        · cases ran
        · cases ran
          rfl
  | createSchema name =>
      intro before after ran planning
      dsimp only at ran
      split at ran
      · cases ran
      · cases ran
        exact Server.tables_createSchemaIfNotExists _ _ _
  | createTable name =>
      rintro before _ ⟨⟩
      exact Schema.tables_createTableIfNotExists before name
  | dropView name | dropTable name =>
      rintro before _ ⟨⟩
      rfl
  | createView name selected => exact fun _ _ => Schema.tables_of_createOrReplaceView
  | insertIgnoreNode name | insertIgnoreWeightedNode name weight =>
      apply Effect.settles_of_job_eq
      rintro before _ ⟨⟩
      exact before.job_insertIgnoreNode _
  | deleteNode name => exact Effect.settles_of_job_eq fun _ _ => Tables.job_of_deleteNode
  | insertJob name cmdLine nodeName weight => exact fun _ _ => Tables.advances_insertJob
  | insertPrvLink prv name | insertNxtLink nxt name =>
      exact Effect.settles_of_job_eq fun _ _ => Tables.job_of_insertJobsLink
  | replaceNxtLink nxt name =>
      exact Effect.settles_of_job_eq fun _ _ => Tables.job_of_replaceJobsLink
  | insertTimeConstraint name type value =>
      exact Effect.settles_of_job_eq fun _ _ => Tables.job_of_insertTimeConstraint
  | replaceTimeConstraint name type value =>
      exact Effect.settles_of_job_eq fun _ _ => Tables.job_of_replaceTimeConstraint
  | insertResource name nodeName currentValue initialValue =>
      exact Effect.settles_of_job_eq fun _ _ => Tables.job_of_insertResource
  | deleteLinks name | deleteTimeConstraints name =>
      apply Effect.settles_of_job_eq
      rintro before _ ⟨⟩
      rfl
  | updateJobState name state | updateJobStateTimes name state startTime stopTime =>
      have leaves : state ≠ .waiting := by simpa [Statement.settles] using settles
      rintro before _ ⟨⟩
      refine Tables.advances_updateJob (fun row => rfl) fun row waiting => ?_
      exact leaves (Option.some.inj waiting)
  | deleteJob name | replaceJob name cmdLine nodeName weight => cases settles
  | updateJobsWhere name state times condition => cases settles

/-- A transaction of such statements advances the jobs, however it is left. -/
theorem Mysql.advances_standaloneExecute {statements : List Statement}
    (settle : ∀ statement ∈ statements, statement.settles = true) (database : Option String)
    (world : World) :
    world.server.Advances (finalState (standaloneExecute statements database world)).server :=
  relates_standaloneExecute
    (fun statement member _ _ ran =>
      (Statement.effect_settles (settle statement member)).advances ran)
    database world

end OpenWorkloadScheduler.Store
