import OpenWorkloadScheduler.Store.Frames

/-!
# Statements that only add

A statement that neither removes nor updates a job leaves the rows of `job` as they
are, and the row that it may add waits.  No statement removes a schema.
-/

namespace OpenWorkloadScheduler.Store

open Rpc Foundations

/-! ## One schema -/

namespace Tables

/-- The rows of `job` stay as they are, new ones wait, and the key is kept. -/
structure OnlyAdds (before after : Tables) : Prop where
  appended : ∃ rows, after.job = before.job ++ rows ∧
    ∀ row ∈ rows, row.jobState = some .waiting
  key : (before.job.map JobRow.jobName).Nodup → (after.job.map JobRow.jobName).Nodup

theorem OnlyAdds.of_job_eq {before after : Tables} (same : after.job = before.job) :
    OnlyAdds before after where
  appended := ⟨[], by rw [same, List.append_nil], List.forall_mem_nil _⟩
  key nodup := by rwa [same]

instance : IsPreorder Tables OnlyAdds where
  refl _ := .of_job_eq rfl
  trans before between after first second := by
    obtain ⟨rows, firstRows, firstWait⟩ := first.appended
    obtain ⟨others, secondRows, secondWait⟩ := second.appended
    refine ⟨⟨rows ++ others, ?_, ?_⟩, fun nodup => second.key (first.key nodup)⟩
    · rw [secondRows, firstRows, List.append_assoc]
    · exact List.forall_mem_append.mpr ⟨firstWait, secondWait⟩

theorem OnlyAdds.mem {before after : Tables} (adds : OnlyAdds before after) {row : JobRow}
    (member : row ∈ before.job) : row ∈ after.job := by
  obtain ⟨rows, same, _⟩ := adds.appended
  rw [same]
  exact List.mem_append_left rows member

theorem OnlyAdds.old {before after : Tables} (adds : OnlyAdds before after) {row : JobRow}
    (member : row ∈ after.job) (left : row.jobState ≠ some .waiting) : row ∈ before.job := by
  obtain ⟨rows, same, wait⟩ := adds.appended
  rw [same] at member
  exact (List.mem_append.mp member).resolve_right fun new => left (wait row new)

theorem onlyAdds_insertJob {before after : Tables} {row : JobRow}
    (waiting : row.jobState = some .waiting) (inserted : before.insertJob row = .ok after) :
    OnlyAdds before after := by
  have key := (advances_insertJob inserted).key
  rw [insertJob] at inserted
  split at inserted
  · cases inserted
  · split at inserted
    · cases inserted
    · cases inserted
      exact ⟨⟨[row], rfl, List.forall_mem_singleton.mpr waiting⟩, key⟩

end Tables

/-! ## Relations between the rows -/

namespace Effect

/-- The rows before and after the effect are related, in every schema. -/
def Relates (relation : Tables → Tables → Prop) : Effect → Prop
  | .rows _ change => ∀ before after, change before = .ok after → relation before after
  | .relations change =>
      ∀ before after, change before = .ok after → after.tables = before.tables
  | .connection change =>
      ∀ before after, change before = .ok after →
        ∀ planning, after.work.tables planning = before.work.tables planning

theorem Relates.of_run {relation : Tables → Tables → Prop} [Std.Refl relation]
    {effect : Effect} (relates : effect.Relates relation) {session after : Session}
    (ran : effect.run session = .ok after) (planning : String) :
    relation (session.work.tables planning) (after.work.tables planning) := by
  have stored : ∀ {name : String} {schema next : Schema},
      session.work.schema? name = some schema → relation schema.tables next.tables →
        relation (session.work.tables planning)
          ((session.work.setSchema name next).tables planning) := by
    intro name schema next found related
    by_cases same : planning = name
    · rw [same, Server.tables_setSchema_self, Server.tables_of_schema? found]
      exact related
    · rw [Server.tables_setSchema_ne same]
      exact Std.Refl.refl _
  cases effect with
  | rows table change =>
      obtain ⟨name, schema, tables, _, found, _, changed, rfl⟩ :=
        Session.changeTables_eq_ok_iff.mp ran
      exact stored found (relates _ _ changed)
  | relations change =>
      rw [run, Session.changeSchema] at ran
      split at ran
      · cases ran
      · split at ran
        · cases ran
        · rename_i schema found
          cases changed : change schema with
          | error error =>
              rw [changed] at ran
              cases ran
          | ok next =>
              rw [changed] at ran
              cases ran
              refine stored found ?_
              rw [relates _ _ changed]
              exact Std.Refl.refl _
  | connection change =>
      rw [relates _ _ ran planning]
      exact Std.Refl.refl _

end Effect

/-! ## The statements -/

/-- The statement neither removes nor updates a job. -/
def Statement.onlyAdds : Statement → Bool
  | deleteJob _ => false
  | replaceJob _ _ _ _ => false
  | updateJobState _ _ => false
  | updateJobStateTimes _ _ _ _ => false
  | updateJobsWhere _ _ _ _ => false
  | _ => true

theorem Effect.relates_of_job_eq {table : String} {change : Tables → Except String Tables}
    (same : ∀ before after, change before = .ok after → after.job = before.job) :
    (Effect.rows table change).Relates Tables.OnlyAdds :=
  fun before after changed => .of_job_eq (same before after changed)

theorem Statement.effect_onlyAdds {statement : Statement} (adds : statement.onlyAdds = true) :
    statement.effect.Relates Tables.OnlyAdds := by
  have settled := @Statement.effect_settles statement
  cases statement with
  | insertJob name cmdLine nodeName weight =>
      exact fun _ _ => Tables.onlyAdds_insertJob rfl
  | insertIgnoreNode name | insertIgnoreWeightedNode name weight =>
      apply Effect.relates_of_job_eq
      rintro before _ ⟨⟩
      exact before.job_insertIgnoreNode _
  | deleteNode name => exact Effect.relates_of_job_eq fun _ _ => Tables.job_of_deleteNode
  | insertPrvLink prv name | insertNxtLink nxt name =>
      exact Effect.relates_of_job_eq fun _ _ => Tables.job_of_insertJobsLink
  | replaceNxtLink nxt name =>
      exact Effect.relates_of_job_eq fun _ _ => Tables.job_of_replaceJobsLink
  | insertTimeConstraint name type value =>
      exact Effect.relates_of_job_eq fun _ _ => Tables.job_of_insertTimeConstraint
  | replaceTimeConstraint name type value =>
      exact Effect.relates_of_job_eq fun _ _ => Tables.job_of_replaceTimeConstraint
  | insertResource name nodeName currentValue initialValue =>
      exact Effect.relates_of_job_eq fun _ _ => Tables.job_of_insertResource
  | deleteLinks name | deleteTimeConstraints name =>
      apply Effect.relates_of_job_eq
      rintro before _ ⟨⟩
      rfl
  | deleteJob _ | replaceJob _ _ _ _ | updateJobState _ _ | updateJobStateTimes _ _ _ _
  | updateJobsWhere _ _ _ _ => cases adds
  | startTransaction | rollback | commit | setVariable _ | malformed _ | «use» _
  | createSchema _ | createTable _ | dropView _ | dropTable _ | createView _ _ =>
      exact settled rfl

/-! ## The server -/

namespace Server

/-- In every schema the rows of `job` stay as they are, and new ones wait. -/
def OnlyAdds (before after : Server) : Prop :=
  ∀ planning, (before.tables planning).OnlyAdds (after.tables planning)

instance : IsPreorder Server OnlyAdds where
  refl server planning := refl (server.tables planning)
  trans _ _ _ first second planning := IsTrans.trans _ _ _ (first planning) (second planning)

end Server

theorem Mysql.onlyAdds_standaloneExecute {statements : List Statement}
    (add : ∀ statement ∈ statements, statement.onlyAdds = true) (database : Option String)
    (world : World) :
    world.server.OnlyAdds (finalState (standaloneExecute statements database world)).server :=
  relates_standaloneExecute
    (fun statement member _ _ ran =>
      (Statement.effect_onlyAdds (add statement member)).of_run ran)
    database world

/-! ## The schemas stay -/

namespace Server

def Present (server : Server) (name : String) : Prop :=
  (server.schema? name).isSome

instance (server : Server) (name : String) : Decidable (server.Present name) :=
  inferInstanceAs (Decidable ((server.schema? name).isSome = true))

/-- Every schema that was there is there. -/
def KeepsSchemas (before after : Server) : Prop :=
  ∀ name, before.Present name → after.Present name

instance : IsPreorder Server KeepsSchemas where
  refl _ _ present := present
  trans _ _ _ first second name present := second name (first name present)

theorem keepsSchemas_setSchema (server : Server) (name : String) (schema : Schema) :
    server.KeepsSchemas (server.setSchema name schema) := by
  intro other present
  by_cases same : other = name
  · rw [same, Present, schema?_setSchema_self]
    rfl
  · rw [Present, schema?_setSchema_ne same]
    exact present

theorem keepsSchemas_createSchemaIfNotExists (server : Server) (name : String) :
    server.KeepsSchemas (server.createSchemaIfNotExists name) := by
  rw [createSchemaIfNotExists]
  split
  · exact refl server
  · exact keepsSchemas_setSchema server name {}

end Server

theorem Effect.keepsSchemas_of_rows {table : String}
    {change : Tables → Except String Tables} {session after : Session}
    (ran : (Effect.rows table change).run session = .ok after) :
    session.work.KeepsSchemas after.work := by
  obtain ⟨name, schema, tables, _, _, _, _, rfl⟩ := Session.changeTables_eq_ok_iff.mp ran
  exact Server.keepsSchemas_setSchema _ _ _

theorem Session.keepsSchemas_of_changeSchema {session after : Session}
    {change : Schema → Except String Schema}
    (changed : session.changeSchema change = .ok after) :
    session.work.KeepsSchemas after.work := by
  obtain ⟨name, schema, _, rfl⟩ := changeSchema_eq_ok changed
  exact Server.keepsSchemas_setSchema _ _ _

theorem Statement.keepsSchemas_of_run {statement : Statement} {session after : Session}
    (ran : statement.run session = .ok after) : session.work.KeepsSchemas after.work := by
  have effect : statement.effect.run session = .ok after := ran
  cases statement with
  | startTransaction | rollback | commit | setVariable _ =>
      cases effect
      exact refl session.work
  | malformed text => cases effect
  | «use» name =>
      change (if ¬ isIdentifier name then _ else if _ then _ else _ : Except String Session) = _
        at effect
      split at effect
      · cases effect
      · split at effect
        · cases effect
        · cases effect
          exact refl session.work
  | createSchema name =>
      change (if ¬ isIdentifier name then _ else _ : Except String Session) = _ at effect
      split at effect
      · cases effect
      · cases effect
        exact Server.keepsSchemas_createSchemaIfNotExists _ _
  | createTable name | dropView name | dropTable name | createView name selected =>
      exact Session.keepsSchemas_of_changeSchema effect
  | _ => exact Effect.keepsSchemas_of_rows effect

/-- However a transaction is left, every schema is still there. -/
theorem Mysql.keepsSchemas_standaloneExecute (statements : List Statement)
    (database : Option String) (world : World) :
    world.server.KeepsSchemas
      (finalState (standaloneExecute statements database world)).server :=
  relates_standaloneExecute (fun _ _ _ _ => Statement.keepsSchemas_of_run) database world

/-! ## Statements that change no row -/

/-- The statement of the skeleton, or the one that creates or chooses a schema. -/
theorem Statement.effect_keepsTables {statement : Statement}
    (structural : statement.onRows = false) : statement.effect.Relates Eq := by
  have settled := @Statement.effect_settles statement
  cases statement with
  | startTransaction | rollback | commit | setVariable _ | «use» _ | createSchema _
  | createTable _ | dropView _ | dropTable _ | createView _ _ => exact settled rfl
  | _ => cases structural

namespace Server

/-- The rows of every schema are as they were. -/
def SameTables (before after : Server) : Prop :=
  ∀ planning, before.tables planning = after.tables planning

instance : IsPreorder Server SameTables where
  refl _ _ := rfl
  trans _ _ _ first second planning := (first planning).trans (second planning)

end Server

theorem Mysql.sameTables_standaloneExecute {statements : List Statement}
    (structural : ∀ statement ∈ statements, statement.onRows = false)
    (database : Option String) (world : World) :
    world.server.SameTables (finalState (standaloneExecute statements database world)).server :=
  relates_standaloneExecute
    (fun statement member _ _ ran =>
      (Statement.effect_keepsTables (structural statement member)).of_run ran)
    database world

end OpenWorkloadScheduler.Store
