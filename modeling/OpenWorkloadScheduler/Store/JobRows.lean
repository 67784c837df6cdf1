import OpenWorkloadScheduler.Store.Frames

/-!
# Where the rows of `job` come from

A row has been there before, with the same name, command line, node and weight, or
a statement has inserted it.
-/

namespace OpenWorkloadScheduler.Store

open Rpc Foundations

/-- What no thread changes of a row. -/
def JobRow.basis (row : JobRow) : JobRow :=
  { row with jobState := none, jobStartTime := none, jobStopTime := none }

/-- The row that a statement puts into the table. -/
def Statement.insertedRow : Statement → Option JobRow
  | insertJob name cmdLine nodeName weight | replaceJob name cmdLine nodeName weight =>
      some {
        jobName := name, jobCmdLine := cmdLine, jobNodeName := nodeName, jobWeight := weight }
  | _ => none

namespace Tables

variable {before after : Tables} {row added : JobRow}

theorem mem_job_of_insertJob (inserted : before.insertJob added = .ok after)
    (member : row ∈ after.job) : row ∈ before.job ∨ added = row := by
  rw [insertJob] at inserted
  split at inserted
  · cases inserted
  · split at inserted
    · cases inserted
    · cases inserted
      rcases List.mem_append.mp member with member | member
      · exact Or.inl member
      · exact Or.inr (List.mem_singleton.mp member).symm

theorem mem_job_of_replaceJob (replaced : before.replaceJob added = .ok after)
    (member : row ∈ after.job) : row ∈ before.job ∨ added = row := by
  rw [replaceJob] at replaced
  split at replaced
  · cases replaced
  · rcases mem_job_of_insertJob replaced member with member | same
    · exact Or.inl (List.mem_of_mem_filter member)
    · exact Or.inr same

theorem mem_job_of_deleteJob {name : String} (deleted : before.deleteJob name = .ok after)
    (member : row ∈ after.job) : row ∈ before.job := by
  rw [deleteJob] at deleted
  split at deleted
  · cases deleted
  · cases deleted
    exact List.mem_of_mem_filter member

end Tables

/-- A row with the same name, command line, node and weight was there. -/
def Tables.HasBasis (tables : Tables) (row : JobRow) : Prop :=
  ∃ old ∈ tables.job, old.basis = row.basis

theorem Tables.hasBasis_of_map {tables : Tables} {change : JobRow → JobRow} {row : JobRow}
    (member : row ∈ tables.job.map change) (kept : ∀ row, (change row).basis = row.basis) :
    tables.HasBasis row := by
  obtain ⟨old, oldMember, rfl⟩ := List.mem_map.mp member
  exact ⟨old, oldMember, (kept old).symm⟩

/-- Every row after a statement was there before it, or the statement inserts it. -/
theorem Statement.origin_of_row {statement : Statement} {before after : Tables} {row : JobRow}
    (changed : statement.effect.changedRows before = .ok after) (member : row ∈ after.job) :
    before.HasBasis row ∨
      ∃ new, statement.insertedRow = some new ∧ new.basis = row.basis := by
  have kept : after.job = before.job → before.HasBasis row := by
    intro same
    exact ⟨row, same ▸ member, rfl⟩
  cases statement with
  | startTransaction | rollback | commit | setVariable _ | malformed _ | «use» _
  | createSchema _ | createTable _ | dropView _ | dropTable _ | createView _ _
  | deleteLinks _ | deleteTimeConstraints _ =>
      cases changed
      exact Or.inl (kept rfl)
  | insertIgnoreNode name | insertIgnoreWeightedNode name weight =>
      cases changed
      exact Or.inl (kept (before.job_insertIgnoreNode _))
  | deleteNode name => exact Or.inl (kept (Tables.job_of_deleteNode changed))
  | insertPrvLink prv name | insertNxtLink nxt name =>
      exact Or.inl (kept (Tables.job_of_insertJobsLink changed))
  | replaceNxtLink nxt name => exact Or.inl (kept (Tables.job_of_replaceJobsLink changed))
  | insertTimeConstraint name type value =>
      exact Or.inl (kept (Tables.job_of_insertTimeConstraint changed))
  | replaceTimeConstraint name type value =>
      exact Or.inl (kept (Tables.job_of_replaceTimeConstraint changed))
  | insertResource name nodeName currentValue initialValue =>
      exact Or.inl (kept (Tables.job_of_insertResource changed))
  | insertJob name cmdLine nodeName weight =>
      rcases Tables.mem_job_of_insertJob changed member with old | rfl
      · exact Or.inl ⟨row, old, rfl⟩
      · exact Or.inr ⟨_, rfl, rfl⟩
  | replaceJob name cmdLine nodeName weight =>
      rcases Tables.mem_job_of_replaceJob changed member with old | rfl
      · exact Or.inl ⟨row, old, rfl⟩
      · exact Or.inr ⟨_, rfl, rfl⟩
  | deleteJob name => exact Or.inl ⟨row, Tables.mem_job_of_deleteJob changed member, rfl⟩
  | updateJobState name state | updateJobStateTimes name state startTime stopTime =>
      cases changed
      exact Or.inl (Tables.hasBasis_of_map member fun row => by split <;> rfl)
  | updateJobsWhere name state times condition =>
      cases changed
      cases times <;> exact Or.inl (Tables.hasBasis_of_map member fun row => by split <;> rfl)

/-- Every row of every schema was there before, or is one of the inserted ones. -/
def Server.JobsFrom (inserted : JobRow → Prop) (before after : Server) : Prop :=
  ∀ name, ∀ row ∈ (after.tables name).job,
    (before.tables name).HasBasis row ∨ inserted row.basis

theorem Server.JobsFrom.mono {inserted others : JobRow → Prop} {before after : Server}
    (implied : ∀ row, inserted row → others row) (jobsFrom : before.JobsFrom inserted after) :
    before.JobsFrom others after :=
  fun name row member => (jobsFrom name row member).imp_right (implied row.basis)

instance (inserted : JobRow → Prop) : IsPreorder Server (Server.JobsFrom inserted) where
  refl _ _ row member := Or.inl ⟨row, member, rfl⟩
  trans before between after first second name row member := by
    rcases second name row member with ⟨old, oldMember, same⟩ | new
    · rcases first name old oldMember with ⟨older, olderMember, sameAgain⟩ | new
      · exact Or.inl ⟨older, olderMember, sameAgain.trans same⟩
      · exact Or.inr (same ▸ new)
    · exact Or.inr new

/-- A transaction of statements on rows adds the rows that its statements insert. -/
theorem Mysql.jobsFrom_standaloneExecute {inserted : JobRow → Prop}
    {statements : List Statement}
    (onRows : ∀ statement ∈ statements, statement.onRows = true)
    (insert : ∀ statement ∈ statements, ∀ row, statement.insertedRow = some row →
      inserted row.basis)
    (database : Option String) (world : World) :
    world.server.JobsFrom inserted
      (finalState (standaloneExecute statements database world)).server := by
  refine relates_standaloneExecute (fun statement member session after ran => ?_) database world
  obtain ⟨_, name, _, ⟨⟨schema, tables, found, changed, afterFound⟩, beside⟩⟩ :=
    Statement.run_of_onRows (onRows statement member) ran
  intro other row rowMember
  by_cases same : other = name
  · subst same
    rw [Server.tables_of_schema? afterFound] at rowMember
    rw [Server.tables_of_schema? found]
    rcases Statement.origin_of_row changed rowMember with old | ⟨new, insertsNew, sameBasis⟩
    · exact Or.inl old
    · exact Or.inr (sameBasis ▸ insert statement member new insertsNew)
  · rw [beside.tables same] at rowMember
    exact Or.inl ⟨row, rowMember, rfl⟩

end OpenWorkloadScheduler.Store
