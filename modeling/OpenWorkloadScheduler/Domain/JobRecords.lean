import OpenWorkloadScheduler.Domain.Integrity
import OpenWorkloadScheduler.Domain.JobRemoval
import OpenWorkloadScheduler.Store.JobRecords

/-!
# A job among others

What `add_job` has recorded of a job is what `get_job` reads, however many other jobs
are added or removed in between and whatever happens to the state of the job.
-/

namespace OpenWorkloadScheduler.Domain

open Rpc Store Foundations

variable (domain : Domain)

/-! ## The methods -/

/-- The record of a job in a schema stays as it is. -/
def KeepsRecord (planning name : String) (before after : World) : Prop :=
  before.server.KeepsRecord planning name after.server

instance (planning name : String) : IsPreorder World (KeepsRecord planning name) where
  refl world := refl world.server
  trans _ _ _ first second := (IsTrans.trans _ _ _ first second : Server.KeepsRecord _ _ _ _)

theorem keepsRecord_of_same {planning name : String} {before after : World}
    (same : after.server = before.server) : KeepsRecord planning name before after :=
  Server.keepsRecord_of_tables (by rw [same])

/-- The statements go to one schema, and where it is that of the job they spare it. -/
theorem respects_keepsRecord (planning name : String) :
    Respects (KeepsRecord planning name) fun database statement =>
      statement.onRows = true ∧ ∃ other, database = some other ∧
        (other = planning → statement.spares name = true) where
  reading _ _ readOnly := keepsRecord_of_same readOnly.server
  mutex _ _ := keepsRecord_of_same rfl
  executing := by
    intro statements database admits world
    cases statements with
    | nil => exact keepsRecord_of_same (Mysql.server_standaloneExecute_nil database world)
    | cons statement statements =>
        obtain ⟨_, other, same, _⟩ := admits statement List.mem_cons_self
        subst same
        by_cases here : other = planning
        · apply Mysql.keepsRecord_standaloneExecute
          intro sent member
          obtain ⟨_, place, same, spares⟩ := admits sent member
          cases same
          exact spares here
        · have beside := (respects_keepsBeside other).executing
            (fun sent member => ⟨rfl, (admits sent member).1⟩) world
          exact Server.keepsRecord_of_tables (beside.tables (Ne.symm here))

/-- Before it has deleted a job, `remove_job` deletes no link. -/
theorem keepsRecord_removeNamedJob {planning name domainName jobName : String}
    (other : domainName = planning → jobName ≠ name) :
    Within (KeepsRecord planning name) (removeNamedJob domainName jobName) := by
  intro world
  cases removeNamedJob_cases domainName jobName world with
  | inl removed =>
      obtain ⟨after, ran, _⟩ := removed
      rw [ran]
      obtain ⟨schema, found, _, free, afterFound, beside⟩ := removed_of_removeNamedJob ran
      by_cases here : domainName = planning
      · subst here
        have deleted : schema.tables.deleteJob jobName = .ok { schema.tables with
            job := schema.tables.job.filter fun row => row.jobName ≠ jobName } := if_neg free
        have kept := Tables.keepsRecord_deleteJob (other rfl) deleted
        rw [KeepsRecord, Server.KeepsRecord, Server.tables_of_schema? found]
        change Tables.KeepsRecord _ _ (after.server.tables domainName)
        rw [Server.tables_of_schema? afterFound]
        exact kept
      · exact Server.keepsRecord_of_tables (beside.tables (Ne.symm here))
  | inr refused => exact keepsRecord_of_same refused.2

/-! ## What is read -/

/-- Rows that have been selected are those of the schema. -/
theorem select_of_selects {query : Query} {name : String} {world : World}
    {rows : List Query.ResultRow} (selection : query.relation ≠ "")
    (selects : Mysql.Selects query (some name) world rows) :
    query.select (world.server.tables name) world.now = .ok rows := by
  have ran := selects.ran
  rw [Query.run_eq_runOn selection] at ran
  obtain ⟨schema, found, _, selected⟩ := Query.runOn_eq_ok_iff.mp ran
  rw [Server.tables_of_schema? found]
  exact selected

theorem rows_of_queryFullResult {query : Query} {name : String} {world after : World}
    {rows : List (List String)} (selection : query.relation ≠ "")
    (ran : Mysql.queryFullResult query (some name) world = .ok (some rows) after) :
    ∃ selected, query.select (world.server.tables name) world.now = .ok selected ∧
      rows = selected.map fun row => row.map fun column => column.getD "NULL" := by
  obtain ⟨selected, selects⟩ := Mysql.selects_of_queryFullResult ran
  rw [Mysql.queryFullResult_of_selects selects] at ran
  cases ran
  exact ⟨selected, select_of_selects selection selects, rfl⟩

theorem next_of_getJobsNext {name jobName : String} {world after : World} {nxt : List String}
    (ran : getJobsNext name jobName world = .ok nxt after) :
    nxt = decodedNext (world.server.tables name) jobName := by
  obtain ⟨result, between, queried, returned⟩ := bind_eq_ok_iff.mp ran
  cases result with
  | none => cases returned
  | some rows =>
      obtain ⟨selected, same, rowsSame⟩ :=
        rows_of_queryFullResult (by simp [Query.relation]) queried
      cases same
      have decoded : rows.mapM (fun row => column row 0) =
          .ok (decodedNext (world.server.tables name) jobName) := by
        rw [rowsSame, decodedNext, List.map_map, List.mapM_map]
        exact mapM_ok fun row _ => rfl
      dsimp only at returned
      rw [decoded] at returned
      cases returned
      rfl

theorem constraints_of_getTimeConstraints {name jobName : String} {world after : World}
    {constraints : List TTimeConstraint}
    (ran : getTimeConstraints name jobName world = .ok constraints after) :
    constraints = decodedConstraints (world.server.tables name) jobName := by
  obtain ⟨result, between, queried, returned⟩ := bind_eq_ok_iff.mp ran
  cases result with
  | none => cases returned
  | some rows =>
      obtain ⟨selected, same, rowsSame⟩ :=
        rows_of_queryFullResult (by simp [Query.relation]) queried
      cases same
      have decoded : rows.mapM readTimeConstraint =
          .ok (decodedConstraints (world.server.tables name) jobName) := by
        rw [rowsSame, decodedConstraints, List.map_map, List.mapM_map]
        exact mapM_ok fun row _ => readTimeConstraint_ok row
      dsimp only at returned
      rw [decoded] at returned
      cases returned
      rfl

/-- A job that `get_job` returns is the one of the only row that it asks for, whatever
else may have failed. -/
theorem job_of_getJob {name jobName : String} {runningNode : Option String}
    {world after : World} {row : JobRow} {read : TJob}
    (selected : ((world.server.tables name).job.filter fun other =>
      other.jobName = jobName && Query.runsOn runningNode other) = [row])
    (fits : Fits 32 row.jobWeight) (set : row.jobState ≠ none)
    (ran : getJob domain name runningNode jobName world = .ok read after) :
    read = decodedNamedJob domain (world.server.tables name) row := by
  obtain ⟨state, stateSet⟩ := Option.ne_none_iff_exists'.mp set
  obtain ⟨result, between, queried, returned⟩ := bind_eq_ok_iff.mp ran
  cases result with
  | none => cases returned
  | some texts =>
      obtain ⟨rows, selects, same, left⟩ := Mysql.selects_of_queryOneRow queried
      have found := select_of_selects (by simp [Query.relation]) selects
      rw [Query.select, selected, Except.ok.injEq] at found
      have columns : texts = row.jobName :: row.jobCmdLine :: row.jobNodeName ::
          toString row.jobWeight :: buildStringFromJobState state ::
            (row.jobRectypeId.map toString).toList := by
        rw [same, ← found, List.map_cons, Query.jobRow, stateSet]
        cases row.jobRectypeId <;> rfl
      have named : lift (column texts 0) between = .ok row.jobName between := by
        rw [columns]
        rfl
      have located : lift (column texts 2) between = .ok row.jobNodeName between := by
        rw [columns]
        rfl
      have commanded : lift (column texts 1) between = .ok row.jobCmdLine between := by
        rw [columns]
        rfl
      have weighed : lift (do cast 32 (← column texts 3)) between =
          .ok row.jobWeight between := by
        rw [columns]
        exact (yields_cast 32 row.jobWeight between).returns fits
      have stated : lift (do buildJobStateFromString (← column texts 4)) between =
          .ok state between := by
        rw [columns]
        change lift (buildJobStateFromString (buildStringFromJobState state)) between = _
        rw [buildJobStateFromString_build]
        rfl
      dsimp only at returned
      rw [bind_of_ok named, bind_of_ok located, bind_of_ok commanded, bind_of_ok weighed,
        bind_of_ok stated] at returned
      obtain ⟨nxt, middle, nextRan, returned⟩ := bind_eq_ok_iff.mp returned
      obtain ⟨constraints, last, constraintsRan, returned⟩ := bind_eq_ok_iff.mp returned
      have reads := within_getJobsNext name row.jobName between
      rw [nextRan] at reads
      have unchanged : middle.server = world.server := by
        rw [left] at reads
        exact reads.server
      have nextSame := next_of_getJobsNext nextRan
      have constraintsSame := constraints_of_getTimeConstraints constraintsRan
      rw [unchanged] at constraintsSame
      rw [left] at nextSame
      cases returned
      rw [decodedNamedJob, basicJob, stateSet, nextSame, constraintsSame]
      rfl

/-! ## What was recorded -/

theorem tables_of_addJob {name : String} {job : TJob} {before after : World}
    (added : addJob domain name job before = .ok true after) :
    Insertable (before.server.tables name) job ∧
      after.server.tables name = withJob (before.server.tables name) job := by
  obtain ⟨_, changes⟩ := changes_of_addJob domain added
  obtain ⟨schema, tables, found, changed, stored⟩ := changes.rows
  rw [Server.tables_of_schema? found, Server.tables_of_schema? stored]
  exact rowsAfter_addJob_eq_ok_iff.mp changed

section Recorded

variable {tables later : Tables} {job : TJob}

/-- The row of the job is the one that was added, but for its state and its times. -/
theorem selected_of_jobRecord (new : ¬ tables.hasJob job.name)
    (kept : later.jobRecord job.name = (withJob tables job).jobRecord job.name) :
    ∃ row, (later.job.filter fun other =>
        other.jobName = job.name && Query.runsOn (some job.nodeName) other) = [row] ∧
      row ∈ later.job ∧ row.basis = (rowOfJob job).basis := by
  have foreign : ∀ row ∈ tables.job.map JobRow.basis, row.jobName ≠ job.name := by
    intro row member same
    obtain ⟨old, oldMember, basis⟩ := List.mem_map.mp member
    apply new
    rw [← same, ← basis]
    exact List.mem_map.mpr ⟨old, oldMember, rfl⟩
  have own : ∀ row ∈ [(rowOfJob job).basis], row.jobName = job.name := by
    intro row member
    rw [List.mem_singleton.mp member]
    rfl
  have rows := congrArg JobRecord.rows kept
  rw [Tables.jobRecord, Tables.jobRecord, withJob] at rows
  dsimp only at rows
  rw [List.map_append, List.map_singleton, filter_append_eq foreign own,
    List.filter_map] at rows
  obtain ⟨row, filtered, basis⟩ := List.map_eq_singleton_iff.mp rows
  have named : (later.job.filter fun other => other.jobName = job.name) = [row] := filtered
  have located : Query.runsOn (some job.nodeName) row = true := by
    simp only [JobRow.basis, JobRow.mk.injEq] at basis
    exact decide_eq_true basis.2.2.1
  refine ⟨row, ?_, ?_, basis⟩
  · have split : (later.job.filter fun other =>
        other.jobName = job.name && Query.runsOn (some job.nodeName) other) =
          (later.job.filter fun other => other.jobName = job.name).filter
            (Query.runsOn (some job.nodeName)) := by
      rw [List.filter_filter]
      exact List.filter_congr fun other _ => Bool.and_comm _ _
    rw [split, named, List.filter_cons_of_pos located, List.filter_nil]
  · apply List.mem_of_mem_filter (p := fun other => other.jobName = job.name)
    rw [named]
    exact List.mem_singleton_self row

theorem stateSet_withJob (new : ¬ tables.hasJob job.name) :
    (withJob tables job).StateSet job.name := by
  intro row member named
  cases List.mem_append.mp member with
  | inl old =>
      apply absurd _ new
      rw [← named]
      exact List.mem_map_of_mem old
  | inr own =>
      rw [List.mem_singleton.mp own]
      exact Option.some_ne_none _

theorem rows_withJob_ne_nil (new : ¬ tables.hasJob job.name) :
    ((withJob tables job).jobRecord job.name).rows ≠ [] := by
  obtain ⟨row, _, member, basis⟩ := selected_of_jobRecord new rfl
  apply List.ne_nil_of_mem
  apply List.mem_filter.mpr
  refine ⟨List.mem_map_of_mem member, ?_⟩
  rw [basis]
  exact decide_eq_true rfl

/-- Whatever has become of the state of a job, `get_job` returns the job that was
recorded, if it has no predecessors and the values of its constraints fit. -/
theorem sameJob_of_jobRecord {name : String} {world after : World} {read : TJob}
    (keys : tables.Keys) (insertable : Insertable tables job)
    (typed : Integer.InRange job.weight)
    (kept : (world.server.tables name).jobRecord job.name =
      (withJob tables job).jobRecord job.name)
    (set : (world.server.tables name).StateSet job.name)
    (ran : getJob domain name (some job.nodeName) job.name world = .ok read after) :
    SameJob job read ↔
      job.prv = [] ∧ ∀ constraint ∈ job.timeConstraints, Fits 16 constraint.value := by
  obtain ⟨row, selected, member, basis⟩ := selected_of_jobRecord insertable.name kept
  simp only [JobRow.basis, JobRow.mk.injEq] at basis
  obtain ⟨named, commanded, located, weighed, _⟩ := basis
  have fits : Fits 32 row.jobWeight := by
    rw [weighed]
    exact fits_of_inRange typed
  have returned := job_of_getJob domain selected fits (set row member named) ran
  have next : decodedNext (world.server.tables name) row.jobName =
      decodedNext (withJob tables job) job.name := by
    rw [named]
    exact congrArg (List.map JobsLinkRow.jobNameNxt) (congrArg JobRecord.links kept)
  have constraints : decodedConstraints (world.server.tables name) row.jobName =
      decodedConstraints (withJob tables job) job.name := by
    rw [named]
    exact congrArg (List.map decodedConstraint) (congrArg JobRecord.constraints kept)
  rw [← sameJob_iff domain keys insertable typed, returned, decodedNamedJob, decodedNamedJob,
    basicJob, basicJob, next, constraints, named, commanded, located, weighed]
  constructor <;> intro same <;>
    exact ⟨same.name, same.nodeName, same.cmdLine, same.weight, same.prv, same.nxt,
      same.timeConstraints⟩

end Recorded

end OpenWorkloadScheduler.Domain
