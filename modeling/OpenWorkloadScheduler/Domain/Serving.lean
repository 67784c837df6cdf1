import OpenWorkloadScheduler.Domain.Advances
import OpenWorkloadScheduler.Domain.ReadyJobs
import OpenWorkloadScheduler.Store.Rows

/-!
# A planning in service

What the master reads of a complete planning and what its job threads write to it
when no call of MySQL fails and nobody else holds the mutex.
-/

namespace OpenWorkloadScheduler

open Rpc Store Foundations

theorem Store.Statement.run_of_rows {statement : Statement} {table name : String}
    {change : Tables → Except String Tables} {server : Server} {schema : Schema}
    {tables : Tables} (effect : statement.effect = .rows table change)
    (found : server.schema? name = some schema) (present : table ∈ schema.baseTables)
    (changed : change schema.tables = .ok tables) :
    statement.run ⟨some name, server⟩ =
      .ok ⟨some name, server.holding name schema tables⟩ := by
  rw [Statement.run, effect, Effect.run, Session.changeTables_eq_ok_iff]
  exact ⟨name, schema, tables, rfl, found, present, changed, rfl⟩

namespace Domain

/-- The planning is complete, no call fails, and nobody holds the mutex. -/
structure Serving (world : World) (planning : String) (schema : Schema) : Prop
    extends Readable world planning schema where
  free : MutexFree world

section Writing

variable {world : World} {planning : String} {schema : Schema}

theorem Serving.holding (serving : Serving world planning schema) (tables : Tables) :
    Serving (world.holding planning schema tables) planning { schema with tables } where
  quiet := serving.quiet
  found := Server.schema?_setSchema_self _ _ _
  complete := serving.complete.withTables tables
  free := serving.free

theorem Serving.later (serving : Serving world planning schema) (clock : Int) :
    Serving { world with clock } planning schema where
  quiet := serving.quiet
  found := serving.found
  complete := serving.complete
  free := serving.free

theorem lockedExecute_of_serving (serving : Serving world planning schema)
    {statement : Statement} {table : String} {change : Tables → Except String Tables}
    {tables : Tables} (effect : statement.effect = .rows table change)
    (present : table ∈ skeletonBaseTables) (changed : change schema.tables = .ok tables) :
    lockedExecute [statement] (some planning) world =
      .ok true (world.holding planning schema tables) := by
  have known : ∀ other ∈ [statement], other.isBlank = false := by
    intro other member
    cases List.mem_singleton.mp member
    exact Statement.ChangesRows.known
      ⟨table, change, effect, serving.complete.baseTables table present⟩
  have ran : Mysql.runAll [statement] ⟨some planning, world.server⟩ =
      .ok ⟨some planning, world.server.holding planning schema tables⟩ := by
    rw [Mysql.runAll, Statement.run_of_rows effect serving.found
      (serving.complete.baseTables table present) changed]
    rfl
  exact lockedExecute_of_quiet serving.quiet serving.free serving.exist known ran

theorem updateStateOfJob_of_serving (serving : Serving world planning schema) {job : TJob}
    (located : job.nodeName ≠ "") (state : EJobState) :
    updateStateOfJob planning (some job) state world =
      .ok true (world.holding planning schema
        (schema.tables.updateJob job.name fun row => { row with jobState := some state })) := by
  rw [updateStateOfJob, updateJobState, if_neg located]
  exact lockedExecute_of_serving serving rfl job_mem rfl

theorem updateStateTimesOfJob_of_serving (serving : Serving world planning schema)
    {job : TJob} (located : job.nodeName ≠ "") (state : EJobState) (startTime stopTime : Int) :
    updateStateTimesOfJob planning job state startTime stopTime world =
      .ok true (world.holding planning schema
        (schema.tables.updateJob job.name fun row =>
          { row with
            jobState := some state, jobStartTime := some startTime,
            jobStopTime := some stopTime })) := by
  rw [updateStateTimesOfJob, updateJobStateTimes, if_neg located]
  exact lockedExecute_of_serving serving rfl job_mem rfl

end Writing

variable (domain : Domain)

/-- The poll gets the offer of the tables, and raises at a row that is not
acceptable. -/
theorem getReadyJobs_of_serving {world : World} {schema : Schema}
    (serving : Serving world (planningName domain world.planningStartTime) schema)
    (runningNode : Option String)
    (acceptable : ∀ row ∈ schema.tables.job, isAcceptable row = true) :
    getReadyJobs domain runningNode world =
      .ok (offeredJobs (planningName domain world.planningStartTime) schema.tables world.now
        runningNode, none) world := by
  have present : "get_ready_job" ∈ skeletonViews := by decide
  have ran : (Query.readyJobs runningNode).run
      (some (planningName domain world.planningStartTime)) world.server world.now =
        .ok (((schema.tables.getReadyJob world.now).filter
          (Query.runsOn runningNode)).map Query.jobRow) := by
    rw [Query.run_eq_runOn (by change "get_ready_job" ≠ ""; decide)]
    exact Query.runOn_eq_ok_iff.mpr ⟨schema, serving.found,
      Or.inr (serving.complete.views _ present), rfl⟩
  obtain ⟨raised, returned, exact⟩ := getReadyJobs_of_selects domain
    (Mysql.selects_of_quiet serving.quiet serving.exist ran)
  have none : raised = none := by
    rw [exact, Server.tables_of_schema? serving.found]
    intro row member
    exact acceptable row (Tables.mem_getReadyJob.mp (List.mem_of_mem_filter member)).1
  rw [returned, none, currentOffer, Server.tables_of_schema? serving.found,
    Mysql.answered_of_quiet serving.quiet, Mysql.answered_of_quiet serving.quiet]

end Domain

end OpenWorkloadScheduler
