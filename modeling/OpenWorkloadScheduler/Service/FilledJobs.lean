import OpenWorkloadScheduler.Domain.JobRows
import OpenWorkloadScheduler.Domain.ReadyJobs
import OpenWorkloadScheduler.Service.Modes

/-!
# The jobs that get into the tables

`check_job_arg` keeps the jobs away that the constructor `Job::Job` would refuse
later.  It sees the job of `add_job`, but not the jobs that a node of `add_node`
brings along.
-/

namespace OpenWorkloadScheduler

open Rpc Store Foundations

/-! ## Jobs that pass the check -/

/-- The conditions of `check_job_arg` on what the table has of a job. -/
structure Store.JobRow.Filled (row : JobRow) : Prop where
  name : row.jobName ≠ ""
  cmdLine : row.jobCmdLine ≠ ""
  nodeName : row.jobNodeName ≠ ""
  weight : 1 ≤ row.jobWeight

theorem filled_basis_iff {row : JobRow} : row.basis.Filled ↔ row.Filled :=
  ⟨fun filled => ⟨filled.name, filled.cmdLine, filled.nodeName, filled.weight⟩,
    fun filled => ⟨filled.name, filled.cmdLine, filled.nodeName, filled.weight⟩⟩

theorem filled_of_checkJobArg {job : TJob} (checked : Handlers.checkJobArg job = .ok ()) :
    (Domain.rowOfJob job).Filled := by
  unfold Handlers.checkJobArg at checked
  split at checked
  · cases checked
  · rename_i name
    split at checked
    · cases checked
    · split at checked
      · cases checked
      · rename_i cmdLine
        split at checked
        · cases checked
        · rename_i nodeName
          split at checked
          · cases checked
          · rename_i weight
            exact ⟨name, cmdLine, nodeName, not_lt.mp weight⟩

/-- The constructor `Job::Job` accepts what `get_ready_jobs` reads of such a row. -/
theorem checkJob_of_filled {domain : Domain} {startTime : Int} {query : String} {row : JobRow}
    {job : TJob} (filled : row.Filled)
    (read : Domain.readJob (domain.planningName startTime) query (Domain.jobTexts row) =
      .ok job) :
    Domain.checkJob job = .ok job := by
  obtain ⟨_, rfl⟩ := Domain.readJob_eq_ok_iff.mp read
  exact (Domain.checkJob_eq_ok_iff (domain.planningName_ne_empty startTime)).mpr
    ⟨⟨filled.name, filled.nodeName, filled.cmdLine⟩, rfl⟩

/-! ## One call -/

section Serving

variable {config : Config} {router : Router} {request : Request} {operation : Operation}

/-- What a node in the mode ACTIVE executes is what it is asked for, and a node is
added at the target only. -/
theorem operation_of_execute (active : config.runningMode = .active)
    (decided : Handlers.handle config router request = .ok (.execute operation)) :
    request.Accepted ∧ operation = request.operation ∧
      ∀ routing node, request = .addNode routing node →
        config.getParam "node_name" = some routing.targetNode.name := by
  rw [Handlers.handle_eq] at decided
  obtain ⟨_, checked, branch⟩ := except_bind_eq_ok_iff.mp decided
  rw [Handlers.byMode, active] at branch
  have forwarded : ∀ target noGateway,
      Handlers.forward config router target noGateway request ≠ .ok (.execute operation) := by
    intro target noGateway forwards
    obtain ⟨gateway, _, rest⟩ := except_bind_eq_ok_iff.mp forwards
    cases gateway with
    | none => cases rest
    | some gateway =>
        obtain ⟨_, _, rest⟩ := except_bind_eq_ok_iff.mp rest
        cases rest
  have targeted : ∀ target noGateway,
      Handlers.atTarget config router target noGateway request request.operation =
          .ok (.execute operation) →
        operation = request.operation ∧ config.getParam "node_name" = some target := by
    intro target noGateway executed
    obtain ⟨nodeName, read, rest⟩ := except_bind_eq_ok_iff.mp executed
    by_cases same : nodeName = target
    · rw [if_neg (not_not.mpr same)] at rest
      cases rest
      rw [← same]
      exact ⟨rfl, Config.param_eq_ok_iff.mp read⟩
    · rw [if_pos same] at rest
      exact absurd rest (forwarded target noGateway)
  refine ⟨request.accepted_iff.mpr checked, ?_⟩
  cases request with
  | addJob routing job =>
      refine ⟨?_, fun _ _ impossible => by cases impossible⟩
      obtain ⟨nodeName, _, rest⟩ := except_bind_eq_ok_iff.mp branch
      split at rest
      · exact absurd rest (forwarded _ _)
      · cases rest
        rfl
  | addNode routing node =>
      obtain ⟨same, here⟩ := targeted _ _ branch
      refine ⟨same, fun other _ equality => ?_⟩
      cases equality
      exact here
  | _ => exact ⟨(targeted _ _ branch).1, fun _ _ impossible => by cases impossible⟩

/-- The jobs that the node of an `add_node` brings along to its target pass the check
that `add_node` does not make. -/
def Request.BringsFilled (config : Config) : Request → Prop
  | addNode routing node => config.getParam "node_name" = some routing.targetNode.name →
      ∀ job ∈ node.jobs, (Domain.rowOfJob job).Filled
  | _ => True

theorem filled_of_inserts (mutates : request.mutates = true) (accepted : request.Accepted)
    (brought : ∀ routing node, request = .addNode routing node →
      ∀ job ∈ node.jobs, (Domain.rowOfJob job).Filled) :
    ∀ mutation ∈ request.operation.mutations, ∀ row, mutation.Inserts row → row.Filled := by
  intro mutation member row inserts
  cases request with
  | addNode routing node =>
      simp only [Request.operation, Operation.mutations, List.cons_append, List.mem_cons,
        List.mem_append, List.mem_map] at member
      rcases member with rfl | ⟨resource, _, rfl⟩ | ⟨job, jobMember, rfl⟩
      · exact inserts.elim
      · exact inserts.elim
      · rw [(inserts : row = _)]
        exact filled_basis_iff.mpr (brought routing node rfl job jobMember)
  | addJob routing job =>
      cases List.mem_singleton.mp member
      rw [(inserts : row = _)]
      exact filled_basis_iff.mpr (filled_of_checkJobArg accepted.2)
  | removeNode routing node =>
      cases List.mem_singleton.mp member
      exact inserts.elim
  | updateJob routing job =>
      cases List.mem_singleton.mp member
      exact inserts.elim
  | removeJob routing job =>
      cases List.mem_singleton.mp member
      exact inserts.elim
  | updateJobState routing job =>
      cases List.mem_singleton.mp member
      exact inserts.elim
  | _ => cases mutates

/-- One request that writes, to a node in the mode ACTIVE, whatever the state of its
clock, its mutex and its routing data, and whatever the MySQL library answers. -/
def Serves (config : Config) (domain : Domain) (before : Server) (request : Request)
    (after : Server) : Prop :=
  request.mutates = true ∧ ∃ (router : Router) (world : World), world.server = before ∧
    (finalState ((ServiceCall.routed request).run config router domain world)).server = after

/-- Every job of every schema passes the check. -/
def AllFilled (server : Server) : Prop :=
  ∀ name, ∀ row ∈ (server.tables name).job, row.Filled

theorem allFilled_of_jobsFrom {before after : Server}
    (jobsFrom : before.JobsFrom JobRow.Filled after) (filled : AllFilled before) :
    AllFilled after := by
  intro name row member
  rcases jobsFrom name row member with ⟨old, oldMember, same⟩ | new
  · rw [← filled_basis_iff, ← same, filled_basis_iff]
    exact filled name old oldMember
  · exact filled_basis_iff.mp new

theorem jobsFrom_of_serves {domain : Domain} {before after : Server}
    (active : config.runningMode = .active) (brings : request.BringsFilled config)
    (serves : Serves config domain before request after) :
    before.JobsFrom JobRow.Filled after := by
  obtain ⟨mutates, router, world, rfl, rfl⟩ := serves
  by_cases executed : ∃ operation,
      Handlers.handle config router request = .ok (.execute operation)
  · obtain ⟨operation, decided⟩ := executed
    obtain ⟨accepted, rfl, here⟩ := operation_of_execute active decided
    have inserts := filled_of_inserts mutates accepted fun routing node same => by
      subst same
      exact brings (here routing node rfl)
    rw [run_of_execute domain decided,
      Operation.run_eq_allTrue domain (Request.mutations_of_mutates mutates)]
    have all : Within (Domain.JobsFrom JobRow.Filled)
        (allTrue (Domain.Mutation.run domain) request.operation.mutations) :=
      within_allTrue_of_mem fun mutation member =>
        (Domain.Mutation.jobsFrom_run domain mutation).mono fun before after jobsFrom =>
          Server.JobsFrom.mono (inserts mutation member) jobsFrom
    exact within_bind (within_bind all fun _ => within_pure _) (fun _ => within_pure _) world
  · have unchanged : finalState
        ((ServiceCall.routed request).run config router domain world) = world := by
      refine still_lift fun decision decided => ?_
      cases decision with
      | execute operation => exact absurd ⟨operation, decided⟩ executed
      | forward gateway forwarded => rfl
      | reply value => rfl
    rw [unchanged]
    exact refl world.server

/-! ## Runs -/

/-- From tables without jobs, no run of requests in the mode ACTIVE puts a job into a
table that does not pass the check, nor one that the constructor `Job::Job` refuses, as
long as no node brings such a job along. -/
theorem filled_of_run {domain : Domain} {before after : Server} {requests : List Request}
    (active : config.runningMode = .active)
    (run : Run (Guarded (Serves config domain) fun _ request => request.BringsFilled config)
      before requests after)
    (empty : ∀ name, (before.tables name).job = []) :
    AllFilled after ∧
      ∀ startTime query now job, ∀ row ∈
          (after.tables (domain.planningName startTime)).getReadyJob now,
        Domain.readJob (domain.planningName startTime) query (Domain.jobTexts row) = .ok job →
          Domain.checkJob job = .ok job := by
  have initial : AllFilled before := by
    intro name row member
    rw [empty name] at member
    cases member
  have filled : AllFilled after := run.keeps (fun before request after filled step =>
    allFilled_of_jobsFrom (jobsFrom_of_serves active step.2 step.1) filled) initial
  refine ⟨filled, fun startTime query now job row ready read => ?_⟩
  exact checkJob_of_filled (filled _ row (List.mem_of_mem_filter ready)) read

end Serving

/-- The schema of the template, without any rows. -/
def emptyServer : Server :=
  (⟨∅⟩ : Server).setSchema "test_domain" { Domain.oneNode with tables := {} }

/-- What one request makes of the databases. -/
def afterRequest (server : Server) (request : Request) : Server :=
  (finalState ((ServiceCall.routed request).run (localConfig .active) knowsMaster
    Domain.dailyDomain { server })).server

theorem serves_afterRequest {request : Request} (mutates : request.mutates = true)
    (server : Server) :
    Serves (localConfig .active) Domain.dailyDomain server request (afterRequest server request) :=
  ⟨mutates, knowsMaster, { server }, rfl, rfl⟩

theorem tables_emptyServer (name : String) : emptyServer.tables name = {} := by
  by_cases same : name = "test_domain"
  · rw [same]
    exact Server.tables_setSchema_self _ _ _
  · exact Server.tables_setSchema_ne same

def masterToLocal : TRoutingData where
  callingNode := { name := "master", domainName := "test_domain" }
  targetNode := { name := "localhost", domainName := "test_domain" }

/-- Add the node `localhost` with the job `backup`. -/
def addNodeWithBackup (cmdLine : String) : Request :=
  .addNode masterToLocal
    { name := "localhost", weight := 10
      jobs := [{
        name := "backup", domain := "test_domain", nodeName := "localhost", cmdLine,
        weight := 1 }] }

def addArchiveLocally : Request :=
  .addJob masterToLocal
    { name := "archive", domain := "test_domain", nodeName := "localhost", cmdLine := "tar",
      weight := 1 }

/-- A node comes with a job, and another job after them. -/
theorem filled_of_addNodeWithBackup :
    ∃ after, AllFilled after ∧
      (after.tables "test_domain").job.map JobRow.jobName = ["backup", "archive"] := by
  let between := afterRequest emptyServer (addNodeWithBackup "/bin/ls")
  have brings : (addNodeWithBackup "/bin/ls").BringsFilled (localConfig .active) := by
    intro _ job member
    cases List.mem_singleton.mp member
    constructor <;> decide
  have empty : ∀ name, (emptyServer.tables name).job = [] := by
    intro name
    rw [tables_emptyServer name]
  have run : Run (Guarded (Serves (localConfig .active) Domain.dailyDomain) fun _ request =>
      request.BringsFilled (localConfig .active)) emptyServer
        [addNodeWithBackup "/bin/ls", addArchiveLocally]
        (afterRequest between addArchiveLocally) :=
    .next ⟨serves_afterRequest rfl _, brings⟩ (.next ⟨serves_afterRequest rfl _, trivial⟩ (.stay _))
  exact ⟨_, (filled_of_run rfl run empty).1, by decide +kernel⟩

/-- The job gets into the table without a command line. -/
theorem unfilled_of_addNodeWithBackup :
    ¬ ∀ (config : Config) (domain : Domain) (before after : Server) (requests : List Request),
      config.runningMode = .active → Run (Serves config domain) before requests after →
        (∀ name, before.tables name = {}) → AllFilled after := by
  intro always
  have filled := always (localConfig .active) Domain.dailyDomain _ _ [addNodeWithBackup ""] rfl
    (.next (serves_afterRequest rfl emptyServer) (.stay _)) tables_emptyServer "test_domain"
  have unfilled : ∃ row ∈
      ((afterRequest emptyServer (addNodeWithBackup "")).tables "test_domain").job,
      row.jobCmdLine = "" := by
    decide +kernel
  obtain ⟨row, member, without⟩ := unfilled
  exact (filled row member).cmdLine without

end OpenWorkloadScheduler
