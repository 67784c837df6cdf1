import OpenWorkloadScheduler.Domain.Template
import OpenWorkloadScheduler.Store.JobStates

/-!
# What `get_ready_jobs` returns

The loop of `get_ready_jobs` pushes a job for each row of the view, up to the
first row that it cannot decode or that the constructor `Job::Job` refuses.
-/

namespace OpenWorkloadScheduler.Domain

open Rpc Store Foundations

variable (domain : Domain)

/-- A `Job` can be built from the row. -/
def isAcceptable (row : JobRow) : Bool :=
  Fits 32 row.jobWeight && row.jobState ≠ none && row.jobName ≠ "" && row.jobNodeName ≠ "" &&
    row.jobCmdLine ≠ ""

theorem planningName_ne_empty (startTime : Int) : planningName domain startTime ≠ "" := by
  intro empty
  have characters := congrArg String.toList empty
  rw [planningName, String.toList_append, String.toList_append] at characters
  simp at characters

theorem checkJob_eq_ok_iff {planning : String} (named : planning ≠ "") {row : JobRow}
    {job : TJob} :
    checkJob (basicJob planning row) = .ok job ↔
      (row.jobName ≠ "" ∧ row.jobNodeName ≠ "" ∧ row.jobCmdLine ≠ "") ∧
        job = basicJob planning row := by
  change (if row.jobName = "" then _ else if row.jobNodeName = "" then _
    else if row.jobCmdLine = "" then _ else if planning = "" then _ else _ :
      Except Raised TJob) = _ ↔ _
  by_cases name : row.jobName = ""
  · simp [name]
  · by_cases nodeName : row.jobNodeName = ""
    · simp [name, nodeName]
    · by_cases cmdLine : row.jobCmdLine = ""
      · simp [name, nodeName, cmdLine]
      · simp [name, nodeName, cmdLine, named, eq_comm]

theorem readJob_eq_ok_iff {planning query : String} {row : JobRow} {job : TJob} :
    readJob planning query (jobTexts row) = .ok job ↔
      (Fits 32 row.jobWeight ∧ row.jobState ≠ none) ∧ job = basicJob planning row := by
  have yields := yields_readJob planning query row [] { server := ⟨∅⟩ }
  rw [List.append_nil] at yields
  by_cases readable : Fits 32 row.jobWeight ∧ row.jobState ≠ none
  · have returned := yields.returns readable
    cases ran : readJob planning query (jobTexts row) with
    | error raised =>
        rw [ran] at returned
        cases returned
    | ok other =>
        rw [ran] at returned
        cases returned
        simp [readable, eq_comm]
  · have refused := yields.refuses readable
    cases ran : readJob planning query (jobTexts row) with
    | error raised => simp [readable]
    | ok other =>
        rw [ran] at refused
        cases refused

theorem readyJob_eq_ok_iff {planning query : String} (named : planning ≠ "") {row : JobRow}
    {job : TJob} :
    (do checkJob (← readJob planning query (jobTexts row)) : Except Raised TJob) = .ok job ↔
      isAcceptable row = true ∧ job = basicJob planning row := by
  rw [except_bind_eq_ok_iff]
  simp only [isAcceptable, Bool.and_eq_true, decide_eq_true_eq]
  constructor
  · rintro ⟨middle, read, checked⟩
    obtain ⟨readable, rfl⟩ := readJob_eq_ok_iff.mp read
    obtain ⟨filled, rfl⟩ := (checkJob_eq_ok_iff named).mp checked
    exact ⟨⟨⟨⟨readable, filled.1⟩, filled.2.1⟩, filled.2.2⟩, rfl⟩
  · rintro ⟨⟨⟨⟨readable, name⟩, nodeName⟩, cmdLine⟩, rfl⟩
    exact ⟨_, readJob_eq_ok_iff.mpr ⟨readable, rfl⟩,
      (checkJob_eq_ok_iff named).mpr ⟨⟨name, nodeName, cmdLine⟩, rfl⟩⟩

/-- The loop pushes the jobs of the acceptable rows up to the first other one, and
it raises there. -/
theorem readyJobs_eq {planning : String} (named : planning ≠ "") (query : String)
    (rows : List JobRow) :
    ∃ raised, readyJobs planning query (rows.map jobTexts) =
        ((rows.takeWhile isAcceptable).map (basicJob planning), raised) ∧
      (raised = none ↔ ∀ row ∈ rows, isAcceptable row = true) := by
  induction rows with
  | nil => exact ⟨none, rfl, by simp⟩
  | cons row rows inductionHypothesis =>
      obtain ⟨raised, rest, exact⟩ := inductionHypothesis
      rw [List.map_cons, readyJobs]
      by_cases acceptable : isAcceptable row = true
      · refine ⟨raised, ?_, by simp [exact, acceptable]⟩
        rw [(readyJob_eq_ok_iff named).mpr ⟨acceptable, rfl⟩]
        dsimp only
        rw [rest, List.takeWhile_cons_of_pos acceptable, List.map_cons]
      · cases ran : (do checkJob (← readJob planning query (jobTexts row)) :
            Except Raised TJob) with
        | ok job => exact absurd ((readyJob_eq_ok_iff named).mp ran).1 acceptable
        | error first =>
            refine ⟨some first, ?_, by simp [acceptable]⟩
            rw [List.takeWhile_cons_of_neg acceptable]
            rfl

/-! ## The whole selection -/

/-- The jobs that the master is offered from the tables of a planning. -/
def offeredJobs (planning : String) (tables : Tables) (now : Int)
    (runningNode : Option String) : List TJob :=
  (((tables.getReadyJob now).filter (Query.runsOn runningNode)).takeWhile isAcceptable).map
    (basicJob planning)

theorem mem_offeredJobs {planning : String} {tables : Tables} {now : Int}
    {runningNode : Option String} {job : TJob}
    (member : job ∈ offeredJobs planning tables now runningNode) :
    ∃ row ∈ tables.getReadyJob now, isAcceptable row = true ∧ job = basicJob planning row := by
  obtain ⟨row, rowMember, rfl⟩ := List.mem_map.mp member
  exact ⟨row, List.mem_of_mem_filter ((List.takeWhile_sublist _).subset rowMember),
    List.all_eq_true.mp List.all_takeWhile row rowMember, rfl⟩

/-- A job that is offered as waiting waits in the tables. -/
theorem waiting_of_basicJob {planning : String} {row : JobRow}
    (acceptable : isAcceptable row = true) (waiting : (basicJob planning row).state = .waiting) :
    row.jobState = some .waiting := by
  simp only [isAcceptable, Bool.and_eq_true, decide_eq_true_eq] at acceptable
  obtain ⟨state, equality⟩ := Option.ne_none_iff_exists'.mp acceptable.1.1.1.2
  rw [basicJob, equality] at waiting
  rw [equality, ← waiting]
  rfl

theorem nodup_offeredJobs {planning : String} {tables : Tables} {now : Int}
    {runningNode : Option String} (key : (tables.job.map JobRow.jobName).Nodup) :
    ((offeredJobs planning tables now runningNode).map TJob.name).Nodup := by
  have names : (offeredJobs planning tables now runningNode).map TJob.name =
      (((tables.getReadyJob now).filter (Query.runsOn runningNode)).takeWhile
        isAcceptable).map JobRow.jobName := by
    rw [offeredJobs, List.map_map]
    rfl
  rw [names]
  refine key.sublist (List.Sublist.map JobRow.jobName ?_)
  exact (List.takeWhile_sublist _).trans (List.filter_sublist.trans List.filter_sublist)

/-- The jobs that `get_ready_jobs` is to return in the given state. -/
def currentOffer (runningNode : Option String) (world : World) : List TJob :=
  offeredJobs (planningName domain world.planningStartTime)
    (world.server.tables (planningName domain world.planningStartTime)) world.now runningNode

theorem getReadyJobs_of_selects {runningNode : Option String} {world : World}
    {rows : List Query.ResultRow}
    (selects : Mysql.Selects (.readyJobs runningNode)
      (some (planningName domain world.planningStartTime)) world rows) :
    ∃ raised, getReadyJobs domain runningNode world =
        .ok (currentOffer domain runningNode world, raised) world.answered.answered ∧
      (raised = none ↔ ∀ row ∈ ((world.server.tables
          (planningName domain world.planningStartTime)).getReadyJob world.now).filter
            (Query.runsOn runningNode), isAcceptable row = true) := by
  have selected := selects.ran
  rw [Query.run_eq_runOn (by change "get_ready_job" ≠ ""; decide)] at selected
  obtain ⟨schema, found, _, rowsOf⟩ := Query.runOn_eq_ok_iff.mp selected
  cases rowsOf
  obtain ⟨raised, loop, exact⟩ := readyJobs_eq
    (planningName_ne_empty domain world.planningStartTime) (Query.readyJobs runningNode).text
    ((schema.tables.getReadyJob world.now).filter (Query.runsOn runningNode))
  refine ⟨raised, ?_, ?_⟩
  · rw [getReadyJobs, bind_of_ok (rfl : getCurrentPlanningName domain world = .ok _ world),
      bind_of_ok (Mysql.queryFullResult_of_selects selects)]
    dsimp only
    rw [List.map_map]
    change EStateM.Result.ok (readyJobs _ _ (List.map jobTexts _)) _ = _
    rw [loop, currentOffer, Server.tables_of_schema? found, offeredJobs]
  · rw [Server.tables_of_schema? found]
    exact exact

/-- Whatever `get_ready_jobs` has pushed is the current offer. -/
theorem offer_of_getReadyJobs {runningNode : Option String} {world after : World}
    {jobs : List TJob} {raised : Option Raised}
    (ran : getReadyJobs domain runningNode world = .ok (jobs, raised) after) :
    jobs = currentOffer domain runningNode world := by
  have selected : ∃ rows, Mysql.Selects (.readyJobs runningNode)
      (some (planningName domain world.planningStartTime)) world rows := by
    rw [getReadyJobs, bind_of_ok (rfl : getCurrentPlanningName domain world = .ok _ world)]
      at ran
    obtain ⟨result, between, queried, returned⟩ := bind_eq_ok_iff.mp ran
    cases result with
    | none => cases returned
    | some rows => exact Mysql.selects_of_queryFullResult queried
  obtain ⟨rows, selects⟩ := selected
  obtain ⟨other, returned, _⟩ := getReadyJobs_of_selects domain selects
  rw [returned] at ran
  cases ran
  rfl

end OpenWorkloadScheduler.Domain
