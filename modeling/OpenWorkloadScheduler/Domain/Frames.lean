import OpenWorkloadScheduler.Domain.Acceptance
import OpenWorkloadScheduler.Domain.Respects
import OpenWorkloadScheduler.Store.Frames

/-!
# The schema that a mutator writes to

Each mutator names a schema, by an argument or by the domain of a job, and is
meant to leave every other schema alone.  `remove_node` does not: the jobs that
`get_node` returns carry the name of the template, and it is there that
`remove_job` deletes them.
-/

namespace OpenWorkloadScheduler.Domain

open Rpc Store Foundations

variable (domain : Domain)

/-! ## One transaction -/

/-- A transaction of a mutator has changed the rows of its schema by all of its
statements, or nothing. -/
theorem executeAndUnlock_cases {statements : List Statement} (name : String) (world : World)
    (onRows : ∀ statement ∈ statements, statement.onRows = true) :
    (∃ after, executeAndUnlock statements (some name) world = .ok true after ∧
        ChangesTables name (rowsAfter statements) world.server after.server) ∨
      (∀ after, executeAndUnlock statements (some name) world ≠ .ok true after) ∧
        (finalState (executeAndUnlock statements (some name) world)).server = world.server := by
  rw [executeAndUnlock]
  have restored := @Mysql.server_standaloneExecute_of_onRows statements name world onRows
  cases ran : Mysql.standaloneExecute statements (some name) world with
  | error raised after =>
      rw [ran] at restored
      rw [bind_of_error ran]
      exact Or.inr ⟨by simp, restored (by simp)⟩
  | ok executed after =>
      rw [bind_of_ok ran]
      cases executed with
      | true =>
          have changes := Mysql.changesTables_of_standaloneExecute onRows ran
          exact Or.inl ⟨_, rfl, changes⟩
      | false =>
          rw [ran] at restored
          refine Or.inr ⟨?_, restored (by simp)⟩
          intro later impossible
          obtain ⟨_, _, _, ⟨⟩⟩ := bind_eq_ok_iff.mp impossible

theorem lockedExecute_cases {statements : List Statement} (name : String) (world : World)
    (onRows : ∀ statement ∈ statements, statement.onRows = true) :
    (∃ after, lockedExecute statements (some name) world = .ok true after ∧
        ChangesTables name (rowsAfter statements) world.server after.server) ∨
      (∀ after, lockedExecute statements (some name) world ≠ .ok true after) ∧
        (finalState (lockedExecute statements (some name) world)).server = world.server := by
  by_cases free : MutexFree world
  · rw [lockedExecute, bind_of_ok (lock_of_free free)]
    exact executeAndUnlock_cases name { world with updatesMutex := true } onRows
  · rw [lockedExecute, bind_of_error (lock_of_locked free)]
    exact Or.inr ⟨by simp, rfl⟩

theorem lockedExecute_of_rowsAfter {statements : List Statement} {name : String} {world : World}
    {schema : Schema} {tables : Tables} (quiet : Mysql.Quiet world) (free : MutexFree world)
    (found : world.server.schema? name = some schema)
    (changes : ∀ statement ∈ statements, statement.ChangesRows schema)
    (ran : rowsAfter statements schema.tables = .ok tables) :
    ∃ after, lockedExecute statements (some name) world = .ok true after ∧
      Mysql.Quiet after ∧ MutexFree after := by
  obtain ⟨session, all⟩ := Mysql.runAll_of_rowsAfter found changes ran
  have exist : Mysql.Exists (some name) world.server := by
    rintro _ ⟨⟩
    rw [found]
    rfl
  have executed := lockedExecute_of_quiet quiet free exist
    (fun statement member => (changes statement member).known) all
  exact ⟨{ world with server := session.work }, executed, quiet, free⟩

/-- Every schema but the one of the given name is as before. -/
def KeepsBeside (name : String) (before after : World) : Prop :=
  before.server.AgreesBeside name after.server

instance (name : String) : IsPreorder World (KeepsBeside name) where
  refl world := refl world.server
  trans _ _ _ first second :=
    (IsTrans.trans _ _ _ first second : Server.AgreesBeside name _ _)

theorem keepsBeside_of_same {name : String} {before after : World}
    (same : after.server = before.server) : KeepsBeside name before after := by
  rw [KeepsBeside, same]
  exact refl before.server

/-- The statements turn to no other schema. -/
theorem respects_staysIn (name : String) :
    Respects (KeepsBeside name) fun database statement =>
      (database = none ∨ database = some name) ∧ statement.StaysIn name where
  reading _ _ readOnly := keepsBeside_of_same readOnly.server
  mutex _ _ := keepsBeside_of_same rfl
  executing := by
    intro statements database admits world
    cases statements with
    | nil => exact keepsBeside_of_same (Mysql.server_standaloneExecute_nil database world)
    | cons statement statements =>
        exact Mysql.agreesBeside_standaloneExecute (admits statement List.mem_cons_self).1
          (fun other member => (admits other member).2) world

theorem respects_keepsBeside (name : String) :
    Respects (KeepsBeside name) fun database statement =>
      database = some name ∧ statement.onRows = true where
  reading := (respects_staysIn name).reading
  mutex := (respects_staysIn name).mutex
  executing admits := (respects_staysIn name).executing fun statement member =>
    ⟨Or.inr (admits statement member).1, Statement.staysIn_of_onRows name
      (admits statement member).2⟩

/-! ## Every mutator but one -/

theorem jobStatements_onRows (job : TJob) :
    ∀ statement ∈ jobStatements job ++ constraintStatements job, statement.onRows = true := by
  intro statement member
  rcases List.mem_append.mp member with member | member
  · rw [jobStatements, List.mem_append, List.mem_cons, List.mem_map, List.mem_map] at member
    rcases member with (rfl | ⟨prv, _, rfl⟩) | ⟨nxt, _, rfl⟩ <;> rfl
  · obtain ⟨constraint, _, rfl⟩ := List.mem_map.mp member
    rfl

theorem keepsBeside_execute (name : String) {statement : Statement}
    (onRows : statement.onRows = true) :
    Within (KeepsBeside name) (lockedExecute [statement] (some name)) :=
  (respects_keepsBeside name).within_execute ⟨rfl, onRows⟩

theorem keepsBeside_addJob (name : String) (job : TJob) :
    Within (KeepsBeside name) (addJob domain name job) :=
  (respects_keepsBeside name).within_addJob domain
    fun statement member => ⟨rfl, jobStatements_onRows job statement member⟩

theorem keepsBeside_addNode (name : String) (node : TNode) :
    Within (KeepsBeside name) (addNode domain name node) :=
  (respects_keepsBeside name).within_addNode domain ⟨rfl, rfl⟩ (fun _ _ => ⟨rfl, rfl⟩)
    fun job _ statement member => ⟨rfl, jobStatements_onRows job statement member⟩

theorem staysIn_of_mem {name : String} {statement : Statement}
    (member : statement ∈ .createSchema name :: .use name :: skeletonStatements) :
    statement.StaysIn name := by
  have others : ∀ statement ∈ skeletonStatements, statement.turnsTo = none := by decide
  rcases List.mem_cons.mp member with rfl | member
  · exact Or.inr rfl
  · rcases List.mem_cons.mp member with rfl | member
    · exact Or.inr rfl
    · exact Or.inl (others statement member)

/-- The preparation of a planning changes no schema but that of the planning, however it
is left. -/
theorem keepsBeside_preparePlanning (startTime : Int) :
    Within (KeepsBeside (planningName domain startTime)) (preparePlanning domain startTime) :=
  (respects_staysIn _).within_preparePlanning domain
    (fun _ member => ⟨Or.inl rfl, staysIn_of_mem member⟩) fun node =>
      keepsBeside_addNode domain _ node

/-- The statements of `remove_job`. -/
def deletions (jobName : String) : List Statement :=
  [.deleteJob jobName, .deleteLinks jobName, .deleteTimeConstraints jobName]

theorem deletions_onRows (jobName : String) :
    ∀ statement ∈ deletions jobName, statement.onRows = true := by
  intro statement member
  simp only [deletions, List.mem_cons, List.not_mem_nil, or_false] at member
  rcases member with rfl | rfl | rfl <;> rfl

theorem keepsBeside_removeNamedJob (name jobName : String) :
    Within (KeepsBeside name) (removeNamedJob name jobName) :=
  (respects_keepsBeside name).within_removeNamedJob
    fun statement member => ⟨rfl, deletions_onRows jobName statement member⟩

theorem updateJobStatements_onRows (job : TJob) :
    ∀ statement ∈ updateJobStatements job, statement.onRows = true := by
  intro statement member
  have known : ∀ other : List Statement, (∀ statement ∈ other, statement.onRows = true) →
      ∀ statement ∈ other ++ other.getLast?.toList, statement.onRows = true := by
    intro other onRows statement member
    rcases List.mem_append.mp member with member | member
    · exact onRows statement member
    · exact onRows statement (List.mem_of_getLast? (Option.mem_toList.mp member))
  refine known _ (fun other otherMember => ?_) statement member
  simp only [List.cons_append, List.nil_append, List.append_assoc, List.mem_cons,
    List.mem_append, List.mem_map] at otherMember
  rcases otherMember with rfl | rfl | ⟨_, _, rfl⟩ | rfl | ⟨_, _, rfl⟩ | rfl | ⟨_, _, rfl⟩ <;>
    rfl

/-- The second statement of `update_job` is no SQL, so its transaction never goes
through, on whatever schema it is. -/
theorem updateJob_ne_true (job : TJob) (world after : World) :
    updateJob job world ≠ .ok true after := by
  have malformed : .malformed ("DELETE FROM jobs_link WHERE job_name_nxt ='" ++ job.name ++
      "');") ∈ updateJobStatements job := by
    simp [updateJobStatements]
  intro ran
  obtain ⟨session, all, _⟩ := runAll_of_lockedExecute ran
  exact Mysql.runAll_ne_ok_of_malformed malformed _ _ all

theorem server_updateJob (job : TJob) (world : World) :
    (finalState (updateJob job world)).server = world.server := by
  rcases lockedExecute_cases job.nodeName world (updateJobStatements_onRows job) with
    ⟨after, ran, _⟩ | ⟨_, same⟩
  · exact absurd ran (updateJob_ne_true job world after)
  · exact same

/-! ## The jobs of a node -/

theorem lift_eq_ok_iff {Alpha : Type} {result : Except Raised Alpha} {value : Alpha}
    {before after : World} :
    lift result before = .ok value after ↔ result = .ok value ∧ after = before := by
  constructor
  · intro ran
    cases result with
    | error raised => cases ran
    | ok other =>
        cases ran
        exact ⟨rfl, rfl⟩
  · rintro ⟨rfl, rfl⟩
    rfl

theorem basics_of_readJobTimes {query : String} {row : List String} {job : TJob}
    (read : readJobTimes domain query row = .ok job) :
    job.domain = domain.name ∧ column row 0 = .ok job.name := by
  obtain ⟨basic, basicRead, rest⟩ := except_bind_eq_ok_iff.mp read
  obtain ⟨_, _, rest⟩ := except_bind_eq_ok_iff.mp rest
  obtain ⟨_, _, rest⟩ := except_bind_eq_ok_iff.mp rest
  obtain ⟨_, _, rest⟩ := except_bind_eq_ok_iff.mp rest
  obtain ⟨_, _, ⟨⟩⟩ := except_bind_eq_ok_iff.mp rest
  obtain ⟨name, named, rest⟩ := except_bind_eq_ok_iff.mp basicRead
  obtain ⟨_, _, rest⟩ := except_bind_eq_ok_iff.mp rest
  obtain ⟨_, _, rest⟩ := except_bind_eq_ok_iff.mp rest
  obtain ⟨_, _, rest⟩ := except_bind_eq_ok_iff.mp rest
  obtain ⟨_, _, rest⟩ := except_bind_eq_ok_iff.mp rest
  obtain ⟨_, _, rest⟩ := except_bind_eq_ok_iff.mp rest
  obtain ⟨_, _, ⟨⟩⟩ := except_bind_eq_ok_iff.mp rest
  exact ⟨rfl, named⟩

/-- Whatever the schema is, the jobs that `get_jobs` returns name the template. -/
theorem basics_of_completeJob {domainName query : String} {row : List String} {job : TJob}
    {before after : World} (ran : completeJob domain domainName query row before = .ok job after) :
    job.domain = domain.name ∧ column row 0 = .ok job.name := by
  obtain ⟨read, _, readRan, rest⟩ := bind_eq_ok_iff.mp ran
  obtain ⟨nxt, _, _, rest⟩ := bind_eq_ok_iff.mp rest
  obtain ⟨constraints, _, _, rest⟩ := bind_eq_ok_iff.mp rest
  obtain ⟨text, _, _, rest⟩ := bind_eq_ok_iff.mp rest
  have basics := basics_of_readJobTimes domain ((lift_eq_ok_iff.mp readRan).1)
  dsimp only at rest
  split at rest
  · obtain ⟨recId, _, _, rest⟩ := bind_eq_ok_iff.mp rest
    obtain ⟨recovery, _, _, ⟨⟩⟩ := bind_eq_ok_iff.mp rest
    exact basics
  · cases rest
    exact basics

/-- The names of the jobs of a node, in the order of the table. -/
def namesOn (nodeName : String) (tables : Tables) : List String :=
  (tables.job.filter (Query.runsOn (some nodeName))).map JobRow.jobName

/-- The names of the jobs that `get_node` returns: none for a node that is not
there. -/
def jobNamesOfNode (nodeName : String) (tables : Tables) : List String :=
  if tables.hasNode nodeName then namesOn nodeName tables else []

theorem jobs_of_getJobs {domainName nodeName : String} {jobs : List TJob} {before after : World}
    (ran : getJobs domain domainName (some nodeName) before = .ok jobs after) :
    (∀ job ∈ jobs, job.domain = domain.name) ∧
      jobs.map TJob.name = namesOn nodeName (before.server.tables domainName) := by
  obtain ⟨rows, between, selected, rest⟩ := bind_eq_ok_iff.mp ran
  cases rows with
  | none => cases rest
  | some rows =>
      obtain ⟨results, selects⟩ := Mysql.selects_of_queryFullResult selected
      rw [Mysql.queryFullResult_of_selects selects] at selected
      cases selected
      have ranOn := selects.ran
      rw [Query.run_eq_runOn (by simp [Query.relation]), Query.runOn_eq_ok_iff] at ranOn
      obtain ⟨schema, found, _, ⟨⟩⟩ := ranOn
      constructor
      · intro job member
        obtain ⟨row, _, _, completed⟩ := returned_of_mapM rest job member
        exact (basics_of_completeJob domain completed).1
      · have converted : List.mapM (completeJob domain domainName _)
            (List.map (fun row => row.map fun column => column.getD "NULL")
              (List.map Query.jobRowTimes _)) _ = .ok jobs after := rest
        rw [List.map_map, List.mapM_map] at converted
        rw [namesOn, Server.tables_of_schema? found]
        refine map_of_mapM (fun row job _ _ completed => ?_) converted
        have named := (basics_of_completeJob domain completed).2
        have first : column (((fun row => row.map fun column => column.getD "NULL") ∘
            Query.jobRowTimes) row) 0 = .ok row.jobName := rfl
        rw [first, Except.ok.injEq] at named
        exact named.symm

theorem jobs_of_getNode {domainName nodeName : String} {node : TNode} {before after : World}
    (ran : getNode domain domainName nodeName before = .ok node after) :
    (∀ job ∈ node.jobs, job.domain = domain.name) ∧
      node.jobs.map TJob.name = jobNamesOfNode nodeName (before.server.tables domainName) := by
  obtain ⟨row, between, selected, rest⟩ := bind_eq_ok_iff.mp ran
  cases row with
  | none => cases rest
  | some row =>
      obtain ⟨results, selects, rfl, rfl⟩ := Mysql.selects_of_queryOneRow selected
      have ranOn := selects.ran
      rw [Query.run_eq_runOn (by simp [Query.relation]), Query.runOn_eq_ok_iff] at ranOn
      obtain ⟨schema, found, _, ⟨⟩⟩ := ranOn
      rw [jobNamesOfNode, Server.tables_of_schema? found]
      cases rows : schema.tables.node.filter fun row => row.nodeName = nodeName with
      | nil =>
          have absent : ¬ schema.tables.hasNode nodeName := by
            intro present
            obtain ⟨row, member, named⟩ := List.mem_map.mp present
            have kept : row ∈ schema.tables.node.filter fun row => row.nodeName = nodeName :=
              List.mem_filter.mpr ⟨member, by simpa using named⟩
            rw [rows] at kept
            cases kept
          rw [rows] at rest
          cases rest
          rw [if_neg absent]
          exact ⟨fun _ member => absurd member List.not_mem_nil, rfl⟩
      | cons row others =>
          have kept : row ∈ schema.tables.node.filter fun row => row.nodeName = nodeName := by
            rw [rows]
            exact List.mem_cons_self
          have named : row.nodeName = nodeName := by simpa using (List.mem_filter.mp kept).2
          have present : schema.tables.hasNode nodeName :=
            List.mem_map.mpr ⟨row, (List.mem_filter.mp kept).1, named⟩
          rw [rows] at rest
          dsimp only at rest
          rw [if_pos (by simp [Query.nodeRow])] at rest
          obtain ⟨name, _, nameRan, rest⟩ := bind_eq_ok_iff.mp rest
          obtain ⟨weight, reached, weightRan, rest⟩ := bind_eq_ok_iff.mp rest
          obtain ⟨resources, later, resourcesRan, rest⟩ := bind_eq_ok_iff.mp rest
          obtain ⟨jobs, _, jobsRan, ⟨⟩⟩ := bind_eq_ok_iff.mp rest
          obtain ⟨⟨⟩, rfl⟩ := lift_eq_ok_iff.mp nameRan
          obtain ⟨_, rfl⟩ := lift_eq_ok_iff.mp weightRan
          have equipped := within_getResources domainName before.answered.answered
          rw [resourcesRan] at equipped
          have server : later.server = before.server := equipped.server
          have jobs := jobs_of_getJobs domain jobsRan
          rw [server, Server.tables_of_schema? found, named] at jobs
          rw [if_pos present]
          exact jobs

/-! ## The deletion of a job -/

theorem rowsAfter_deletions_of_referenced {tables : Tables} {jobName : String}
    (referenced : tables.jobReferenced jobName) (after : Tables) :
    rowsAfter (deletions jobName) tables ≠ .ok after := by
  rw [deletions, rowsAfter_cons]
  change (tables.deleteJob jobName >>= _) ≠ _
  rw [Tables.deleteJob, if_pos referenced]
  simp [bind, Except.bind]

theorem rowsAfter_deletions_of_free {tables : Tables} {jobName : String}
    (free : ¬ tables.jobReferenced jobName) :
    rowsAfter (deletions jobName) tables =
      .ok { tables with job := tables.job.filter fun row => row.jobName ≠ jobName } := by
  have linkless : tables.jobsLink.filter (fun row =>
      !decide (row.jobNameNxt = jobName ∨ row.jobNamePrv = jobName)) = tables.jobsLink := by
    refine List.filter_eq_self.mpr fun row member => ?_
    have apart : ¬ (row.jobNameNxt = jobName ∨ row.jobNamePrv = jobName) :=
      fun same => free (Or.inr ⟨row, member, same.symm⟩)
    simpa using apart
  have unconstrained : tables.timeConstraint.filter (fun row => row.timeCJobName ≠ jobName) =
      tables.timeConstraint := by
    refine List.filter_eq_self.mpr fun row member => ?_
    have apart : row.timeCJobName ≠ jobName := fun same => free (Or.inl ⟨row, member, same⟩)
    simpa using apart
  rw [deletions, rowsAfter_cons]
  change (tables.deleteJob jobName >>= _) = _
  rw [Tables.deleteJob, if_neg free, except_ok_bind, rowsAfter_cons]
  change Except.ok { tables with
    job := tables.job.filter fun row => row.jobName ≠ jobName
    jobsLink := tables.jobsLink.filter _
    timeConstraint := tables.timeConstraint.filter _ } = _
  rw [linkless, unconstrained]

theorem hasJob_filter_job {tables : Tables} {jobName name : String} (other : name ≠ jobName)
    (there : tables.hasJob name) :
    Tables.hasJob
      { tables with job := tables.job.filter fun row => row.jobName ≠ jobName } name := by
  obtain ⟨row, member, rfl⟩ := List.mem_map.mp there
  exact List.mem_map_of_mem (List.mem_filter.mpr ⟨member, decide_eq_true other⟩)

theorem filter_job_of_not_hasJob {tables : Tables} {jobName : String}
    (absent : ¬ tables.hasJob jobName) :
    { tables with job := tables.job.filter fun row => row.jobName ≠ jobName } = tables := by
  have same : tables.job.filter (fun row => row.jobName ≠ jobName) = tables.job := by
    refine List.filter_eq_self.mpr fun row member => ?_
    have apart : row.jobName ≠ jobName := by
      rintro rfl
      exact absent (List.mem_map_of_mem member)
    simpa using apart
  rw [same]

end OpenWorkloadScheduler.Domain
