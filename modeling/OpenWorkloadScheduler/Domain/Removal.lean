import OpenWorkloadScheduler.Domain.JobRows

/-!
# What `remove_node` removes

`remove_node` deletes the jobs of a node before the node itself.  It reads them
from the schema that it is given and deletes jobs of the same names from the
template.  The results below say when this leaves the template alone: up to the
first job that the template refuses to delete, it must have none of them.
-/

namespace OpenWorkloadScheduler.Domain

open Rpc Store Foundations

variable (domain : Domain)

/-! ## Deletions that change nothing -/

/-- None of the jobs is deleted from the rows: the first of them that is there, if
any, is referenced, so that its deletion raises. -/
def Spared (tables : Tables) : List String → Prop
  | [] => True
  | jobName :: jobNames =>
      tables.jobReferenced jobName ∨ ¬ tables.hasJob jobName ∧ Spared tables jobNames

/-- The deletions of the jobs find the tables that they delete from. -/
def Deletable (schema : Schema) : Prop :=
  "job" ∈ schema.baseTables ∧ "jobs_link" ∈ schema.baseTables ∧
    "time_constraint" ∈ schema.baseTables

instance (schema : Schema) : Decidable (Deletable schema) :=
  inferInstanceAs (Decidable (_ ∧ _))

/-- The deletions of the jobs change nothing in the schema of the given name. -/
def SparedIn (name : String) (jobNames : List String) (server : Server) : Prop :=
  ∀ schema, server.schema? name = some schema → Deletable schema →
    Spared schema.tables jobNames

/-- Every schema is as before. -/
def KeepsSchemas (before after : World) : Prop :=
  ∀ name, after.server.schema? name = before.server.schema? name

theorem allTrue_removeJob {jobs : List TJob} {name : String}
    (named : ∀ job ∈ jobs, job.domain = name) :
    allTrue removeJob jobs = allTrue (removeNamedJob name) (jobs.map TJob.name) := by
  induction jobs with
  | nil => rfl
  | cons job jobs inductionHypothesis =>
      have rest := inductionHypothesis fun other member =>
        named other (List.mem_cons_of_mem job member)
      rw [List.map_cons, allTrue, allTrue, rest, removeJob, named job List.mem_cons_self]

theorem removeNamedJob_cases (name jobName : String) (world : World) :
    (∃ after, removeNamedJob name jobName world = .ok true after ∧
        ChangesTables name (rowsAfter (deletions jobName)) world.server after.server) ∨
      (∀ after, removeNamedJob name jobName world ≠ .ok true after) ∧
        (finalState (removeNamedJob name jobName world)).server = world.server :=
  lockedExecute_cases name world (deletions_onRows jobName)

/-- A deletion that went through has found its tables, and nothing referenced the
job. -/
theorem removed_of_removeNamedJob {name jobName : String} {world after : World}
    (ran : removeNamedJob name jobName world = .ok true after) :
    ∃ schema, world.server.schema? name = some schema ∧ Deletable schema ∧
      ¬ schema.tables.jobReferenced jobName ∧
      after.server.schema? name = some { schema with
        tables := { schema.tables with
          job := schema.tables.job.filter fun row => row.jobName ≠ jobName } } ∧
      world.server.AgreesBeside name after.server := by
  have changes := holds_of_ok_true (removeNamedJob_cases name jobName world) ran
  obtain ⟨session, all, _⟩ := runAll_of_lockedExecute ran
  obtain ⟨schema, tables, found, changed, afterFound⟩ := changes.rows
  have present : ∀ statement ∈ deletions jobName, ∀ table change,
      statement.effect = .rows table change → table ∈ schema.baseTables :=
    fun statement member table change effect =>
      Mysql.baseTables_of_runAll (deletions_onRows jobName) rfl found all member effect
  have free : ¬ schema.tables.jobReferenced jobName := fun referenced =>
    rowsAfter_deletions_of_referenced referenced tables changed
  rw [rowsAfter_deletions_of_free free, Except.ok.injEq] at changed
  subst changed
  refine ⟨schema, found, ⟨?_, ?_, ?_⟩, free, afterFound, changes.beside⟩
  · exact present (.deleteJob jobName) (by simp [deletions]) _ _ rfl
  · exact present (.deleteLinks jobName) (by simp [deletions]) _ _ rfl
  · exact present (.deleteTimeConstraints jobName) (by simp [deletions]) _ _ rfl

theorem schema_of_removeNamedJob {name jobName : String} {world after : World} {schema : Schema}
    (found : world.server.schema? name = some schema)
    (ran : removeNamedJob name jobName world = .ok true after) :
    Deletable schema ∧ ¬ schema.tables.jobReferenced jobName ∧
      after.server.schema? name = some { schema with
        tables := { schema.tables with
          job := schema.tables.job.filter fun row => row.jobName ≠ jobName } } ∧
      world.server.AgreesBeside name after.server := by
  obtain ⟨other, otherFound, removed⟩ := removed_of_removeNamedJob ran
  rw [found, Option.some.injEq] at otherFound
  rwa [← otherFound] at removed

theorem keepsSchemas_of_spared {name : String} {jobNames : List String} {world : World}
    (spared : SparedIn name jobNames world.server) :
    KeepsSchemas world (finalState (allTrue (removeNamedJob name) jobNames world)) := by
  induction jobNames generalizing world with
  | nil => exact fun _ => rfl
  | cons jobName jobNames inductionHypothesis =>
      rw [allTrue]
      rcases removeNamedJob_cases name jobName world with ⟨after, ran, _⟩ | ⟨refused, same⟩
      · obtain ⟨schema, found, deletable, free, afterFound, beside⟩ :=
          removed_of_removeNamedJob ran
        obtain ⟨absent, rest⟩ := (spared schema found deletable).resolve_left free
        rw [filter_job_of_not_hasJob absent] at afterFound
        have kept : KeepsSchemas world after := by
          intro other
          by_cases sameName : other = name
          · rw [sameName, afterFound, found]
          · exact beside other sameName
        have later := @inductionHypothesis after (by
          intro other otherFound _
          rw [afterFound, Option.some.injEq] at otherFound
          subst otherFound
          exact rest)
        rw [andThen_of_true ran]
        exact fun other => (later other).trans (kept other)
      · rw [andThen_of_not_true refused]
        intro other
        rw [same]

/-! ## Deletions that change something -/

/-- A deletion that nothing disturbs goes through when nothing references the job. -/
theorem removeNamedJob_of_quiet {name jobName : String} {world : World} {schema : Schema}
    (quiet : Mysql.Quiet world) (free : MutexFree world)
    (found : world.server.schema? name = some schema) (deletable : Deletable schema)
    (unreferenced : ¬ schema.tables.jobReferenced jobName) :
    ∃ after, removeNamedJob name jobName world = .ok true after ∧
      Mysql.Quiet after ∧ MutexFree after := by
  have changes : ∀ statement ∈ deletions jobName, statement.ChangesRows schema := by
    intro statement member
    simp only [deletions, List.mem_cons, List.not_mem_nil, or_false] at member
    rcases member with rfl | rfl | rfl
    · exact ⟨_, _, rfl, deletable.1⟩
    · exact ⟨_, _, rfl, deletable.2.1⟩
    · exact ⟨_, _, rfl, deletable.2.2⟩
  exact lockedExecute_of_rowsAfter quiet free found changes
    (rowsAfter_deletions_of_free unreferenced)

theorem loses_of_not_spared {name : String} {jobNames : List String} {world : World}
    {schema : Schema} (quiet : Mysql.Quiet world) (free : MutexFree world)
    (found : world.server.schema? name = some schema) (deletable : Deletable schema)
    (lost : ¬ Spared schema.tables jobNames) :
    ∃ jobName, schema.tables.hasJob jobName ∧
      ¬ ((finalState (allTrue (removeNamedJob name) jobNames world)).server.tables name).hasJob
        jobName := by
  induction jobNames generalizing world with
  | nil => exact absurd trivial lost
  | cons jobName jobNames inductionHypothesis =>
      rw [Spared, not_or, not_and_or, not_not] at lost
      obtain ⟨unreferenced, lost⟩ := lost
      obtain ⟨after, ran, quietAfter, freeAfter⟩ :=
        removeNamedJob_of_quiet quiet free found deletable unreferenced
      obtain ⟨_, _, afterFound, _⟩ := schema_of_removeNamedJob found ran
      rw [allTrue, andThen_of_true ran]
      by_cases there : schema.tables.hasJob jobName
      · refine ⟨jobName, there, fun gained => ?_⟩
        have kept := hasJob_of_jobsFrom
          (within_allTrue (jobsFrom_removeNamedJob (fun _ => False) name) jobNames after)
          (fun _ impossible => impossible) gained
        rw [Server.tables_of_schema? afterFound, Tables.hasJob] at kept
        obtain ⟨row, member, named⟩ := List.mem_map.mp kept
        simp [named] at member
      · rw [filter_job_of_not_hasJob there] at afterFound
        exact inductionHypothesis quietAfter freeAfter afterFound (lost.resolve_left there)

/-! ## The node -/

/-- `remove_node` leaves the template alone: it waits for the mutex, it is about the
template itself, the node cannot be read, or the template has no job to lose. -/
def LeavesTemplate (domainName nodeName : String) (world : World) : Prop :=
  ¬ MutexFree world ∨ domainName = domain.name ∨
    (∀ node after, getNode domain domainName nodeName world.calmed ≠ .ok node after) ∨
    SparedIn domain.name (jobNamesOfNode nodeName (world.server.tables domainName))
      world.server

/-- With a mutex that nobody releases, nothing is removed. -/
theorem server_allTrue_of_locked {name : String} {jobNames : List String} {world : World}
    (locked : ¬ MutexFree world) :
    finalState (allTrue (removeNamedJob name) jobNames world) = world := by
  cases jobNames with
  | nil => rfl
  | cons jobName jobNames =>
      have blocked : removeNamedJob name jobName world = .error .blocked world := by
        rw [removeNamedJob, lockedExecute, bind_of_error (lock_of_locked locked)]
      rw [allTrue, andThen_of_error blocked]
      rfl

theorem quiet_of_getNode {domainName nodeName : String} {node : TNode} {world after : World}
    (quiet : Mysql.Quiet world)
    (ran : getNode domain domainName nodeName world = .ok node after) : after = world := by
  have calm := survives_getNode domain domainName nodeName world node after ran trivial
  have same : world.calmed = world := by
    cases world
    cases quiet
    rfl
  rw [same, ran, EStateM.Result.ok.injEq] at calm
  have readOnly : ReadOnly world after := by
    have within := within_getNode domain domainName nodeName world
    rwa [ran] at within
  rw [readOnly, calm.2]
  exact same

section RemovingNode

variable {domainName nodeName : String} {world : World}

/-- The loop of `remove_node` over the jobs that it has read. -/
theorem keepsBeside_loop {node : TNode} {after : World}
    (leaves : LeavesTemplate domain domainName nodeName world)
    (ran : getNode domain domainName nodeName world = .ok node after) :
    KeepsBeside domainName after (finalState (allTrue removeJob node.jobs after)) := by
  have readOnly : ReadOnly world after := by
    have reads := within_getNode domain domainName nodeName world
    rwa [ran] at reads
  obtain ⟨named, names⟩ := jobs_of_getNode domain ran
  rw [allTrue_removeJob named, names]
  rcases leaves with locked | same | unreadable | spared
  · have held : ¬ MutexFree after := by
      rw [MutexFree, readOnly.frame.updatesMutex]
      exact locked
    rw [server_allTrue_of_locked held]
    exact refl after
  · rw [← same]
    exact within_allTrue (keepsBeside_removeNamedJob domainName) _ after
  · have readable := survives_getNode domain domainName nodeName world node after ran trivial
    exact absurd readable (unreadable node after.calmed)
  · rw [← readOnly.server] at spared ⊢
    have kept := keepsSchemas_of_spared spared
    exact fun other _ => kept other

theorem tables_removeNode_of_leavesTemplate
    (leaves : LeavesTemplate domain domainName nodeName world) {other : String}
    (different : other ≠ domainName) :
    (finalState (removeNode domain domainName nodeName world)).server.tables other =
      world.server.tables other := by
  have reads := within_getNode domain domainName nodeName world
  cases ran : getNode domain domainName nodeName world with
  | error raised after =>
      have same := reads.server
      rw [ran, finalState_error] at same
      rw [removeNode, bind_of_error ran, finalState_error, same]
  | ok node after =>
      have same := reads.server
      rw [ran, finalState_ok] at same
      have deleted : Within (KeepsBeside domainName)
          (lockedExecute [.deleteNode nodeName] (some domainName)) :=
        keepsBeside_execute domainName rfl
      have beside : KeepsBeside domainName after _ :=
        IsTrans.trans _ _ _ (keepsBeside_loop domain leaves ran) (related_andThen deleted)
      rw [removeNode, bind_of_ok ran, ← same]
      exact Server.AgreesBeside.tables beside different

theorem leavesTemplate_of_tables_removeNode
    (kept : ∀ other, other ≠ domainName →
      (finalState (removeNode domain domainName nodeName world.calmed)).server.tables other =
        world.server.tables other) :
    LeavesTemplate domain domainName nodeName world := by
  by_cases free : MutexFree world
  · by_cases same : domainName = domain.name
    · exact Or.inr (Or.inl same)
    · refine Or.inr (Or.inr ?_)
      cases ran : getNode domain domainName nodeName world.calmed with
      | error raised after => exact Or.inl (by simp)
      | ok node after =>
          obtain ⟨named, names⟩ := jobs_of_getNode domain ran
          cases quiet_of_getNode domain world.quiet_calmed ran
          refine Or.inr fun schema found deletable => ?_
          by_contra lost
          have unspared : ¬ Spared schema.tables (node.jobs.map TJob.name) := by
            rwa [names]
          obtain ⟨jobName, there, gone⟩ := loses_of_not_spared world.quiet_calmed
            (free : MutexFree world.calmed) found deletable unspared
          have unchanged := kept domain.name (Ne.symm same)
          rw [removeNode, bind_of_ok ran, Server.tables_of_schema? found] at unchanged
          rw [← unchanged] at there
          rw [← allTrue_removeJob named] at gone
          refine gone (hasJob_of_jobsFrom ?_ (fun _ impossible => impossible) there)
          exact related_andThen (jobsFrom_deleteNode (fun _ => False) domainName nodeName)
  · exact Or.inl free

end RemovingNode

/-! ## Every mutator -/

namespace Mutation

/-- The schema that a call names. -/
def named : Mutation → String
  | addNode domainName _ | addNamedNode domainName _ | addWeightedNode domainName _ _ => domainName
  | removeNode domainName _ | addJob domainName _ | removeNamedJob domainName _ => domainName
  | updateRpcJobState domainName _ | updateStateOfJob domainName _ _ => domainName
  | updateJobState domainName _ _ _ | updateJobStateTimes domainName _ _ _ _ _ => domainName
  | updateStateTimesOfJob domainName _ _ _ _ | addResource domainName _ _ => domainName
  | updateJob job | removeJob job => job.domain

/-- The call leaves the schemas alone that it does not name. -/
def LeavesOthers : Mutation → World → Prop
  | removeNode domainName nodeName => LeavesTemplate domain domainName nodeName
  | _ => fun _ => True

/-- The server reads the names that the deletions in the template depend on as they are meant,
and tells them apart: those of the planning, and those of the template. -/
def PlainIn (server : Server) : Mutation → Prop
  | removeNode domainName nodeName =>
      Plain (nodeName :: (server.tables domainName).names ++ (server.tables domain.name).names)
  | _ => True

theorem keepsBeside_updatesState (name runningNode : String) {statement : Statement}
    (onRows : statement.onRows = true) :
    Within (KeepsBeside name)
      (if runningNode = "" then return false else lockedExecute [statement] (some name)) := by
  split
  · exact within_pure false
  · exact keepsBeside_execute name onRows

theorem keepsBeside_run {mutation : Mutation}
    (other : ∀ domainName nodeName, mutation ≠ .removeNode domainName nodeName) :
    Within (KeepsBeside mutation.named) (mutation.run domain) := by
  cases mutation with
  | addNode domainName node => exact keepsBeside_addNode domain domainName node
  | addNamedNode domainName nodeName => exact keepsBeside_execute domainName rfl
  | addWeightedNode domainName nodeName weight => exact keepsBeside_execute domainName rfl
  | removeNode domainName nodeName => exact absurd rfl (other domainName nodeName)
  | addJob domainName job => exact keepsBeside_addJob domain domainName job
  | updateJob job => exact fun world => keepsBeside_of_same (server_updateJob job world)
  | removeJob job => exact keepsBeside_removeNamedJob job.domain job.name
  | removeNamedJob domainName jobName => exact keepsBeside_removeNamedJob domainName jobName
  | updateRpcJobState domainName job => exact keepsBeside_updatesState domainName _ rfl
  | updateStateOfJob domainName job state =>
      cases job with
      | none => exact within_pure false
      | some job => exact keepsBeside_updatesState domainName _ rfl
  | updateJobState domainName runningNode jobName state =>
      exact keepsBeside_updatesState domainName _ rfl
  | updateJobStateTimes domainName runningNode jobName state startTime stopTime =>
      exact keepsBeside_updatesState domainName _ rfl
  | updateStateTimesOfJob domainName job state startTime stopTime =>
      exact keepsBeside_updatesState domainName _ rfl
  | addResource domainName resource nodeName => exact keepsBeside_execute domainName rfl

end Mutation

/-- A node with one job. -/
def bothRows : Schema :=
  { oneNode with
    tables := { oneNode.tables with
      job := [{
        jobName := "backup", jobCmdLine := "/bin/ls", jobNodeName := "localhost",
        jobWeight := 1 }] } }

/-- The template of `dailyDomain` and the planning of its first day, with the same
rows. -/
def plannedWorld : World where
  server := ((⟨∅⟩ : Server).setSchema "test_domain" bothRows).setSchema "test_domain_0" bothRows

/-- The planning has a job that the template has lost. -/
def strippedWorld : World where
  server := ((⟨∅⟩ : Server).setSchema "test_domain" oneNode).setSchema "test_domain_0" bothRows

end OpenWorkloadScheduler.Domain
