import OpenWorkloadScheduler.Domain.Frames
import OpenWorkloadScheduler.Domain.Insertions
import OpenWorkloadScheduler.Store.JobRows

/-!
# The jobs that a mutator inserts

Jobs reach a schema by `add_job` and, nested in a node, by `add_node`.  No other
mutator inserts one: `update_job` is never executed to its end.
-/

namespace OpenWorkloadScheduler.Domain

open Rpc Store Foundations

variable (domain : Domain)

/-- Every job of every schema was there before, or is one of the inserted ones. -/
def JobsFrom (inserted : JobRow → Prop) (before after : World) : Prop :=
  before.server.JobsFrom inserted after.server

instance (inserted : JobRow → Prop) : IsPreorder World (JobsFrom inserted) where
  refl world := refl world.server
  trans _ _ _ first second :=
    (IsTrans.trans _ _ _ first second : Server.JobsFrom inserted _ _)

theorem jobsFrom_of_same {inserted : JobRow → Prop} {before after : World}
    (same : after.server = before.server) : JobsFrom inserted before after := by
  rw [JobsFrom, same]
  exact refl before.server

theorem respects_jobsFrom (inserted : JobRow → Prop) :
    Respects (JobsFrom inserted) fun _ statement => statement.onRows = true ∧
      ∀ row, statement.insertedRow = some row → inserted row.basis where
  reading _ _ readOnly := jobsFrom_of_same readOnly.server
  mutex _ _ := jobsFrom_of_same rfl
  executing admits world := Mysql.jobsFrom_standaloneExecute
    (fun statement member => (admits statement member).1)
    (fun statement member => (admits statement member).2) _ world

theorem hasJob_of_jobsFrom {inserted : JobRow → Prop} {before after : World}
    (from_ : JobsFrom inserted before after) (none : ∀ row, ¬ inserted row)
    {name jobName : String} (there : (after.server.tables name).hasJob jobName) :
    (before.server.tables name).hasJob jobName := by
  obtain ⟨row, member, rfl⟩ := List.mem_map.mp there
  rcases from_ name row member with ⟨old, oldMember, same⟩ | new
  · have named : old.basis.jobName = row.basis.jobName := congrArg JobRow.jobName same
    exact List.mem_map.mpr ⟨old, oldMember, named⟩
  · exact absurd new (none row.basis)

theorem insertedRow_of_deletions {jobName : String} :
    ∀ statement ∈ deletions jobName, ∀ row, statement.insertedRow ≠ some row := by
  intro statement member row
  simp only [deletions, List.mem_cons, List.not_mem_nil, or_false] at member
  rcases member with rfl | rfl | rfl <;> simp [Statement.insertedRow]

theorem jobsFrom_removeNamedJob (inserted : JobRow → Prop) (domainName jobName : String) :
    Within (JobsFrom inserted) (removeNamedJob domainName jobName) :=
  (respects_jobsFrom inserted).within_removeNamedJob fun statement member =>
    ⟨deletions_onRows jobName statement member,
      fun row inserts => absurd inserts (insertedRow_of_deletions statement member row)⟩

theorem jobsFrom_removeJob (inserted : JobRow → Prop) (job : TJob) :
    Within (JobsFrom inserted) (removeJob job) :=
  jobsFrom_removeNamedJob inserted job.domain job.name

theorem jobsFrom_deleteNode (inserted : JobRow → Prop) (domainName nodeName : String) :
    Within (JobsFrom inserted) (lockedExecute [.deleteNode nodeName] (some domainName)) :=
  (respects_jobsFrom inserted).within_execute ⟨rfl, by simp [Statement.insertedRow]⟩

theorem jobsFrom_removeNode (inserted : JobRow → Prop) (domainName nodeName : String) :
    Within (JobsFrom inserted) (removeNode domain domainName nodeName) := by
  have reads := (within_getNode domain domainName nodeName).mono
    (respects_jobsFrom inserted).reading
  refine within_bind reads fun node => within_andThen ?_ ?_
  · exact within_allTrue (jobsFrom_removeJob inserted) node.jobs
  · exact jobsFrom_deleteNode inserted domainName nodeName

namespace Mutation

/-- The jobs that a call inserts, where all of it goes through. -/
def Inserts : Mutation → JobRow → Prop
  | addNode _ node => fun row => ∃ job ∈ node.jobs, row = (rowOfJob job).basis
  | addJob _ job => fun row => row = (rowOfJob job).basis
  | _ => fun _ => False

theorem insertedRow_of_jobStatements {job : TJob} {statement : Statement} {row : JobRow}
    (member : statement ∈ jobStatements job ++ constraintStatements job)
    (inserts : statement.insertedRow = some row) : row = rowOfJob job := by
  rcases List.mem_append.mp member with member | member
  · rw [jobStatements, List.mem_append, List.mem_cons, List.mem_map, List.mem_map] at member
    rcases member with (rfl | ⟨prv, _, rfl⟩) | ⟨nxt, _, rfl⟩
    · exact (Option.some.inj inserts).symm
    · cases inserts
    · cases inserts
  · obtain ⟨constraint, _, rfl⟩ := List.mem_map.mp member
    cases inserts

theorem jobsFrom_run (mutation : Mutation) :
    Within (JobsFrom mutation.Inserts) (mutation.run domain) := by
  have respects := respects_jobsFrom mutation.Inserts
  cases mutation with
  | addNode domainName node =>
      refine respects.within_addNode domain ⟨rfl, by simp [Statement.insertedRow]⟩
        (fun _ _ => ⟨rfl, by simp [Statement.insertedRow]⟩) fun job jobMember statement member => ?_
      refine ⟨jobStatements_onRows job statement member, fun row inserts => ?_⟩
      exact ⟨job, jobMember, congrArg JobRow.basis (insertedRow_of_jobStatements member inserts)⟩
  | addJob domainName job =>
      refine respects.within_addJob domain fun statement member =>
        ⟨jobStatements_onRows job statement member, fun row inserts => ?_⟩
      exact congrArg JobRow.basis (insertedRow_of_jobStatements member inserts)
  | updateJob job => exact fun world => jobsFrom_of_same (server_updateJob job world)
  | removeNode domainName nodeName =>
      exact jobsFrom_removeNode domain _ domainName nodeName
  | removeJob job => exact jobsFrom_removeJob _ job
  | removeNamedJob domainName jobName => exact jobsFrom_removeNamedJob _ domainName jobName
  | updateStateOfJob domainName job state =>
      cases job with
      | none => exact within_pure false
      | some job =>
          exact respects.within_updateState ⟨rfl, by simp [Statement.insertedRow]⟩
  | updateRpcJobState domainName job =>
      exact respects.within_updateState ⟨rfl, by simp [Statement.insertedRow]⟩
  | updateJobState domainName runningNode jobName state =>
      exact respects.within_updateState ⟨rfl, by simp [Statement.insertedRow]⟩
  | updateJobStateTimes domainName runningNode jobName state startTime stopTime =>
      exact respects.within_updateState ⟨rfl, by simp [Statement.insertedRow]⟩
  | updateStateTimesOfJob domainName job state startTime stopTime =>
      exact respects.within_updateState ⟨rfl, by simp [Statement.insertedRow]⟩
  | addNamedNode domainName nodeName =>
      exact respects.within_execute ⟨rfl, by simp [Statement.insertedRow]⟩
  | addWeightedNode domainName nodeName weight =>
      exact respects.within_execute ⟨rfl, by simp [Statement.insertedRow]⟩
  | addResource domainName resource nodeName =>
      exact respects.within_execute ⟨rfl, by simp [Statement.insertedRow]⟩

end Mutation

end OpenWorkloadScheduler.Domain
