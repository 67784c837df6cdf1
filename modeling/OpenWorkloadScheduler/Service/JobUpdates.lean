import OpenWorkloadScheduler.Domain.JobRemoval
import OpenWorkloadScheduler.Service.JobTexts

/-!
# What `update_job` updates

`update_job` is to replace the row, the links and the constraints of a job in one
transaction.  The second of its statements ends with a parenthesis that nothing has
opened, so the transaction is undone for every job.
-/

namespace OpenWorkloadScheduler.Domain

open Rpc Store Foundations

/-! ## A job that becomes another one -/

/-- The row of the job with its new command, node and weight; its state and its times
stay. -/
def updatedRow (job : TJob) (row : JobRow) : JobRow :=
  if row.jobName = job.name then
    { row with jobCmdLine := job.cmdLine, jobNodeName := job.nodeName, jobWeight := job.weight }
  else row

/-- The rows, the links and the constraints of the job have become those of its new
description, and those of the other jobs are as before. -/
structure Updated (job : TJob) (before after : Tables) : Prop where
  rows : after.job.Perm (before.job.map (updatedRow job))
  links : after.jobsLink.Perm
    ((before.jobsLink.filter fun row => ¬ Touches job.name row) ++ linksOfJob job)
  constraints : after.timeConstraint.Perm
    ((before.timeConstraint.filter fun row => row.timeCJobName ≠ job.name) ++
      constraintsOfJob job)

/-- `update_job` returns `true` and has updated the job in the schema that it names. -/
def UpdatesExactly (job : TJob) (world : World) : Prop :=
  ∃ after, updateJob job world = .ok true after ∧
    Updated job (world.server.tables job.domain) (after.server.tables job.domain)

/-! ## The call -/

/-- No call of `update_job` updates its job. -/
theorem updateJob_never_updates (job : TJob) (world : World) : ¬ UpdatesExactly job world := by
  rintro ⟨after, ran, _⟩
  exact updateJob_ne_true job world after ran

/-- Nor does one that gives `load` a new weight. -/
theorem updateJob_refuses_load :
    ¬ ∀ (job : TJob) (world : World) (schema : Schema), Mysql.Quiet world → MutexFree world →
      world.server.schema? job.domain = some schema → schema.Complete → schema.tables.Keys →
      schema.tables.hasJob job.name → Handlers.checkJobArg job = .ok () →
      (∀ text ∈ pasted job, isClean text.toList = true) → schema.tables.hasNode job.nodeName →
      (∀ linked ∈ job.prv ++ job.nxt, schema.tables.hasJob linked) →
      UpdatesExactly job world := by
  intro always
  have quiet : Mysql.Quiet (stagedWorld stagedTables) := rfl
  obtain ⟨after, ran, _⟩ := always
    { name := "load", nodeName := "localhost", domain := "test_domain", cmdLine := "/bin/load"
      weight := 2 }
    (stagedWorld stagedTables) _ quiet rfl found_stagedWorld (complete_staged stagedTables)
    keys_stagedTables (by decide) rfl (by decide) (by decide) (by decide)
  exact updateJob_ne_true _ _ after ran

end OpenWorkloadScheduler.Domain
