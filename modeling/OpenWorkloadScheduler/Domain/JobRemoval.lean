import OpenWorkloadScheduler.Domain.JobRoundTrip
import OpenWorkloadScheduler.Domain.Removal

/-!
# What `remove_job` removes

`remove_job` deletes the job, its links and its constraints in one transaction, and
begins with the job.  The foreign keys of the links and the constraints refuse that
as long as there are any, so the two deletions behind it never have one to delete.
-/

namespace OpenWorkloadScheduler.Domain

open Rpc Store Foundations

/-! ## The rows without a job -/

/-- A link has the job at one of its ends. -/
def Touches (jobName : String) (row : JobsLinkRow) : Prop :=
  row.jobNamePrv = jobName ∨ row.jobNameNxt = jobName

instance (jobName : String) (row : JobsLinkRow) : Decidable (Touches jobName row) :=
  inferInstanceAs (Decidable (_ ∨ _))

/-- The rows without a job, its links and its constraints. -/
def withoutJob (tables : Tables) (jobName : String) : Tables :=
  { tables with
    job := tables.job.filter fun row => row.jobName ≠ jobName
    jobsLink := tables.jobsLink.filter fun row => ¬ Touches jobName row
    timeConstraint := tables.timeConstraint.filter fun row => row.timeCJobName ≠ jobName }

theorem keys_withoutJob {tables : Tables} (keys : tables.Keys) (jobName : String) :
    (withoutJob tables jobName).Keys := by
  have link : ∀ row ∈ (withoutJob tables jobName).jobsLink,
      row ∈ tables.jobsLink ∧ ¬ Touches jobName row := by
    intro row member
    obtain ⟨there, apart⟩ := List.mem_filter.mp member
    exact ⟨there, of_decide_eq_true apart⟩
  exact {
    nodeName := keys.nodeName
    rectypeId := keys.rectypeId
    jobName := keys.jobName.sublist (List.filter_sublist.map _)
    resourceKey := keys.resourceKey
    timeConstraintKey := keys.timeConstraintKey.sublist (List.filter_sublist.map _)
    jobsLinkKey := keys.jobsLinkKey.sublist List.filter_sublist
    jobNode := fun row member => keys.jobNode row (List.mem_filter.mp member).1
    jobRectype := fun row member => keys.jobRectype row (List.mem_filter.mp member).1
    resourceNode := keys.resourceNode
    timeConstraintJob := fun row member => by
      obtain ⟨there, other⟩ := List.mem_filter.mp member
      exact hasJob_filter_job (of_decide_eq_true other) (keys.timeConstraintJob row there)
    jobsLinkPrv := fun row member => by
      obtain ⟨there, apart⟩ := link row member
      exact hasJob_filter_job (fun same => apart (Or.inl same)) (keys.jobsLinkPrv row there)
    jobsLinkNxt := fun row member => by
      obtain ⟨there, apart⟩ := link row member
      exact hasJob_filter_job (fun same => apart (Or.inr same)) (keys.jobsLinkNxt row there) }

/-- Where nothing references the job, it is the only row to be removed. -/
theorem withoutJob_of_free {tables : Tables} {jobName : String}
    (free : ¬ tables.jobReferenced jobName) :
    withoutJob tables jobName =
      { tables with job := tables.job.filter fun row => row.jobName ≠ jobName } := by
  have links : tables.jobsLink.filter (fun row => ¬ Touches jobName row) = tables.jobsLink :=
    List.filter_eq_self.mpr fun row member =>
      decide_eq_true fun touches => free (Or.inr ⟨row, member, touches⟩)
  have constraints : tables.timeConstraint.filter (fun row => row.timeCJobName ≠ jobName) =
      tables.timeConstraint :=
    List.filter_eq_self.mpr fun row member =>
      decide_eq_true fun same => free (Or.inl ⟨row, member, same⟩)
  rw [withoutJob, links, constraints]

/-! ## The call -/

/-- `remove_job` returns `true`; the job, its links and its constraints are gone, every
other row is there, and the keys are satisfied. -/
def RemovesExactly (name jobName : String) (world : World) : Prop :=
  ∃ after schema, removeNamedJob name jobName world = .ok true after ∧
    world.server.schema? name = some schema ∧
      after.server.schema? name =
        some { schema with tables := withoutJob schema.tables jobName } ∧
      world.server.AgreesBeside name after.server ∧ (withoutJob schema.tables jobName).Keys

/-- When no call of MySQL fails, `remove_job` removes a job of a plain name from a complete
schema as it should if and only if the job has neither links nor constraints. -/
theorem removesExactly_iff {name jobName : String} {world : World} {schema : Schema}
    (quiet : Mysql.Quiet world) (free : MutexFree world)
    (found : world.server.schema? name = some schema) (legible : schema.Legible [jobName])
    (keys : schema.tables.Keys) :
    RemovesExactly name jobName world ↔
      (∀ row ∈ schema.tables.jobsLink, ¬ Touches jobName row) ∧
        ∀ row ∈ schema.tables.timeConstraint, row.timeCJobName ≠ jobName := by
  have unreferenced : ¬ schema.tables.jobReferenced jobName ↔
      (∀ row ∈ schema.tables.jobsLink, ¬ Touches jobName row) ∧
        ∀ row ∈ schema.tables.timeConstraint, row.timeCJobName ≠ jobName := by
    rw [Tables.jobReferenced, not_or, not_exists, not_exists, and_comm]
    simp only [not_and, Touches, ne_eq]
  rw [← unreferenced]
  constructor
  · rintro ⟨after, _, ran, _⟩
    exact (schema_of_removeNamedJob found ran).2.1
  · intro unreferenced
    have complete := legible.complete
    have deletable : Deletable schema :=
      ⟨complete.baseTables _ (by decide), complete.baseTables _ (by decide),
        complete.baseTables _ (by decide)⟩
    obtain ⟨after, ran, _⟩ :=
      removeNamedJob_of_quiet quiet free found deletable unreferenced
    obtain ⟨_, _, stored, beside⟩ := schema_of_removeNamedJob found ran
    refine ⟨after, schema, ran, found, ?_, beside, keys_withoutJob keys jobName⟩
    rw [stored, withoutJob_of_free unreferenced]

/-- `load` alone is removed. -/
theorem removesExactly_load :
    RemovesExactly "test_domain" "load" (stagedWorld stagedTables) := by
  have quiet : Mysql.Quiet (stagedWorld stagedTables) := rfl
  have legible : Schema.Legible ["load"] { oneNode with tables := stagedTables } :=
    ⟨complete_staged stagedTables, by decide +kernel⟩
  exact (removesExactly_iff quiet rfl found_stagedWorld legible
    keys_stagedTables).mpr ⟨fun _ none => absurd none List.not_mem_nil,
      fun _ none => absurd none List.not_mem_nil⟩

/-- `load` with the link from `archive` is not. -/
theorem not_removesExactly_load :
    ¬ ∀ (name jobName : String) (world : World) (schema : Schema), Mysql.Quiet world →
      MutexFree world → world.server.schema? name = some schema → schema.Complete →
      schema.tables.Keys → schema.tables.hasJob jobName → RemovesExactly name jobName world := by
  intro always
  have keys : (withJob stagedTables (archiveJob 18000)).Keys := by
    constructor <;> decide
  obtain ⟨after, _, ran, _⟩ := always "test_domain" "load"
    (stagedWorld (withJob stagedTables (archiveJob 18000))) _ rfl rfl
    (Server.schema?_setSchema_self _ _ _) (complete_staged _) keys (by decide)
  have there : (stagedWorld (withJob stagedTables (archiveJob 18000))).server.schema?
      "test_domain" = some { oneNode with tables := withJob stagedTables (archiveJob 18000) } :=
    Server.schema?_setSchema_self _ _ _
  exact (schema_of_removeNamedJob there ran).2.1 (by decide)

end OpenWorkloadScheduler.Domain
