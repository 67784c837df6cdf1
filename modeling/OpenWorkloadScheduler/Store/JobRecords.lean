import OpenWorkloadScheduler.Store.Additions
import OpenWorkloadScheduler.Store.JobRows

/-!
# What the tables record of a job

A job is spread over three tables: its row, the links to its successors, and its
constraints.  A statement that is about other jobs leaves them alone, and one that sets a
state changes no more than the state and the times of the row.
-/

namespace OpenWorkloadScheduler.Store

open Rpc Foundations

/-- The rows of a name without what the threads write, the links from the name, and its
constraints. -/
structure JobRecord where
  rows : List JobRow
  links : List JobsLinkRow
  constraints : List TimeConstraintRow

namespace Tables

def jobRecord (tables : Tables) (name : String) : JobRecord where
  rows := (tables.job.map JobRow.basis).filter fun row => row.jobName = name
  links := tables.jobsLink.filter fun row => row.jobNamePrv = name
  constraints := tables.timeConstraint.filter fun row => row.timeCJobName = name

/-- The state of the job is not NULL. -/
def StateSet (tables : Tables) (name : String) : Prop :=
  ∀ row ∈ tables.job, row.jobName = name → row.jobState ≠ none

/-- The record of the job stays as it is. -/
structure KeepsRecord (name : String) (before after : Tables) : Prop where
  same : after.jobRecord name = before.jobRecord name
  set : before.StateSet name → after.StateSet name

instance (name : String) : IsPreorder Tables (KeepsRecord name) where
  refl _ := ⟨rfl, id⟩
  trans _ _ _ first second := ⟨second.same.trans first.same, second.set ∘ first.set⟩

section Changes

variable {before after : Tables} {name : String}

theorem keepsRecord_of_eq (job : after.job = before.job)
    (links : after.jobsLink = before.jobsLink)
    (constraints : after.timeConstraint = before.timeConstraint) :
    KeepsRecord name before after where
  same := by simp only [jobRecord, job, links, constraints]
  set := by
    intro set
    rwa [StateSet, job]

theorem keepsRecord_insertJob {row : JobRow} (other : row.jobName ≠ name)
    (inserted : before.insertJob row = .ok after) : KeepsRecord name before after := by
  rw [insertJob] at inserted
  split at inserted
  · cases inserted
  · split at inserted
    · cases inserted
    · cases inserted
      constructor
      · simp [jobRecord, JobRow.basis, other]
      · intro set old member named
        cases List.mem_append.mp member with
        | inl there => exact set old there named
        | inr new =>
            rw [List.mem_singleton.mp new] at named
            exact absurd named other

theorem keepsRecord_deleteJob {jobName : String} (other : jobName ≠ name)
    (deleted : before.deleteJob jobName = .ok after) : KeepsRecord name before after := by
  rw [deleteJob] at deleted
  split at deleted
  · cases deleted
  · cases deleted
    constructor
    · have kept : ∀ row ∈ before.job, row.jobName = name → row.jobName ≠ jobName := by
        intro row _ named same
        exact other (same.symm.trans named)
      simp only [jobRecord, JobRecord.mk.injEq, and_self, and_true, List.filter_map,
        List.filter_filter]
      apply congrArg
      apply List.filter_congr
      intro row member
      by_cases named : row.jobName = name
      · simp [JobRow.basis, named, Ne.symm other]
      · simp [JobRow.basis, named]
    · exact fun set old member named => set old (List.mem_of_mem_filter member) named

theorem keepsRecord_updateJob {tables : Tables} {jobName : String} {update : JobRow → JobRow}
    (kept : ∀ row, (update row).basis = row.basis) (set : ∀ row, (update row).jobState ≠ none) :
    KeepsRecord name tables (tables.updateJob jobName update) where
  same := by
    rw [jobRecord, map_updateJob kept]
    rfl
  set := by
    intro before row member named
    obtain ⟨old, oldMember, same⟩ := List.mem_map.mp member
    subst same
    by_cases updated : old.jobName = jobName
    · rw [if_pos updated]
      exact set old
    · rw [if_neg updated] at named ⊢
      exact before old oldMember named

theorem keepsRecord_insertJobsLink {row : JobsLinkRow} (other : row.jobNamePrv ≠ name)
    (inserted : before.insertJobsLink row = .ok after) : KeepsRecord name before after := by
  have job := job_of_insertJobsLink inserted
  rw [insertJobsLink] at inserted
  split at inserted
  · cases inserted
  · split at inserted
    · cases inserted
    · split at inserted
      · cases inserted
      · cases inserted
        exact ⟨by simp [jobRecord, other], id⟩

theorem keepsRecord_insertTimeConstraint {row : TimeConstraintRow}
    (other : row.timeCJobName ≠ name) (inserted : before.insertTimeConstraint row = .ok after) :
    KeepsRecord name before after := by
  rw [insertTimeConstraint] at inserted
  split at inserted
  · cases inserted
  · split at inserted
    · cases inserted
    · cases inserted
      exact ⟨by simp [jobRecord, other], id⟩

theorem keepsRecord_insertResource {row : ResourceRow}
    (inserted : before.insertResource row = .ok after) : KeepsRecord name before after := by
  rw [insertResource] at inserted
  repeat' split at inserted
  all_goals cases inserted
  exact keepsRecord_of_eq rfl rfl rfl

theorem keepsRecord_insertIgnoreNode (row : NodeRow) :
    KeepsRecord name before (before.insertIgnoreNode row) := by
  rw [insertIgnoreNode]
  split
  · exact refl before
  · exact keepsRecord_of_eq rfl rfl rfl

theorem keepsRecord_deleteNode {nodeName : String}
    (deleted : before.deleteNode nodeName = .ok after) : KeepsRecord name before after := by
  rw [deleteNode] at deleted
  repeat' split at deleted
  all_goals cases deleted
  exact keepsRecord_of_eq rfl rfl rfl

end Changes

end Tables

/-! ## The statements -/

/-- The statement adds nothing to the record of the job and takes nothing from it. -/
def Statement.spares (name : String) : Statement → Bool
  | insertJob other _ _ _ => other ≠ name
  | insertPrvLink prv _ => prv ≠ name
  | insertNxtLink _ other => other ≠ name
  | insertTimeConstraint other _ _ => other ≠ name
  | deleteJob other => other ≠ name
  | deleteLinks _ | deleteTimeConstraints _ => false
  | replaceJob _ _ _ _ | replaceNxtLink _ _ | replaceTimeConstraint _ _ _ => false
  | updateJobsWhere _ _ _ _ => false
  | _ => true

theorem Statement.effect_keepsRecord {statement : Statement} {name : String}
    (spares : statement.spares name = true) :
    statement.effect.Relates (Tables.KeepsRecord name) := by
  have settled := @Statement.effect_settles statement
  cases statement with
  | insertIgnoreNode other | insertIgnoreWeightedNode other weight =>
      intro before after changed
      cases changed
      exact Tables.keepsRecord_insertIgnoreNode _
  | deleteNode other => exact fun _ _ => Tables.keepsRecord_deleteNode
  | insertJob other cmdLine nodeName weight =>
      exact fun _ _ => Tables.keepsRecord_insertJob (of_decide_eq_true spares)
  | insertPrvLink prv other | insertNxtLink nxt other =>
      exact fun _ _ => Tables.keepsRecord_insertJobsLink (of_decide_eq_true spares)
  | insertTimeConstraint other type value =>
      exact fun _ _ => Tables.keepsRecord_insertTimeConstraint (of_decide_eq_true spares)
  | insertResource other nodeName currentValue initialValue =>
      exact fun _ _ => Tables.keepsRecord_insertResource
  | deleteJob other =>
      exact fun _ _ => Tables.keepsRecord_deleteJob (of_decide_eq_true spares)
  | updateJobState other state | updateJobStateTimes other state startTime stopTime =>
      intro before after changed
      cases changed
      exact Tables.keepsRecord_updateJob (fun _ => rfl) fun _ => Option.some_ne_none _
  | deleteLinks _ | deleteTimeConstraints _ => cases spares
  | replaceJob _ _ _ _ | replaceNxtLink _ _ | replaceTimeConstraint _ _ _ => cases spares
  | updateJobsWhere _ _ _ _ => cases spares
  | startTransaction | rollback | commit | setVariable _ | malformed _ | «use» _
  | createSchema _ | createTable _ | dropView _ | dropTable _ | createView _ _ =>
      exact settled rfl

/-! ## The server -/

/-- The record of a job in a schema stays as it is. -/
def Server.KeepsRecord (planning name : String) (before after : Server) : Prop :=
  (before.tables planning).KeepsRecord name (after.tables planning)

instance (planning name : String) : IsPreorder Server (Server.KeepsRecord planning name) where
  refl server := refl (server.tables planning)
  trans _ _ _ first second := (IsTrans.trans _ _ _ first second : Tables.KeepsRecord name _ _)

theorem Server.keepsRecord_of_tables {planning name : String} {before after : Server}
    (same : after.tables planning = before.tables planning) :
    before.KeepsRecord planning name after := by
  rw [KeepsRecord, same]
  exact refl _

theorem Mysql.keepsRecord_standaloneExecute {statements : List Statement} {name : String}
    (spare : ∀ statement ∈ statements, statement.spares name = true) (database : Option String)
    (planning : String) (world : World) :
    world.server.KeepsRecord planning name
      (finalState (standaloneExecute statements database world)).server :=
  relates_standaloneExecute
    (fun statement member _ _ ran =>
      (Statement.effect_keepsRecord (spare statement member)).of_run ran planning)
    database world

end OpenWorkloadScheduler.Store
