import OpenWorkloadScheduler.Store.Additions

/-!
# The keys of the rows

InnoDB checks the keys at each statement.  What the program sends keeps all of them:
no name comes twice, and no row refers to a node, a job or a recovery type that is not
there, also where rows are deleted or replaced.
-/

namespace OpenWorkloadScheduler.Store

open Rpc Foundations

namespace Tables

variable {before after : Tables}

/-- The keys that hold before hold after. -/
def KeepsKeys (before after : Tables) : Prop :=
  before.Keys → after.Keys

instance : IsPreorder Tables KeepsKeys where
  refl _ keys := keys
  trans _ _ _ first second keys := second (first keys)

theorem keys_empty : Keys {} := by
  constructor <;> simp

/-! ## Nodes and resources -/

theorem keys_insertIgnoreNode (keys : before.Keys) (row : NodeRow) :
    (before.insertIgnoreNode row).Keys := by
  rw [insertIgnoreNode]
  split
  · exact keys
  · rename_i absent
    have more : before.node.map NodeRow.nodeName ⊆
        (before.node ++ [row]).map NodeRow.nodeName := by
      rw [List.map_append]
      exact List.subset_append_left _ _
    exact { keys with
      nodeName := by
        rw [List.map_append, List.map_singleton, List.nodup_append_comm]
        exact List.nodup_cons.mpr ⟨absent, keys.nodeName⟩
      jobNode := fun job member => more (keys.jobNode job member)
      resourceNode := fun resource member => more (keys.resourceNode resource member) }

theorem keys_deleteNode (keys : before.Keys) {name : String}
    (deleted : before.deleteNode name = .ok after) : after.Keys := by
  rw [deleteNode] at deleted
  split at deleted
  · cases deleted
  · rename_i unusedByJobs
    split at deleted
    · cases deleted
    · rename_i unusedByResources
      cases deleted
      have stays : ∀ {other}, other ∈ before.node.map NodeRow.nodeName → other ≠ name →
          other ∈ (before.node.filter fun row => row.nodeName ≠ name).map NodeRow.nodeName := by
        intro other member different
        obtain ⟨row, rowMember, rfl⟩ := List.mem_map.mp member
        exact List.mem_map_of_mem (List.mem_filter.mpr ⟨rowMember, by simpa using different⟩)
      exact { keys with
        nodeName := keys.nodeName.sublist (List.filter_sublist.map _)
        jobNode := fun job member => stays (keys.jobNode job member)
          fun same => unusedByJobs ⟨job, member, same⟩
        resourceNode := fun resource member => stays (keys.resourceNode resource member)
          fun same => unusedByResources ⟨resource, member, same⟩ }

theorem keys_insertResource (keys : before.Keys) {row : ResourceRow}
    (inserted : before.insertResource row = .ok after) : after.Keys := by
  rw [insertResource] at inserted
  split at inserted
  · cases inserted
  · rename_i new
    split at inserted
    · cases inserted
    · rename_i present
      cases inserted
      exact { keys with
        resourceKey := by
          rw [List.map_append, List.map_singleton, List.nodup_append_comm]
          refine List.nodup_cons.mpr ⟨?_, keys.resourceKey⟩
          intro member
          obtain ⟨other, otherMember, same⟩ := List.mem_map.mp member
          simp only [Prod.mk.injEq] at same
          exact new ⟨other, otherMember, same⟩
        resourceNode := List.forall_mem_append.mpr
          ⟨keys.resourceNode, List.forall_mem_singleton.mpr (not_not.mp present)⟩ }

/-! ## Jobs -/

theorem keys_insertJob (keys : before.Keys) {row : JobRow} (free : row.jobRectypeId = none)
    (inserted : before.insertJob row = .ok after) : after.Keys := by
  rw [insertJob] at inserted
  split at inserted
  · cases inserted
  · rename_i absent
    split at inserted
    · cases inserted
    · rename_i present
      cases inserted
      have more : before.job.map JobRow.jobName ⊆ (before.job ++ [row]).map JobRow.jobName := by
        rw [List.map_append]
        exact List.subset_append_left _ _
      exact { keys with
        jobName := by
          rw [List.map_append, List.map_singleton, List.nodup_append_comm]
          exact List.nodup_cons.mpr ⟨absent, keys.jobName⟩
        jobNode := List.forall_mem_append.mpr
          ⟨keys.jobNode, List.forall_mem_singleton.mpr (not_not.mp present)⟩
        jobRectype := List.forall_mem_append.mpr
          ⟨keys.jobRectype, List.forall_mem_singleton.mpr (by simp [free])⟩
        timeConstraintJob := fun other member => more (keys.timeConstraintJob other member)
        jobsLinkPrv := fun link member => more (keys.jobsLinkPrv link member)
        jobsLinkNxt := fun link member => more (keys.jobsLinkNxt link member) }

/-- A job that nothing refers to can go. -/
theorem keys_withoutRow (keys : before.Keys) {name : String}
    (unused : ¬ before.jobReferenced name) :
    Keys { before with job := before.job.filter fun row => row.jobName ≠ name } := by
  have stays : ∀ {other}, other ∈ before.job.map JobRow.jobName → other ≠ name →
      other ∈ (before.job.filter fun row => row.jobName ≠ name).map JobRow.jobName := by
    intro other member different
    obtain ⟨row, rowMember, rfl⟩ := List.mem_map.mp member
    exact List.mem_map_of_mem (List.mem_filter.mpr ⟨rowMember, by simpa using different⟩)
  exact { keys with
    jobName := keys.jobName.sublist (List.filter_sublist.map _)
    jobNode := fun job member => keys.jobNode job (List.mem_of_mem_filter member)
    jobRectype := fun job member => keys.jobRectype job (List.mem_of_mem_filter member)
    timeConstraintJob := fun other member => stays (keys.timeConstraintJob other member)
      fun same => unused (Or.inl ⟨other, member, same⟩)
    jobsLinkPrv := fun link member => stays (keys.jobsLinkPrv link member)
      fun same => unused (Or.inr ⟨link, member, Or.inl same⟩)
    jobsLinkNxt := fun link member => stays (keys.jobsLinkNxt link member)
      fun same => unused (Or.inr ⟨link, member, Or.inr same⟩) }

theorem keys_deleteJob (keys : before.Keys) {name : String}
    (deleted : before.deleteJob name = .ok after) : after.Keys := by
  rw [deleteJob] at deleted
  split at deleted
  · cases deleted
  · rename_i unused
    cases deleted
    exact keys_withoutRow keys unused

/-- What refers to a job refers to one that is there. -/
theorem hasJob_of_jobReferenced (keys : before.Keys) {name : String}
    (referenced : before.jobReferenced name) : before.hasJob name := by
  cases referenced with
  | inl constrained =>
      obtain ⟨row, member, rfl⟩ := constrained
      exact keys.timeConstraintJob row member
  | inr linked =>
      obtain ⟨row, member, same⟩ := linked
      cases same with
      | inl same => exact same ▸ keys.jobsLinkPrv row member
      | inr same => exact same ▸ keys.jobsLinkNxt row member

theorem keys_replaceJob (keys : before.Keys) {row : JobRow} (free : row.jobRectypeId = none)
    (replaced : before.replaceJob row = .ok after) : after.Keys := by
  rw [replaceJob] at replaced
  split at replaced
  · cases replaced
  · rename_i replaceable
    have unused : ¬ before.jobReferenced row.jobName := fun referenced =>
      replaceable ⟨hasJob_of_jobReferenced keys referenced, referenced⟩
    exact keys_insertJob (keys_withoutRow keys unused) free replaced

/-- The keys do not depend on what else the rows of `job` hold. -/
theorem keys_mapJobs (keys : before.Keys) {change : JobRow → JobRow}
    (named : ∀ row, (change row).jobName = row.jobName)
    (located : ∀ row, (change row).jobNodeName = row.jobNodeName)
    (recovered : ∀ row, (change row).jobRectypeId = row.jobRectypeId) :
    Keys { before with job := before.job.map change } := by
  have names : (before.job.map change).map JobRow.jobName = before.job.map JobRow.jobName := by
    rw [List.map_map]
    exact List.map_congr_left fun row _ => named row
  exact { keys with
    jobName := names ▸ keys.jobName
    jobNode := by
      intro row member
      obtain ⟨other, otherMember, same⟩ := List.mem_map.mp member
      rw [← same, located]
      exact keys.jobNode other otherMember
    jobRectype := by
      intro row member
      obtain ⟨other, otherMember, same⟩ := List.mem_map.mp member
      rw [← same, recovered]
      exact keys.jobRectype other otherMember
    timeConstraintJob := fun row member => names ▸ keys.timeConstraintJob row member
    jobsLinkPrv := fun link member => names ▸ keys.jobsLinkPrv link member
    jobsLinkNxt := fun link member => names ▸ keys.jobsLinkNxt link member }

theorem keys_updateJob (keys : before.Keys) {name : String} {update : JobRow → JobRow}
    (named : ∀ row, (update row).jobName = row.jobName)
    (located : ∀ row, (update row).jobNodeName = row.jobNodeName)
    (recovered : ∀ row, (update row).jobRectypeId = row.jobRectypeId) :
    (before.updateJob name update).Keys := by
  apply keys_mapJobs keys
  · exact fun row => by split <;> [exact named row; rfl]
  · exact fun row => by split <;> [exact located row; rfl]
  · exact fun row => by split <;> [exact recovered row; rfl]

theorem keys_updateJobsWhere (keys : before.Keys) (condition : Condition) (state : EJobState)
    (times : Option (Int × Int)) :
    (before.updateJobsWhere condition fun row => row.withState state times).Keys := by
  apply keys_mapJobs keys
  all_goals
    intro row
    cases times <;> split <;> rfl

/-! ## Links and constraints -/

theorem keys_insertJobsLink (keys : before.Keys) {row : JobsLinkRow}
    (inserted : before.insertJobsLink row = .ok after) : after.Keys := by
  rw [insertJobsLink] at inserted
  split at inserted
  · cases inserted
  · rename_i new
    split at inserted
    · cases inserted
    · rename_i prv
      split at inserted
      · cases inserted
      · rename_i nxt
        cases inserted
        exact { keys with
          jobsLinkKey := by
            rw [List.nodup_append_comm]
            exact List.nodup_cons.mpr ⟨new, keys.jobsLinkKey⟩
          jobsLinkPrv := List.forall_mem_append.mpr
            ⟨keys.jobsLinkPrv, List.forall_mem_singleton.mpr (not_not.mp prv)⟩
          jobsLinkNxt := List.forall_mem_append.mpr
            ⟨keys.jobsLinkNxt, List.forall_mem_singleton.mpr (not_not.mp nxt)⟩ }

theorem keys_filterLinks (keys : before.Keys) (test : JobsLinkRow → Bool) :
    Keys { before with jobsLink := before.jobsLink.filter test } :=
  { keys with
    jobsLinkKey := keys.jobsLinkKey.sublist List.filter_sublist
    jobsLinkPrv := fun link member => keys.jobsLinkPrv link (List.mem_of_mem_filter member)
    jobsLinkNxt := fun link member => keys.jobsLinkNxt link (List.mem_of_mem_filter member) }

theorem keys_insertTimeConstraint (keys : before.Keys) {row : TimeConstraintRow}
    (inserted : before.insertTimeConstraint row = .ok after) : after.Keys := by
  rw [insertTimeConstraint] at inserted
  split at inserted
  · cases inserted
  · rename_i new
    split at inserted
    · cases inserted
    · rename_i present
      cases inserted
      exact { keys with
        timeConstraintKey := by
          rw [List.map_append, List.map_singleton, List.nodup_append_comm]
          refine List.nodup_cons.mpr ⟨?_, keys.timeConstraintKey⟩
          intro member
          obtain ⟨other, otherMember, same⟩ := List.mem_map.mp member
          simp only [Prod.mk.injEq] at same
          exact new ⟨other, otherMember, same⟩
        timeConstraintJob := List.forall_mem_append.mpr
          ⟨keys.timeConstraintJob, List.forall_mem_singleton.mpr (not_not.mp present)⟩ }

theorem keys_filterConstraints (keys : before.Keys) (test : TimeConstraintRow → Bool) :
    Keys { before with timeConstraint := before.timeConstraint.filter test } :=
  { keys with
    timeConstraintKey := keys.timeConstraintKey.sublist (List.filter_sublist.map _)
    timeConstraintJob := fun row member =>
      keys.timeConstraintJob row (List.mem_of_mem_filter member) }

end Tables

/-! ## The statements -/

/-- No statement breaks a key. -/
theorem Statement.effect_keepsKeys (statement : Statement) :
    statement.effect.Relates Tables.KeepsKeys := by
  have settled := @Statement.effect_settles statement
  cases statement with
  | insertIgnoreNode name | insertIgnoreWeightedNode name weight =>
      intro before after changed keys
      cases changed
      exact Tables.keys_insertIgnoreNode keys _
  | deleteNode name => exact fun _ _ changed keys => Tables.keys_deleteNode keys changed
  | insertJob name cmdLine nodeName weight =>
      exact fun _ _ changed keys => Tables.keys_insertJob keys rfl changed
  | insertPrvLink prv name | insertNxtLink nxt name =>
      exact fun _ _ changed keys => Tables.keys_insertJobsLink keys changed
  | insertTimeConstraint name type value =>
      exact fun _ _ changed keys => Tables.keys_insertTimeConstraint keys changed
  | insertResource name nodeName currentValue initialValue =>
      exact fun _ _ changed keys => Tables.keys_insertResource keys changed
  | replaceJob name cmdLine nodeName weight =>
      exact fun _ _ changed keys => Tables.keys_replaceJob keys rfl changed
  | replaceNxtLink nxt name =>
      exact fun _ _ changed keys =>
        Tables.keys_insertJobsLink (Tables.keys_filterLinks keys _) changed
  | replaceTimeConstraint name type value =>
      exact fun _ _ changed keys =>
        Tables.keys_insertTimeConstraint (Tables.keys_filterConstraints keys _) changed
  | deleteJob name => exact fun _ _ changed keys => Tables.keys_deleteJob keys changed
  | deleteLinks name =>
      intro before after changed keys
      cases changed
      exact Tables.keys_filterLinks keys _
  | deleteTimeConstraints name =>
      intro before after changed keys
      cases changed
      exact Tables.keys_filterConstraints keys _
  | updateJobState name state | updateJobStateTimes name state startTime stopTime =>
      intro before after changed keys
      cases changed
      exact Tables.keys_updateJob keys (fun _ => rfl) (fun _ => rfl) fun _ => rfl
  | updateJobsWhere name state times condition =>
      intro before after changed keys
      cases changed
      exact Tables.keys_updateJobsWhere keys condition state times
  | startTransaction | rollback | commit | setVariable _ | malformed _ | «use» _
  | createSchema _ | createTable _ | dropView _ | dropTable _ | createView _ _ =>
      exact settled rfl

/-! ## The server -/

namespace Server

/-- The keys hold in every schema. -/
def Keys (server : Server) : Prop :=
  ∀ planning, (server.tables planning).Keys

/-- In every schema the keys are kept. -/
def KeepsKeys (before after : Server) : Prop :=
  ∀ planning, (before.tables planning).KeepsKeys (after.tables planning)

instance : IsPreorder Server KeepsKeys where
  refl server planning := refl (server.tables planning)
  trans _ _ _ first second planning := IsTrans.trans _ _ _ (first planning) (second planning)

theorem Keys.keep {before after : Server} (keys : before.Keys) (keeps : before.KeepsKeys after) :
    after.Keys :=
  fun planning => keeps planning (keys planning)

theorem keys_empty : Keys ⟨∅⟩ :=
  fun _ => Tables.keys_empty

end Server

/-- However a transaction is left, the keys hold. -/
theorem Mysql.keepsKeys_standaloneExecute (statements : List Statement)
    (database : Option String) (world : World) :
    world.server.KeepsKeys (finalState (standaloneExecute statements database world)).server :=
  relates_standaloneExecute
    (fun statement _ _ _ ran => (Statement.effect_keepsKeys statement).of_run ran)
    database world

end OpenWorkloadScheduler.Store
