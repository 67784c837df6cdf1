import OpenWorkloadScheduler.Domain.Respects
import OpenWorkloadScheduler.Store.JobStates

/-!
# The methods of the master advance the jobs

However `switch_planning` and the updates of a job thread are left, the jobs that
are there stay, and none of them begins to wait.
-/

namespace OpenWorkloadScheduler

open Rpc Store Foundations

/-- The jobs of the server have advanced. -/
def Store.World.Advances (before after : World) : Prop :=
  before.server.Advances after.server

instance : IsPreorder World World.Advances where
  refl world := refl world.server
  trans _ _ _ first second :=
    (IsTrans.trans _ _ _ first second : Server.Advances _ _)

theorem Store.ReadOnly.advances {before after : World} (readOnly : ReadOnly before after) :
    before.Advances after := by
  rw [World.Advances, readOnly.server]
  exact refl before.server

namespace Domain

variable (domain : Domain)

/-! ## The mutators -/

theorem respects_advances :
    Respects World.Advances fun _ statement => statement.settles = true where
  reading _ _ readOnly := readOnly.advances
  mutex world _ := refl world.server
  executing settle world := Mysql.advances_standaloneExecute settle _ world

theorem jobStatements_settle (job : TJob) :
    ∀ statement ∈ jobStatements job, statement.settles = true := by
  intro statement member
  rw [jobStatements, List.mem_append, List.mem_cons, List.mem_map, List.mem_map] at member
  rcases member with (rfl | ⟨prv, _, rfl⟩) | ⟨nxt, _, rfl⟩ <;> rfl

theorem constraintStatements_settle (job : TJob) :
    ∀ statement ∈ constraintStatements job, statement.settles = true := by
  intro statement member
  obtain ⟨constraint, _, rfl⟩ := List.mem_map.mp member
  rfl

theorem advances_addNode (domainName : String) (node : TNode) :
    Within World.Advances (addNode domain domainName node) := by
  apply respects_advances.within_addNode domain rfl (fun _ _ => rfl)
  intro job _ statement member
  rcases List.mem_append.mp member with member | member
  · exact jobStatements_settle job statement member
  · exact constraintStatements_settle job statement member

/-! ## `switch_planning` -/

theorem skeletonStatements_settle :
    ∀ statement ∈ skeletonStatements, statement.settles = true := by
  decide

theorem advances_setNextPlanning (reference : Reference) :
    Within World.Advances (setNextPlanning domain reference) := by
  refine within_bind (within_bind within_get fun _ => within_pure _) fun startTime => ?_
  refine within_bind ?_ fun _ => ?_
  · cases reference with
    | planningStartTime => exact fun world => refl world.server
    | result => exact within_pure ()
  · refine respects_advances.within_preparePlanning domain ?_ (advances_addNode domain _)
    rintro statement member
    rcases List.mem_cons.mp member with rfl | member
    · rfl
    · rcases List.mem_cons.mp member with rfl | member
      · rfl
      · exact skeletonStatements_settle statement member

theorem advances_switchPlanning : Within World.Advances (switchPlanning domain) := by
  refine within_bind (within_bind within_get fun _ => within_pure _) fun result => ?_
  refine within_bind (advances_setNextPlanning domain .result) fun prepared => ?_
  cases prepared with
  | false => exact within_pure false
  | true => exact within_bind (fun world => refl world.server) fun _ => within_pure true

/-! ## The states that a job thread writes -/

theorem advances_updateStateOfJob (domainName : String) (job : TJob) {state : EJobState}
    (leaves : state ≠ .waiting) :
    Within World.Advances (updateStateOfJob domainName (some job) state) :=
  respects_advances.within_updateState (by simpa [Statement.settles] using leaves)

theorem advances_updateStateTimesOfJob (domainName : String) (job : TJob) {state : EJobState}
    (leaves : state ≠ .waiting) (startTime stopTime : Int) :
    Within World.Advances (updateStateTimesOfJob domainName job state startTime stopTime) :=
  respects_advances.within_updateState (by simpa [Statement.settles] using leaves)

/-- A mutator of one statement that returned `true` has run it on the schema. -/
theorem run_of_lockedExecute {statement : Statement} {domainName : String}
    {before after : World}
    (ran : lockedExecute [statement] (some domainName) before = .ok true after) :
    ∃ session, statement.run ⟨some domainName, before.server⟩ = .ok session ∧
      after.server = session.work := by
  obtain ⟨session, all, work⟩ := runAll_of_lockedExecute ran
  obtain ⟨other, first, rest⟩ := Mysql.runAll_cons_eq_ok_iff.mp all
  cases rest
  exact ⟨session, first, work⟩

/-- Once the update has returned `true`, no job of the name waits. -/
theorem not_waits_of_updateStateOfJob {planning : String} {job : TJob} {state : EJobState}
    {before after : World} (leaves : state ≠ .waiting)
    (ran : updateStateOfJob planning (some job) state before = .ok true after) :
    ¬ (after.server.tables planning).Waits job.name := by
  change (if job.nodeName = "" then return false
    else lockedExecute [.updateJobState job.name state] (some planning) : Action Bool)
      before = _ at ran
  split at ran
  · cases ran
  · obtain ⟨session, updated, work⟩ := run_of_lockedExecute ran
    rw [Statement.run, Statement.effect, Effect.run] at updated
    obtain ⟨name, schema, tables, database, found, _, changed, rfl⟩ :=
      Session.changeTables_eq_ok_iff.mp updated
    cases database
    cases changed
    rw [work, Server.tables_setSchema_self]
    rintro ⟨row, member, sameName, waiting⟩
    obtain ⟨old, _, _, equality⟩ := (@Tables.mem_updateJob schema.tables job.name
      (fun row => { row with jobState := some state }) row fun _ => rfl).mp member
    rw [if_pos sameName] at equality
    rw [equality] at waiting
    exact leaves (Option.some.inj waiting)

end Domain

end OpenWorkloadScheduler
