import OpenWorkloadScheduler.Domain.Frames

/-!
# What a call of `add_job` changes

`add_job` checks the node and the constraints of a job before it hands its
statements to one transaction.  Wherever the call is left, and whatever MySQL has
answered, it has added the rows of the whole job or nothing.
-/

namespace OpenWorkloadScheduler.Domain

open Rpc Store Foundations

variable (domain : Domain)

/-- The check on the node and the constraints stand before the transaction, and change
nothing. -/
theorem addJob_cases (name : String) (job : TJob) (world : World) :
    (∃ after, addJob domain name job world = .ok true after ∧ WithinDuration domain job ∧
        ChangesTables name (rowsAfter (jobStatements job ++ constraintStatements job))
          world.server after.server) ∨
      (∀ after, addJob domain name job world ≠ .ok true after) ∧
        (finalState (addJob domain name job world)).server = world.server := by
  by_cases free : MutexFree world
  · rw [addJob, bind_of_ok (lock_of_free free)]
    have readOnly := within_checkNode job { world with updatesMutex := true }
    cases checked : checkNode job { world with updatesMutex := true } with
    | error raised after =>
        rw [checked] at readOnly
        rw [bind_of_error checked]
        exact Or.inr ⟨by simp, readOnly.server⟩
    | ok value entered =>
        rw [checked] at readOnly
        have same : entered.server = world.server := readOnly.server
        rw [bind_of_ok checked]
        by_cases within : WithinDuration domain job
        · rw [mapM_timeConstraintStatement domain within, ← same]
          rcases executeAndUnlock_cases name entered (jobStatements_onRows job) with
            ⟨after, ran, changes⟩ | refused
          · exact Or.inl ⟨after, ran, within, changes⟩
          · exact Or.inr refused
        · obtain ⟨raised, left⟩ := mapM_timeConstraintStatement_of_above domain within
          rw [left]
          refine Or.inr ⟨fun after ran => ?_, same⟩
          cases ran
  · rw [addJob, bind_of_error (lock_of_locked free)]
    exact Or.inr ⟨by simp, rfl⟩

theorem changes_of_addJob {name : String} {job : TJob} {before after : World}
    (added : addJob domain name job before = .ok true after) :
    WithinDuration domain job ∧
      ChangesTables name (rowsAfter (jobStatements job ++ constraintStatements job))
        before.server after.server := by
  have changes := holds_of_ok_true (addJob_cases domain name job before) added
  exact changes

theorem finds_of_addJob {name : String} {job : TJob} {value : Bool} {before after : World}
    (ran : addJob domain name job before = .ok value after) : FindsNode job before := by
  obtain ⟨_, locked, lockRan, rest⟩ := bind_eq_ok_iff.mp ran
  obtain ⟨_, rfl⟩ := lock_eq_ok_iff.mp lockRan
  obtain ⟨_, checked, checkRan, _⟩ := bind_eq_ok_iff.mp rest
  have finds := finds_of_checkNode checkRan
  exact ⟨finds.connected, finds.answered, finds.found⟩

/-- Without failures, a job that finds its node comes to its transaction. -/
theorem addJob_of_finds {name : String} {job : TJob} {world : World} (quiet : Mysql.Quiet world)
    (free : MutexFree world) (finds : FindsNode job world) (within : WithinDuration domain job) :
    addJob domain name job world =
      lockedExecute (jobStatements job ++ constraintStatements job) (some name) world := by
  have found : FindsNode job { world with updatesMutex := true } :=
    ⟨finds.connected, finds.answered, finds.found⟩
  have quietHere : Mysql.Quiet { world with updatesMutex := true } := quiet
  have checked := checkNode_of_finds found
  rw [Mysql.answered_of_quiet quietHere, Mysql.answered_of_quiet quietHere] at checked
  rw [addJob, bind_of_ok (lock_of_free free), bind_of_ok checked,
    mapM_timeConstraintStatement domain within, lockedExecute, bind_of_ok (lock_of_free free)]
  rfl

/-- The rows of the whole job have been added to one schema: a waiting job, its links in
both directions and its constraints, none of which is above the duration. -/
structure AddsWholeJob (name : String) (job : TJob) (before after : Server) : Prop where
  within : ∀ constraint ∈ job.timeConstraints, constraint.value ≤ domain.planningDuration
  rows : ∃ schema, before.schema? name = some schema ∧
    after.schema? name = some { schema with tables := withJob schema.tables job }
  waiting : (rowOfJob job).jobState = some .waiting
  beside : before.AgreesBeside name after

/-- A call of `add_job` returns `true` and has added the rows of the whole job, or it
returns `false` or raises and every schema is as before. -/
theorem addJob_whole_or_nothing (name : String) (job : TJob) (world : World) :
    match addJob domain name job world with
    | .ok true after => AddsWholeJob domain name job world.server after.server
    | .ok false after | .error _ after => after.server = world.server := by
  rcases addJob_cases domain name job world with
    ⟨after, ran, within, changes⟩ | ⟨refused, same⟩
  · rw [ran]
    obtain ⟨schema, tables, found, changed, stored⟩ := changes.rows
    obtain ⟨_, rfl⟩ := rowsAfter_addJob_eq_ok_iff.mp changed
    exact ⟨within, ⟨schema, found, stored⟩, rfl, changes.beside⟩
  · cases left : addJob domain name job world with
    | error raised after =>
        rw [left] at same
        exact same
    | ok value after =>
        cases value with
        | true => exact absurd left (refused after)
        | false =>
            rw [left] at same
            exact same

end OpenWorkloadScheduler.Domain
