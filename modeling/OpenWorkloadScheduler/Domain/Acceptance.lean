import OpenWorkloadScheduler.Domain.NextPlanning
import OpenWorkloadScheduler.Store.Acceptance

/-!
# A preparation that succeeds has met no failure

Every method that `set_next_planning` calls raises or returns `false` when one of
its selections or transactions does.  A preparation that copies the nodes and
returns `true` therefore does what it does when MySQL does not fail.  The one
failure that it takes for success is that of `load_file`.
-/

namespace OpenWorkloadScheduler.Domain

open Rpc Store Foundations

variable (domain : Domain)

/-! ## The methods that read -/

theorem survives_lift {Alpha : Type} {good : Alpha → Prop} (result : Except Raised Alpha) :
    Survives World.calmed good (lift result) := by
  cases result with
  | error raised => exact survives_throw raised
  | ok value => exact survives_pure value

/-- A method that decodes the rows of one selection, or raises without them. -/
private theorem survives_decoded {Alpha : Type} {query : Query} {database : Option String}
    {decode : List (List String) → Action Alpha} {raised : Raised}
    (decodeSurvives : ∀ rows, Survives World.calmed (fun _ => True) (decode rows)) :
    Survives World.calmed (fun _ => True) (do
      match ← Mysql.queryFullResult query database with
      | none => throw raised
      | some rows => decode rows) :=
  survives_bind_of_some (Mysql.survives_queryFullResult query database) decodeSurvives
    (hopeless_throw _ _)

theorem survives_getResources (domainName : String) :
    Survives World.calmed (fun _ => True) (getResources domainName) :=
  survives_decoded fun _ => survives_lift _

theorem survives_getJobsNext (domainName name : String) :
    Survives World.calmed (fun _ => True) (getJobsNext domainName name) :=
  survives_decoded fun _ => survives_lift _

theorem survives_getTimeConstraints (domainName jobName : String) :
    Survives World.calmed (fun _ => True) (getTimeConstraints domainName jobName) :=
  survives_decoded fun _ => survives_lift _

theorem survives_getRecoveryType (domainName : String) (recId : Int) :
    Survives World.calmed (fun _ => True) (getRecoveryType domainName recId) :=
  survives_bind_of_some (Mysql.survives_queryOneRow _ _) (fun _ => survives_lift _)
    (hopeless_throw _ _)

theorem survives_completeJob (domainName query : String) (row : List String) :
    Survives World.calmed (fun _ => True) (completeJob domain domainName query row) := by
  refine survives_bind_of_any (survives_lift _) fun job => ?_
  refine survives_bind_of_any (survives_getJobsNext _ _) fun nxt => ?_
  refine survives_bind_of_any (survives_getTimeConstraints _ _) fun constraints => ?_
  refine survives_bind_of_any (survives_lift _) fun text => ?_
  dsimp only
  split
  · refine survives_bind_of_any (survives_lift _) fun recId => ?_
    exact survives_bind_of_any (survives_getRecoveryType _ _) fun _ => survives_pure _
  · exact survives_pure _

theorem survives_getJobs (domainName : String) (runningNode : Option String) :
    Survives World.calmed (fun _ => True) (getJobs domain domainName runningNode) :=
  survives_decoded fun rows => survives_mapM (survives_completeJob domain domainName _) rows

theorem survives_getNode (domainName nodeName : String) :
    Survives World.calmed (fun _ => True) (getNode domain domainName nodeName) := by
  refine survives_bind_of_some (Mysql.survives_queryOneRow _ _) (fun row => ?_)
    (hopeless_throw _ _)
  refine survives_ite ?_ (survives_pure _)
  refine survives_bind_of_any (survives_lift _) fun name => ?_
  refine survives_bind_of_any (survives_lift _) fun weight => ?_
  refine survives_bind_of_any (survives_getResources _) fun resources => ?_
  exact survives_bind_of_any (survives_getJobs domain _ _) fun _ => survives_pure _

theorem survives_completeNode (domainName : String) (row : List String) :
    Survives World.calmed (fun _ => True) (completeNode domain domainName row) := by
  refine survives_bind_of_any (survives_lift _) fun name => ?_
  refine survives_bind_of_any (survives_lift _) fun text => ?_
  refine survives_bind_of_any (survives_getNode domain _ _) fun node => ?_
  split <;> exact survives_pure _

theorem survives_getNodes (domainName : String) :
    Survives World.calmed (fun _ => True) (getNodes domain domainName) :=
  survives_decoded fun rows => survives_mapM (survives_completeNode domain domainName) rows

/-! ## The methods that write -/

theorem survives_lock : Survives World.calmed (fun _ => True) lock := by
  intro before value after ran _
  obtain ⟨free, rfl⟩ := lock_eq_ok_iff.mp ran
  have calmedFree : MutexFree before.calmed := free
  exact lock_of_free calmedFree

theorem survives_unlock : Survives World.calmed (fun _ => True) unlock := by
  rintro before _ after ⟨⟩ _
  rfl

theorem survives_executeAndUnlock (statements : List Statement) (database : Option String) :
    Survives World.calmed (· = true) (executeAndUnlock statements database) := by
  apply survives_bind_of_true (Mysql.survives_standaloneExecute statements database)
  · exact survives_bind_of_any survives_unlock fun _ => survives_pure true
  · exact Hopeless.bind fun _ => hopeless_pure Bool.false_ne_true

theorem survives_lockedExecute (statements : List Statement) (database : Option String) :
    Survives World.calmed (· = true) (lockedExecute statements database) :=
  survives_bind_of_any survives_lock fun _ => survives_executeAndUnlock statements database

theorem survives_checkNode (job : TJob) :
    Survives World.calmed (fun _ => True) (checkNode job) := by
  refine survives_bind_of_some (Mysql.survives_queryOneRow _ _) (fun row => ?_)
    (hopeless_throw _ _)
  refine survives_bind_of_any (survives_lift _) fun count => ?_
  exact survives_ite (survives_throw _) (survives_pure ())

theorem survives_addJob (domainName : String) (job : TJob) :
    Survives World.calmed (· = true) (addJob domain domainName job) := by
  refine survives_bind_of_any survives_lock fun _ => ?_
  refine survives_bind_of_any (survives_checkNode job) fun _ => ?_
  refine survives_bind_of_any (survives_lift _) fun constraints => ?_
  exact survives_executeAndUnlock _ _

theorem survives_addNode (domainName : String) (node : TNode) :
    Survives World.calmed (· = true) (addNode domain domainName node) :=
  survives_andThen (survives_lockedExecute _ _)
    (survives_andThen (survives_allTrue (fun _ => survives_lockedExecute _ _) _)
      (survives_allTrue (survives_addJob domain domainName) _))

/-! ## The preparation -/

/-- The `try` block goes on. -/
theorem survives_createPlanning (planning : String) :
    Survives World.calmed (· = none) (createPlanning planning) := by
  refine survives_bind_of_some (Mysql.survives_queryOneRow _ _) (fun result => ?_)
    (hopeless_pure (by simp))
  refine survives_bind_of_any (survives_lift _) fun found => ?_
  refine survives_ite (survives_pure _) ?_
  exact survives_bind_of_true (Mysql.survives_initDomainStructure planning) (survives_pure none)
    (hopeless_pure (by simp))

/-- The handler of the `try` block never goes on. -/
theorem createPlanning_of_catchProcessing {planning : String} {world after : World}
    {result : Option Bool} (went : result ≠ some false)
    (ran : catchProcessing (createPlanning planning) world = .ok result after) :
    createPlanning planning world = .ok result after := by
  cases created : createPlanning planning world with
  | ok value between =>
      rw [catchProcessing_of_ok created] at ran
      exact ran
  | error raised between =>
      change EStateM.tryCatch (createPlanning planning) _ world = _ at ran
      unfold EStateM.tryCatch at ran
      rw [created] at ran
      cases raised with
      | exProcessing message =>
          cases ran
          exact absurd rfl went
      | _ => cases ran

/-- A copy that succeeds is the one of a call without failures. -/
theorem survives_copy (planning : String) :
    Survives World.calmed (· = true)
      (do addNodes domain planning (← getNodes domain domain.name)) :=
  survives_bind_of_any (survives_getNodes domain domain.name) fun nodes =>
    survives_allTrue (survives_addNode domain planning) nodes

/-- A skeleton file that cannot be opened is no reason to go on. -/
theorem createPlanning_of_closed {planning : String} {world : World}
    (quiet : Mysql.Quiet world) (closed : world.skeletonFile = false)
    (absent : world.server.schema? planning = none)
    (clear : ¬ world.server.LikeClash planning) (identifier : isIdentifier planning = true) :
    createPlanning planning world = .ok (some true) (world.holding planning {} {}) := by
  rw [createPlanning_of_absent quiet absent,
    bind_of_ok (Mysql.initDomainStructure_of_closed quiet closed absent clear identifier)]
  rfl

/-- The schema of a planning is taken for a finished one although it has no
tables: the skeleton file could not be opened, or a statement of it was refused. -/
theorem answers_of_createPlanning_true {planning : String} {world after : World}
    (absent : world.server.schema? planning = none)
    (clear : ¬ world.server.LikeClash planning)
    (ran : createPlanning planning world = .ok (some true) after) :
    ¬ Mysql.StopsWithin 8 world.answers ∧ (world.skeletonFile = false ∨
      Mysql.RefusedBetween 10 (11 + skeletonStatements.length) world.answers) := by
  obtain ⟨row, between, selected, rest⟩ := bind_eq_ok_iff.mp ran
  cases row with
  | none => cases rest
  | some row =>
      obtain ⟨rows, selects, rfl, rfl⟩ := Mysql.selects_of_queryOneRow selected
      have rowsEq := selects.ran
      rw [Query.run, absent, Except.ok.injEq] at rowsEq
      subst rowsEq
      change (do
        if ← Mysql.initDomainStructure planning then return none
        else return some true : Action (Option Bool)) world.answered.answered = _ at rest
      obtain ⟨loaded, loadedWorld, initialised, returned⟩ := bind_eq_ok_iff.mp rest
      cases loaded with
      | true => cases returned
      | false =>
          have begun := Mysql.not_stopsWithin_two selects.connected selects.answered
          have clearThere : ¬ world.answered.answered.server.LikeClash planning := clear
          have left := Mysql.answers_of_initDomainStructure_false clearThere initialised
          rw [Mysql.answers_answered_answered] at left
          refine ⟨?_, left.2.imp_right fun refused => ?_⟩
          · rw [show 8 = 2 + 6 from rfl, Mysql.stopsWithin_add]
            exact not_or.mpr ⟨begun, left.1⟩
          · have there := refused.later begun
            rwa [← Nat.add_assoc] at there

end OpenWorkloadScheduler.Domain
