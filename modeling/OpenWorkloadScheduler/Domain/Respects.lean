import OpenWorkloadScheduler.Domain.Mutex
import OpenWorkloadScheduler.Domain.Planning

/-!
# What every method respects

The methods of `Domain` are made of the same parts: selections, the mutex, and
transactions.  A relation that these parts keep is kept along every exit of every
method whose statements are admitted.
-/

namespace OpenWorkloadScheduler.Domain

open Rpc Store Foundations

variable (domain : Domain)

/-- A transaction of a mutator that returned `true` has run all of its statements. -/
theorem runAll_of_lockedExecute {statements : List Statement} {database : Option String}
    {before after : World} (ran : lockedExecute statements database before = .ok true after) :
    ∃ session, Mysql.runAll statements ⟨database, before.server⟩ = .ok session ∧
      after.server = session.work := by
  obtain ⟨_, locked, lockRan, rest⟩ := bind_eq_ok_iff.mp ran
  obtain ⟨_, rfl⟩ := lock_eq_ok_iff.mp lockRan
  obtain ⟨executed, between, transaction, returned⟩ := bind_eq_ok_iff.mp rest
  obtain ⟨_, _, ⟨⟩, ⟨⟩⟩ := bind_eq_ok_iff.mp returned
  obtain ⟨session, all, work⟩ := Mysql.runAll_of_standaloneExecute transaction
  exact ⟨session, all, work⟩

/-- The relation is kept by reading, by the mutex, and by the transactions whose
statements are admitted. -/
structure Respects (relation : World → World → Prop)
    (admitted : Option String → Statement → Prop) : Prop where
  reading : ∀ before after, ReadOnly before after → relation before after
  mutex : ∀ (world : World) (held : Bool), relation world { world with updatesMutex := held }
  executing : ∀ {statements : List Statement} {database : Option String},
    (∀ statement ∈ statements, admitted database statement) →
      Within relation (Mysql.standaloneExecute statements database)

namespace Respects

variable {relation : World → World → Prop} [IsPreorder World relation]
  {admitted : Option String → Statement → Prop} (respects : Respects relation admitted)

include respects

/-! ## The mutators -/

theorem within_lock : Within relation lock := by
  intro world
  by_cases free : MutexFree world
  · rw [lock_of_free free]
    exact respects.mutex world true
  · rw [lock_of_locked free]
    exact refl world

theorem within_executeAndUnlock {statements : List Statement} {database : Option String}
    (admits : ∀ statement ∈ statements, admitted database statement) :
    Within relation (executeAndUnlock statements database) := by
  refine within_bind (respects.executing admits) fun executed => ?_
  exact within_bind (fun world => respects.mutex world false) fun _ => within_pure executed

theorem within_lockedExecute {statements : List Statement} {database : Option String}
    (admits : ∀ statement ∈ statements, admitted database statement) :
    Within relation (lockedExecute statements database) :=
  within_bind respects.within_lock fun _ => respects.within_executeAndUnlock admits

theorem within_execute {statement : Statement} {database : Option String}
    (admits : admitted database statement) :
    Within relation (lockedExecute [statement] database) := by
  refine respects.within_lockedExecute fun other member => ?_
  cases List.mem_singleton.mp member
  exact admits

theorem within_addJob {domainName : String} {job : TJob}
    (admits : ∀ statement ∈ jobStatements job ++ constraintStatements job,
      admitted (some domainName) statement) :
    Within relation (addJob domain domainName job) := by
  refine within_bind respects.within_lock fun _ => ?_
  refine within_bind ((within_checkNode job).mono respects.reading) fun _ => ?_
  by_cases within : WithinDuration domain job
  · rw [mapM_timeConstraintStatement domain within]
    exact respects.within_executeAndUnlock admits
  · obtain ⟨raised, left⟩ := mapM_timeConstraintStatement_of_above domain within
    intro world
    rw [left, bind_of_error (rfl : lift (.error raised : Except Raised (List Statement)) world = _)]
    exact refl world

theorem within_addNode {domainName : String} {node : TNode}
    (inserts : admitted (some domainName) (.insertIgnoreWeightedNode node.name node.weight))
    (resources : ∀ resource ∈ node.resources, admitted (some domainName)
      (.insertResource resource.name node.name resource.currentValue resource.initialValue))
    (jobs : ∀ job ∈ node.jobs, ∀ statement ∈ jobStatements job ++ constraintStatements job,
      admitted (some domainName) statement) :
    Within relation (addNode domain domainName node) := by
  refine within_andThen (respects.within_execute inserts) (within_andThen ?_ ?_)
  · exact within_allTrue_of_mem fun resource member =>
      respects.within_execute (resources resource member)
  · exact within_allTrue_of_mem fun job member => respects.within_addJob domain (jobs job member)

theorem within_removeNamedJob {domainName jobName : String}
    (admits : ∀ statement ∈ [.deleteJob jobName, .deleteLinks jobName,
      .deleteTimeConstraints jobName], admitted (some domainName) statement) :
    Within relation (removeNamedJob domainName jobName) :=
  respects.within_lockedExecute admits

/-- An update of one statement that is not made without a node. -/
theorem within_updateState {runningNode domainName : String} {statement : Statement}
    (admits : admitted (some domainName) statement) :
    Within relation
      (if runningNode = "" then return false
        else lockedExecute [statement] (some domainName)) := by
  split
  · exact within_pure false
  · exact respects.within_execute admits

/-! ## The next planning -/

theorem within_initDomainStructure {name : String}
    (admits : ∀ statement ∈ .createSchema name :: .use name :: skeletonStatements,
      admitted none statement) :
    Within relation (Mysql.initDomainStructure name) := by
  have loads : Within relation (Mysql.loadFile name) := by
    refine within_bind within_get fun world => ?_
    split
    · exact respects.executing fun statement member =>
        admits statement (List.mem_cons_of_mem _ member)
    · exact within_pure false
  refine within_bind ((Mysql.within_queryOneRow _ _).mono respects.reading) fun result => ?_
  cases result with
  | none => exact within_throw _
  | some result =>
      dsimp only
      split
      · exact within_pure true
      · refine within_bind (respects.executing ?_) fun created => ?_
        · intro statement member
          cases List.mem_singleton.mp member
          exact admits _ List.mem_cons_self
        · cases created with
          | true => exact loads
          | false => exact within_throw _

/-- The `try` block of `set_next_planning` with its handler. -/
theorem within_createPlanning (planning : String)
    (admits : ∀ statement ∈ .createSchema planning :: .use planning :: skeletonStatements,
      admitted none statement) :
    Within relation (catchProcessing (createPlanning planning)) := by
  have creates : Within relation (createPlanning planning) := by
    refine within_bind ((Mysql.within_queryOneRow _ _).mono respects.reading) fun result => ?_
    cases result with
    | none => exact within_pure _
    | some result =>
        refine within_bind ((within_lift _).mono respects.reading) fun text => ?_
        split
        · exact within_pure _
        · refine within_bind (respects.within_initDomainStructure admits) fun created => ?_
          cases created <;> exact within_pure _
  refine within_tryCatch creates fun raised => ?_
  cases raised with
  | exProcessing message => exact within_pure _
  | _ => exact within_throw _

/-- `set_next_planning` after the assignment of the start time. -/
theorem within_preparePlanning {startTime : Int}
    (admits : ∀ statement ∈ .createSchema (planningName domain startTime) ::
      .use (planningName domain startTime) :: skeletonStatements, admitted none statement)
    (adds : ∀ node, Within relation (addNode domain (planningName domain startTime) node)) :
    Within relation (preparePlanning domain startTime) := by
  refine within_bind (respects.within_createPlanning _ admits) fun result => ?_
  cases result with
  | some result => exact within_pure result
  | none =>
      refine within_bind ((within_getNodes domain _).mono respects.reading) fun nodes => ?_
      exact within_allTrue adds nodes

end Respects

end OpenWorkloadScheduler.Domain
