import OpenWorkloadScheduler.Domain.Additions
import OpenWorkloadScheduler.Store.Integrity

/-!
# The keys of the plannings

Every method of `Domain` keeps the keys of every schema, along every exit.
-/

namespace OpenWorkloadScheduler.Domain

open Rpc Store Foundations

variable (domain : Domain)

/-! ## The other selections -/

theorem within_getJob (domainName : String) (runningNode : Option String) (jobName : String) :
    Within ReadOnly (getJob domain domainName runningNode jobName) := by
  refine within_bind (Mysql.within_queryOneRow _ _) fun row => ?_
  cases row with
  | none => exact within_throw _
  | some row =>
      refine within_bind (within_lift _) fun name => ?_
      refine within_bind (within_lift _) fun nodeName => ?_
      refine within_bind (within_lift _) fun cmdLine => ?_
      refine within_bind (within_lift _) fun weight => ?_
      refine within_bind (within_lift _) fun state => ?_
      refine within_bind (within_getJobsNext _ _) fun nxt => ?_
      exact within_bind (within_getTimeConstraints _ _) fun _ => within_pure _

theorem within_getCurrentPlanningName :
    Within ReadOnly (getCurrentPlanningName domain) :=
  within_bind within_get fun _ => within_pure _

theorem within_catchStandard {Alpha : Type} {action : Action Alpha}
    {handler : Raised → Action Alpha} (tried : Within ReadOnly action)
    (handled : ∀ raised, Within ReadOnly (handler raised)) :
    Within ReadOnly (catchStandard action handler) := by
  apply within_tryCatch tried
  intro raised
  cases raised with
  | undefinedBehaviour message => exact within_throw _
  | blocked => exact within_throw _
  | _ => exact handled _

theorem within_completeReadyJob (query : String) (row : List String) :
    Within ReadOnly (completeReadyJob domain query row) := by
  refine within_bind (within_getCurrentPlanningName domain) fun planning => ?_
  refine within_bind (within_lift _) fun job => ?_
  refine within_bind (within_lift _) fun text => ?_
  have recovery : Within ReadOnly (do
      getRecoveryType planning (← lift (cast 32 text))) :=
    within_bind (within_lift _) fun recId => within_getRecoveryType planning recId
  exact within_bind (within_catchStandard recovery fun _ => within_throw _)
    fun _ => within_pure _

theorem within_getReadyRpcJobs (runningNode : Option String) :
    Within ReadOnly (getReadyRpcJobs domain runningNode) := by
  refine within_bind within_get fun world => ?_
  dsimp only
  split
  · exact within_pure _
  · refine within_bind (within_getCurrentPlanningName domain) fun planning => ?_
    refine within_bind (Mysql.within_queryFullResult _ _) fun rows => ?_
    cases rows with
    | none => exact within_throw _
    | some rows =>
        dsimp only
        split
        · exact within_throw _
        · exact within_mapM (within_completeReadyJob domain _) rows

theorem within_getPlanning (domainName nodeName : String) :
    Within ReadOnly (getPlanning domain domainName nodeName) := by
  refine within_bind (within_getNode domain _ _) fun node => ?_
  exact within_bind within_get fun _ => within_pure _

theorem within_getAvailablePlanningNames : Within ReadOnly getAvailablePlanningNames := by
  refine within_bind (Mysql.within_queryFullResult _ _) fun rows => ?_
  exact within_bind (within_lift _) fun _ => within_pure _

theorem within_countJobs (domainName : String) (state : EJobState) :
    Within ReadOnly (countJobs domainName state) :=
  within_bind (Mysql.within_queryOneRow _ _) fun _ => within_lift _

/-! ## The removal of a node -/

theorem Respects.within_removeNode {relation : World → World → Prop} [IsPreorder World relation]
    {admitted : Option String → Statement → Prop} (respects : Respects relation admitted)
    {domainName nodeName : String}
    (removes : ∀ jobName, ∀ statement ∈ deletions jobName, admitted (some domain.name) statement)
    (deletes : admitted (some domainName) (.deleteNode nodeName)) :
    Within relation (removeNode domain domainName nodeName) := by
  intro world
  have reads := respects.reading _ _ (within_getNode domain domainName nodeName world)
  cases ran : getNode domain domainName nodeName world with
  | error raised after =>
      rw [ran] at reads
      rw [removeNode, bind_of_error ran]
      exact reads
  | ok node after =>
      rw [ran] at reads
      rw [removeNode, bind_of_ok ran]
      -- the jobs that are read name the template, whatever the schema is
      have named := (jobs_of_getNode domain ran).1
      have rest : Within relation (andThen (allTrue removeJob node.jobs)
          (lockedExecute [.deleteNode nodeName] (some domainName))) := by
        apply within_andThen _ (respects.within_execute deletes)
        apply within_allTrue_of_mem
        intro job member
        rw [removeJob, named job member]
        exact respects.within_removeNamedJob (removes job.name)
      exact IsTrans.trans _ _ _ reads (rest after)

/-! ## The keys -/

/-- The keys of every schema are kept. -/
def KeepsKeys (before after : World) : Prop :=
  before.server.KeepsKeys after.server

instance : IsPreorder World KeepsKeys where
  refl world := refl world.server
  trans _ _ _ first second := (IsTrans.trans _ _ _ first second : Server.KeepsKeys _ _)

theorem respects_keepsKeys : Respects KeepsKeys fun _ _ => True where
  reading _ _ readOnly := by
    rw [KeepsKeys, readOnly.server]
    exact refl _
  mutex world _ := refl world.server
  executing _ world := Mysql.keepsKeys_standaloneExecute _ _ world

theorem keepsKeys_preparePlanning (startTime : Int) :
    Within KeepsKeys (preparePlanning domain startTime) := by
  refine respects_keepsKeys.within_preparePlanning domain (fun _ _ => trivial) fun node => ?_
  exact respects_keepsKeys.within_addNode domain trivial (fun _ _ => trivial)
    fun _ _ _ _ => trivial

theorem keepsKeys_switchPlanning : Within KeepsKeys (switchPlanning domain) := by
  intro world
  obtain ⟨_, same⟩ := finalState_switchPlanning domain world
  rw [same]
  exact keepsKeys_preparePlanning domain (nextPlanningStartTime domain world.clock) world

end OpenWorkloadScheduler.Domain
