import OpenWorkloadScheduler.Domain.Mutex
import OpenWorkloadScheduler.Service.PlanningHandlers

/-!
# The mode PASSIVE

A node in the mode PASSIVE works for its master only: whatever it is asked for,
its database changes at the request of the node that it knows as its master, and
of nobody else.
-/

namespace OpenWorkloadScheduler

open Rpc Store Foundations

variable {config : Config} {router : Router}

/-! ## The checks of the mode PASSIVE -/

theorem callingNode_of_checks {request : Request} (checked : request.checks = .ok ()) :
    request.callingNode.name ≠ "" := by
  have known : ∀ {domainName : String} {callingNode : TNode},
      Handlers.checkCallingNode domainName callingNode = .ok () → callingNode.name ≠ "" := by
    intro domainName callingNode passed empty
    unfold Handlers.checkCallingNode at passed
    split at passed <;> cases passed
  have routed : ∀ {routing : TRoutingData},
      Handlers.checkRoutingArgs routing = .ok () → routing.callingNode.name ≠ "" := by
    intro routing passed
    obtain ⟨_, first, _⟩ := except_bind_eq_ok_iff.mp passed
    exact known first
  have first : ∀ {first second : Except Raised Unit},
      (first >>= fun _ => second) = .ok () → first = .ok () := by
    intro first second passed
    obtain ⟨_, firstPassed, _⟩ := except_bind_eq_ok_iff.mp passed
    exact firstPassed
  cases request with
  | addNode routing node => exact routed (first checked)
  | removeNode routing node => exact routed (first checked)
  | getNode routing node => exact routed checked
  | getNodes routing => exact routed checked
  | getJobs routing => exact routed checked
  | getReadyJobs routing => exact routed checked
  | getJob routing job => exact routed (first checked)
  | addJob routing job => exact known (first checked)
  | updateJob routing job => exact known (first checked)
  | removeJob routing job => exact known (first checked)
  | updateJobState routing job => exact known checked
  | monitorFailedJobs routing => exact known checked
  | monitorWaitingJobs routing => exact known checked

theorem checkMasterNode_eq_ok_iff {callingNodeName targetNodeName : String} :
    Handlers.checkMasterNode config router callingNodeName targetNodeName = .ok () ↔
      router.masterNode = callingNodeName ∧ config.getParam "node_name" = some targetNodeName := by
  unfold Handlers.checkMasterNode
  by_cases known : router.masterNode = callingNodeName
  · rw [if_neg (not_not.mpr known)]
    constructor
    · intro passed
      obtain ⟨nodeName, read, rest⟩ := except_bind_eq_ok_iff.mp passed
      by_cases same : nodeName = targetNodeName
      · rw [← same]
        exact ⟨known, Config.param_eq_ok_iff.mp read⟩
      · rw [if_pos same] at rest
        cases rest
    · rintro ⟨_, named⟩
      rw [Config.param_of_getParam named, except_ok_bind, if_neg (not_not.mpr rfl)]
      rfl
  · rw [if_pos known]
    constructor
    · intro passed
      cases passed
    · rintro ⟨same, _⟩
      exact absurd same known

/-- In the mode PASSIVE an operation is performed for the master at the target. -/
theorem master_of_execute {request : Request} {operation : Operation}
    (passive : config.runningMode = .passive)
    (decided : Handlers.handle config router request = .ok (.execute operation)) :
    request.passiveOperation = some operation ∧ request.callingNode.name ≠ "" ∧
      router.masterNode = request.callingNode.name ∧
        config.getParam "node_name" = some request.target := by
  rw [Handlers.handle_eq] at decided
  obtain ⟨_, checked, branch⟩ := except_bind_eq_ok_iff.mp decided
  rw [Handlers.byMode, passive] at branch
  cases performed : request.passiveOperation with
  | none =>
      rw [Request.passive, performed] at branch
      cases branch
  | some expected =>
      rw [Request.passive, performed] at branch
      obtain ⟨_, master, same⟩ := except_bind_eq_ok_iff.mp branch
      cases same
      exact ⟨rfl, callingNode_of_checks checked, checkMasterNode_eq_ok_iff.mp master⟩

/-! ## The database of a node in the mode PASSIVE -/

theorem still_lift {Alpha Beta : Type} {result : Except Raised Alpha}
    {next : Alpha → Action Beta} {world : World}
    (still : ∀ value, result = .ok value → finalState (next value world) = world) :
    finalState ((Domain.lift result >>= next) world) = world := by
  cases result with
  | error raised => rfl
  | ok value => exact still value rfl

/-- A node in the mode PASSIVE answers none of the requests about plannings. -/
theorem handlePlanning_of_passive (passive : config.runningMode = .passive)
    (request : PlanningRequest) (decision : PlanningDecision) :
    Handlers.handlePlanning config router request ≠ .ok decision := by
  intro decided
  obtain ⟨initial, operation, handled⟩ := Handlers.handlePlanning_eq request
  rw [handled, Handlers.planningByMode, passive] at decided
  obtain ⟨_, _, rest⟩ := except_bind_eq_ok_iff.mp decided
  cases rest

/-- The call asks for an operation in the name of the master, at its target. -/
def ServiceCall.FromMaster (config : Config) (router : Router) : ServiceCall → Prop
  | routed request =>
      request.callingNode.name ≠ "" ∧ router.masterNode = request.callingNode.name ∧
        config.getParam "node_name" = some request.target
  | _ => False

/-- In the mode PASSIVE a call of the service leaves the database as it is, unless a
master is known, the caller has its name, and the call asks for this node. -/
theorem passive_unchanged_or_fromMaster (domain : Domain)
    (passive : config.runningMode = .passive) (call : ServiceCall) (world : World) :
    (finalState (call.run config router domain world)).server = world.server ∨
      call.FromMaster config router ∧ router.masterNode ≠ "" := by
  cases call with
  | hello targetNode => exact Or.inl (congrArg World.server (still_lift fun _ _ => rfl))
  | reachMaster => exact Or.inl (congrArg World.server (still_lift fun _ _ => rfl))
  | planning request =>
      refine Or.inl (congrArg World.server (still_lift fun decision decided => ?_))
      exact absurd decided (handlePlanning_of_passive passive request decision)
  | routed request =>
      by_cases executed : ∃ operation,
          Handlers.handle config router request = .ok (.execute operation)
      · obtain ⟨operation, decided⟩ := executed
        obtain ⟨_, named, master, target⟩ := master_of_execute passive decided
        exact Or.inr ⟨⟨named, master, target⟩, by rwa [master]⟩
      · refine Or.inl (congrArg World.server (still_lift fun decision decided => ?_))
        cases decision with
        | execute operation => exact absurd ⟨operation, decided⟩ executed
        | forward gateway forwarded => rfl
        | reply value => rfl

def localConfig (runningMode : ERunningMode) : Config where
  configOptions := [⟨"node_name", "localhost"⟩].toAList
  runningMode := runningMode

def knowsMaster : Router where
  masterNode := "master"

/-- Add the node `second`, in the name of the given node. -/
def addSecond (callingNodeName : String) : Request :=
  .addNode
    { callingNode := { name := callingNodeName, domainName := "test_domain" }
      targetNode := { name := "localhost", domainName := "test_domain" } }
    { name := "second", weight := 10 }

theorem unchanged_by_stranger :
    (finalState ((ServiceCall.routed (addSecond "stranger")).run (localConfig .passive)
      knowsMaster Domain.dailyDomain Domain.oneNodeWorld)).server = Domain.oneNodeWorld.server := by
  rcases @passive_unchanged_or_fromMaster (localConfig .passive) knowsMaster Domain.dailyDomain
    rfl (.routed (addSecond "stranger")) Domain.oneNodeWorld with
    unchanged | ⟨⟨_, master, _⟩, _⟩
  · exact unchanged
  · exact absurd master (by decide)

end OpenWorkloadScheduler
