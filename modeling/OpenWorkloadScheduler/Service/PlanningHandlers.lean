import OpenWorkloadScheduler.Routing.Discovery
import OpenWorkloadScheduler.Service.Branches

/-!
# The rest of the service

The three requests about plannings go to the master and not to a target.  With
them, with the calls of the discovery and with the requests to a target the
service is complete, but for `sql_exec`.
-/

namespace OpenWorkloadScheduler

open Rpc Store Foundations

inductive PlanningRequest where
  | getCurrentPlanningName (routing : TRoutingData)
  | getAvailablePlanningNames (routing : TRoutingData)
  | getPlanning (routing : TRoutingData) (nodeToGet : TNode)
  deriving DecidableEq, Repr

inductive PlanningReply where
  | name (value : String)
  | names (value : List String)
  | planning (value : TPlanning)
  deriving DecidableEq, Repr

/-- A call of a method of `Domain` by one of these handlers. -/
inductive PlanningOperation where
  | getCurrentPlanningName
  | getAvailablePlanningNames
  | getPlanning (domainName nodeName : String)
  deriving DecidableEq, Repr

def PlanningOperation.run (domain : Domain) : PlanningOperation → Action PlanningReply
  | getCurrentPlanningName => return .name (← domain.getCurrentPlanningName)
  | getAvailablePlanningNames => return .names (← Domain.getAvailablePlanningNames)
  | getPlanning domainName nodeName =>
      return .planning (← domain.getPlanning domainName nodeName)

inductive PlanningDecision where
  | execute (operation : PlanningOperation)
  | forward (gateway : String) (request : PlanningRequest)
  | reply (value : PlanningReply)
  deriving DecidableEq, Repr

namespace Handlers

section Deciding

variable (config : Config) (router : Router)

/-- The branch of the mode ACTIVE: am I the master?  The request goes to the
gateway of the node that `Config::master_node` names. -/
def atMaster (request : PlanningRequest) (operation : PlanningOperation) :
    Except Raised PlanningDecision := do
  if (← config.param "is_master") ≠ "yes" then
    match ← router.getGateway config.masterNode with
    | none => throw nullGateway
    | some gateway => do
        let _ ← port config
        return .forward gateway request
  else return .execute operation

/-- The branch of the mode PASSIVE, which refuses everybody. -/
def refuse : Except Raised PlanningDecision := do
  throw (.exRouting ((← config.param "node_name") ++ " is not the master_node"))

def planningByMode (initial : PlanningReply) (request : PlanningRequest)
    (operation : PlanningOperation) : Except Raised PlanningDecision :=
  match config.runningMode with
  | .p2p => return .reply initial
  | .active => atMaster config router request operation
  | .passive => refuse config

def getCurrentPlanningName (routing : TRoutingData) : Except Raised PlanningDecision :=
  planningByMode config router (.name "") (.getCurrentPlanningName routing)
    .getCurrentPlanningName

def getAvailablePlanningNames (routing : TRoutingData) : Except Raised PlanningDecision :=
  planningByMode config router (.names []) (.getAvailablePlanningNames routing)
    .getAvailablePlanningNames

def getPlanning (routing : TRoutingData) (nodeToGet : TNode) :
    Except Raised PlanningDecision :=
  planningByMode config router (.planning {}) (.getPlanning routing nodeToGet)
    (.getPlanning routing.targetNode.domainName nodeToGet.name)

def handlePlanning : PlanningRequest → Except Raised PlanningDecision
  | .getCurrentPlanningName routing => getCurrentPlanningName config router routing
  | .getAvailablePlanningNames routing => getAvailablePlanningNames config router routing
  | .getPlanning routing nodeToGet => getPlanning config router routing nodeToGet

end Deciding

/-- The three handlers differ in what they do at the master only. -/
theorem handlePlanning_eq (request : PlanningRequest) :
    ∃ initial operation, ∀ config router,
      handlePlanning config router request =
        planningByMode config router initial request operation := by
  cases request with
  | getCurrentPlanningName routing => exact ⟨_, _, fun _ _ => rfl⟩
  | getAvailablePlanningNames routing => exact ⟨_, _, fun _ _ => rfl⟩
  | getPlanning routing nodeToGet => exact ⟨_, _, fun _ _ => rfl⟩

end Handlers

/-! ## A call of the service at one node -/

inductive ServiceCall where
  | hello (targetNode : TNode)
  | reachMaster
  | planning (request : PlanningRequest)
  | routed (request : Request)
  deriving DecidableEq, Repr

namespace ServiceCall

/-- What a call does at the node that receives it.  A handler that answers without
an operation, and one that forwards the call, do nothing more here. -/
def run (config : Config) (router : Router) (domain : Domain) : ServiceCall → Action Unit
  | hello targetNode => do
      let _ ← Domain.lift (OpenWorkloadScheduler.hello config router targetNode)
  | reachMaster => do
      let _ ← Domain.lift (answerReachMaster config router)
  | planning request => do
      match ← Domain.lift (Handlers.handlePlanning config router request) with
      | .execute operation => do
          let _ ← operation.run domain
      | _ => pure ()
  | routed request => do
      match ← Domain.lift (Handlers.handle config router request) with
      | .execute operation => do
          let _ ← operation.run domain
      | _ => pure ()

end ServiceCall

end OpenWorkloadScheduler
