import OpenWorkloadScheduler.Service.Handlers

/-!
# The branches of a handler

What a request asks for, and what its handler does with it, mode by mode: the
checks on the arguments come first, then the branch of the running mode.
-/

namespace OpenWorkloadScheduler

open Rpc Store Foundations

/-! ## What a request asks for -/

namespace Request

/-- The name of the node that is to answer: the one of the routing data, or that
of the job for the requests that write a job. -/
def target : Request → String
  | addNode routing _ | removeNode routing _ | getNode routing _ | getNodes routing
  | getJobs routing | getReadyJobs routing | getJob routing _
  | monitorFailedJobs routing | monitorWaitingJobs routing => routing.targetNode.name
  | addJob _ job | updateJob _ job | removeJob _ job | updateJobState _ job => job.nodeName

/-- The operation that the request asks the target for, on the request's own
arguments. -/
def operation : Request → Operation
  | addNode routing node => .addNode routing.targetNode.domainName node
  | removeNode routing node => .removeNode routing.targetNode.domainName node.name
  | getNode routing node => .getNode routing.targetNode.domainName node.name
  | getNodes routing => .getNodes routing.targetNode.domainName
  | getJobs routing => .getJobs routing.targetNode.domainName routing.targetNode.name
  | getReadyJobs routing => .getReadyJobs routing.targetNode.name
  | getJob routing job =>
      .getJob routing.targetNode.domainName routing.targetNode.name job.name
  | addJob routing job => .addJob routing.targetNode.domainName job
  | updateJob _ job => .updateJob job
  | removeJob _ job => .removeJob job
  | updateJobState routing job => .updateJobState routing.targetNode.domainName job
  | monitorFailedJobs routing => .monitorFailedJobs routing.targetNode.domainName
  | monitorWaitingJobs routing => .monitorWaitingJobs routing.targetNode.domainName

/-- The request passes the checks on its arguments. -/
def Accepted : Request → Prop
  | addNode routing node =>
      Handlers.checkRoutingArgs routing = .ok () ∧ Handlers.checkNodeToAdd node = .ok ()
  | removeNode routing node =>
      Handlers.checkRoutingArgs routing = .ok () ∧ Handlers.checkNodeToRemove node = .ok ()
  | getNode routing _ | getNodes routing | getJobs routing | getReadyJobs routing =>
      Handlers.checkRoutingArgs routing = .ok ()
  | getJob routing job =>
      Handlers.checkRoutingArgs routing = .ok () ∧ Handlers.checkJobArg job = .ok ()
  | addJob routing job | updateJob routing job | removeJob routing job =>
      Handlers.checkCallingNode routing.targetNode.domainName routing.callingNode = .ok () ∧
        Handlers.checkJobArg job = .ok ()
  | updateJobState routing _ | monitorFailedJobs routing | monitorWaitingJobs routing =>
      Handlers.checkCallingNode routing.targetNode.domainName routing.callingNode = .ok ()

/-- The checks on the arguments, in the order of the handler. -/
def checks : Request → Except Raised Unit
  | addNode routing node => do
      Handlers.checkRoutingArgs routing
      Handlers.checkNodeToAdd node
  | removeNode routing node => do
      Handlers.checkRoutingArgs routing
      Handlers.checkNodeToRemove node
  | getNode routing _ | getNodes routing | getJobs routing | getReadyJobs routing =>
      Handlers.checkRoutingArgs routing
  | getJob routing job => do
      Handlers.checkRoutingArgs routing
      Handlers.checkJobArg job
  | addJob routing job | updateJob routing job | removeJob routing job => do
      Handlers.checkCallingNode routing.targetNode.domainName routing.callingNode
      Handlers.checkJobArg job
  | updateJobState routing _ | monitorFailedJobs routing | monitorWaitingJobs routing =>
      Handlers.checkCallingNode routing.targetNode.domainName routing.callingNode

def callingNode : Request → TNode
  | addNode routing _ | removeNode routing _ | getNode routing _ | getNodes routing
  | getJobs routing | getReadyJobs routing | getJob routing _ | addJob routing _
  | updateJob routing _ | removeJob routing _ | updateJobState routing _
  | monitorFailedJobs routing | monitorWaitingJobs routing => routing.callingNode

/-- The result before anything is done. -/
def initial : Request → Reply
  | addNode _ _ | removeNode _ _ | addJob _ _ | updateJob _ _ | removeJob _ _
  | updateJobState _ _ => .flag false
  | getNode _ _ => .node {}
  | getNodes _ => .nodes []
  | getJobs _ | getReadyJobs _ => .jobs []
  | getJob _ _ => .job {}
  | monitorFailedJobs _ | monitorWaitingJobs _ => .number 0

/-- What is raised when there is no gateway to the target. -/
def noGateway : Request → Raised
  | addJob _ _ | updateJob _ _ => Handlers.unknownGateway
  | _ => Handlers.nullGateway

/-- The branch of the mode ACTIVE. -/
def active (config : Config) (router : Router) : Request → Except Raised Decision
  | addJob routing job => do
      let nodeName ← config.param "node_name"
      if nodeName ≠ job.nodeName ∧ config.masterNode ≠ nodeName then
        Handlers.forward config router job.nodeName Handlers.unknownGateway
          (.addJob routing job)
      else
        return .execute (.addJob routing.targetNode.domainName job)
  | request =>
      Handlers.atTarget config router request.target request.noGateway request
        request.operation

/-- The operation that the branch of the mode PASSIVE performs, if it performs one. -/
def passiveOperation : Request → Option Operation
  | addNode routing node =>
      some (.addWeightedNode routing.targetNode.name node.name node.weight)
  | removeNode routing node => some (.removeNode routing.targetNode.name node.name)
  | getNode _ _ | getNodes _ => none
  | updateJob routing job => some (.addJob routing.targetNode.domainName job)
  | request => some request.operation

/-- The branch of the mode PASSIVE. -/
def passive (config : Config) (router : Router) (request : Request) : Except Raised Decision :=
  request.passiveOperation.elim (pure (.reply request.initial))
    (Handlers.forMaster config router request.callingNode.name request.target)

theorem accepted_iff (request : Request) : request.Accepted ↔ request.checks = .ok () := by
  have both : ∀ first second : Except Raised Unit,
      first = .ok () ∧ second = .ok () ↔ (first >>= fun _ => second) = .ok () := by
    intro first second
    rw [except_bind_eq_ok_iff]
    constructor
    · rintro ⟨firstOk, secondOk⟩
      exact ⟨(), firstOk, secondOk⟩
    · rintro ⟨_, firstOk, secondOk⟩
      exact ⟨firstOk, secondOk⟩
  cases request with
  | addNode routing node => exact both _ _
  | removeNode routing node => exact both _ _
  | getJob routing job => exact both _ _
  | addJob routing job => exact both _ _
  | updateJob routing job => exact both _ _
  | removeJob routing job => exact both _ _
  | _ => exact Iff.rfl

end Request

/-- A handler makes its checks and then takes the branch of the running mode. -/
theorem Handlers.handle_eq (config : Config) (router : Router) (request : Request) :
    handle config router request =
      request.checks >>= fun _ => byMode config request.initial (request.active config router)
        (request.passive config router) := by
  cases request with
  | addNode routing node => rw [Request.checks, bind_assoc]; rfl
  | removeNode routing node => rw [Request.checks, bind_assoc]; rfl
  | getJob routing job => rw [Request.checks, bind_assoc]; rfl
  | addJob routing job => rw [Request.checks, bind_assoc]; rfl
  | updateJob routing job => rw [Request.checks, bind_assoc]; rfl
  | removeJob routing job => rw [Request.checks, bind_assoc]; rfl
  | _ => rfl

theorem Handlers.handle_of_accepted (config : Config) (router : Router) {request : Request}
    (accepted : request.Accepted) :
    handle config router request =
      byMode config request.initial (request.active config router)
        (request.passive config router) := by
  rw [handle_eq, request.accepted_iff.mp accepted]
  rfl

end OpenWorkloadScheduler
