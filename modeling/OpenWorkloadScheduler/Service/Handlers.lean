import OpenWorkloadScheduler.Domain.Writes
import OpenWorkloadScheduler.Routing.Router

/-!
# The handlers of the requests

The thirteen requests of the service that carry routing data.  A handler checks
its arguments and then decides, by the running mode of its node, whether it
performs an operation on its own database, forwards the request to a gateway, or
replies with the value that its result has at the start.

All handlers decide alike.  They differ in the checks, in the field that names
the target, in whether a NULL gateway is tested for, and in the operation.
-/

namespace OpenWorkloadScheduler

open Rpc Store

/-! ## Requests and replies -/

inductive Request where
  | addNode (routing : TRoutingData) (nodeToAdd : TNode)
  | removeNode (routing : TRoutingData) (nodeToRemove : TNode)
  | getNode (routing : TRoutingData) (nodeToGet : TNode)
  | getNodes (routing : TRoutingData)
  | getJobs (routing : TRoutingData)
  | getReadyJobs (routing : TRoutingData)
  | getJob (routing : TRoutingData) (jobToGet : TJob)
  | addJob (routing : TRoutingData) (job : TJob)
  | updateJob (routing : TRoutingData) (job : TJob)
  | removeJob (routing : TRoutingData) (job : TJob)
  | updateJobState (routing : TRoutingData) (job : TJob)
  | monitorFailedJobs (routing : TRoutingData)
  | monitorWaitingJobs (routing : TRoutingData)
  deriving DecidableEq, Repr

inductive Reply where
  | flag (value : Bool)
  | number (value : Integer)
  | node (value : TNode)
  | nodes (value : List TNode)
  | job (value : TJob)
  | jobs (value : List TJob)
  deriving DecidableEq, Repr

/-- A call of a method of `Domain` by a handler. -/
inductive Operation where
  | addNode (domainName : String) (node : TNode)
  | addWeightedNode (domainName nodeName : String) (weight : Integer)
  | removeNode (domainName nodeName : String)
  | getNode (domainName nodeName : String)
  | getNodes (domainName : String)
  | getJobs (domainName runningNode : String)
  | getReadyJobs (runningNode : String)
  | getJob (domainName runningNode jobName : String)
  | addJob (domainName : String) (job : TJob)
  | updateJob (job : TJob)
  | removeJob (job : TJob)
  | updateJobState (domainName : String) (job : TJob)
  | monitorFailedJobs (domainName : String)
  | monitorWaitingJobs (domainName : String)
  deriving DecidableEq, Repr

namespace Operation

def run (domain : Domain) : Operation → Action Reply
  | addNode domainName node => return .flag (← domain.addNode domainName node)
  | addWeightedNode domainName nodeName weight =>
      return .flag (← Domain.addWeightedNode domainName nodeName weight)
  | removeNode domainName nodeName => return .flag (← domain.removeNode domainName nodeName)
  | getNode domainName nodeName => return .node (← domain.getNode domainName nodeName)
  | getNodes domainName => return .nodes (← domain.getNodes domainName)
  | getJobs domainName runningNode =>
      return .jobs (← domain.getJobs domainName (some runningNode))
  | getReadyJobs runningNode => return .jobs (← domain.getReadyRpcJobs (some runningNode))
  | getJob domainName runningNode jobName =>
      return .job (← domain.getJob domainName (some runningNode) jobName)
  | addJob domainName job => return .flag (← domain.addJob domainName job)
  | updateJob job => return .flag (← Domain.updateJob job)
  | removeJob job => return .flag (← Domain.removeJob job)
  | updateJobState domainName job => return .flag (← Domain.updateRpcJobState domainName job)
  | monitorFailedJobs domainName => return .number (← Domain.monitorFailedJobs domainName)
  | monitorWaitingJobs domainName => return .number (← Domain.monitorWaitingJobs domainName)

end Operation

/-- What a handler does once it has checked its arguments. -/
inductive Decision where
  | execute (operation : Operation)
  | forward (gateway : String) (request : Request)
  | reply (value : Reply)
  deriving DecidableEq, Repr

namespace Handlers

/-! ## Checks -/

/-- `check_routing_args (const std::string&, const rpc::t_node&)`. -/
def checkCallingNode (domainName : String) (callingNode : TNode) : Except Raised Unit :=
  if domainName = "" then .error (.exRouting "domain_name is empty")
  else if callingNode.name = "" then .error (.exRouting "calling_node's name is empty")
  else if callingNode.domainName = "" then
    .error (.exRouting "calling_node's domain_name is empty")
  else .ok ()

/-- `check_routing_args (const rpc::t_routing_data&)`. -/
def checkRoutingArgs (routing : TRoutingData) : Except Raised Unit := do
  checkCallingNode routing.targetNode.domainName routing.callingNode
  if routing.targetNode.name = "" then throw (.exRouting "target_node's name is empty")
  else if routing.targetNode.domainName = "" then
    throw (.exRouting "target_node's domain_name is empty")
  else pure ()

def checkJobArg (job : TJob) : Except Raised Unit :=
  if job.name = "" then .error (.exJob "job_name is empty")
  else if job.domain = "" then .error (.exJob "domain_name is empty")
  else if job.cmdLine = "" then .error (.exJob "cmd_line is empty")
  else if job.nodeName = "" then .error (.exJob "node_name is empty")
  else if job.weight < 1 then .error (.exJob "weight must be higher than 0")
  else .ok ()

def checkNodeToAdd (node : TNode) : Except Raised Unit :=
  if node.name = "" ∨ node.weight < 0 then
    .error (.exNode
      "The node to add does not contain the minimal attributes (name and weight)")
  else .ok ()

def checkNodeToRemove (node : TNode) : Except Raised Unit :=
  if node.name = "" then
    .error (.exNode "The node to add does not contain the minimal attributes")
  else .ok ()

section Deciding

variable (config : Config) (router : Router)

def checkMasterNode (callingNodeName targetNodeName : String) : Except Raised Unit := do
  if router.masterNode ≠ callingNodeName then
    throw (.exRouting (callingNodeName ++ " is not the master_node"))
  else if (← config.param "node_name") ≠ targetNodeName then
    throw (.exRouting (callingNodeName ++ " is not the master_node"))
  else pure ()

/-! ## Decisions -/

/-- `boost::lexical_cast<int>(get_param("port")->c_str())`. -/
def port : Except Raised Int := do
  Domain.cast 32 (← config.param "port")

/-- A NULL gateway that nothing tests for. -/
def nullGateway : Raised :=
  .undefinedBehaviour "gateway->c_str()"

/-- A NULL gateway that is tested for. -/
def unknownGateway : Raised :=
  .exRouting "The node is not in the routing table"

/-- Hand the request on to the gateway of the target. -/
def forward (target : String) (noGateway : Raised) (request : Request) :
    Except Raised Decision := do
  match ← router.getGateway target with
  | none => throw noGateway
  | some gateway => do
      let _ ← port config
      return .forward gateway request

/-- The branch of the mode ACTIVE: am I the target? -/
def atTarget (target : String) (noGateway : Raised) (request : Request)
    (operation : Operation) : Except Raised Decision := do
  if (← config.param "node_name") ≠ target then forward config router target noGateway request
  else return .execute operation

/-- The branch of the mode PASSIVE: is the caller the master and am I the target? -/
def forMaster (callingNodeName targetNodeName : String) (operation : Operation) :
    Except Raised Decision := do
  checkMasterNode config router callingNodeName targetNodeName
  return .execute operation

/-- The running mode chooses the branch.  In the mode P2P the result is returned
as it was initialized. -/
def byMode (initial : Reply) (active passive : Except Raised Decision) :
    Except Raised Decision :=
  match config.runningMode with
  | .p2p => return .reply initial
  | .active => active
  | .passive => passive

/-! ## The handlers of `ows_rpcHandler` -/

/-- In the mode PASSIVE the name of the node is used as the schema. -/
def addNode (routing : TRoutingData) (nodeToAdd : TNode) : Except Raised Decision := do
  checkRoutingArgs routing
  checkNodeToAdd nodeToAdd
  byMode config (.flag false)
    (atTarget config router routing.targetNode.name nullGateway (.addNode routing nodeToAdd)
      (.addNode routing.targetNode.domainName nodeToAdd))
    (forMaster config router routing.callingNode.name routing.targetNode.name
      (.addWeightedNode routing.targetNode.name nodeToAdd.name nodeToAdd.weight))

/-- In the mode PASSIVE the name of the node is used as the schema. -/
def removeNode (routing : TRoutingData) (nodeToRemove : TNode) :
    Except Raised Decision := do
  checkRoutingArgs routing
  checkNodeToRemove nodeToRemove
  byMode config (.flag false)
    (atTarget config router routing.targetNode.name nullGateway
      (.removeNode routing nodeToRemove)
      (.removeNode routing.targetNode.domainName nodeToRemove.name))
    (forMaster config router routing.callingNode.name routing.targetNode.name
      (.removeNode routing.targetNode.name nodeToRemove.name))

def getNode (routing : TRoutingData) (nodeToGet : TNode) : Except Raised Decision := do
  checkRoutingArgs routing
  byMode config (.node {})
    (atTarget config router routing.targetNode.name nullGateway (.getNode routing nodeToGet)
      (.getNode routing.targetNode.domainName nodeToGet.name))
    (return .reply (.node {}))

def getNodes (routing : TRoutingData) : Except Raised Decision := do
  checkRoutingArgs routing
  byMode config (.nodes [])
    (atTarget config router routing.targetNode.name nullGateway (.getNodes routing)
      (.getNodes routing.targetNode.domainName))
    (return .reply (.nodes []))

def getJobs (routing : TRoutingData) : Except Raised Decision := do
  checkRoutingArgs routing
  byMode config (.jobs [])
    (atTarget config router routing.targetNode.name nullGateway (.getJobs routing)
      (.getJobs routing.targetNode.domainName routing.targetNode.name))
    (forMaster config router routing.callingNode.name routing.targetNode.name
      (.getJobs routing.targetNode.domainName routing.targetNode.name))

def getReadyJobs (routing : TRoutingData) : Except Raised Decision := do
  checkRoutingArgs routing
  byMode config (.jobs [])
    (atTarget config router routing.targetNode.name nullGateway (.getReadyJobs routing)
      (.getReadyJobs routing.targetNode.name))
    (forMaster config router routing.callingNode.name routing.targetNode.name
      (.getReadyJobs routing.targetNode.name))

def getJob (routing : TRoutingData) (jobToGet : TJob) : Except Raised Decision := do
  checkRoutingArgs routing
  checkJobArg jobToGet
  byMode config (.job {})
    (atTarget config router routing.targetNode.name nullGateway (.getJob routing jobToGet)
      (.getJob routing.targetNode.domainName routing.targetNode.name jobToGet.name))
    (forMaster config router routing.callingNode.name routing.targetNode.name
      (.getJob routing.targetNode.domainName routing.targetNode.name jobToGet.name))

/-- Beside the target, the node that `Config::master_node` names would execute
the request itself. -/
def addJob (routing : TRoutingData) (job : TJob) : Except Raised Decision := do
  checkCallingNode routing.targetNode.domainName routing.callingNode
  checkJobArg job
  byMode config (.flag false)
    (do
      let nodeName ← config.param "node_name"
      if nodeName ≠ job.nodeName ∧ config.masterNode ≠ nodeName then
        forward config router job.nodeName unknownGateway (.addJob routing job)
      else
        return .execute (.addJob routing.targetNode.domainName job))
    (forMaster config router routing.callingNode.name job.nodeName
      (.addJob routing.targetNode.domainName job))

/-- In the mode PASSIVE the job is added. -/
def updateJob (routing : TRoutingData) (job : TJob) : Except Raised Decision := do
  checkCallingNode routing.targetNode.domainName routing.callingNode
  checkJobArg job
  byMode config (.flag false)
    (atTarget config router job.nodeName unknownGateway (.updateJob routing job)
      (.updateJob job))
    (forMaster config router routing.callingNode.name job.nodeName
      (.addJob routing.targetNode.domainName job))

def removeJob (routing : TRoutingData) (job : TJob) : Except Raised Decision := do
  checkCallingNode routing.targetNode.domainName routing.callingNode
  checkJobArg job
  byMode config (.flag false)
    (atTarget config router job.nodeName nullGateway (.removeJob routing job)
      (.removeJob job))
    (forMaster config router routing.callingNode.name job.nodeName (.removeJob job))

def updateJobState (routing : TRoutingData) (job : TJob) : Except Raised Decision := do
  checkCallingNode routing.targetNode.domainName routing.callingNode
  byMode config (.flag false)
    (atTarget config router job.nodeName nullGateway (.updateJobState routing job)
      (.updateJobState routing.targetNode.domainName job))
    (forMaster config router routing.callingNode.name job.nodeName
      (.updateJobState routing.targetNode.domainName job))

def monitorFailedJobs (routing : TRoutingData) : Except Raised Decision := do
  checkCallingNode routing.targetNode.domainName routing.callingNode
  byMode config (.number 0)
    (atTarget config router routing.targetNode.name nullGateway (.monitorFailedJobs routing)
      (.monitorFailedJobs routing.targetNode.domainName))
    (forMaster config router routing.callingNode.name routing.targetNode.name
      (.monitorFailedJobs routing.targetNode.domainName))

def monitorWaitingJobs (routing : TRoutingData) : Except Raised Decision := do
  checkCallingNode routing.targetNode.domainName routing.callingNode
  byMode config (.number 0)
    (atTarget config router routing.targetNode.name nullGateway (.monitorWaitingJobs routing)
      (.monitorWaitingJobs routing.targetNode.domainName))
    (forMaster config router routing.callingNode.name routing.targetNode.name
      (.monitorWaitingJobs routing.targetNode.domainName))

/-- The processor that Thrift generates calls the handler of the request. -/
def handle : Request → Except Raised Decision
  | .addNode routing nodeToAdd => addNode config router routing nodeToAdd
  | .removeNode routing nodeToRemove => removeNode config router routing nodeToRemove
  | .getNode routing nodeToGet => getNode config router routing nodeToGet
  | .getNodes routing => getNodes config router routing
  | .getJobs routing => getJobs config router routing
  | .getReadyJobs routing => getReadyJobs config router routing
  | .getJob routing jobToGet => getJob config router routing jobToGet
  | .addJob routing job => addJob config router routing job
  | .updateJob routing job => updateJob config router routing job
  | .removeJob routing job => removeJob config router routing job
  | .updateJobState routing job => updateJobState config router routing job
  | .monitorFailedJobs routing => monitorFailedJobs config router routing
  | .monitorWaitingJobs routing => monitorWaitingJobs config router routing

end Deciding

end Handlers

/-! ## Exceptions between nodes -/

/-- The exceptions that the service declares for a request. -/
def Request.declares : Request → Raised → Bool
  | _, .exRouting _ => true
  | _, .exProcessing _ => true
  | .addNode _ _, .exNode _ | .removeNode _ _, .exNode _ | .getNode _ _, .exNode _
  | .getNodes _, .exNode _ => true
  | .getJobs _, .exJob _ | .getReadyJobs _, .exJob _ | .getJob _ _, .exJob _ => true
  | .addJob _ _, .exJob _ | .addJob _ _, .exNode _ => true
  | .updateJob _ _, .exJob _ | .removeJob _ _, .exJob _ | .updateJobState _ _, .exJob _ => true
  | _, _ => false

/-- What the caller of a node gets for an exception of the handler.  One that is
not declared comes as a `TApplicationException` with its text; a node that is
blocked or undefined sends nothing. -/
def Request.transported (request : Request) (raised : Raised) : Raised :=
  if request.declares raised then raised
  else
    match raised with
    | .undefinedBehaviour what => .undefinedBehaviour what
    | .blocked => .blocked
    | _ => .standard (Domain.what raised)

theorem Request.transported_transported (request : Request) (raised : Raised) :
    request.transported (request.transported raised) = request.transported raised := by
  unfold transported
  by_cases declared : request.declares raised = true
  · simp [declared]
  · rw [if_neg declared]
    cases raised <;> simp_all [Request.declares, Domain.what]

end OpenWorkloadScheduler
