import OpenWorkloadScheduler.Foundations.Following
import OpenWorkloadScheduler.Service.Branches

/-!
# Forwarding of requests

A request may be received by any node of the network.  Its purpose is one
operation on the database of its target.  Each node on the way hands it on to
its own gateway for the target, and the reply comes back the same way.
-/

namespace OpenWorkloadScheduler

open Rpc Store Foundations

namespace Request

/-- What the sender of a request gets for the result of an operation: the value
that it returned, or the exception that it raised as far as it is declared. -/
def replyOf (request : Request) : EStateM.Result Raised World Reply → Except Raised Reply
  | .ok value _ => .ok value
  | .error raised _ => .error (request.transported raised)

end Request

/-! ## A network of nodes in the mode ACTIVE -/

structure Node where
  config : Config
  domain : Domain
  router : Router

/-- The nodes by host.  A host is addressed by the name of its node.  Nothing
assigns `Config::master_node`, and every port can be opened. -/
structure Network where
  nodes : String → Option Node
  named : ∀ {host node}, nodes host = some node →
    node.config.getParam "node_name" = some host
  nonempty : ∀ {host node}, nodes host = some node → host ≠ ""
  active : ∀ {host node}, nodes host = some node → node.config.runningMode = .active
  masterless : ∀ {host node}, nodes host = some node → node.config.masterNode = ""
  opens : ∀ {host node}, nodes host = some node →
    ∃ number, Handlers.port node.config = .ok number

/-- The state of every node. -/
abbrev Worlds := String → World

/-- What a request leads to: the reply to its sender, the states of the nodes,
and the operations that were executed, with the nodes that executed them. -/
structure Served where
  reply : Except Raised Reply
  worlds : Worlds
  executed : List (String × Operation)

namespace Network

variable (network : Network)

/-- The run of an operation on a node, as the sender of the request sees it. -/
def execute (host : String) (node : Node) (request : Request) (operation : Operation)
    (worlds : Worlds) : Served :=
  let result := operation.run node.domain (worlds host)
  { reply := request.replyOf result
    worlds := Function.update worlds host (finalState result)
    executed := [(host, operation)] }

/-- Send a request to a host; `none` when it is handed on more often than the
first argument allows. -/
def serve : Nat → String → Request → Worlds → Option Served
  | 0, _, _, _ => none
  | hops + 1, host, request, worlds =>
      match network.nodes host with
      | none => some ⟨.error (.standard "open"), worlds, []⟩
      | some node =>
          match Handlers.handle node.config node.router request with
          | .error raised => some ⟨.error (request.transported raised), worlds, []⟩
          | .ok (.reply value) => some ⟨.ok value, worlds, []⟩
          | .ok (.execute operation) => some (execute host node request operation worlds)
          | .ok (.forward gateway forwarded) =>
              (serve hops gateway forwarded worlds).map fun served =>
                { served with reply := served.reply.mapError request.transported }

/-- The gateway of a target at a host, where the connection to it opens. -/
def gateway (target host : String) : Option String :=
  match network.nodes host with
  | none => none
  | some node =>
      match node.router.getGateway target with
      | .ok (some gateway) => if (network.nodes gateway).isSome then some gateway else none
      | _ => none

/-! ## One step of the way -/

section Decisions

variable {config : Config} {router : Router} {target host : String} {noGateway : Raised}
  {request : Request} {operation : Operation}

theorem forward_of_gateway {gateway : String} {number : Int}
    (found : router.getGateway target = .ok (some gateway))
    (opens : Handlers.port config = .ok number) :
    Handlers.forward config router target noGateway request = .ok (.forward gateway request) := by
  rw [Handlers.forward, found, except_ok_bind]
  dsimp only
  rw [opens, except_ok_bind]
  rfl

theorem atTarget_of_target (named : config.getParam "node_name" = some target) :
    Handlers.atTarget config router target noGateway request operation =
      .ok (.execute operation) := by
  rw [Handlers.atTarget, Config.param_of_getParam named, except_ok_bind]
  exact if_neg (not_not.mpr rfl)

theorem atTarget_of_other (named : config.getParam "node_name" = some host)
    (other : host ≠ target) :
    Handlers.atTarget config router target noGateway request operation =
      Handlers.forward config router target noGateway request := by
  rw [Handlers.atTarget, Config.param_of_getParam named, except_ok_bind]
  exact if_pos other

end Decisions

/-- A request that passes the checks is decided by the branch of the mode ACTIVE,
for the target and the operation that the request asks for. -/
theorem handle_eq_atTarget {host : String} {node : Node} {request : Request}
    (configured : network.nodes host = some node) (accepted : request.Accepted) :
    Handlers.handle node.config node.router request =
      Handlers.atTarget node.config node.router request.target request.noGateway request
        request.operation := by
  have decided := Handlers.handle_of_accepted node.config node.router accepted
  rw [Handlers.byMode, network.active configured] at decided
  refine decided.trans ?_
  cases request with
  | addJob routing job =>
      -- the second test, against `Config::master_node`, always succeeds
      have second : node.config.masterNode ≠ host := by
        rw [network.masterless configured]
        exact (network.nonempty configured).symm
      simp only [Request.active, Handlers.atTarget,
        Config.param_of_getParam (network.named configured), except_ok_bind, ne_eq, second,
        not_false_eq_true, and_true]
      rfl
  | _ => rfl

/-- The target executes the operation that the request asks for. -/
theorem handle_of_target {node : Node} {request : Request}
    (configured : network.nodes request.target = some node) (accepted : request.Accepted) :
    Handlers.handle node.config node.router request = .ok (.execute request.operation) := by
  rw [network.handle_eq_atTarget configured accepted]
  exact atTarget_of_target (network.named configured)

/-- Another node asks its router for the gateway of the target. -/
theorem handle_of_other {host : String} {node : Node} {request : Request}
    (configured : network.nodes host = some node) (accepted : request.Accepted)
    (other : host ≠ request.target) :
    Handlers.handle node.config node.router request =
      Handlers.forward node.config node.router request.target request.noGateway request := by
  rw [network.handle_eq_atTarget configured accepted]
  exact atTarget_of_other (network.named configured) other

/-- Another node hands the request on, as it is, to its gateway for the target. -/
theorem handle_of_gateway {host gateway : String} {node : Node} {request : Request}
    (configured : network.nodes host = some node) (accepted : request.Accepted)
    (other : host ≠ request.target)
    (found : node.router.getGateway request.target = .ok (some gateway)) :
    Handlers.handle node.config node.router request = .ok (.forward gateway request) := by
  obtain ⟨number, opens⟩ := network.opens configured
  rw [network.handle_of_other configured accepted other]
  exact forward_of_gateway found opens

theorem gateway_eq_some {target host neighbour : String}
    (hop : network.gateway target host = some neighbour) :
    ∃ node, network.nodes host = some node ∧
      node.router.getGateway target = .ok (some neighbour) ∧
      (network.nodes neighbour).isSome := by
  unfold gateway at hop
  split at hop
  · cases hop
  · rename_i node configured
    split at hop
    · rename_i found
      split at hop
      · rename_i opens
        cases hop
        exact ⟨node, configured, found, opens⟩
      · cases hop
    · cases hop

/-! ## The whole way -/

/-- Passing a reply on once more does not change it. -/
theorem mapError_replyOf (request : Request) (result : EStateM.Result Raised World Reply) :
    (request.replyOf result).mapError request.transported = request.replyOf result := by
  cases result with
  | ok value world => rfl
  | error raised world => rw [Request.replyOf, Except.mapError, Request.transported_transported]

theorem serve_eq_execute {host : String} {request : Request} {hops limit : Nat}
    (present : (network.nodes host).isSome) (accepted : request.Accepted)
    (arrives : Arrives (network.gateway request.target) request.target host hops)
    (enough : hops < limit) (worlds : Worlds) :
    ∃ node, network.nodes request.target = some node ∧
      network.serve limit host request worlds =
        some (execute request.target node request request.operation worlds) := by
  induction arrives generalizing limit with
  | here =>
      obtain ⟨node, configured⟩ := Option.isSome_iff_exists.mp present
      obtain ⟨limit, rfl⟩ : ∃ before, limit = before + 1 := ⟨limit - 1, by omega⟩
      refine ⟨node, configured, ?_⟩
      rw [serve, configured]
      dsimp only
      rw [network.handle_of_target configured accepted]
  | @hop place neighbour hops other hop arrives inductionHypothesis =>
      obtain ⟨node, configured, found, opens⟩ := network.gateway_eq_some hop
      obtain ⟨limit, rfl⟩ : ∃ before, limit = before + 1 := ⟨limit - 1, by omega⟩
      have further : hops < limit := by omega
      obtain ⟨last, there, served⟩ := inductionHypothesis opens further
      refine ⟨last, there, ?_⟩
      rw [serve, configured]
      dsimp only
      rw [network.handle_of_gateway configured accepted other found]
      dsimp only
      rw [served, Option.map_some, execute]
      dsimp only
      rw [mapError_replyOf]

/-- A request that passes the checks, received at a node from which the gateways
lead to its target, is executed once: the operation that it asks for, at the
target.  No other node changes, and the reply is the result of the operation. -/
theorem request_executed_once_at_target {host : String} {request : Request} {hops : Nat}
    (present : (network.nodes host).isSome) (accepted : request.Accepted)
    (arrives : Arrives (network.gateway request.target) request.target host hops)
    (worlds : Worlds) :
    ∃ node, network.nodes request.target = some node ∧
      ∀ limit, hops < limit →
        ∃ served, network.serve limit host request worlds = some served ∧
          served.executed = [(request.target, request.operation)] ∧
          served.worlds request.target =
            finalState (request.operation.run node.domain (worlds request.target)) ∧
          (∀ other, other ≠ request.target → served.worlds other = worlds other) ∧
          served.reply =
            request.replyOf (request.operation.run node.domain (worlds request.target)) := by
  obtain ⟨node, configured, _⟩ :=
    network.serve_eq_execute present accepted arrives (Nat.lt_succ_self hops) worlds
  refine ⟨node, configured, fun limit enough => ?_⟩
  obtain ⟨same, there, served⟩ :=
    network.serve_eq_execute present accepted arrives enough worlds
  rw [configured] at there
  cases there
  exact ⟨_, served, rfl, Function.update_self .., fun other different =>
    Function.update_of_ne different .., rfl⟩

end Network

/-! ## Two nodes -/

def activeConfig (name : String) : Config where
  configOptions := [⟨"node_name", name⟩, ⟨"port", "8080"⟩].toAList

/-- A node that reaches `worker` directly. -/
def pairNode (name : String) : Node where
  config := activeConfig name
  domain := ⟨"test_domain", 0, 86400⟩
  router := ({} : Router).insertRoute "worker" "worker" 0

def pairNodes (host : String) : Option Node :=
  if host = "relay" ∨ host = "worker" then some (pairNode host) else none

theorem pairNodes_eq_some {host : String} {node : Node} (configured : pairNodes host = some node) :
    (host = "relay" ∨ host = "worker") ∧ node = pairNode host := by
  unfold pairNodes at configured
  split at configured
  · rename_i either
    cases configured
    exact ⟨either, rfl⟩
  · cases configured

def pair : Network where
  nodes := pairNodes
  named configured := by
    obtain ⟨_, rfl⟩ := pairNodes_eq_some configured
    rfl
  nonempty configured := by
    rcases (pairNodes_eq_some configured).1 with rfl | rfl <;> decide
  active configured := by
    obtain ⟨_, rfl⟩ := pairNodes_eq_some configured
    rfl
  masterless configured := by
    obtain ⟨_, rfl⟩ := pairNodes_eq_some configured
    rfl
  opens configured := by
    obtain ⟨_, rfl⟩ := pairNodes_eq_some configured
    exact ⟨8080, rfl⟩

/-- A request for the failed jobs of `worker`. -/
def countFailedJobs : Request :=
  .monitorFailedJobs
    { callingNode := { name := "client", domainName := "test_domain" }
      targetNode := { name := "worker", domainName := "test_domain" } }

theorem countFailedJobs_executed_once_at_worker :
    ∃ node, pairNodes "worker" = some node ∧
      ∀ limit, 1 < limit →
        ∃ served, pair.serve limit "relay" countFailedJobs (fun _ => { server := ⟨∅⟩ }) =
            some served ∧
          served.executed = [("worker", .monitorFailedJobs "test_domain")] ∧
          served.worlds "worker" =
            finalState ((Operation.monitorFailedJobs "test_domain").run node.domain
              { server := ⟨∅⟩ }) ∧
          (∀ other, other ≠ "worker" → served.worlds other = { server := ⟨∅⟩ }) ∧
          served.reply =
            countFailedJobs.replyOf ((Operation.monitorFailedJobs "test_domain").run node.domain
              { server := ⟨∅⟩ }) := by
  have arrives : Arrives (pair.gateway "worker") "worker" "relay" 1 :=
    .direct (by decide) (by decide)
  have present : (pair.nodes "relay").isSome := by decide
  have accepted : countFailedJobs.Accepted :=
    (rfl : Handlers.checkCallingNode "test_domain"
      { name := "client", domainName := "test_domain" } = .ok ())
  exact pair.request_executed_once_at_target present accepted arrives
    fun _ => { server := ⟨∅⟩ }

end OpenWorkloadScheduler
