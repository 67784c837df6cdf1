import OpenWorkloadScheduler.Foundations.Effects
import OpenWorkloadScheduler.Foundations.Following
import OpenWorkloadScheduler.Foundations.Runs
import OpenWorkloadScheduler.Routing.Router

/-!
# Discovery of the master

The nodes learn their peers with `hello` and the master with `reach_master`.
The exchanges of the nodes may come in any order.

The purpose of the exchanges is that the nodes agree on the master and that the
routes lead to it.  The routes do.  The name of the master gets lost on the
third node of a chain, since a node that is not the master answers
`reach_master` with the gateway of its own route.
-/

namespace OpenWorkloadScheduler

open Rpc Foundations

/-! ## The handlers -/

/-- `ows_rpcHandler::hello`: the answer, or the host that the call goes on to. -/
def hello (config : Config) (router : Router) (targetNode : TNode) :
    Except Raised (THello ⊕ String) := do
  let nodeName ← config.param "node_name"
  if targetNode.name = nodeName then
    let domain ← config.param "domain_name"
    return .inl {
      domain, name := targetNode.name, isMaster := config.getParam "is_master" = some "yes" }
  else
    match ← router.getGateway targetNode.name with
    | none => throw (.exRouting ("Cannot reach target node " ++ targetNode.name))
    | some _ => return .inr targetNode.name

/-- `ows_rpcHandler::reach_master`.  The test of `get_master_node` for NULL never
succeeds: it is the address of an attribute. -/
def answerReachMaster (config : Config) (router : Router) : Except Raised TRoute := do
  if (← config.param "is_master") = "yes" then
    return { destinationNode := { name := ← config.param "node_name" }, hops := 0 }
  else
    match ← router.getRoute router.masterNode with
    | some route =>
        return {
          destinationNode := { name := route.gateway }, hops := Integer.narrow route.weight }
    | none => throw (.exRouting "Cannot reach the master node")

/-- An answer to `hello` is that of the node asked for, which says whether it is
the master. -/
theorem hello_answer {config : Config} {router : Router} {targetNode : TNode}
    {answer : THello} (answered : hello config router targetNode = .ok (.inl answer)) :
    answer.name = targetNode.name ∧
      (answer.isMaster = true ↔ config.getParam "is_master" = some "yes") := by
  obtain ⟨nodeName, _, rest⟩ := except_bind_eq_ok_iff.mp answered
  split at rest
  · obtain ⟨domain, _, same⟩ := except_bind_eq_ok_iff.mp rest
    cases same
    exact ⟨rfl, by simp⟩
  · obtain ⟨gateway, _, same⟩ := except_bind_eq_ok_iff.mp rest
    cases gateway <;> cases same

theorem answerReachMaster_of_master {config : Config} {router : Router} {nodeName : String}
    (master : config.getParam "is_master" = some "yes")
    (named : config.getParam "node_name" = some nodeName) :
    answerReachMaster config router =
      .ok { destinationNode := { name := nodeName }, hops := 0 } := by
  rw [answerReachMaster, Config.param_of_getParam master, Config.param_of_getParam named]
  rfl

/-- A node that is not the master answers with its first route to the master
that it knows. -/
theorem answerReachMaster_of_other {config : Config} {router : Router} {result : TRoute}
    (other : config.getParam "is_master" ≠ some "yes")
    (answered : answerReachMaster config router = .ok result) :
    ∃ route routes, router.gateways? router.masterNode = some (route :: routes) ∧
      result = {
        destinationNode := { name := route.gateway }, hops := Integer.narrow route.weight } := by
  obtain ⟨isMaster, read, rest⟩ := except_bind_eq_ok_iff.mp answered
  have different : isMaster ≠ "yes" := by
    rintro rfl
    exact other (Config.param_eq_ok_iff.mp read)
  rw [if_neg different] at rest
  obtain ⟨route, found, same⟩ := except_bind_eq_ok_iff.mp rest
  unfold Router.getRoute at found
  split at found
  · rename_i gateways entry
    cases gateways with
    | nil => cases found
    | cons first gateways =>
        cases found
        cases same
        exact ⟨first, gateways, entry, rfl⟩
  · cases found
    cases same

/-! ## The network -/

/-- The hosts and their configurations.  A host is addressed by the name of its
node, and exactly one node is the master. -/
structure Topology where
  configs : String → Option Config
  master : String
  named : ∀ {host config}, configs host = some config →
    config.getParam "node_name" = some host
  masterConfigured : (configs master).isSome
  onlyMaster : ∀ {host config}, configs host = some config →
    (config.getParam "is_master" = some "yes" ↔ host = master)

/-- The router of every node. -/
abbrev Routers := String → Router

namespace Topology

variable (topology : Topology)

/-- A call of `hello` on a peer; `none` where no answer comes. -/
def callHello (routers : Routers) (peer : String) : Option THello :=
  match topology.configs peer with
  | none => none
  | some config =>
      match hello config (routers peer) { name := peer } with
      | .ok (.inl answer) => some answer
      | _ => none

/-- A call of `reach_master` on a target. -/
def callReachMaster (routers : Routers) (target : String) : Except Raised TRoute :=
  match topology.configs target with
  | none => .error (.standard "open")
  | some config => answerReachMaster config (routers target)

/-- What a node of the network does: it goes through its file of peers, some of
which answer, or it asks a node for the master. -/
inductive Exchange where
  | updatePeersList (node : String) (lines : List (String × Bool))
  | reachMaster (node target : String)
  deriving DecidableEq, Repr

/-- One exchange of a node of the network.  A call that raises changes nothing. -/
def perform (routers : Routers) : Exchange → Option Routers
  | .updatePeersList node lines =>
      if (topology.configs node).isSome then
        some (Function.update routers node
          ((routers node).updatePeersList (topology.callHello routers) lines).1)
      else none
  | .reachMaster node target =>
      if (topology.configs node).isSome then
        match topology.callReachMaster routers target with
        | .ok result =>
            some (Function.update routers node ((routers node).learnMaster target result).1)
        | .error _ => some routers
      else none

/-- The steps of the network. -/
def Step (before : Routers) (exchange : Exchange) (after : Routers) : Prop :=
  topology.perform before exchange = some after

/-- The routers of nodes that have just started. -/
def started : Routers := fun _ => {}

/-! ## The answers -/

/-- Who says that it is the master is the master. -/
theorem callHello_isMaster {routers : Routers} {peer : String} {answer : THello}
    (answered : topology.callHello routers peer = some answer)
    (isMaster : answer.isMaster = true) :
    answer.name = topology.master := by
  unfold callHello at answered
  split at answered
  · cases answered
  · rename_i config configured
    split at answered
    · rename_i reply called
      cases answered
      obtain ⟨name, yes⟩ := hello_answer called
      rw [name]
      exact (topology.onlyMaster configured).mp (yes.mp isMaster)
    · cases answered

/-- An answer to `reach_master` names the master itself if the master gives it;
another node names the gateway of its first route to the master it knows. -/
theorem callReachMaster_cases {routers : Routers} {target : String} {result : TRoute}
    (answered : topology.callReachMaster routers target = .ok result) :
    (target = topology.master ∧
      result = { destinationNode := { name := topology.master }, hops := 0 }) ∨
    (target ≠ topology.master ∧ (topology.configs target).isSome ∧
      ∃ route routes,
        (routers target).gateways? (routers target).masterNode = some (route :: routes) ∧
        result = {
          destinationNode := { name := route.gateway },
          hops := Integer.narrow route.weight }) := by
  unfold callReachMaster at answered
  split at answered
  · cases answered
  · rename_i config configured
    by_cases master : target = topology.master
    · subst master
      have yes := (topology.onlyMaster configured).mpr rfl
      rw [answerReachMaster_of_master yes (topology.named configured)] at answered
      cases answered
      exact Or.inl ⟨rfl, rfl⟩
    · have other : config.getParam "is_master" ≠ some "yes" :=
        fun yes => master ((topology.onlyMaster configured).mp yes)
      refine Or.inr ⟨master, by simp [configured], ?_⟩
      exact answerReachMaster_of_other other answered

/-- What one exchange does: a node goes through its file, or it learns from the
answer of another node, or nothing changes. -/
theorem step_cases {before after : Routers} {exchange : Exchange}
    (step : topology.Step before exchange after) :
    (∃ node lines, exchange = .updatePeersList node lines ∧
      after = Function.update before node
        ((before node).updatePeersList (topology.callHello before) lines).1) ∨
    (∃ node target result, exchange = .reachMaster node target ∧
      topology.callReachMaster before target = .ok result ∧
      after = Function.update before node ((before node).learnMaster target result).1) ∨
    after = before := by
  cases exchange with
  | updatePeersList node lines =>
      rw [Step, perform] at step
      by_cases present : (topology.configs node).isSome
      · rw [if_pos present] at step
        cases step
        exact Or.inl ⟨node, lines, rfl, rfl⟩
      · rw [if_neg present] at step
        cases step
  | reachMaster node target =>
      rw [Step, perform] at step
      by_cases present : (topology.configs node).isSome
      · rw [if_pos present] at step
        cases answered : topology.callReachMaster before target with
        | ok result =>
            rw [answered] at step
            cases step
            exact Or.inr (Or.inl ⟨node, target, result, rfl, answered, rfl⟩)
        | error raised =>
            rw [answered] at step
            cases step
            exact Or.inr (Or.inr rfl)
      · rw [if_neg present] at step
        cases step

/-- The loop of `Router::reach_master` over some peers is a run of exchanges of
the node with these peers. -/
theorem askPeers_run {routers : Routers} {node : String} {found : Bool} {router : Router}
    (present : (topology.configs node).isSome) (targets : List String)
    (asked : (routers node).askPeers (topology.callReachMaster routers) targets =
      .ok (router, found)) :
    ∃ exchanges, exchanges ⊆ targets.map (.reachMaster node) ∧
      Run topology.Step routers exchanges (Function.update routers node router) := by
  induction targets with
  | nil =>
      cases asked
      refine ⟨[], List.Subset.refl _, ?_⟩
      rw [Function.update_eq_self]
      exact .stay routers
  | cons target targets inductionHypothesis =>
      obtain ⟨result, answered, rest⟩ := except_bind_eq_ok_iff.mp asked
      have step : topology.Step routers (.reachMaster node target)
          (Function.update routers node ((routers node).learnMaster target result).1) := by
        rw [Step, perform, if_pos present, answered]
      by_cases learnt : result.destinationNode.name ≠ "" ∧ 0 ≤ result.hops
      · simp only [Router.learnMaster, if_pos learnt, if_true] at rest step
        cases rest
        exact ⟨[.reachMaster node target], by simp, .next step (.stay _)⟩
      · simp only [Router.learnMaster, if_neg learnt] at rest step
        rw [Function.update_eq_self] at step
        obtain ⟨exchanges, among, run⟩ := inductionHypothesis rest
        refine ⟨.reachMaster node target :: exchanges, ?_, .next step run⟩
        exact List.cons_subset_cons _ among

theorem reachMaster_run {routers : Routers} {node : String} {found : Bool} {router : Router}
    (present : (topology.configs node).isSome)
    (reached : (routers node).reachMaster (topology.callReachMaster routers) =
      .ok (router, found)) :
    ∃ exchanges, Run topology.Step routers exchanges (Function.update routers node router) := by
  unfold Router.reachMaster at reached
  split at reached
  · cases reached
    refine ⟨[], ?_⟩
    rw [Function.update_eq_self]
    exact .stay routers
  · obtain ⟨exchanges, _, run⟩ := topology.askPeers_run present _ reached
    exact ⟨exchanges, run⟩

/-! ## A chain of four nodes -/

def nodeConfig (name isMaster : String) : Config where
  configOptions := [⟨"node_name", name⟩, ⟨"domain_name", "test_domain"⟩,
    ⟨"is_master", isMaster⟩].toAList

def chainConfigs (host : String) : Option Config :=
  if host = "master" then some (nodeConfig "master" "yes")
  else if host = "first" ∨ host = "second" ∨ host = "third" then some (nodeConfig host "no")
  else none

/-- Four nodes, of which `master` is the master. -/
def chain : Topology where
  configs := chainConfigs
  master := "master"
  named := by
    intro host config configured
    unfold chainConfigs at configured
    split at configured
    · rename_i master
      cases configured
      rw [master]
      rfl
    · split at configured
      · cases configured
        rfl
      · cases configured
  masterConfigured := rfl
  onlyMaster := by
    intro host config configured
    unfold chainConfigs at configured
    split at configured
    · rename_i master
      cases configured
      exact ⟨fun _ => master, fun _ => rfl⟩
    · rename_i other
      split at configured
      · cases configured
        exact ⟨fun yes => absurd yes (by simp [nodeConfig, Config.getParam]),
          fun master => absurd master other⟩
      · cases configured

/-! ## Agreement on the master -/

/-- Every node knows no master, or the master. -/
def Agreed (routers : Routers) : Prop :=
  ∀ node, (routers node).masterNode = "" ∨ (routers node).masterNode = topology.master

/-- The node that asks knows a master already, or the node asked is the master, or
the first route of the node asked to the master that it knows goes through that
master itself. -/
def AsksNextToMaster (routers : Routers) : Exchange → Prop
  | .updatePeersList _ _ => True
  | .reachMaster node target =>
      (routers node).masterNode ≠ "" ∨ target = topology.master ∨
        ∀ route routes,
          (routers target).gateways? (routers target).masterNode = some (route :: routes) →
            route.gateway = (routers target).masterNode

theorem agreed_update {routers : Routers} {node : String} {router : Router}
    (agreed : topology.Agreed routers)
    (knows : router.masterNode = "" ∨ router.masterNode = topology.master) :
    topology.Agreed (Function.update routers node router) := by
  intro other
  by_cases same : other = node
  · subst same
    rw [Function.update_self]
    exact knows
  · rw [Function.update_of_ne same]
    exact agreed other

theorem agreed_step {before after : Routers} {exchange : Exchange}
    (agreed : topology.Agreed before)
    (step : Guarded topology.Step topology.AsksNextToMaster before exchange after) :
    topology.Agreed after := by
  obtain ⟨stepped, asks⟩ := step
  rcases topology.step_cases stepped with
    ⟨node, lines, rfl, rfl⟩ | ⟨node, target, result, rfl, answered, rfl⟩ | rfl
  · -- the result of the last call stays in place when a later one raises
    let met (router : Router) (helloResult : THello) : Prop :=
      (router.masterNode = "" ∨ router.masterNode = topology.master) ∧
        (helloResult.isMaster = true → helloResult.name = topology.master)
    have kept : ∀ router helloResult name key answer,
        met router helloResult → name ≠ "" →
          (answer = none ∨ answer = topology.callHello before name) →
            met (router.meetPeer helloResult name key answer).1
              (router.meetPeer helloResult name key answer).2 := by
      rintro router helloResult name key answer ⟨knows, last⟩ _ answered
      have heard : (answer.getD helloResult).isMaster = true →
          (answer.getD helloResult).name = topology.master := by
        cases answer with
        | none => exact last
        | some answer =>
            rcases answered with impossible | answered
            · cases impossible
            · exact topology.callHello_isMaster answered.symm
      refine ⟨?_, heard⟩
      rcases router.masterNode_meetPeer helloResult name key answer with same | ⟨yes, set⟩
      · rw [same]
        exact knows
      · rw [set]
        exact Or.inr (heard yes)
    obtain ⟨_, knows, _⟩ := Router.meetPeers_keeps kept lines (before node) {}
      ⟨agreed node, by simp⟩
    exact topology.agreed_update agreed knows
  · apply topology.agreed_update agreed
    unfold Router.learnMaster
    split
    · rw [Router.masterNode_insertRoute]
      rcases asks with known | asked
      · rw [Router.setMasterNode, if_neg known]
        exact agreed node
      · rcases Router.masterNode_setMasterNode (before node) result.destinationNode.name with
          same | set
        · rw [same]
          exact agreed node
        · rw [set]
          rcases topology.callReachMaster_cases answered with
            ⟨_, rfl⟩ | ⟨other, _, route, routes, entry, rfl⟩
          · exact Or.inr rfl
          · rcases asked with master | next
            · exact absurd master other
            · change route.gateway = "" ∨ route.gateway = topology.master
              rw [next route routes entry]
              exact agreed target
    · exact agreed node
  · exact agreed

/-- In every run from empty routers in which each `reach_master` asks the master
or a node next to it, every node knows no master or the master. -/
theorem masterNode_agrees_of_run {exchanges : List Exchange} {routers : Routers}
    (run : Run (Guarded topology.Step topology.AsksNextToMaster) started exchanges routers) :
    topology.Agreed routers :=
  run.keeps (fun _ _ _ agreed step => topology.agreed_step agreed step)
    fun _ => Or.inl rfl

/-- The routers of the chain after `first` has met the master. -/
def firstMet : Routers :=
  Function.update started "first"
    ((started "first").updatePeersList (chain.callHello started) [("master\tkey", true)]).1

/-- The routers of the chain after `second` has then asked `first`. -/
def secondAsked : Routers :=
  Function.update firstMet "second"
    ((firstMet "second").learnMaster "first" { destinationNode := { name := "master" } }).1

/-- `second` learns the master from `first`, which is next to it. -/
theorem masterNode_agrees_after_secondAsked : chain.Agreed secondAsked := by
  have met : chain.Step started (.updatePeersList "first" [("master\tkey", true)]) firstMet :=
    rfl
  have asked : chain.Step firstMet (.reachMaster "second" "first") secondAsked := rfl
  have next : chain.AsksNextToMaster firstMet (.reachMaster "second" "first") := by
    refine Or.inr (Or.inr ?_)
    rintro route routes ⟨⟩
    rfl
  exact masterNode_agrees_of_run chain (.next ⟨met, trivial⟩ (.next ⟨asked, next⟩ (.stay _)))

/-- Each node knows the next one towards the master, and asks it. -/
def chainExchanges : List Exchange :=
  [.updatePeersList "first" [("master\tkey", true)],
    .updatePeersList "second" [("first\tkey", true)],
    .updatePeersList "third" [("second\tkey", true)],
    .reachMaster "second" "first",
    .reachMaster "third" "second"]

/-- On the chain `third` takes `first` for the master. -/
theorem third_takes_gateway_for_master :
    ¬ ∀ (topology : Topology) (exchanges : List Exchange) (routers : Routers),
      Run topology.Step started exchanges routers → topology.Agreed routers := by
  intro always
  have performed : (performAll chain.perform started chainExchanges).map
      (fun routers => (routers "third").masterNode) = some "first" := by decide
  obtain ⟨routers, ran, third⟩ := Option.map_eq_some_iff.mp performed
  have agreed := always chain chainExchanges routers (run_of_performAll ran) "third"
  rw [third] at agreed
  revert agreed
  decide

/-! ## Routes to the master -/

/-- The first route of the node to the master is the master itself. -/
def NextToMaster (routers : Routers) (node : String) : Prop :=
  ∃ routes, (routers node).gateways? topology.master = some (⟨0, topology.master⟩ :: routes)

/-- What the routing tables of all nodes together keep: every route weighs 0, the
master is the gateway to itself only, and a gateway to the master is the master
or a node of the network that is next to it. -/
structure Routed (routers : Routers) : Prop where
  weightless : ∀ node destination gateways,
    (routers node).gateways? destination = some gateways →
      ∀ route ∈ gateways, route.weight = 0
  own : ∀ node destination gateways,
    (routers node).gateways? destination = some gateways →
      ∀ route ∈ gateways, route.gateway = topology.master → destination = topology.master
  towards : ∀ node gateways,
    (routers node).gateways? topology.master = some gateways →
      gateways ≠ [] ∧ ∀ route ∈ gateways, route.gateway = topology.master ∨
        (topology.configs route.gateway).isSome ∧ topology.NextToMaster routers route.gateway

theorem routed_started : topology.Routed started :=
  ⟨nofun, nofun, nofun⟩

/-- A route that may be added to those of a node. -/
structure Admissible (routers : Routers) (destination gateway : String) : Prop where
  own : gateway = topology.master → destination = topology.master
  towards : destination = topology.master → gateway = topology.master ∨
    (topology.configs gateway).isSome ∧ topology.NextToMaster routers gateway

/-- Whoever is next to the master stays so: a route added later stands behind. -/
theorem nextToMaster_update {routers : Routers} {node other : String} {router : Router}
    {destination gateway : String}
    (routes : ∀ target, router.gateways? target =
      ((routers node).insertRoute destination gateway 0).gateways? target)
    (next : topology.NextToMaster routers other) :
    topology.NextToMaster (Function.update routers node router) other := by
  by_cases same : other = node
  · subst same
    obtain ⟨rest, entry⟩ := next
    rw [NextToMaster, Function.update_self]
    simp only [routes]
    by_cases master : topology.master = destination
    · subst master
      rw [Router.gateways?_insertRoute_self, entry]
      exact ⟨_, congrArg some (Router.insertGateway_cons (Nat.le_refl 0))⟩
    · rw [Router.gateways?_insertRoute_ne master]
      exact ⟨rest, entry⟩
  · rw [NextToMaster, Function.update_of_ne same]
    exact next

/-- Adding an admissible route of weight 0 at one node keeps all routes in order. -/
theorem routed_update {routers : Routers} {node : String} {router : Router}
    {destination gateway : String} (routed : topology.Routed routers)
    (admissible : topology.Admissible routers destination gateway)
    (routes : ∀ target, router.gateways? target =
      ((routers node).insertRoute destination gateway 0).gateways? target) :
    topology.Routed (Function.update routers node router) := by
  -- a route of the new tables is the added one or an old one
  have origin : ∀ place target gateways,
      (Function.update routers node router place).gateways? target = some gateways →
        ∀ route ∈ gateways, (target = destination ∧ route = ⟨0, gateway⟩) ∨
          ∃ before, (routers place).gateways? target = some before ∧ route ∈ before := by
    intro place target gateways entry route member
    by_cases same : place = node
    · subst same
      rw [Function.update_self, routes] at entry
      exact Router.gateways?_insertRoute_cases entry member
    · rw [Function.update_of_ne same] at entry
      exact Or.inr ⟨gateways, entry, member⟩
  constructor
  · intro place target gateways entry route member
    rcases origin place target gateways entry route member with ⟨_, rfl⟩ | ⟨before, old, there⟩
    · rfl
    · exact routed.weightless place target before old route there
  · intro place target gateways entry route member master
    rcases origin place target gateways entry route member with
      ⟨rfl, rfl⟩ | ⟨before, old, there⟩
    · exact admissible.own master
    · exact routed.own place target before old route there master
  · intro place gateways entry
    constructor
    · by_cases same : place = node
      · subst same
        rw [Function.update_self, routes] at entry
        by_cases master : topology.master = destination
        · subst master
          rw [Router.gateways?_insertRoute_self] at entry
          cases entry
          exact List.ne_nil_of_mem (Router.mem_insertGateway.mpr (Or.inl rfl))
        · rw [Router.gateways?_insertRoute_ne master] at entry
          exact (routed.towards place gateways entry).1
      · rw [Function.update_of_ne same] at entry
        exact (routed.towards place gateways entry).1
    · intro route member
      have leads : route.gateway = topology.master ∨
          (topology.configs route.gateway).isSome ∧
            topology.NextToMaster routers route.gateway := by
        rcases origin place topology.master gateways entry route member with
          ⟨master, rfl⟩ | ⟨before, old, there⟩
        · exact admissible.towards master.symm
        · exact (routed.towards place before old).2 route there
      exact leads.imp_right fun ⟨present, next⟩ =>
        ⟨present, topology.nextToMaster_update routes next⟩

theorem routed_step {before after : Routers} {exchange : Exchange}
    (routed : topology.Routed before) (step : topology.Step before exchange after) :
    topology.Routed after := by
  rcases topology.step_cases step with
    ⟨node, lines, rfl, rfl⟩ | ⟨node, target, result, rfl, answered, rfl⟩ | rfl
  · -- a peer is its own gateway
    let met (router : Router) (_ : THello) : Prop :=
      topology.Routed (Function.update before node router)
    have kept : ∀ router helloResult name key answer,
        met router helloResult → name ≠ "" →
          (answer = none ∨ answer = topology.callHello before name) →
            met (router.meetPeer helloResult name key answer).1
              (router.meetPeer helloResult name key answer).2 := by
      intro router helloResult name key answer routed _ _
      have admissible :
          topology.Admissible (Function.update before node router) name name :=
        ⟨fun master => master, fun master => Or.inl master⟩
      have updated : topology.Routed (Function.update (Function.update before node router) node
          (router.meetPeer helloResult name key answer).1) := by
        refine topology.routed_update routed admissible fun target => ?_
        rw [Function.update_self]
        exact router.gateways?_meetPeer helloResult name key answer target
      rwa [Function.update_idem] at updated
    have initial : met (before node) {} := by
      change topology.Routed (Function.update before node (before node))
      rw [Function.update_eq_self]
      exact routed
    obtain ⟨_, last⟩ := Router.meetPeers_keeps kept lines (before node) {} initial
    exact last
  · unfold Router.learnMaster
    split
    · rcases topology.callReachMaster_cases answered with
        ⟨rfl, rfl⟩ | ⟨other, present, route, routes, entry, rfl⟩
      · have admissible : topology.Admissible before topology.master topology.master :=
          ⟨fun _ => rfl, fun _ => Or.inl rfl⟩
        exact topology.routed_update routed admissible fun destination =>
          Router.gateways?_insertRoute_congr fun other =>
            (before node).gateways?_setMasterNode _ other
      · have weight := routed.weightless target _ _ entry route List.mem_cons_self
        have admissible : topology.Admissible before route.gateway target := by
          refine ⟨fun master => absurd master other, fun master => Or.inr ⟨present, routes, ?_⟩⟩
          -- the master is the gateway to itself only, so it is the master that is known
          have known := routed.own target _ _ entry route List.mem_cons_self master
          rw [known] at entry
          rw [entry, ← weight, ← master]
        refine topology.routed_update routed admissible fun destination => ?_
        have hops : (Integer.narrow route.weight).toNat = 0 := by
          rw [weight]
          rfl
        dsimp only
        rw [hops]
        exact Router.gateways?_insertRoute_congr fun other =>
          (before node).gateways?_setMasterNode _ other
    · rw [Function.update_eq_self]
      exact routed
  · exact routed

/-- `get_gateway` of the master at a node of the network. -/
def gatewayToMaster (routers : Routers) (node : String) : Option String :=
  if (topology.configs node).isSome then
    match (routers node).getGateway topology.master with
    | .ok gateway => gateway
    | .error _ => none
  else none

theorem gatewayToMaster_eq {routers : Routers} {node : String} {route : WeightedGateway}
    {routes : List WeightedGateway} (present : (topology.configs node).isSome)
    (entry : (routers node).gateways? topology.master = some (route :: routes)) :
    topology.gatewayToMaster routers node = some route.gateway := by
  rw [gatewayToMaster, if_pos present, Router.getGateway, entry]
  rfl

/-- In every run from empty routers, a node that has an entry for the master
reaches it by following the gateways from node to node. -/
theorem gateways_arrive_at_master {exchanges : List Exchange} {routers : Routers}
    (run : Run topology.Step started exchanges routers) {node : String}
    {gateways : List WeightedGateway} (present : (topology.configs node).isSome)
    (other : node ≠ topology.master)
    (entry : (routers node).gateways? topology.master = some gateways) :
    ∃ hops, Arrives (topology.gatewayToMaster routers) topology.master node hops := by
  have routed := run.keeps (fun _ _ _ routed step => topology.routed_step routed step)
    topology.routed_started
  obtain ⟨nonempty, towards⟩ := routed.towards node gateways entry
  cases gateways with
  | nil => exact absurd rfl nonempty
  | cons route routes =>
      apply Arrives.through other (topology.gatewayToMaster_eq present entry)
      rcases towards route List.mem_cons_self with direct | ⟨onward, rest, next⟩
      · exact Or.inl direct
      · by_cases direct : route.gateway = topology.master
        · exact Or.inl direct
        · exact Or.inr ⟨direct, topology.gatewayToMaster_eq onward next⟩

/-- On the chain `second` reaches the master through `first`. -/
theorem gateways_arrive_from_second :
    ∃ hops, Arrives (chain.gatewayToMaster secondAsked) "master" "second" hops := by
  have met : chain.Step started (.updatePeersList "first" [("master\tkey", true)]) firstMet :=
    rfl
  have asked : chain.Step firstMet (.reachMaster "second" "first") secondAsked := rfl
  exact gateways_arrive_at_master chain (.next met (.next asked (.stay _))) rfl
    (by decide) (by rfl)

end Topology

end OpenWorkloadScheduler
