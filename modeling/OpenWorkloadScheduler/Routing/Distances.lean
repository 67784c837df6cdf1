import OpenWorkloadScheduler.Routing.Discovery
import OpenWorkloadScheduler.Routing.RouteTable

/-!
# The weights of the routes to the master

The weight of a route is meant to be its number of hops, so that the lightest
gateway begins a shortest route.  A node that learns of the master copies the
weight that its gateway has for its own route, which does not count the gateway:
as soon as one node has learnt of the master from another one than the master,
the weights count no more.
-/

namespace OpenWorkloadScheduler

open Rpc Foundations

namespace Topology

variable (topology : Topology)

/-- The number of nodes between a node with the route to the master and the master. -/
def Between (routers : Routers) (route : WeightedGateway) (hops : Nat) : Prop :=
  Arrives (topology.gatewayToMaster routers) topology.master route.gateway hops

/-- The weights of the routes to the master count the nodes on the way. -/
structure CountsHops (routers : Routers) : Prop where
  counted : ∀ node, ∀ route ∈ (routers node).gatewaysOf topology.master,
    topology.Between routers route route.weight
  onward : ∀ node, ∀ route ∈ (routers node).gatewaysOf topology.master,
    route.gateway ≠ topology.master →
      ∃ best, (routers route.gateway).getRoute topology.master = .ok (some best) ∧
        route.weight = best.weight + 1
  shortest : ∀ node first, (routers node).getRoute topology.master = .ok (some first) →
    ∀ route ∈ (routers node).gatewaysOf topology.master, ∀ hops others,
      topology.Between routers first hops → topology.Between routers route others →
        hops ≤ others

/-- The master is the gateway of every route to it. -/
def Direct (routers : Routers) : Prop :=
  ∀ node, ∀ route ∈ (routers node).gatewaysOf topology.master,
    route.gateway = topology.master

theorem between_of_direct {routers : Routers} {route : WeightedGateway}
    (direct : route.gateway = topology.master) : topology.Between routers route 0 := by
  rw [Between, direct]
  exact .here

theorem weightless_of_mem {routers : Routers} (routed : topology.Routed routers)
    {node destination : String} {route : WeightedGateway}
    (member : route ∈ (routers node).gatewaysOf destination) : route.weight = 0 := by
  rw [Router.gatewaysOf] at member
  cases entry : (routers node).gateways? destination with
  | none =>
      rw [entry] at member
      cases member
  | some gateways =>
      rw [entry] at member
      exact routed.weightless node destination gateways entry route member

/-- Since all weights are 0, they count the nodes on the way if and only if there are
none. -/
theorem countsHops_iff_direct {routers : Routers} (routed : topology.Routed routers) :
    topology.CountsHops routers ↔ topology.Direct routers := by
  constructor
  · intro counts node route member
    by_contra through
    obtain ⟨best, _, weight⟩ := counts.onward node route member through
    rw [topology.weightless_of_mem routed member] at weight
    omega
  · intro direct
    constructor
    · intro node route member
      rw [topology.weightless_of_mem routed member]
      exact topology.between_of_direct (direct node route member)
    · intro node route member through
      exact absurd (direct node route member) through
    · intro node first lookedUp route member hops others between _
      have next := direct node first (Router.mem_gatewaysOf_of_getRoute lookedUp)
      rw [Between, next] at between
      rw [between.eq_zero]
      exact Nat.zero_le others

/-! ## One exchange -/

/-- The node answers `reach_master`: its configuration says whether it is the master, it
knows the master, and it has it as its first gateway to it. -/
structure KnowsDirectly (routers : Routers) (host : String) : Prop where
  configured : ∃ config, topology.configs host = some config ∧
    (config.getParam "is_master").isSome
  known : (routers host).masterNode = topology.master
  next : topology.NextToMaster routers host

/-- A node asks another one than the master that is next to the master. -/
def AsksNeighbour (routers : Routers) : Exchange → Prop
  | .updatePeersList _ _ => False
  | .reachMaster _ target =>
      target ≠ topology.master ∧ topology.master ≠ "" ∧ topology.KnowsDirectly routers target

/-- Another node than the master tells its name if and only if it is next to the master. -/
theorem callReachMaster_names_master_iff {routers : Routers} {target : String}
    (routed : topology.Routed routers) (other : target ≠ topology.master) :
    (∃ result, topology.callReachMaster routers target = .ok result ∧
      result.destinationNode.name = topology.master) ↔ topology.KnowsDirectly routers target := by
  constructor
  · rintro ⟨result, answered, master⟩
    rcases topology.callReachMaster_cases answered with
      ⟨same, _⟩ | ⟨_, present, route, routes, entry, rfl⟩
    · exact absurd same other
    · have listed : route ∈ route :: routes := List.mem_cons_self
      have known := routed.own target _ _ entry route listed master
      have weightless := routed.weightless target _ _ entry route listed
      obtain ⟨config, configured⟩ := Option.isSome_iff_exists.mp present
      rw [callReachMaster, configured] at answered
      obtain ⟨isMaster, read, _⟩ := except_bind_eq_ok_iff.mp answered
      refine ⟨⟨config, configured, ?_⟩, known, routes, ?_⟩
      · rw [Config.param_eq_ok_iff.mp read]
        rfl
      · rw [← known, entry, ← weightless, known, ← master]
  · rintro ⟨⟨config, configured, told⟩, known, routes, entry⟩
    obtain ⟨isMaster, read⟩ := Option.isSome_iff_exists.mp told
    have different : isMaster ≠ "yes" := by
      rintro rfl
      exact other ((topology.onlyMaster configured).mp read)
    have found : (routers target).getRoute (routers target).masterNode =
        .ok (some ⟨0, topology.master⟩) := by
      rw [known, Router.getRoute, entry]
      rfl
    refine ⟨{ destinationNode := { name := topology.master }, hops := Integer.narrow (0 : Nat) },
      ?_, rfl⟩
    rw [callReachMaster, configured]
    dsimp only
    rw [answerReachMaster, Config.param_of_getParam read, found]
    exact if_neg different

/-- The routes of a router to the master are those of another one, and direct ones. -/
structure GainsDirect (before after : Router) : Prop where
  kept : ∀ route ∈ before.gatewaysOf topology.master, route ∈ after.gatewaysOf topology.master
  gained : ∀ route ∈ after.gatewaysOf topology.master,
    route ∈ before.gatewaysOf topology.master ∨ route.gateway = topology.master

theorem gainsDirect_updatePeersList (router : Router) (lines : List (String × Bool))
    (hello : String → Option THello) :
    topology.GainsDirect router (router.updatePeersList hello lines).1 := by
  let met : Router → THello → Prop := fun met _ => topology.GainsDirect router met
  have kept : ∀ peers helloResult name key answer, met peers helloResult → name ≠ "" →
      (answer = none ∨ answer = hello name) →
        met (peers.meetPeer helloResult name key answer).1
          (peers.meetPeer helloResult name key answer).2 := by
    intro peers helloResult name key answer gains _ _
    have routes : (peers.meetPeer helloResult name key answer).1.gatewaysOf topology.master =
        (peers.insertRoute name name 0).gatewaysOf topology.master := by
      rw [Router.gatewaysOf, Router.gateways?_meetPeer, Router.gatewaysOf]
    constructor
    · intro route member
      rw [routes, Router.mem_gatewaysOf_insertRoute]
      exact Or.inr (gains.kept route member)
    · intro route member
      rw [routes, Router.mem_gatewaysOf_insertRoute] at member
      rcases member with ⟨master, rfl⟩ | there
      · exact Or.inr master.symm
      · exact gains.gained route there
  have initial : met router {} := ⟨fun _ member => member, fun _ member => Or.inl member⟩
  obtain ⟨_, gains⟩ := Router.meetPeers_keeps kept lines router {} initial
  exact gains

theorem mem_gatewaysOf_learnMaster {router : Router} {target : String} {result : TRoute}
    {route : WeightedGateway} :
    route ∈ (router.learnMaster target result).1.gatewaysOf topology.master ↔
      (result.destinationNode.name = topology.master ∧ topology.master ≠ "" ∧ 0 ≤ result.hops ∧
        route = ⟨result.hops.toNat, target⟩) ∨
      route ∈ router.gatewaysOf topology.master := by
  have routes : (router.setMasterNode result.destinationNode.name).gatewaysOf
      topology.master = router.gatewaysOf topology.master := by
    rw [Router.gatewaysOf, Router.gateways?_setMasterNode, Router.gatewaysOf]
  unfold Router.learnMaster
  split
  · rename_i learnt
    rw [Router.mem_gatewaysOf_insertRoute, routes]
    constructor
    · rintro (⟨master, rfl⟩ | there)
      · exact Or.inl ⟨master.symm, by rw [master]; exact learnt.1, learnt.2, rfl⟩
      · exact Or.inr there
    · rintro (⟨master, _, _, rfl⟩ | there)
      · exact Or.inl ⟨master.symm, rfl⟩
      · exact Or.inr there
  · rename_i unlearnt
    refine ⟨Or.inr, fun either => either.resolve_left ?_⟩
    rintro ⟨master, named, hops, _⟩
    exact unlearnt ⟨by rw [master]; exact named, hops⟩

theorem routes_kept {before after : Routers} {exchange : Exchange}
    (step : topology.Step before exchange after) (node : String) :
    ∀ route ∈ (before node).gatewaysOf topology.master,
      route ∈ (after node).gatewaysOf topology.master := by
  intro route member
  rcases topology.step_cases step with
    ⟨place, lines, rfl, rfl⟩ | ⟨place, target, result, rfl, _, rfl⟩ | rfl
  · by_cases same : node = place
    · subst same
      rw [Function.update_self]
      exact (topology.gainsDirect_updatePeersList _ _ _).kept route member
    · rwa [Function.update_of_ne same]
  · by_cases same : node = place
    · subst same
      rw [Function.update_self, topology.mem_gatewaysOf_learnMaster]
      exact Or.inr member
    · rwa [Function.update_of_ne same]
  · exact member

theorem direct_of_step {before after : Routers} {exchange : Exchange}
    (step : topology.Step before exchange after) (direct : topology.Direct after) :
    topology.Direct before :=
  fun node route member => direct node route (topology.routes_kept step node route member)

/-- What the node asked answers is worth no hop. -/
theorem hops_of_callReachMaster {routers : Routers} {target : String} {result : TRoute}
    (routed : topology.Routed routers)
    (answered : topology.callReachMaster routers target = .ok result) : result.hops = 0 := by
  rcases topology.callReachMaster_cases answered with
    ⟨_, rfl⟩ | ⟨_, _, route, routes, entry, rfl⟩
  · rfl
  · dsimp only
    rw [routed.weightless target _ _ entry route List.mem_cons_self]
    rfl

/-- A node that asks one next to the master gets a route through it. -/
theorem not_direct_of_asksNeighbour {before after : Routers} {exchange : Exchange}
    (routed : topology.Routed before) (step : topology.Step before exchange after)
    (asks : topology.AsksNeighbour before exchange) : ¬ topology.Direct after := by
  cases exchange with
  | updatePeersList node lines => exact absurd asks not_false
  | reachMaster node target =>
      obtain ⟨other, named, knows⟩ := asks
      obtain ⟨result, answered, master⟩ :=
        (topology.callReachMaster_names_master_iff routed other).mpr knows
      have hops := topology.hops_of_callReachMaster routed answered
      rw [Step, perform] at step
      split at step
      · rw [answered] at step
        cases step
        intro direct
        refine other (direct node ⟨result.hops.toNat, target⟩ ?_)
        rw [Function.update_self, topology.mem_gatewaysOf_learnMaster]
        exact Or.inl ⟨master, named, hops.ge, rfl⟩
      · cases step

theorem direct_of_not_asksNeighbour {before after : Routers} {exchange : Exchange}
    (routed : topology.Routed before) (direct : topology.Direct before)
    (step : topology.Step before exchange after)
    (apart : ¬ topology.AsksNeighbour before exchange) : topology.Direct after := by
  intro node route member
  rcases topology.step_cases step with
    ⟨place, lines, rfl, rfl⟩ | ⟨place, target, result, rfl, answered, rfl⟩ | rfl
  · by_cases same : node = place
    · subst same
      rw [Function.update_self] at member
      rcases (topology.gainsDirect_updatePeersList _ _ _).gained route member with old | new
      · exact direct node route old
      · exact new
    · rw [Function.update_of_ne same] at member
      exact direct node route member
  · by_cases same : node = place
    · subst same
      rw [Function.update_self, topology.mem_gatewaysOf_learnMaster] at member
      rcases member with ⟨master, named, _, rfl⟩ | old
      · by_contra other
        exact apart ⟨other, named,
          (topology.callReachMaster_names_master_iff routed other).mp ⟨result, answered, master⟩⟩
      · exact direct node route old
    · rw [Function.update_of_ne same] at member
      exact direct node route member
  · exact direct node route member

/-! ## Runs -/

theorem direct_of_guarded {before after : Routers} {exchanges : List Exchange}
    (routed : topology.Routed before) (direct : topology.Direct before)
    (run : Run (Guarded topology.Step fun routers exchange =>
      ¬ topology.AsksNeighbour routers exchange) before exchanges after) :
    topology.Direct after := by
  let holds : Routers → Prop := fun routers => topology.Routed routers ∧ topology.Direct routers
  have both : holds after := run.keeps (fun _ _ _ here step =>
    ⟨topology.routed_step here.1 step.1,
      topology.direct_of_not_asksNeighbour here.1 here.2 step.1 step.2⟩) ⟨routed, direct⟩
  exact both.2

theorem guarded_of_direct {before after : Routers} {exchanges : List Exchange}
    (routed : topology.Routed before) (run : Run topology.Step before exchanges after)
    (direct : topology.Direct after) :
    topology.Direct before ∧ Run (Guarded topology.Step fun routers exchange =>
      ¬ topology.AsksNeighbour routers exchange) before exchanges after := by
  induction run with
  | stay state => exact ⟨direct, .stay state⟩
  | next step _ inductionHypothesis =>
      obtain ⟨between, rest⟩ := inductionHypothesis (topology.routed_step routed step) direct
      refine ⟨topology.direct_of_step step between, .next ⟨step, fun asks => ?_⟩ rest⟩
      exact topology.not_direct_of_asksNeighbour routed step asks between

/-- After a run from empty routers, the weights of the routes to the master count the
nodes on the way if and only if no node has asked one next to the master for it. -/
theorem weights_count_hops_iff {exchanges : List Exchange} {routers : Routers}
    (run : Run topology.Step started exchanges routers) :
    topology.CountsHops routers ↔
      Run (Guarded topology.Step fun routers exchange =>
        ¬ topology.AsksNeighbour routers exchange) started exchanges routers := by
  have routed := run.keeps (fun _ _ _ routed step => topology.routed_step routed step)
    topology.routed_started
  rw [topology.countsHops_iff_direct routed]
  constructor
  · intro direct
    exact (topology.guarded_of_direct topology.routed_started run direct).2
  · intro guarded
    exact topology.direct_of_guarded topology.routed_started
      (fun _ _ member => absurd member List.not_mem_nil) guarded

theorem step_firstMet :
    chain.Step started (.updatePeersList "first" [("master\tkey", true)]) firstMet :=
  rfl

/-- On the chain `first` meets the master itself. -/
theorem weights_count_hops_firstMet :
    chain.CountsHops firstMet ↔
      Run (Guarded chain.Step fun routers exchange => ¬ chain.AsksNeighbour routers exchange)
        started [.updatePeersList "first" [("master\tkey", true)]] firstMet :=
  weights_count_hops_iff chain (.next step_firstMet (.stay _))

/-- On the chain `second` stores the weight 0 for its route through `first`. -/
theorem second_counts_no_hop :
    ¬ ∀ (topology : Topology) (exchanges : List Exchange) (routers : Routers),
      Run topology.Step started exchanges routers → topology.CountsHops routers := by
  intro always
  have asked : chain.Step firstMet (.reachMaster "second" "first") secondAsked := rfl
  have counts := always chain _ secondAsked (.next step_firstMet (.next asked (.stay _)))
  have member : (⟨0, "first"⟩ : WeightedGateway) ∈ (secondAsked "second").gatewaysOf "master" := by
    decide
  obtain ⟨best, _, weight⟩ := counts.onward "second" ⟨0, "first"⟩ member (by decide)
  exact absurd weight (Nat.succ_ne_zero best.weight).symm

end Topology

end OpenWorkloadScheduler
