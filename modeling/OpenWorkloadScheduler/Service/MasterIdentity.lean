import OpenWorkloadScheduler.ConfigFile
import OpenWorkloadScheduler.Service.NullGateways

/-!
# Who the master is

A node has two objects that name the master.  The router finds it out from the
other nodes.  The configuration has an attribute for it that no code assigns, and
this is the one that the requests about plannings are forwarded by.
-/

namespace OpenWorkloadScheduler

open Rpc Foundations

/-! ## What a router finds out -/

namespace Router

/-- What a router does to find the master, with the answers that it gets. -/
inductive Discovery where
  | updatePeersList (hello : String → Option THello) (lines : List (String × Bool))
  | reachMaster (target : String) (result : TRoute)

def discover (router : Router) : Discovery → Router
  | .updatePeersList hello lines => (router.updatePeersList hello lines).1
  | .reachMaster target result => (router.learnMaster target result).1

/-- The steps of a router, whatever the other nodes answer. -/
def Discovers (before : Router) (discovery : Discovery) (after : Router) : Prop :=
  after = before.discover discovery

/-- A state that a router gets to. -/
def Reached (router : Router) : Prop :=
  ∃ discoveries, Run Discovers {} discoveries router

theorem Reached.discover {router : Router} (reached : Reached router) (discovery : Discovery) :
    Reached (router.discover discovery) := by
  obtain ⟨discoveries, run⟩ := reached
  exact ⟨discoveries ++ [discovery], run.append (.next rfl (.stay _))⟩

/-- No route leads to the empty name. -/
def NamesRoutes (router : Router) : Prop :=
  router.gateways? "" = none

/-- Neither a peer nor a master has the empty name. -/
theorem namesRoutes_discover {router : Router} (named : NamesRoutes router)
    (discovery : Discovery) : NamesRoutes (router.discover discovery) := by
  cases discovery with
  | updatePeersList hello lines =>
      let met (router : Router) (_ : THello) : Prop := NamesRoutes router
      have kept : ∀ router helloResult name key answer, met router helloResult → name ≠ "" →
          (answer = none ∨ answer = hello name) →
            met (router.meetPeer helloResult name key answer).1
              (router.meetPeer helloResult name key answer).2 := by
        intro router helloResult name key answer routes filled _
        change Router.gateways? _ _ = none
        rw [gateways?_meetPeer, gateways?_insertRoute_ne filled.symm]
        exact routes
      obtain ⟨_, after⟩ := meetPeers_keeps kept lines router {} named
      exact after
  | reachMaster target result =>
      rw [discover, learnMaster]
      split
      · rename_i learnt
        rw [NamesRoutes, gateways?_insertRoute_ne learnt.1.symm, gateways?_setMasterNode]
        exact named
      · exact named

theorem getGateway_of_reached {router : Router} (reached : Reached router) :
    router.getGateway "" = .ok none := by
  obtain ⟨discoveries, run⟩ := reached
  have named : NamesRoutes router := by
    refine run.keeps (fun before discovery after named step => ?_) (rfl : NamesRoutes {})
    rw [step]
    exact namesRoutes_discover named discovery
  rw [getGateway, named]
  rfl

end Router

/-- In a run of the whole network every router makes a run of its own. -/
theorem Topology.reached_of_run (topology : Topology) {exchanges : List Topology.Exchange}
    {routers : Routers} (run : Run topology.Step Topology.started exchanges routers)
    (node : String) : Router.Reached (routers node) := by
  let all (routers : Routers) : Prop := ∀ node, Router.Reached (routers node)
  have updated : ∀ before node discovery, all before →
      all (Function.update before node ((before node).discover discovery)) := by
    intro before node discovery reached other
    by_cases same : other = node
    · subst same
      rw [Function.update_self]
      exact (reached other).discover discovery
    · rw [Function.update_of_ne same]
      exact reached other
  have stepped : ∀ before exchange after, all before → topology.Step before exchange after →
      all after := by
    intro before exchange after reached step
    rcases topology.step_cases step with
      ⟨node, lines, rfl, rfl⟩ | ⟨node, target, result, rfl, _, rfl⟩ | rfl
    · exact updated before node (.updatePeersList (topology.callHello before) lines) reached
    · exact updated before node (.reachMaster target result) reached
    · exact reached
  exact run.keeps stepped (fun _ => ⟨[], .stay _⟩) node

/-! ## What the requests are forwarded by -/

section Requests

variable {config : Config} {router : Router}

/-- Without a gateway the handlers of a node that is not the master read NULL, be it the
gateway or the parameter that says who is the master. -/
theorem handlePlanning_reads_null (active : config.runningMode = .active)
    (slave : config.getParam "is_master" ≠ some "yes")
    (unknown : router.getGateway config.masterNode = .ok none) (request : PlanningRequest) :
    ∃ what, Handlers.handlePlanning config router request =
      .error (.undefinedBehaviour what) := by
  cases configured : config.getParam "is_master" with
  | some isMaster =>
      have other : isMaster ≠ "yes" := by
        rintro rfl
        exact slave configured
      exact ⟨_, ServiceCall.handlePlanning_of_unknown active configured other unknown⟩
  | none =>
      have read : config.param "is_master" =
          .error (.undefinedBehaviour ("get_param(" ++ "is_master" ++ ")")) := by
        rw [Config.param, configured]
      obtain ⟨initial, operation, handled⟩ := Handlers.handlePlanning_eq request
      rw [handled, Handlers.planningByMode, active]
      dsimp only
      rw [Handlers.atMaster, read]
      exact ⟨_, rfl⟩

/-- Whatever file a node that is not the master has read, and whatever its router has found
out: once the router knows a master, the configuration names another one, and no request
about plannings is forwarded in the mode ACTIVE. -/
theorem planning_not_forwarded {file : Option String}
    (parsed : Config.initial.parseFile file = .ok (config, true))
    (active : config.runningMode = .active)
    (slave : config.getParam "is_master" ≠ some "yes") (reached : router.Reached)
    (known : router.masterNode ≠ "") :
    config.masterNode ≠ router.masterNode ∧
      ∀ request gateway forwarded,
        Handlers.handlePlanning config router request ≠ .ok (.forward gateway forwarded) := by
  have unset : config.masterNode = "" := Config.masterNode_parseFile parsed
  refine ⟨fun same => known (same.symm.trans unset), fun request gateway forwarded sent => ?_⟩
  have unknown : router.getGateway config.masterNode = .ok none := by
    rw [unset]
    exact Router.getGateway_of_reached reached
  obtain ⟨what, raised⟩ := handlePlanning_reads_null active slave unknown request
  rw [raised] at sent
  cases sent

end Requests

/-! ## A node that has found the master -/

def workerFile : String :=
  "node_name\t= worker\ndomain_name\t= prod\n\n# the peers\nport = 8080\n" ++
    "is_master\t= no\nrunning_mode\t= active\n"

/-- The parameters of the file. -/
def workerConfig : Config where
  configOptions := [⟨"running_mode", "active"⟩, ⟨"is_master", "no"⟩, ⟨"port", "8080"⟩,
    ⟨"domain_name", "prod"⟩, ⟨"node_name", "worker"⟩].toAList
  runningMode := .active

/-- The router after its one peer has said that it is the master. -/
def workerRouter : Router :=
  Router.discover {} (.updatePeersList
    (fun peer => some { domain := "prod", name := peer, isMaster := true })
    [("localhost\t1234", true)])

theorem parsed_workerFile :
    Config.initial.parseFile (some workerFile) = .ok (workerConfig, true) := by
  rfl

theorem reached_workerRouter : workerRouter.Reached :=
  Router.Reached.discover ⟨[], .stay _⟩ _

theorem workerRouter_knows_localhost :
    workerRouter.masterNode = "localhost" ∧
      workerRouter.getGateway "localhost" = .ok (some "localhost") := by
  decide

/-- The worker cannot ask `localhost` for a planning. -/
theorem planning_not_forwarded_by_worker :
    workerConfig.masterNode ≠ workerRouter.masterNode ∧
      ∀ request gateway forwarded, Handlers.handlePlanning workerConfig workerRouter request ≠
        .ok (.forward gateway forwarded) :=
  planning_not_forwarded parsed_workerFile rfl (by decide) reached_workerRouter (by decide)

/-- The worker has found the master and a route to it, but it reads a NULL gateway. -/
theorem worker_forwards_no_planning :
    ¬ ∀ (file : Option String) (config : Config) (router : Router) (gateway : String),
      Config.initial.parseFile file = .ok (config, true) → config.runningMode = .active →
      config.getParam "is_master" ≠ some "yes" → router.Reached → router.masterNode ≠ "" →
      router.getGateway router.masterNode = .ok (some gateway) →
      config.masterNode = router.masterNode ∧
        ∀ request, Handlers.handlePlanning config router request =
          .ok (.forward gateway request) := by
  intro always
  obtain ⟨same, _⟩ := always (some workerFile) workerConfig workerRouter "localhost"
    parsed_workerFile rfl (by decide) reached_workerRouter (by decide)
    workerRouter_knows_localhost.2
  exact absurd same (by decide)

end OpenWorkloadScheduler
