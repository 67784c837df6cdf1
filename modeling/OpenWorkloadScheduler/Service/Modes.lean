import OpenWorkloadScheduler.Service.Passive

/-!
# The modes ACTIVE and PASSIVE

A request of the master to a node is meant to have the same effect in both modes:
the branches of a handler should make the same calls of the mutators, with the
same schema and the same data.  Those of `add_node`, `remove_node` and
`update_job` do not.
-/

namespace OpenWorkloadScheduler

open Rpc Store Foundations

/-! ## What an operation writes -/

namespace Operation

/-- The calls of the mutators that an operation consists of, each with its schema and
its data. -/
def mutations : Operation → List Domain.Mutation
  | addNode domainName node =>
      .addWeightedNode domainName node.name node.weight ::
        (node.resources.map fun resource => .addResource domainName resource node.name) ++
        node.jobs.map (.addJob domainName)
  | addWeightedNode domainName nodeName weight => [.addWeightedNode domainName nodeName weight]
  | removeNode domainName nodeName => [.removeNode domainName nodeName]
  | addJob domainName job => [.addJob domainName job]
  | updateJob job => [.updateJob job]
  | removeJob job => [.removeJob job]
  | updateJobState domainName job => [.updateRpcJobState domainName job]
  | _ => []

/-- An operation that writes makes its calls in turn, as long as they return true. -/
theorem run_eq_allTrue (domain : Domain) {operation : Operation}
    (writes : operation.mutations ≠ []) :
    operation.run domain = (do
      return .flag (← allTrue (Domain.Mutation.run domain) operation.mutations)) := by
  cases operation with
  | addNode domainName node =>
      rw [mutations, List.cons_append, allTrue, allTrue_append, allTrue_map, allTrue_map]
      rfl
  | addWeightedNode domainName nodeName weight =>
      rw [mutations, allTrue, allTrue, andThen_pure_true]
      rfl
  | removeNode domainName nodeName =>
      rw [mutations, allTrue, allTrue, andThen_pure_true]
      rfl
  | addJob domainName job =>
      rw [mutations, allTrue, allTrue, andThen_pure_true]
      rfl
  | updateJob job =>
      rw [mutations, allTrue, allTrue, andThen_pure_true]
      rfl
  | removeJob job =>
      rw [mutations, allTrue, allTrue, andThen_pure_true]
      rfl
  | updateJobState domainName job =>
      rw [mutations, allTrue, allTrue, andThen_pure_true]
      rfl
  | _ => exact absurd rfl writes

theorem run_congr (domain : Domain) {first second : Operation} (writes : first.mutations ≠ [])
    (same : first.mutations = second.mutations) : first.run domain = second.run domain := by
  rw [run_eq_allTrue domain writes, run_eq_allTrue domain (same ▸ writes), same]

end Operation

/-! ## A request in both modes -/

/-- The calls of the mutators that a handler makes at this node. -/
def Decision.mutations : Decision → List Domain.Mutation
  | .execute operation => operation.mutations
  | _ => []

namespace Request

/-- The requests that write. -/
def mutates : Request → Bool
  | addNode _ _ | removeNode _ _ | addJob _ _ | updateJob _ _ | removeJob _ _
  | updateJobState _ _ => true
  | _ => false

theorem mutations_of_mutates {request : Request} (mutates : request.mutates = true) :
    request.operation.mutations ≠ [] := by
  cases request with
  | addNode routing node => exact List.cons_ne_nil _ _
  | removeNode routing node => exact List.cons_ne_nil _ _
  | addJob routing job => exact List.cons_ne_nil _ _
  | updateJob routing job => exact List.cons_ne_nil _ _
  | removeJob routing job => exact List.cons_ne_nil _ _
  | updateJobState routing job => exact List.cons_ne_nil _ _
  | _ => cases mutates

/-- Both branches of the handler raise the same exception or make the same calls of
the mutators, so that they lead from equal states to equal states. -/
structure AgreesInModes (config : Config) (router : Router) (request : Request) : Prop where
  mutations :
    (Handlers.handle { config with runningMode := .active } router request).map
        Decision.mutations =
      (Handlers.handle { config with runningMode := .passive } router request).map
        Decision.mutations
  worlds : ∀ (domain : Domain) (world : World),
    finalState ((ServiceCall.routed request).run { config with runningMode := .active } router
        domain world) =
      finalState ((ServiceCall.routed request).run { config with runningMode := .passive } router
        domain world)

/-- What the branch of the mode PASSIVE leaves out of the request makes no difference. -/
def LosesNothing : Request → Prop
  | addNode routing node =>
      routing.targetNode.domainName = routing.targetNode.name ∧ node.resources = [] ∧
        node.jobs = []
  | removeNode routing _ => routing.targetNode.domainName = routing.targetNode.name
  | updateJob _ _ => False
  | _ => True

end Request

section Agreement

variable {config : Config} {router : Router} {request : Request}

/-- At its target, the branch of the mode ACTIVE executes the operation asked for. -/
theorem active_of_target (target : config.getParam "node_name" = some request.target) :
    request.active config router = .ok (.execute request.operation) := by
  have here : ∀ noGateway operation,
      Handlers.atTarget config router request.target noGateway request operation =
        .ok (.execute operation) := by
    intro noGateway operation
    rw [Handlers.atTarget, Config.param_of_getParam target, except_ok_bind]
    exact if_neg (not_not.mpr rfl)
  cases request with
  | addJob routing job =>
      rw [Request.active, Config.param_of_getParam target, except_ok_bind]
      exact if_neg fun other => other.1 rfl
  | _ => exact here _ _

theorem forMaster_of_master {callingNodeName targetNodeName : String}
    (target : config.getParam "node_name" = some targetNodeName)
    (master : router.masterNode = callingNodeName) (operation : Operation) :
    Handlers.forMaster config router callingNodeName targetNodeName operation =
      .ok (.execute operation) := by
  rw [Handlers.forMaster, checkMasterNode_eq_ok_iff.mpr ⟨master, target⟩]
  rfl

/-- What a request of the known master does at its target, mode by mode. -/
theorem handle_of_master (mutates : request.mutates = true) (accepted : request.Accepted)
    (target : config.getParam "node_name" = some request.target)
    (master : router.masterNode = request.callingNode.name) :
    Handlers.handle { config with runningMode := .active } router request =
        .ok (.execute request.operation) ∧
      ∃ operation, request.passiveOperation = some operation ∧
        Handlers.handle { config with runningMode := .passive } router request =
          .ok (.execute operation) := by
  constructor
  · rw [Handlers.handle_of_accepted _ router accepted]
    exact active_of_target target
  · rw [Handlers.handle_of_accepted _ router accepted]
    obtain ⟨operation, performed⟩ : ∃ operation, request.passiveOperation = some operation := by
      cases request <;> first | exact ⟨_, rfl⟩ | cases mutates
    refine ⟨operation, performed, ?_⟩
    rw [Handlers.byMode]
    dsimp only
    rw [Request.passive, performed]
    exact forMaster_of_master target master operation

theorem run_of_execute {operation : Operation} (domain : Domain)
    (decided : Handlers.handle config router request = .ok (.execute operation)) :
    (ServiceCall.routed request).run config router domain = (do
      let _ ← operation.run domain) := by
  rw [ServiceCall.run, decided]
  rfl

theorem run_of_refused {raised : Raised} (domain : Domain)
    (decided : Handlers.handle config router request = .error raised) (world : World) :
    finalState ((ServiceCall.routed request).run config router domain world) = world := by
  rw [ServiceCall.run, decided]
  rfl

theorem agreesInModes_of_losesNothing (mutates : request.mutates = true)
    (accepted : request.Accepted) (loses : request.LosesNothing)
    (target : config.getParam "node_name" = some request.target)
    (master : router.masterNode = request.callingNode.name) :
    request.AgreesInModes config router := by
  obtain ⟨active, operation, performed, passive⟩ :=
    handle_of_master mutates accepted target master
  have same : request.operation.mutations = operation.mutations := by
    cases request with
    | addNode routing node =>
        obtain ⟨schema, resources, jobs⟩ := loses
        cases performed
        simp only [Request.operation, Operation.mutations, schema, resources, jobs, List.map_nil,
          List.append_nil]
    | removeNode routing node =>
        have schema : routing.targetNode.domainName = routing.targetNode.name := loses
        cases performed
        simp only [Request.operation, Operation.mutations, schema]
    | updateJob routing job => exact loses.elim
    | addJob routing job | removeJob routing job | updateJobState routing job =>
        cases performed
        rfl
    | _ => cases mutates
  constructor
  · rw [active, passive]
    exact congrArg Except.ok same
  · intro domain world
    rw [run_of_execute domain active, run_of_execute domain passive,
      Operation.run_congr domain (Request.mutations_of_mutates mutates) same]

theorem agreesInModes_of_refused (refused : ¬ request.Accepted) :
    request.AgreesInModes config router := by
  cases checked : request.checks with
  | ok value => exact absurd (request.accepted_iff.mpr checked) refused
  | error raised =>
      have decided : ∀ runningMode, Handlers.handle { config with runningMode } router request =
          .error raised := by
        intro runningMode
        rw [Handlers.handle_eq, checked]
        rfl
      constructor
      · rw [decided, decided]
      · intro domain world
        rw [run_of_refused domain (decided .active), run_of_refused domain (decided .passive)]

/-- A request of the known master to this node does the same in both modes if and only
if it is refused, or what the mode PASSIVE leaves out of it makes no difference. -/
theorem modes_agree_iff (mutates : request.mutates = true)
    (target : config.getParam "node_name" = some request.target)
    (master : router.masterNode = request.callingNode.name) :
    request.AgreesInModes config router ↔ ¬ request.Accepted ∨ request.LosesNothing := by
  constructor
  · intro agrees
    by_cases accepted : request.Accepted
    · obtain ⟨active, operation, performed, passive⟩ :=
        handle_of_master mutates accepted target master
      have same := agrees.mutations
      rw [active, passive] at same
      have same : request.operation.mutations = operation.mutations := Except.ok.inj same
      apply Or.inr
      cases request with
      | addNode routing node =>
          cases performed
          simp only [Request.operation, Operation.mutations, List.cons_append, List.cons.injEq,
            Domain.Mutation.addWeightedNode.injEq, and_true, List.append_eq_nil_iff,
            List.map_eq_nil_iff] at same
          exact same
      | removeNode routing node =>
          cases performed
          simp only [Request.operation, Operation.mutations, List.cons.injEq,
            Domain.Mutation.removeNode.injEq, and_true] at same
          exact same
      | updateJob routing job =>
          cases performed
          cases same
      | addJob routing job | removeJob routing job | updateJobState routing job => trivial
      | _ => cases mutates
    · exact Or.inl accepted
  · rintro (refused | loses)
    · exact agreesInModes_of_refused refused
    · by_cases accepted : request.Accepted
      · exact agreesInModes_of_losesNothing mutates accepted loses target master
      · exact agreesInModes_of_refused accepted

theorem modes_agree_iff_addSecond :
    (addSecond "master").AgreesInModes (localConfig .active) knowsMaster ↔
      ¬ (addSecond "master").Accepted ∨ (addSecond "master").LosesNothing :=
  modes_agree_iff rfl rfl rfl

/-- In the mode ACTIVE the node is added to the schema `test_domain`, in the mode
PASSIVE to none. -/
theorem modes_differ_on_addSecond :
    ¬ ∀ (config : Config) (router : Router) (request : Request) (domain : Domain)
      (world : World), request.mutates = true →
        config.getParam "node_name" = some request.target →
          router.masterNode = request.callingNode.name →
            ∀ name, (finalState ((ServiceCall.routed request).run
                { config with runningMode := .active } router domain world)).server.tables name =
              (finalState ((ServiceCall.routed request).run
                { config with runningMode := .passive } router domain world)).server.tables
                  name := by
  intro always
  have same := always (localConfig .active) knowsMaster (addSecond "master") Domain.dailyDomain
    Domain.oneNodeWorld rfl rfl rfl "test_domain"
  have added : ((finalState ((ServiceCall.routed (addSecond "master")).run
      { localConfig .active with runningMode := .active } knowsMaster Domain.dailyDomain
      Domain.oneNodeWorld)).server.tables "test_domain").hasNode "second" := by
    decide +kernel
  rw [same] at added
  revert added
  decide +kernel

end Agreement

end OpenWorkloadScheduler
