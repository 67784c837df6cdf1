import OpenWorkloadScheduler.Foundations.Runs
import OpenWorkloadScheduler.Service.Forwarding
import OpenWorkloadScheduler.Service.PlanningHandlers

/-!
# The time to live of a request

The routing data of a request bring a time to live.  Thirteen handlers, those of the
requests about plannings among them, invoke `CHECK_ROUTING` on it, which is to refuse a
request whose time has run out and to count the time down; `update_job`, `remove_job` and
`update_job_state` do without.  The body of the macro is commented out: all sixteen hand a
request on as it is, and as often as the routing tables of the nodes have it.
-/

namespace OpenWorkloadScheduler

open Rpc Foundations

/-- `routing` -/
def Request.routing : Request → TRoutingData
  | addNode routing _ | removeNode routing _ | getNode routing _ | getNodes routing
  | getJobs routing | getReadyJobs routing | getJob routing _ | addJob routing _
  | updateJob routing _ | removeJob routing _ | updateJobState routing _
  | monitorFailedJobs routing | monitorWaitingJobs routing => routing

def PlanningRequest.routing : PlanningRequest → TRoutingData
  | getCurrentPlanningName routing | getAvailablePlanningNames routing
  | getPlanning routing _ => routing

/-- A request that carries routing data. -/
inductive RoutedRequest where
  | targeted (request : Request)
  | planning (request : PlanningRequest)

namespace RoutedRequest

def routing : RoutedRequest → TRoutingData
  | targeted request => request.routing
  | planning request => request.routing

/-- The handler of the node hands the request on to the gateway, as the second one. -/
def Sends (config : Config) (router : Router) (gateway : String) :
    RoutedRequest → RoutedRequest → Prop
  | targeted request, targeted forwarded =>
      Handlers.handle config router request = .ok (.forward gateway forwarded)
  | planning request, planning forwarded =>
      Handlers.handlePlanning config router request = .ok (.forward gateway forwarded)
  | _, _ => False

/-- The handler of the node raises the exception. -/
def Raises (config : Config) (router : Router) (raised : Raised) : RoutedRequest → Prop
  | targeted request => Handlers.handle config router request = .error raised
  | planning request => Handlers.handlePlanning config router request = .error raised

end RoutedRequest

/-- A request, with the host that receives it. -/
structure Receipt where
  host : String
  request : RoutedRequest

namespace Network

variable (network : Network)

/-- The handler of the host that receives a request sends one to the gateway. -/
def Forwards (before : Receipt) (gateway : String) (after : Receipt) : Prop :=
  ∃ node, network.nodes before.host = some node ∧ (network.nodes gateway).isSome ∧
    after.host = gateway ∧
      before.request.Sends node.config node.router gateway after.request

/-- The handler of the host that receives a request raises `ex_routing`. -/
def Refuses (receipt : Receipt) : Prop :=
  ∀ node, network.nodes receipt.host = some node →
    ∃ message, receipt.request.Raises node.config node.router (.exRouting message)

/-- The time to live bounds the chains of forwards that a request starts.  A negative
time leaves no forward. -/
structure TtlBounds (start : Receipt) : Prop where
  bounded : ∀ gateways last, Run network.Forwards start gateways last →
    gateways.length ≤ start.request.routing.ttl.toNat
  refused : ∀ gateways last, Run network.Forwards start gateways last →
    last.request.routing.ttl = 0 → network.Refuses last
  lessens : ∀ gateways last gateway after, Run network.Forwards start gateways last →
    network.Forwards last gateway after →
      after.request.routing.ttl < last.request.routing.ttl

/-- The handler of the host looks for the gateway to the target: the host is not the target of
the request, or the request is about plannings and the host is configured as a slave.  The
target of such a request is `Config::master_node`, which nothing assigns. -/
def Seeks (host target : String) : RoutedRequest → Prop
  | .targeted request => request.Accepted ∧ host ≠ request.target ∧ target = request.target
  | .planning _ =>
      target = "" ∧ ∃ node isMaster, network.nodes host = some node ∧
        node.config.getParam "is_master" = some isMaster ∧ isMaster ≠ "yes"

/-- The host has no gateway to hand the request on to, or need not hand it on. -/
def HandsOnNothing (receipt : Receipt) : Prop :=
  ∀ target, network.Seeks receipt.host target receipt.request →
    network.gateway target receipt.host = none

/-- The host raises `ex_routing` for its own reasons: the checks on the arguments do, or
it has no route to the target and tests for that.  No request about plannings is
refused so. -/
def RefusesAnyway (receipt : Receipt) : Prop :=
  ∀ node, network.nodes receipt.host = some node →
    ∃ request, receipt.request = .targeted request ∧
      ((∃ message, request.checks = .error (.exRouting message)) ∨
        request.Accepted ∧ receipt.host ≠ request.target ∧
          node.router.getGateway request.target = .ok none ∧
            request.noGateway = Handlers.unknownGateway)

/-! ## What a handler decides -/

section Decisions

variable {config : Config} {router : Router} {target : String} {noGateway : Raised}
  {request : Request}

theorem getGateway_cases (router : Router) (target : String) :
    (∃ what, router.getGateway target = .error (.undefinedBehaviour what)) ∨
      router.getGateway target = .ok none ∨
        ∃ gateway, router.getGateway target = .ok (some gateway) := by
  rw [Router.getGateway]
  cases router.gateways? target with
  | none => exact Or.inr (Or.inl rfl)
  | some gateways =>
      cases gateways with
      | nil => exact Or.inl ⟨_, rfl⟩
      | cons first rest => exact Or.inr (Or.inr ⟨first.gateway, rfl⟩)

theorem forward_eq_ok {decision : Decision}
    (forwarded : Handlers.forward config router target noGateway request = .ok decision) :
    ∃ gateway, router.getGateway target = .ok (some gateway) ∧
      decision = .forward gateway request := by
  rw [Handlers.forward] at forwarded
  rcases getGateway_cases router target with ⟨what, found⟩ | found | ⟨gateway, found⟩
  · rw [found] at forwarded
    cases forwarded
  · rw [found] at forwarded
    cases forwarded
  · rw [found, except_ok_bind] at forwarded
    obtain ⟨number, _, decided⟩ := except_bind_eq_ok_iff.mp forwarded
    cases decided
    exact ⟨gateway, found, rfl⟩

theorem forward_eq_exRouting_iff {number : Int} (opens : Handlers.port config = .ok number)
    {message : String} :
    Handlers.forward config router target noGateway request = .error (.exRouting message) ↔
      router.getGateway target = .ok none ∧ noGateway = .exRouting message := by
  rcases getGateway_cases router target with ⟨what, found⟩ | found | ⟨gateway, found⟩
  · rw [Handlers.forward, found]
    constructor
    · intro raised
      cases raised
    · rintro ⟨unknown, _⟩
      cases unknown
  · rw [Handlers.forward, found]
    constructor
    · intro raised
      cases raised
      exact ⟨rfl, rfl⟩
    · rintro ⟨_, rfl⟩
      rfl
  · rw [forward_of_gateway found opens, found]
    constructor
    · intro raised
      cases raised
    · rintro ⟨unknown, _⟩
      cases unknown

/-- A request that does not pass the checks is left by the exception of the checks. -/
theorem handle_of_checks {raised : Raised} (refused : request.checks = .error raised) :
    Handlers.handle config router request = .error raised := by
  rw [Handlers.handle_eq, refused]
  rfl

end Decisions

theorem gateway_of_getGateway {target host neighbour : String} {node : Node}
    (configured : network.nodes host = some node)
    (found : node.router.getGateway target = .ok (some neighbour))
    (present : (network.nodes neighbour).isSome) :
    network.gateway target host = some neighbour := by
  rw [gateway, configured]
  dsimp only
  rw [found]
  exact if_pos present

/-- A slave hands a request about plannings on, if it has a gateway for the empty name.  Without
one, and without the parameter, it reads NULL; the master executes the request. -/
theorem handlePlanning_cases {host : String} {node : Node}
    (configured : network.nodes host = some node) (request : PlanningRequest) :
    (∃ isMaster gateway, node.config.getParam "is_master" = some isMaster ∧ isMaster ≠ "yes" ∧
        node.router.getGateway "" = .ok (some gateway) ∧
          Handlers.handlePlanning node.config node.router request =
            .ok (.forward gateway request)) ∨
      (∀ isMaster gateway, node.config.getParam "is_master" = some isMaster →
        isMaster ≠ "yes" → node.router.getGateway "" ≠ .ok (some gateway)) ∧
        ((∃ operation, Handlers.handlePlanning node.config node.router request =
            .ok (.execute operation)) ∨
          ∃ what, Handlers.handlePlanning node.config node.router request =
            .error (.undefinedBehaviour what)) := by
  obtain ⟨number, opens⟩ := network.opens configured
  obtain ⟨initial, operation, handled⟩ := Handlers.handlePlanning_eq request
  rw [handled, Handlers.planningByMode, network.active configured]
  dsimp only
  rw [Handlers.atMaster, network.masterless configured]
  cases known : node.config.getParam "is_master" with
  | none =>
      rw [Config.param, known]
      refine Or.inr ⟨?_, Or.inr ⟨_, rfl⟩⟩
      intro isMaster gateway impossible
      cases impossible
  | some isMaster =>
      rw [Config.param_of_getParam known, except_ok_bind]
      by_cases master : isMaster = "yes"
      · rw [if_neg (not_not.mpr master)]
        refine Or.inr ⟨?_, Or.inl ⟨_, rfl⟩⟩
        intro other gateway same slave
        cases same
        exact absurd master slave
      · rw [if_pos master]
        rcases getGateway_cases node.router "" with ⟨what, found⟩ | found | ⟨gateway, found⟩
        · rw [found]
          exact Or.inr ⟨by simp, Or.inr ⟨what, rfl⟩⟩
        · rw [found]
          exact Or.inr ⟨by simp, Or.inr ⟨_, rfl⟩⟩
        · rw [found, except_ok_bind, opens]
          exact Or.inl ⟨isMaster, gateway, rfl, master, rfl, rfl⟩

theorem handlePlanning_eq_forward_iff {host gateway : String} {node : Node}
    {request forwarded : PlanningRequest} (configured : network.nodes host = some node) :
    Handlers.handlePlanning node.config node.router request =
        .ok (.forward gateway forwarded) ↔
      (∃ isMaster, node.config.getParam "is_master" = some isMaster ∧ isMaster ≠ "yes") ∧
        node.router.getGateway "" = .ok (some gateway) ∧ forwarded = request := by
  rcases network.handlePlanning_cases configured request with
    ⟨isMaster, neighbour, known, slave, found, decided⟩ | ⟨without, decided⟩
  · rw [decided, found]
    constructor
    · intro same
      cases same
      exact ⟨⟨isMaster, known, slave⟩, rfl, rfl⟩
    · rintro ⟨_, same, rfl⟩
      cases same
      rfl
  · constructor
    · intro sent
      rcases decided with ⟨operation, decided⟩ | ⟨what, decided⟩
      all_goals
        rw [decided] at sent
        cases sent
    · rintro ⟨⟨isMaster, known, slave⟩, found, _⟩
      exact absurd found (without isMaster gateway known slave)

/-- No handler of a request about plannings raises `ex_routing` in the mode ACTIVE. -/
theorem handlePlanning_ne_exRouting {host message : String} {node : Node}
    (configured : network.nodes host = some node) (request : PlanningRequest) :
    Handlers.handlePlanning node.config node.router request ≠ .error (.exRouting message) := by
  intro raised
  rcases network.handlePlanning_cases configured request with
    ⟨_, _, _, _, _, decided⟩ | ⟨_, ⟨_, decided⟩ | ⟨_, decided⟩⟩
  all_goals
    rw [decided] at raised
    cases raised

/-- A request to a target is sent as it is to the gateway for the target. -/
theorem handle_eq_forward_iff {host gateway : String} {node : Node}
    {request forwarded : Request} (configured : network.nodes host = some node) :
    Handlers.handle node.config node.router request = .ok (.forward gateway forwarded) ↔
      (request.Accepted ∧ host ≠ request.target) ∧
        node.router.getGateway request.target = .ok (some gateway) ∧ forwarded = request := by
  constructor
  · intro decided
    cases checked : request.checks with
    | error raised =>
        rw [handle_of_checks checked] at decided
        cases decided
    | ok value =>
        have accepted := request.accepted_iff.mpr checked
        have other : host ≠ request.target := by
          intro same
          rw [same] at configured
          rw [network.handle_of_target configured accepted] at decided
          cases decided
        rw [network.handle_of_other configured accepted other] at decided
        obtain ⟨neighbour, found, forwarded⟩ := forward_eq_ok decided
        obtain ⟨rfl, unchanged⟩ := Decision.forward.inj forwarded
        exact ⟨⟨accepted, other⟩, found, unchanged⟩
  · rintro ⟨⟨accepted, other⟩, found, rfl⟩
    exact network.handle_of_gateway configured accepted other found

/-- A forward sends the request as it is to the gateway for its target. -/
theorem forwards_iff {before after : Receipt} {gateway : String} :
    network.Forwards before gateway after ↔
      ∃ target, network.Seeks before.host target before.request ∧
        network.gateway target before.host = some gateway ∧ after = ⟨gateway, before.request⟩ := by
  obtain ⟨host, request⟩ := before
  obtain ⟨place, forwarded⟩ := after
  constructor
  · rintro ⟨node, configured, present, rfl, sends⟩
    cases request with
    | targeted request =>
        cases forwarded with
        | planning forwarded => exact sends.elim
        | targeted forwarded =>
            obtain ⟨⟨accepted, other⟩, found, rfl⟩ :=
              (network.handle_eq_forward_iff configured).mp sends
            exact ⟨_, ⟨accepted, other, rfl⟩,
              network.gateway_of_getGateway configured found present, rfl⟩
    | planning request =>
        cases forwarded with
        | targeted forwarded => exact sends.elim
        | planning forwarded =>
            obtain ⟨⟨isMaster, slave⟩, found, rfl⟩ :=
              (network.handlePlanning_eq_forward_iff configured).mp sends
            exact ⟨_, ⟨rfl, node, isMaster, configured, slave⟩,
              network.gateway_of_getGateway configured found present, rfl⟩
  · rintro ⟨target, seeks, hop, same⟩
    obtain ⟨node, configured, found, present⟩ := network.gateway_eq_some hop
    cases same
    refine ⟨node, configured, present, rfl, ?_⟩
    cases request with
    | targeted request =>
        obtain ⟨accepted, other, rfl⟩ := seeks
        exact (network.handle_eq_forward_iff configured).mpr ⟨⟨accepted, other⟩, found, rfl⟩
    | planning request =>
        obtain ⟨rfl, known, isMaster, knownConfigured, slave⟩ := seeks
        have same := knownConfigured.symm.trans configured
        cases same
        exact (network.handlePlanning_eq_forward_iff configured).mpr
          ⟨⟨isMaster, slave⟩, found, rfl⟩

theorem noGateway_cases (request : Request) :
    request.noGateway = Handlers.unknownGateway ∨ request.noGateway = Handlers.nullGateway := by
  cases request with
  | addJob _ _ | updateJob _ _ => exact Or.inl rfl
  | _ => exact Or.inr rfl

theorem handle_eq_exRouting_iff {host : String} {node : Node} {request : Request}
    (configured : network.nodes host = some node) :
    (∃ message, Handlers.handle node.config node.router request =
        .error (.exRouting message)) ↔
      (∃ message, request.checks = .error (.exRouting message)) ∨
        request.Accepted ∧ host ≠ request.target ∧
          node.router.getGateway request.target = .ok none ∧
            request.noGateway = Handlers.unknownGateway := by
  cases checked : request.checks with
  | error raised =>
      have unaccepted : ¬ request.Accepted := by
        rw [request.accepted_iff, checked]
        intro accepted
        cases accepted
      rw [handle_of_checks checked, or_iff_left fun ⟨accepted, _⟩ => unaccepted accepted]
      simp only [Except.error.injEq]
  | ok value =>
      have accepted := request.accepted_iff.mpr checked
      obtain ⟨number, opens⟩ := network.opens configured
      rw [or_iff_right (by
        rintro ⟨message, raised⟩
        cases raised)]
      by_cases same : host = request.target
      · rw [same] at configured
        rw [network.handle_of_target configured accepted]
        constructor
        · rintro ⟨message, raised⟩
          cases raised
        · rintro ⟨_, other, _⟩
          exact absurd same other
      · rw [network.handle_of_other configured accepted same]
        simp only [forward_eq_exRouting_iff opens]
        constructor
        · rintro ⟨message, unknown, noGateway⟩
          refine ⟨accepted, same, unknown, ?_⟩
          rcases noGateway_cases request with tested | untested
          · exact tested
          · rw [untested] at noGateway
            cases noGateway
        · rintro ⟨_, _, unknown, tested⟩
          exact ⟨_, unknown, tested⟩

theorem refuses_iff {receipt : Receipt} :
    network.Refuses receipt ↔ network.RefusesAnyway receipt := by
  refine forall_congr' fun node => forall_congr' fun configured => ?_
  obtain ⟨host, request⟩ := receipt
  cases request with
  | targeted request =>
      simp only [RoutedRequest.targeted.injEq, exists_eq_left']
      exact network.handle_eq_exRouting_iff configured
  | planning request =>
      constructor
      · rintro ⟨message, raised⟩
        exact absurd raised (network.handlePlanning_ne_exRouting configured request)
      · rintro ⟨other, impossible, _⟩
        cases impossible

/-! ## Chains of forwards -/

theorem not_forwards_of_handsOnNothing {before after : Receipt} {gateway : String}
    (handsOnNothing : network.HandsOnNothing before) :
    ¬ network.Forwards before gateway after := by
  rw [forwards_iff]
  rintro ⟨target, seeks, hop, _⟩
  rw [handsOnNothing target seeks] at hop
  cases hop

theorem run_of_handsOnNothing {start last : Receipt} {gateways : List String}
    (handsOnNothing : network.HandsOnNothing start)
    (run : Run network.Forwards start gateways last) : gateways = [] ∧ last = start := by
  cases run with
  | stay _ => exact ⟨rfl, rfl⟩
  | next step _ => exact absurd step (network.not_forwards_of_handsOnNothing handsOnNothing)

theorem request_of_run {start last : Receipt} {gateways : List String}
    (run : Run network.Forwards start gateways last) : last.request = start.request := by
  induction run with
  | stay _ => rfl
  | next step _ inductionHypothesis =>
      obtain ⟨_, _, _, rfl⟩ := network.forwards_iff.mp step
      exact inductionHypothesis

/-- The time to live bounds the chains of forwards that a request starts if and only if
there are none, and a request whose time has run out is refused for other reasons. -/
theorem ttl_bounds_iff (start : Receipt) :
    network.TtlBounds start ↔
      network.HandsOnNothing start ∧
        (start.request.routing.ttl = 0 → network.RefusesAnyway start) := by
  constructor
  · intro bounds
    refine ⟨?_, fun exhausted =>
      network.refuses_iff.mp (bounds.refused [] start (.stay start) exhausted)⟩
    by_contra handsOn
    simp only [HandsOnNothing, not_forall] at handsOn
    obtain ⟨target, seeks, known⟩ := handsOn
    obtain ⟨gateway, hop⟩ := Option.ne_none_iff_exists'.mp known
    have step : network.Forwards start gateway ⟨gateway, start.request⟩ :=
      network.forwards_iff.mpr ⟨target, seeks, hop, rfl⟩
    exact lt_irrefl start.request.routing.ttl
      (bounds.lessens [] start gateway ⟨gateway, start.request⟩ (.stay start) step)
  · rintro ⟨handsOnNothing, refusesAnyway⟩
    constructor
    · intro gateways last run
      obtain ⟨rfl, _⟩ := network.run_of_handsOnNothing handsOnNothing run
      exact Nat.zero_le _
    · intro gateways last run exhausted
      obtain ⟨_, rfl⟩ := network.run_of_handsOnNothing handsOnNothing run
      exact network.refuses_iff.mpr (refusesAnyway exhausted)
    · intro gateways last gateway after run step
      obtain ⟨_, rfl⟩ := network.run_of_handsOnNothing handsOnNothing run
      exact absurd step (network.not_forwards_of_handsOnNothing handsOnNothing)

/-! ## Two nodes that are the gateways of each other -/

/-- A node whose gateway for `absent` is the other node. -/
def mirrorNode (name other : String) : Node where
  config := activeConfig name
  domain := ⟨"test_domain", 0, 86400⟩
  router := ({} : Router).insertRoute "absent" other 0

def mirrorNodes (host : String) : Option Node :=
  if host = "left" then some (mirrorNode "left" "right")
  else if host = "right" then some (mirrorNode "right" "left")
  else none

theorem mirrorNodes_eq_some {host : String} {node : Node}
    (configured : mirrorNodes host = some node) :
    (host = "left" ∨ host = "right") ∧ ∃ other, node = mirrorNode host other := by
  unfold mirrorNodes at configured
  split at configured
  · rename_i left
    cases configured
    exact ⟨Or.inl left, "right", by rw [left]⟩
  · split at configured
    · rename_i right
      cases configured
      exact ⟨Or.inr right, "left", by rw [right]⟩
    · cases configured

def mirrors : Network where
  nodes := mirrorNodes
  named configured := by
    obtain ⟨_, _, rfl⟩ := mirrorNodes_eq_some configured
    rfl
  nonempty configured := by
    rcases (mirrorNodes_eq_some configured).1 with rfl | rfl <;> decide
  active configured := by
    obtain ⟨_, _, rfl⟩ := mirrorNodes_eq_some configured
    rfl
  masterless configured := by
    obtain ⟨_, _, rfl⟩ := mirrorNodes_eq_some configured
    rfl
  opens configured := by
    obtain ⟨_, _, rfl⟩ := mirrorNodes_eq_some configured
    exact ⟨8080, rfl⟩

/-- A request for the failed jobs of `absent` that may be handed on once. -/
def countOnce : Request :=
  .monitorFailedJobs
    { callingNode := { name := "client", domainName := "test_domain" }
      targetNode := { name := "absent", domainName := "test_domain" }
      ttl := 1 }

theorem mirrors_hand_on :
    mirrors.Forwards ⟨"left", .targeted countOnce⟩ "right" ⟨"right", .targeted countOnce⟩ ∧
      mirrors.Forwards ⟨"right", .targeted countOnce⟩ "left" ⟨"left", .targeted countOnce⟩ := by
  have accepted : countOnce.Accepted :=
    (rfl : Handlers.checkCallingNode "test_domain"
      { name := "client", domainName := "test_domain" } = .ok ())
  exact ⟨mirrors.forwards_iff.mpr ⟨"absent", ⟨accepted, by decide, rfl⟩, by decide, rfl⟩,
    mirrors.forwards_iff.mpr ⟨"absent", ⟨accepted, by decide, rfl⟩, by decide, rfl⟩⟩

/-- Each of the two nodes hands the request on to the other one without end. -/
theorem mirrors_hand_on_endlessly (rounds : Nat) :
    ∃ gateways, gateways.length = 2 * rounds ∧
      Run mirrors.Forwards ⟨"left", .targeted countOnce⟩ gateways
        ⟨"left", .targeted countOnce⟩ := by
  induction rounds with
  | zero => exact ⟨[], rfl, .stay _⟩
  | succ rounds inductionHypothesis =>
      obtain ⟨gateways, length, run⟩ := inductionHypothesis
      refine ⟨"right" :: "left" :: gateways, ?_,
        .next mirrors_hand_on.1 (.next mirrors_hand_on.2 run)⟩
      simp only [List.length_cons, length]
      omega

/-- Between the two nodes a request with the time to live 1 is handed on twice. -/
theorem ttl_of_one_handed_on_twice :
    ¬ ∀ (network : Network) (start : Receipt), network.TtlBounds start := by
  intro always
  obtain ⟨gateways, length, run⟩ := mirrors_hand_on_endlessly 1
  have bounded := (always mirrors ⟨"left", .targeted countOnce⟩).bounded gateways _ run
  rw [length] at bounded
  exact absurd bounded (by decide)

end Network

end OpenWorkloadScheduler
