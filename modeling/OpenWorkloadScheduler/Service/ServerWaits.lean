import OpenWorkloadScheduler.Service.SimpleServer
import OpenWorkloadScheduler.Service.TimeToLive

/-!
# Nodes that wait for each other

While a handler waits for the reply to a call that it has forwarded, its node accepts no
other call.  Where the routes lead down, every call comes to its end.  Nodes that
forward to each other can come to wait for each other for ever, and a connection that a
handler leaves open keeps the node at its other end from everybody else.
-/

namespace OpenWorkloadScheduler

open Rpc Store Foundations

/-! ## Calls that come to their end -/

section Descending

variable {nodes : Nodes} {rank : String → Nat} {host gateway : String} {node : Node}

/-- What a node forwards is the request as it is, which is about another node, to its gateway
for that node. -/
theorem Handlers.handle_eq_forward {config : Config} {router : Router}
    {request forwarded : Request} {gateway : String}
    (decided : handle config router request = .ok (.forward gateway forwarded)) :
    forwarded = request ∧ config.getParam "node_name" ≠ some request.target ∧
      router.getGateway request.target = .ok (some gateway) := by
  have hands : ∀ {target nodeName : String} {noGateway : Raised},
      forward config router target noGateway request = .ok (.forward gateway forwarded) →
        config.param "node_name" = .ok nodeName → nodeName ≠ target →
          forwarded = request ∧ config.getParam "node_name" ≠ some target ∧
            router.getGateway target = .ok (some gateway) := by
    intro target nodeName noGateway hands read other
    obtain ⟨neighbour, found, same⟩ := Network.forward_eq_ok hands
    cases same
    rw [Config.param_eq_ok_iff.mp read]
    exact ⟨rfl, fun named => other (Option.some.inj named), found⟩
  rw [handle_eq] at decided
  obtain ⟨_, _, decided⟩ := except_bind_eq_ok_iff.mp decided
  rw [byMode] at decided
  split at decided
  · cases decided
  · by_cases adds : ∃ routing job, request = .addJob routing job
    · obtain ⟨routing, job, rfl⟩ := adds
      obtain ⟨nodeName, read, decided⟩ := except_bind_eq_ok_iff.mp decided
      split at decided
      · rename_i other
        exact hands decided read other.1
      · cases decided
    · have branch : request.active config router =
          atTarget config router request.target request.noGateway request request.operation := by
        cases request with
        | addJob routing job => exact absurd ⟨routing, job, rfl⟩ adds
        | _ => rfl
      rw [branch, atTarget] at decided
      obtain ⟨nodeName, read, decided⟩ := except_bind_eq_ok_iff.mp decided
      split at decided
      · exact hands decided read ‹_›
      · cases decided
  · rw [Request.passive] at decided
    cases operation : request.passiveOperation with
    | none =>
        rw [operation] at decided
        cases decided
    | some wanted =>
        rw [operation] at decided
        obtain ⟨_, _, decided⟩ := except_bind_eq_ok_iff.mp decided
        cases decided

theorem Handlers.handlePlanning_eq_forward {config : Config} {router : Router}
    {request forwarded : PlanningRequest} {gateway : String}
    (decided : handlePlanning config router request = .ok (.forward gateway forwarded)) :
    router.getGateway config.masterNode = .ok (some gateway) := by
  obtain ⟨initial, operation, same⟩ := handlePlanning_eq request
  rw [same, planningByMode] at decided
  split at decided
  · cases decided
  · obtain ⟨isMaster, _, decided⟩ := except_bind_eq_ok_iff.mp decided
    split at decided
    · obtain ⟨neighbour, found, decided⟩ := except_bind_eq_ok_iff.mp decided
      cases neighbour with
      | none => cases decided
      | some neighbour =>
          obtain ⟨number, _, forwards⟩ := except_bind_eq_ok_iff.mp decided
          cases forwards
          exact found
    · cases decided
  · obtain ⟨_, _, refused⟩ := except_bind_eq_ok_iff.mp decided
    cases refused

/-- In the routing table of every node, the entries for other nodes lead down: the gateway and
the destination lie below the node.  So does the gateway to the master of the
configuration. -/
structure Nodes.LeadsDown (nodes : Nodes) (rank : String → Nat) : Prop where
  others : ∀ host node target gateway, nodes host = some node →
    node.config.getParam "node_name" ≠ some target →
      node.router.getGateway target = .ok (some gateway) →
        rank gateway < rank host ∧ rank target < rank host
  master : ∀ host node gateway, nodes host = some node →
    node.router.getGateway node.config.masterNode = .ok (some gateway) →
      rank gateway < rank host

theorem lower_of_hello (leadsDown : nodes.LeadsDown rank)
    (configured : nodes host = some node) {targetNode : TNode} {hostname : String}
    (decided : hello node.config node.router targetNode = .ok (.inr hostname)) :
    rank hostname < rank host := by
  obtain ⟨nodeName, read, decided⟩ := except_bind_eq_ok_iff.mp decided
  split at decided
  · obtain ⟨domain, _, same⟩ := except_bind_eq_ok_iff.mp decided
    cases same
  · rename_i other
    obtain ⟨gateway, found, same⟩ := except_bind_eq_ok_iff.mp decided
    cases gateway with
    | none => cases same
    | some gateway =>
        cases same
        refine (leadsDown.others host node targetNode.name gateway configured ?_ found).2
        rw [Config.param_eq_ok_iff.mp read]
        exact fun named => other (Option.some.inj named).symm

theorem lower_of_routed (leadsDown : nodes.LeadsDown rank)
    (configured : nodes host = some node) {request forwarded : Request}
    (decided : Handlers.handle node.config node.router request =
      .ok (.forward gateway forwarded)) : rank gateway < rank host := by
  obtain ⟨_, other, found⟩ := Handlers.handle_eq_forward decided
  exact (leadsDown.others host node request.target gateway configured other found).1

theorem decide_of_handling {config : Config} {router : Router} {domain : Domain}
    {call forwarded : ServiceCall} {gateway : String}
    (handled : call.handling config router domain = .forward gateway forwarded) :
    call.decide config router domain = .ok (.forward gateway forwarded) := by
  rw [ServiceCall.handling] at handled
  split at handled <;> cases handled
  assumption

theorem lower_of_decide (leadsDown : nodes.LeadsDown rank)
    (configured : nodes host = some node) {call forwarded : ServiceCall}
    (decided : call.decide node.config node.router node.domain =
      .ok (.forward gateway forwarded)) : rank gateway < rank host := by
  cases call with
  | hello targetNode =>
      obtain ⟨answer, asked, decided⟩ := except_bind_eq_ok_iff.mp decided
      cases answer with
      | inl answer => cases decided
      | inr hostname =>
          obtain ⟨number, _, forwards⟩ := except_bind_eq_ok_iff.mp decided
          cases forwards
          exact lower_of_hello leadsDown configured asked
  | reachMaster =>
      obtain ⟨route, _, decided⟩ := except_bind_eq_ok_iff.mp decided
      cases decided
  | planning request =>
      obtain ⟨decision, asked, decided⟩ := except_bind_eq_ok_iff.mp decided
      cases decision with
      | forward neighbour forwarded =>
          cases decided
          exact leadsDown.master host node gateway configured
            (Handlers.handlePlanning_eq_forward asked)
      | execute operation => cases decided
      | reply value => cases decided
  | routed request =>
      obtain ⟨decision, asked, decided⟩ := except_bind_eq_ok_iff.mp decided
      cases decision with
      | forward neighbour forwarded =>
          cases decided
          exact lower_of_routed leadsDown configured asked
      | execute operation => cases decided
      | reply value => cases decided

theorem descends_of_leadsDown (leadsDown : nodes.LeadsDown rank) :
    nodes.service.Descends rank := by
  intro host call gateway next handled
  cases configured : nodes host with
  | none => simp [Nodes.service, configured] at handled
  | some node =>
      simp only [Nodes.service, configured, Option.map_some, Option.some.injEq] at handled
      exact lower_of_decide leadsDown configured (decide_of_handling handled)

end Descending

/-- Where the routing tables lead down, the calls under way come to their end in a bounded
number of steps, and until then one of them can always move on, unless a connection
has been left open or an operation is blocked. -/
theorem calls_come_to_end {nodes : Nodes} {rank : String → Nat}
    (leadsDown : nodes.LeadsDown rank) {worlds : Worlds} {between last : ServerSituation}
    {earlier later : List (CallEvent String ServiceCall)}
    (run : Run nodes.service.Step { states := worlds } earlier between)
    (rest : Run (Guarded nodes.service.Step NoSend) between later last) :
    later.length + last.load rank ≤ between.load rank ∧
      (nodes.service.Clean last →
        (∀ call ∈ last.calls, ∃ value, call.stage = .done value) ∨
          ∃ event after, nodes.service.Step last event after ∧ NoSend last event) := by
  have descends := descends_of_leadsDown leadsDown
  apply And.intro (Service.length_le_load descends rest)
  intro clean
  by_cases finished : ∀ call ∈ last.calls, ∃ value, call.stage = .done value
  · exact Or.inl finished
  · right
    simp only [not_forall, not_exists] at finished
    obtain ⟨call, member, unfinished⟩ := finished
    have whole := run.append (rest.mono fun _ _ _ stepped => stepped.1)
    exact Service.exists_step (Service.ranked_of_run descends whole) clean member unfinished

/-! ## Calls that wait for ever -/

/-- The host hands a request of somebody on to another host. -/
def Network.HandsOn (network : Network) (host gateway : String) : Prop :=
  ∃ request : Request, request.Accepted ∧ host ≠ request.target ∧
    network.gateway request.target host = some gateway

theorem handover_of_handsOn {network : Network} {host gateway : String}
    (handsOn : network.HandsOn host gateway) :
    ∃ handover : Handover String ServiceCall, handover.host = host ∧ handover.gateway = gateway ∧
      (Nodes.service network.nodes).handling host handover.request =
        some (.forward gateway handover.next) ∧
      (Nodes.service network.nodes).handling gateway handover.next ≠ none := by
  obtain ⟨request, accepted, other, hop⟩ := handsOn
  obtain ⟨node, configured, found, present⟩ := network.gateway_eq_some hop
  refine ⟨⟨host, .routed request, gateway, .routed request⟩, rfl, rfl, ?_, ?_⟩
  · rw [network.service_handling configured, ServiceCall.handling_routed,
      network.handle_of_gateway configured accepted other found]
  · intro unserved
    simp only [Nodes.service, Option.map_eq_none_iff] at unserved
    rw [unserved] at present
    cases present

theorem closed_of_handsOn {network : Network} {hosts : List String} (distinct : hosts.Nodup)
    (handsOn : ∀ host ∈ hosts, ∃ gateway ∈ hosts, network.HandsOn host gateway) :
    ∃ handovers, (Nodes.service network.nodes).Closed handovers ∧
      handovers.map Handover.host = hosts := by
  have each : ∀ host ∈ hosts, ∃ handover : Handover String ServiceCall,
      handover.host = host ∧ handover.gateway ∈ hosts ∧
        (Nodes.service network.nodes).handling host handover.request =
          some (.forward handover.gateway handover.next) ∧
        (Nodes.service network.nodes).handling handover.gateway handover.next ≠ none := by
    intro host member
    obtain ⟨gateway, inside, handsOn⟩ := handsOn host member
    obtain ⟨handover, atHost, rfl, handled, served⟩ := handover_of_handsOn handsOn
    exact ⟨handover, atHost, inside, handled, served⟩
  choose handover atHost inside handled served using each
  have same : (hosts.attach.map fun host => handover host.1 host.2).map Handover.host = hosts := by
    rw [List.map_map]
    simp only [Function.comp_def, atHost]
    exact List.attach_map_subtype_val hosts
  refine ⟨hosts.attach.map fun host => handover host.1 host.2, ?_, same⟩
  constructor
  · rwa [same]
  · intro other member
    obtain ⟨⟨host, hostMember⟩, _, rfl⟩ := List.mem_map.mp member
    rw [atHost]
    exact handled host hostMember
  · intro other member
    obtain ⟨⟨host, hostMember⟩, _, rfl⟩ := List.mem_map.mp member
    rw [same]
    exact inside host hostMember
  · intro other member
    obtain ⟨⟨host, hostMember⟩, _, rfl⟩ := List.mem_map.mp member
    exact served host hostMember

/-- Where hosts hand requests on to each other, the requests can meet: each host waits for the
next one then, and none of them ever accepts or answers a call again. -/
theorem crossing_requests_deadlock (network : Network) {hosts : List String}
    (distinct : hosts.Nodup)
    (handsOn : ∀ host ∈ hosts, ∃ gateway ∈ hosts, network.HandsOn host gateway)
    (worlds : Worlds) :
    ∃ events last, Run (Nodes.service network.nodes).Step { states := worlds } events last ∧
      (∀ host ∈ hosts, ∃ call ∈ last.calls, call.host = host ∧
        ∀ value, call.stage ≠ .done value) ∧
      ∀ later final, Run (Nodes.service network.nodes).Step last later final →
        (∀ call ∈ last.calls, call ∈ final.calls) ∧ ∀ host ∈ hosts, ¬ final.Free host := by
  obtain ⟨handovers, closed, rfl⟩ := closed_of_handsOn distinct handsOn
  obtain ⟨events, last, run, stuck, calls⟩ := Service.stuck_of_closed closed worlds
  refine ⟨events, last, run, ?_, ?_⟩
  · intro host member
    obtain ⟨handover, handoverMember, rfl⟩ := List.mem_map.mp member
    rw [calls]
    exact ⟨handover.call, List.mem_map_of_mem handoverMember, rfl, by simp [Handover.call]⟩
  · intro later final rest
    obtain ⟨still, kept⟩ := stuck.run rest
    constructor
    · intro call member
      obtain ⟨index, found⟩ := List.mem_iff_getElem?.mp member
      apply List.mem_of_getElem? (kept index call found _)
      rw [calls] at member
      obtain ⟨handover, handoverMember, rfl⟩ := List.mem_map.mp member
      exact Or.inl ⟨handover.gateway, handover.next, rfl, closed.inside handover handoverMember,
        closed.served handover handoverMember⟩
    · exact fun host member => still.not_free member

section Closing

variable {config : Config} {router : Router}

/-- What is closed, and when, is what the statement that forwards the call says. -/
theorem closing_eq {call : ServiceCall} {remote : RemoteCall}
    (forwards : call.remoteCall config router = .ok (some remote)) :
    call.closing = (remote.caught, remote.closesOnReturn) := by
  cases call with
  | hello targetNode =>
      obtain ⟨answer, _, forwards⟩ := except_bind_eq_ok_iff.mp forwards
      cases answer with
      | inl answer => cases forwards
      | inr hostname =>
          obtain ⟨_, _, same⟩ := except_bind_eq_ok_iff.mp forwards
          cases same
          rfl
  | reachMaster =>
      obtain ⟨_, _, same⟩ := except_bind_eq_ok_iff.mp forwards
      cases same
  | planning request =>
      obtain ⟨decision, _, same⟩ := except_bind_eq_ok_iff.mp forwards
      cases decision with
      | forward gateway forwarded =>
          cases same
          rfl
      | execute operation => cases same
      | reply value => cases same
  | routed request =>
      obtain ⟨decision, decided, same⟩ := except_bind_eq_ok_iff.mp forwards
      cases decision with
      | forward gateway forwarded =>
          cases same
          rw [(Handlers.handle_eq_forward decided).1]
          cases request <;> rfl
      | execute operation => cases same
      | reply value => cases same

end Closing

/-- Once a handler has received a reply and leaves its connection open, the server that has
sent the reply accepts no call any more. -/
theorem server_held_after_forward (nodes : Nodes) {before after between last : ServerSituation}
    {index : Nat} {call : ServerCall}
    {host caller : String} {forwarded : ServiceCall} {value : Except Raised ServiceAnswer}
    {frames : List (String × ServiceCall)} {earlier later : List (CallEvent String ServiceCall)}
    (found : before.calls[index]? = some call) (answered : call.stage = .answered host value)
    (calledBy : call.frames = (caller, forwarded) :: frames)
    (leaves : forwarded.closesAfter value = false)
    (stepped : nodes.service.Step before (.answer index) after)
    (run : Run nodes.service.Step after earlier between)
    (rest : Run nodes.service.Step between later last) :
    ¬ between.Free host ∧
      ∀ (other : Nat) otherCall request, between.calls[other]? = some otherCall →
        otherCall.stage = .sent host request → nodes host ≠ none →
          last.calls[other]? = some otherCall := by
  have held : host ∈ after.held := by
    cases stepped with
    | @answer index moved place reply movedFound decided sends =>
        rw [found] at movedFound
        cases movedFound
        rw [answered] at decided
        cases decided
        have open_ : call.closesAfter nodes.service value = false := by
          rw [Call.closesAfter, calledBy]
          exact leaves
        simp [open_]
  have stuck : nodes.service.Stuck {host} after := by
    intro place member
    rw [Set.mem_singleton_iff.mp member]
    exact Or.inl held
  obtain ⟨still, _⟩ := stuck.run run
  apply And.intro (still.not_free rfl)
  intro other otherCall request otherFound sent served
  apply (still.run rest).2 other otherCall otherFound
  exact Or.inl ⟨host, request, sent, rfl, by simp [Nodes.service, served]⟩

/-! ## Two nodes -/

theorem getGateway_pairNode {name target gateway : String}
    (found : (pairNode name).router.getGateway target = .ok (some gateway)) :
    target = "worker" ∧ gateway = "worker" := by
  have known : target = "worker" := by
    by_contra unknown
    have none : (pairNode name).router.gateways? target = none :=
      (Router.gateways?_insertRoute_ne unknown).trans rfl
    rw [Router.getGateway, none] at found
    cases found
  subst known
  cases found
  exact ⟨rfl, rfl⟩

def pairRank (host : String) : Nat :=
  if host = "relay" then 1 else 0

theorem leadsDown_pair : Nodes.LeadsDown pair.nodes pairRank where
  others host node target gateway configured other found := by
    obtain ⟨place, rfl⟩ := pairNodes_eq_some configured
    obtain ⟨rfl, rfl⟩ := getGateway_pairNode found
    cases place with
    | inl relay =>
        subst relay
        decide
    | inr worker =>
        subst worker
        exact absurd rfl other
  master host node gateway configured found := by
    obtain ⟨_, rfl⟩ := pairNodes_eq_some configured
    have unset : (pairNode host).config.masterNode = "" := rfl
    rw [unset] at found
    exact absurd (getGateway_pairNode found).1 (by decide)

/-- `worker` accepts the call that `relay` has handed on. -/
theorem calls_come_to_end_handedOn :
    ∃ last : ServerSituation, last.held = ∅ ∧
      1 + last.load pairRank ≤ handedOn.load pairRank ∧
      ((∀ call ∈ last.calls, ∃ value, call.stage = .done value) ∨
        ∃ event after, (Nodes.service pair.nodes).Step last event after ∧ NoSend last event) := by
  obtain ⟨after, stepped, held, executing⟩ := accept_handedOn
  have rest : Run (Guarded (Nodes.service pair.nodes).Step NoSend) handedOn [.accept 0] after :=
    .next ⟨stepped, trivial⟩ (.stay after)
  obtain ⟨nearer, ends⟩ := calls_come_to_end leadsDown_pair run_handedOn rest
  refine ⟨after, held, nearer, ends ⟨held, ?_⟩⟩
  intro call member host value answered
  obtain ⟨_, _, stage⟩ := executing call member
  rw [answered] at stage
  cases stage

/-- Two nodes that are the gateways of each other for an unknown node. -/
theorem crossing_requests_deadlock_mirrors :
    ∃ events last,
      Run (Nodes.service Network.mirrors.nodes).Step { states := emptyWorlds } events last ∧
      (∀ host ∈ ["left", "right"], ∃ call ∈ last.calls, call.host = host ∧
        ∀ value, call.stage ≠ .done value) ∧
      ∀ later final, Run (Nodes.service Network.mirrors.nodes).Step last later final →
        (∀ call ∈ last.calls, call ∈ final.calls) ∧
          ∀ host ∈ ["left", "right"], ¬ final.Free host := by
  have accepted : Network.countOnce.Accepted :=
    (rfl : Handlers.checkCallingNode "test_domain"
      { name := "client", domainName := "test_domain" } = .ok ())
  apply crossing_requests_deadlock Network.mirrors (by decide)
  intro host member
  have either : host = "left" ∨ host = "right" := by simpa using member
  cases either with
  | inl left =>
      subst left
      exact ⟨"right", by decide, Network.countOnce, accepted, by decide, by decide⟩
  | inr right =>
      subst right
      exact ⟨"left", by decide, Network.countOnce, accepted, by decide, by decide⟩

/-- `relay` has the number of failed jobs, and leaves the connection to `worker` open. -/
theorem server_held_after_forward_relay :
    ∃ after, (Nodes.service pair.nodes).Step
        { states := emptyWorlds
          calls := [⟨"relay", failedJobsCall, true, [("relay", failedJobsCall)],
            .answered "worker" (.ok (.routed (.number 0)))⟩] } (.answer 0) after ∧
      ¬ after.Free "worker" := by
  refine ⟨_, .answer rfl rfl rfl, ?_⟩
  exact (server_held_after_forward pair.nodes rfl rfl rfl rfl (.answer rfl rfl rfl) (.stay _)
    (.stay _)).1

end OpenWorkloadScheduler
