import OpenWorkloadScheduler.Routing.Peers
import OpenWorkloadScheduler.Service.SimpleServer

/-!
# The start of a client

Before it creates its domain, a client calls `hello` on each peer of its file, and then
it asks the peers in turn for the way to the master, until it knows one.  The client
of the router is never closed: the peer that has answered `hello` stays with this
connection, and does not accept the one over which it is asked for the master.

Servers are started while the client waits for them, and none is stopped.  A peer that was
down at its `hello` stays among the peers that are asked, and it answers once it is up.
-/

namespace OpenWorkloadScheduler

open Rpc Store Foundations

/-! ## The steps of a client -/

/-- Where `main` is: in the loop of `update_peers_list`, in a call of `hello`, in the loop of
`reach_master`, in a call of `reach_master`, behind both loops, or left by an exception. -/
inductive StartPhase where
  | meeting (lines : List String) (router : Router) (helloResult : THello)
  | calling (index : Nat) (name key : String) (lines : List String) (router : Router)
      (helloResult : THello)
  | reaching (targets : List String) (router : Router)
  | asking (index : Nat) (target : String) (targets : List String) (router : Router)
  | reached (router : Router)
  | left (raised : Raised)

/-- What a call of `main` has come to. -/
structure Heard where
  host : String
  request : ServiceCall
  value : Except Raised ServiceAnswer

/-- The servers that run, what they are doing, and what `main` has heard so far. -/
structure Startup where
  nodes : Nodes
  situation : ServerSituation
  heard : List Heard := []
  phase : StartPhase

inductive StartEvent where
  | served (event : CallEvent String ServiceCall)
  | started (host : String)
  | own

namespace Startup

/-- The client sends a call, whose connection it never closes. -/
def call (startup : Startup) (host : String) (request : ServiceCall) (phase : StartPhase) :
    Startup where
  nodes := startup.nodes
  situation := { startup.situation with
    calls := startup.situation.calls ++ [⟨host, request, false, [], .sent host request⟩] }
  heard := startup.heard
  phase := phase

/-- The call has come to its end. -/
def hear (startup : Startup) (host : String) (request : ServiceCall)
    (value : Except Raised ServiceAnswer) (phase : StartPhase) : Startup :=
  { startup with heard := startup.heard ++ [⟨host, request, value⟩], phase }

/-- What `hello` returns, `none` for an exception. -/
def helloAnswer : Except Raised ServiceAnswer → Option THello
  | .ok (.hello answer) => some answer
  | _ => none

/-- The entry of `Router::reach_master`. -/
def enter (router : Router) : StartPhase :=
  if router.masterNode ≠ "" then .reached router else .reaching router.hostNames router

/-- A step of the servers and of the other callers, the start of a server, or a step
of `main`. -/
inductive Step (file : List String) (before : Startup) : StartEvent → Startup → Prop where
  | served {event : CallEvent String ServiceCall} {after : ServerSituation}
      (stepped : before.nodes.service.Step before.situation event after) :
      Step file before (.served event) { before with situation := after }
  | started {host : String} (node : Node) (absent : before.nodes host = none) :
      Step file before (.started host)
        { before with nodes := Function.update before.nodes host (some node) }
  | skip {line : String} {lines : List String} {router : Router} {helloResult : THello}
      (phase : before.phase = .meeting (line :: lines) router helloResult)
      (read : Router.readPeerLine line = .skipped ∨
        ∃ key, Router.readPeerLine line = .peer "" key) :
      Step file before .own { before with phase := .meeting lines router helloResult }
  | malformed {line : String} {lines : List String} {router : Router} {helloResult : THello}
      (phase : before.phase = .meeting (line :: lines) router helloResult)
      (read : Router.readPeerLine line = .malformed) :
      Step file before .own { before with phase := .meeting [] router helloResult }
  | hello {line name key : String} {lines : List String} {router : Router} {helloResult : THello}
      (phase : before.phase = .meeting (line :: lines) router helloResult)
      (read : Router.readPeerLine line = .peer name key) (named : name ≠ "") :
      Step file before .own (before.call name (.hello { name })
        (.calling before.situation.calls.length name key lines router helloResult))
  | met {index : Nat} {name key : String} {lines : List String} {router : Router}
      {helloResult : THello} {call : ServerCall}
      {value : Except Raised ServiceAnswer}
      (phase : before.phase = .calling index name key lines router helloResult)
      (found : before.situation.calls[index]? = some call) (done : call.stage = .done value) :
      Step file before .own (before.hear name (.hello { name }) value
        (.meeting lines (router.meetPeer helloResult name key (helloAnswer value)).1
          (router.meetPeer helloResult name key (helloAnswer value)).2))
  | again {router : Router} {helloResult : THello}
      (phase : before.phase = .meeting [] router helloResult)
      (alone : router.getReachablePeersNumber < 1) :
      Step file before .own { before with phase := .meeting file router {} }
  | reach {router : Router} {helloResult : THello}
      (phase : before.phase = .meeting [] router helloResult)
      (peers : ¬ router.getReachablePeersNumber < 1) :
      Step file before .own { before with phase := enter router }
  | ask {target : String} {targets : List String} {router : Router}
      (phase : before.phase = .reaching (target :: targets) router) :
      Step file before .own (before.call target .reachMaster
        (.asking before.situation.calls.length target targets router))
  | told {index : Nat} {target : String} {targets : List String} {router : Router}
      {call : ServerCall} {route : TRoute}
      (phase : before.phase = .asking index target targets router)
      (found : before.situation.calls[index]? = some call)
      (done : call.stage = .done (.ok (.route route))) :
      Step file before .own (before.hear target .reachMaster (.ok (.route route))
        (if (router.learnMaster target route).2 = true
          then .reached (router.learnMaster target route).1
          else .reaching targets (router.learnMaster target route).1))
  | raised {index : Nat} {target : String} {targets : List String} {router : Router}
      {call : ServerCall} {raised : Raised}
      (phase : before.phase = .asking index target targets router)
      (found : before.situation.calls[index]? = some call)
      (done : call.stage = .done (.error raised)) :
      Step file before .own (before.hear target .reachMaster (.error raised) (.left raised))
  | retry {router : Router} (phase : before.phase = .reaching [] router) :
      Step file before .own { before with phase := enter router }

/-! ## What the client can know -/

/-- The file names the peer. -/
def Names (file : List String) (name : String) : Prop :=
  ∃ line ∈ file, ∃ key, Router.readPeerLine line = .peer name key

/-- What the caller gets where no server runs. -/
def noServer : Except Raised ServiceAnswer :=
  .error (.standard "open")

/-- The peer has been called by `hello`. -/
def Met (heard : List Heard) (name : String) (value : Except Raised ServiceAnswer) : Prop :=
  ⟨name, .hello { name }, value⟩ ∈ heard

/-- The peer has been asked for the master. -/
def Told (heard : List Heard) (name : String) (value : Except Raised ServiceAnswer) : Prop :=
  ⟨name, .reachMaster, value⟩ ∈ heard

/-- A peer has said that it is the master. -/
def MasterMet (heard : List Heard) : Prop :=
  ∃ name answer, Met heard name (.ok (.hello answer)) ∧ answer.isMaster = true

/-- A peer that was down at its `hello` has told the way to the master. -/
def LateTold (heard : List Heard) : Prop :=
  ∃ name route, Met heard name noServer ∧ Told heard name (.ok (.route route)) ∧
    route.destinationNode.name ≠ "" ∧ 0 ≤ route.hops

/-- Who has told something was down at its `hello`. -/
def Silent (heard : List Heard) : Prop :=
  ∀ name answer, Told heard name (.ok answer) → ∀ value, Met heard name value → value = noServer

/-- What the router knows comes from `hello` only. -/
structure Learnt (heard : List Heard) (router : Router) : Prop where
  hosts : ∀ name ∈ router.hostNames, ∃ value, Met heard name value
  master : router.masterNode ≠ "" → MasterMet heard

/-- A call of `main`. -/
structure OwnCall (situation : ServerSituation) (index : Nat) (host : String)
    (request : ServiceCall) (call : ServerCall) : Prop where
  found : situation.calls[index]? = some call
  host : call.host = host
  request : call.request = request
  closes : call.closes = false

/-- The call has come to what has been heard. -/
def Answered (situation : ServerSituation) (heard : Heard) : Prop :=
  ∃ index call, OwnCall situation index heard.host heard.request call ∧
    call.stage = .done heard.value

/-- The call of `reach_master` has not been accepted, or could not be sent. -/
def Unheard (target : String) (call : ServerCall) : Prop :=
  call.stage = .sent target .reachMaster ∧ call.frames = [] ∨ call.stage = .done noServer

/-- What holds in the phase. -/
def Explains (file : List String) (situation : ServerSituation) (heard : List Heard) :
    StartPhase → Prop
  | .meeting lines router helloResult =>
      lines ⊆ file ∧ Learnt heard router ∧ (helloResult.isMaster = true → MasterMet heard) ∧
        ∀ name value, ¬ Told heard name value
  | .calling index name _ lines router helloResult =>
      (lines ⊆ file ∧ Learnt heard router ∧ (helloResult.isMaster = true → MasterMet heard) ∧
        ∀ name value, ¬ Told heard name value) ∧
          Names file name ∧ ∃ call, OwnCall situation index name (.hello { name }) call
  | .reaching targets router =>
      (∀ target ∈ targets, ∃ value, Met heard target value) ∧ Learnt heard router ∧
        router.masterNode = ""
  | .asking index target targets router =>
      (∀ other ∈ target :: targets, ∃ value, Met heard other value) ∧ Learnt heard router ∧
        router.masterNode = "" ∧ ∃ call, OwnCall situation index target .reachMaster call ∧
          ((∀ value, Met heard target value → value = noServer) ∨ Unheard target call)
  | .reached _ => MasterMet heard ∨ LateTold heard
  | .left _ => True

/-- The host is configured as the master. -/
def IsMasterAt (nodes : Nodes) (host : String) : Prop :=
  ∃ node, nodes host = some node ∧ node.config.getParam "is_master" = some "yes"

/-- A reply to `hello` claims to be the master at a master only. -/
def Honest (nodes : Nodes) (host : String) (value : Except Raised ServiceAnswer) : Prop :=
  ∀ answer, value = .ok (.hello answer) → answer.isMaster = true → IsMasterAt nodes host

/-- Where a call of `hello` for the host itself can be. -/
def HelloStage (nodes : Nodes) (targetNode : TNode) :
    Stage String ServiceCall (Except Raised ServiceAnswer) World → Prop
  | .sent host request => host = targetNode.name ∧ request = .hello targetNode
  | .executing _ _ _ => False
  | .answered _ value | .done value => Honest nodes targetNode.name value

/-- Every call of `hello` for the host itself is served honestly. -/
def ServesHello (nodes : Nodes) (calls : List ServerCall) : Prop :=
  ∀ call ∈ calls, ∀ targetNode, call.host = targetNode.name →
    call.request = .hello targetNode → HelloStage nodes targetNode call.stage

/-- What holds of a client that starts. -/
structure Sound (file : List String) (startup : Startup) : Prop where
  holds : startup.nodes.service.HoldsOpen startup.situation
  serves : ServesHello startup.nodes startup.situation.calls
  answered : ∀ heard ∈ startup.heard, Answered startup.situation heard
  named : ∀ heard ∈ startup.heard, Names file heard.host
  silent : Silent startup.heard
  explains : Explains file startup.situation startup.heard startup.phase

/-! ## The answers to `hello` -/

/-- `hello` goes to the node that it is for, whatever the gateway. -/
theorem hostname_of_hello {config : Config} {router : Router} {targetNode : TNode}
    {hostname : String} (asked : hello config router targetNode = .ok (.inr hostname)) :
    hostname = targetNode.name := by
  obtain ⟨nodeName, _, asked⟩ := except_bind_eq_ok_iff.mp asked
  split at asked
  · obtain ⟨domain, _, same⟩ := except_bind_eq_ok_iff.mp asked
    cases same
  · obtain ⟨gateway, _, same⟩ := except_bind_eq_ok_iff.mp asked
    cases gateway <;> cases same
    rfl

/-- A host answers `hello` itself, or hands the call on to the node that it is for. -/
theorem handling_hello_cases {nodes : Nodes} {host : String} {targetNode : TNode}
    {handling : Handling String ServiceCall (Except Raised ServiceAnswer) World}
    (handled : nodes.service.handling host (.hello targetNode) = some handling) :
    handling = .forward targetNode.name (.hello targetNode) ∨
      ∃ value, handling = .reply value ∧ Honest nodes host value := by
  cases configured : nodes host with
  | none => simp [Nodes.service, configured] at handled
  | some node =>
      simp only [Nodes.service, configured, Option.map_some, Option.some.injEq] at handled
      rw [ServiceCall.handling] at handled
      cases decided : (ServiceCall.hello targetNode).decide node.config node.router
          node.domain with
      | error raised =>
          rw [decided] at handled
          refine Or.inr ⟨_, handled.symm, ?_⟩
          intro answer impossible
          cases impossible
      | ok decision =>
          rw [decided] at handled
          obtain ⟨result, asked, decided⟩ := except_bind_eq_ok_iff.mp decided
          cases result with
          | inl answer =>
              cases decided
              refine Or.inr ⟨_, handled.symm, ?_⟩
              intro other same isMaster
              cases same
              exact ⟨node, configured, (hello_answer asked).2.mp isMaster⟩
          | inr hostname =>
              obtain ⟨number, _, forwards⟩ := except_bind_eq_ok_iff.mp decided
              cases forwards
              left
              rw [← hostname_of_hello asked]
              exact handled.symm

section Serving

variable {nodes : Nodes} {before after : ServerSituation} {event : CallEvent String ServiceCall}

theorem helloStage_receive {targetNode : TNode} {call : ServerCall}
    {value : Except Raised ServiceAnswer} (honest : Honest nodes targetNode.name value) :
    HelloStage nodes targetNode (call.receive nodes.service value).stage := by
  unfold Call.receive
  cases call.frames with
  | nil => exact honest
  | cons frame frames =>
      cases value with
      | ok answer => exact honest
      | error raised =>
          intro answer impossible
          cases impossible

theorem ServesHello.set {calls : List ServerCall} (serves : ServesHello nodes calls)
    {index : Nat} {call changed : ServerCall} (found : calls[index]? = some call)
    (sameHost : changed.host = call.host) (sameRequest : changed.request = call.request)
    (moved : ∀ targetNode, HelloStage nodes targetNode call.stage →
      HelloStage nodes targetNode changed.stage) :
    ServesHello nodes (calls.set index changed) := by
  intro other member targetNode host request
  cases List.mem_or_eq_of_mem_set member with
  | inl old => exact serves other old targetNode host request
  | inr same =>
      rw [same] at host request ⊢
      apply moved targetNode
      exact serves call (List.mem_of_getElem? found) targetNode (sameHost.symm.trans host)
        (sameRequest.symm.trans request)

theorem servesHello_of_step (serves : ServesHello nodes before.calls)
    (stepped : nodes.service.Step before event after) : ServesHello nodes after.calls := by
  cases stepped with
  | send host request closes =>
      intro call member targetNode hostSame requestSame
      cases List.mem_append.mp member with
      | inl old => exact serves call old targetNode hostSame requestSame
      | inr new =>
          rw [List.mem_singleton.mp new] at hostSame requestSame ⊢
          exact ⟨hostSame, requestSame⟩
  | refuse found sent absent =>
      apply serves.set found (Service.same_receive _).1 (Service.same_receive _).2
      intro targetNode _
      apply helloStage_receive
      intro answer impossible
      cases impossible
  | reply found sent free handled =>
      refine serves.set found rfl rfl ?_
      intro targetNode stage
      rw [sent] at stage
      obtain ⟨rfl, rfl⟩ := stage
      cases handling_hello_cases handled with
      | inl forwards => cases forwards
      | inr replies =>
          obtain ⟨value, same, honest⟩ := replies
          cases same
          exact honest
  | execute found sent free handled =>
      refine serves.set found rfl rfl ?_
      intro targetNode stage
      rw [sent] at stage
      obtain ⟨rfl, rfl⟩ := stage
      cases handling_hello_cases handled with
      | inl forwards => cases forwards
      | inr replies =>
          obtain ⟨value, same, _⟩ := replies
          cases same
  | forward found sent free handled =>
      refine serves.set found rfl rfl ?_
      intro targetNode stage
      rw [sent] at stage
      obtain ⟨rfl, rfl⟩ := stage
      cases handling_hello_cases handled with
      | inl forwards =>
          cases forwards
          exact ⟨rfl, rfl⟩
      | inr replies =>
          obtain ⟨value, same, _⟩ := replies
          cases same
  | finish found begun =>
      refine serves.set found rfl rfl ?_
      intro targetNode stage
      rw [begun] at stage
      exact stage.elim
  | answer found decided sends =>
      apply serves.set found (Service.same_receive _).1 (Service.same_receive _).2
      intro targetNode stage
      rw [decided] at stage
      exact helloStage_receive stage

end Serving

/-- A server that is started changes nothing for the others. -/
theorem IsMasterAt.started {nodes : Nodes} {host other : String} {node : Node}
    (absent : nodes host = none) (master : IsMasterAt nodes other) :
    IsMasterAt (Function.update nodes host (some node)) other := by
  obtain ⟨known, configured, isMaster⟩ := master
  refine ⟨known, ?_, isMaster⟩
  rw [Function.update_of_ne _ _ _]
  · exact configured
  · rintro rfl
    rw [absent] at configured
    cases configured

theorem ServesHello.started {nodes : Nodes} {calls : List ServerCall} {host : String}
    {node : Node} (absent : nodes host = none) (serves : ServesHello nodes calls) :
    ServesHello (Function.update nodes host (some node)) calls := by
  intro call member targetNode hostSame requestSame
  have stage := serves call member targetNode hostSame requestSame
  revert stage
  cases call.stage with
  | sent place request => exact id
  | executing place value state => exact id
  | answered place value | done value =>
      intro honest answer same isMaster
      exact (honest answer same isMaster).started absent

/-! ## A step beside the client -/

section Beside

variable {nodes : Nodes} {file : List String} {before after : ServerSituation}
  {event : CallEvent String ServiceCall} {heard : List Heard}

theorem OwnCall.step {index : Nat} {host : String} {request : ServiceCall} {call : ServerCall}
    (own : OwnCall before index host request call)
    (stepped : nodes.service.Step before event after) :
    ∃ other, OwnCall after index host request other ∧
      ∀ value, call.stage = .done value → other = call := by
  obtain ⟨other, found, sameHost, sameRequest, sameCloses, same⟩ :=
    Service.kept_of_step stepped own.found
  exact ⟨other, ⟨found, sameHost.trans own.host, sameRequest.trans own.request,
    sameCloses.trans own.closes⟩, same⟩

theorem Answered.step {entry : Heard} (answered : Answered before entry)
    (stepped : nodes.service.Step before event after) : Answered after entry := by
  obtain ⟨index, call, own, done⟩ := answered
  obtain ⟨other, later, same⟩ := own.step stepped
  rw [same entry.value done] at later
  exact ⟨index, call, later, done⟩

/-- A peer that has answered `hello` is held by the client. -/
theorem held_of_met {name : String} {value : Except Raised ServiceAnswer}
    (holds : nodes.service.HoldsOpen before)
    (answered : ∀ entry ∈ heard, Answered before entry) (met : Met heard name value)
    (up : value ≠ noServer) : name ∈ before.held := by
  obtain ⟨index, call, own, done⟩ := answered _ met
  have left := (holds call (List.mem_of_getElem? own.found)).2 own.closes value done
  have held := left.resolve_left up
  rwa [own.host] at held

/-- A peer that is held is not heard when it is asked for the master. -/
theorem Unheard.step {index : Nat} {target : String} {call : ServerCall}
    (held : target ∈ before.held) (found : before.calls[index]? = some call)
    (unheard : Unheard target call) (stepped : nodes.service.Step before event after) :
    ∀ other, after.calls[index]? = some other → Unheard target other := by
  have bound := (List.getElem?_eq_some_iff.mp found).1
  have beside : ∀ (moved : Nat) (new : ServerCall), moved ≠ index →
      ∀ other, (before.calls.set moved new)[index]? = some other → Unheard target other := by
    intro moved new different other otherFound
    rw [List.getElem?_set_ne different, found] at otherFound
    cases otherFound
    exact unheard
  have accepts : ∀ {moved : Nat} {accepted new : ServerCall} {host : String}
      {request : ServiceCall}, before.calls[moved]? = some accepted →
        accepted.stage = .sent host request → before.Free host →
          ∀ other, (before.calls.set moved new)[index]? = some other → Unheard target other := by
    intro moved accepted new host request movedFound sent free
    by_cases same : moved = index
    · subst same
      rw [found] at movedFound
      cases movedFound
      cases unheard with
      | inl waits =>
          rw [waits.1] at sent
          cases sent
          exact absurd held free.1
      | inr done =>
          rw [done] at sent
          cases sent
    · exact beside moved new same
  cases stepped with
  | send _ _ _ =>
      intro other otherFound
      rw [List.getElem?_append_left bound, found] at otherFound
      cases otherFound
      exact unheard
  | @refuse moved refused host request movedFound sent absent =>
      by_cases same : moved = index
      · subst same
        rw [found] at movedFound
        cases movedFound
        intro other otherFound
        have refused := (List.getElem?_set_self bound).symm.trans otherFound
        cases refused
        right
        cases unheard with
        | inl waits =>
            rw [Call.receive, waits.2]
            rfl
        | inr done =>
            rw [done] at sent
            cases sent
      · exact beside moved _ same
  | reply movedFound sent free handled | execute movedFound sent free handled
  | forward movedFound sent free handled => exact accepts movedFound sent free
  | @finish moved finished host reply state movedFound begun =>
      by_cases same : moved = index
      · subst same
        rw [found] at movedFound
        cases movedFound
        simp [Unheard, begun] at unheard
      · exact beside moved _ same
  | @answer moved decided host reply movedFound atHost sends =>
      by_cases same : moved = index
      · subst same
        rw [found] at movedFound
        cases movedFound
        simp [Unheard, atHost] at unheard
      · exact beside moved _ same

/-- What is explained stays so while the servers and the other callers go on. -/
theorem explains_of_served {phase : StartPhase} (holds : nodes.service.HoldsOpen before)
    (answered : ∀ entry ∈ heard, Answered before entry)
    (explains : Explains file before heard phase)
    (stepped : nodes.service.Step before event after) : Explains file after heard phase := by
  cases phase with
  | meeting lines router helloResult => exact explains
  | calling index name key lines router helloResult =>
      obtain ⟨meets, named, call, own⟩ := explains
      obtain ⟨other, later, _⟩ := own.step stepped
      exact ⟨meets, named, other, later⟩
  | reaching targets router => exact explains
  | asking index target targets router =>
      obtain ⟨met, learnt, unknown, call, own, silent⟩ := explains
      obtain ⟨other, later, _⟩ := own.step stepped
      refine ⟨met, learnt, unknown, other, later, ?_⟩
      by_cases down : ∀ value, Met heard target value → value = noServer
      · exact Or.inl down
      · have unheard := silent.resolve_left down
        push Not at down
        obtain ⟨value, known, up⟩ := down
        right
        exact unheard.step (held_of_met holds answered known up) own.found stepped other
          later.found
  | reached router => exact explains
  | left raised => trivial

end Beside

/-! ## A step of the client -/

section Own

variable {file : List String} {before after : Startup} {event : StartEvent}

theorem MasterMet.append {heard : List Heard} (met : MasterMet heard) (entry : Heard) :
    MasterMet (heard ++ [entry]) := by
  obtain ⟨name, answer, known, isMaster⟩ := met
  exact ⟨name, answer, List.mem_append_left _ known, isMaster⟩

/-- A peer that has been called stays known. -/
theorem known_append {heard : List Heard} {name : String} (entry : Heard)
    (known : ∃ value, Met heard name value) : ∃ value, Met (heard ++ [entry]) name value := by
  obtain ⟨value, met⟩ := known
  exact ⟨value, List.mem_append_left _ met⟩

theorem Learnt.append {heard : List Heard} {router : Router} (learnt : Learnt heard router)
    (entry : Heard) : Learnt (heard ++ [entry]) router where
  hosts name member := known_append entry (learnt.hosts name member)
  master known := (learnt.master known).append entry

/-- A peer has been met, whether or not it has answered. -/
theorem learnt_of_met {heard : List Heard} {router : Router} {helloResult : THello}
    {name : String} {value : Except Raised ServiceAnswer} (key : String)
    (learnt : Learnt heard router) (told : helloResult.isMaster = true → MasterMet heard)
    (met : Met heard name value) :
    Learnt heard (router.meetPeer helloResult name key (helloAnswer value)).1 ∧
      ((router.meetPeer helloResult name key (helloAnswer value)).2.isMaster = true →
        MasterMet heard) := by
  have claims : ((helloAnswer value).getD helloResult).isMaster = true → MasterMet heard := by
    intro isMaster
    cases answered : helloAnswer value with
    | none =>
        rw [answered] at isMaster
        exact told isMaster
    | some answer =>
        rw [answered] at isMaster
        unfold helloAnswer at answered
        split at answered
        · cases answered
          exact ⟨name, answer, met, isMaster⟩
        · cases answered
  apply And.intro _ claims
  constructor
  · intro other member
    cases (Router.mem_hostNames_meetPeer _ _ _ _ _ other).mp member with
    | inl same =>
        rw [same]
        exact ⟨value, met⟩
    | inr earlier => exact learnt.hosts other earlier
  · intro known
    cases @Router.masterNode_meetPeer router helloResult name key (helloAnswer value) with
    | inl kept =>
        rw [kept] at known
        exact learnt.master known
    | inr set => exact claims set.1

theorem explains_enter {situation : ServerSituation} {heard : List Heard} {router : Router}
    (learnt : Learnt heard router) : Explains file situation heard (enter router) := by
  unfold enter
  split
  · rename_i known
    exact Or.inl (learnt.master known)
  · rename_i unknown
    exact ⟨learnt.hosts, learnt, not_not.mp unknown⟩

/-- The servers and the callers take a step. -/
theorem Sound.served (sound : Sound file before) {served : CallEvent String ServiceCall}
    {situation : ServerSituation} {phase : StartPhase}
    (stepped : before.nodes.service.Step before.situation served situation)
    (explains : Explains file situation before.heard phase) :
    Sound file { before with situation, phase } where
  holds := Service.holdsOpen_of_step sound.holds stepped
  serves := servesHello_of_step sound.serves stepped
  answered entry member := (sound.answered entry member).step stepped
  named := sound.named
  silent := sound.silent
  explains := explains

/-- `main` sends a call. -/
theorem Sound.call (sound : Sound file before) (host : String) (request : ServiceCall)
    (phase : StartPhase)
    (explains : ∀ situation, OwnCall situation before.situation.calls.length host request
      ⟨host, request, false, [], .sent host request⟩ →
        Explains file situation before.heard phase) :
    Sound file (before.call host request phase) := by
  apply sound.served (Service.Step.send host request false)
  apply explains
  exact ⟨List.getElem?_concat_length, rfl, rfl, rfl⟩

/-- A call of `main` comes to its end. -/
theorem Sound.hear (sound : Sound file before) {index : Nat} {host : String}
    {request : ServiceCall} {call : ServerCall} {value : Except Raised ServiceAnswer}
    {phase : StartPhase} (own : OwnCall before.situation index host request call)
    (done : call.stage = .done value) (named : Names file host)
    (silent : Silent (before.heard ++ [⟨host, request, value⟩]))
    (explains : Explains file before.situation (before.heard ++ [⟨host, request, value⟩]) phase) :
    Sound file (before.hear host request value phase) where
  holds := sound.holds
  serves := sound.serves
  answered entry member := by
    cases List.mem_append.mp member with
    | inl old => exact sound.answered entry old
    | inr new =>
        rw [List.mem_singleton.mp new]
        exact ⟨index, call, own, done⟩
  named entry member := by
    cases List.mem_append.mp member with
    | inl old => exact sound.named entry old
    | inr new =>
        rw [List.mem_singleton.mp new]
        exact named
  silent := silent
  explains := explains

/-- `main` goes on in its own code. -/
theorem Sound.phase (sound : Sound file before) {phase : StartPhase}
    (explains : Explains file before.situation before.heard phase) :
    Sound file { before with phase } :=
  { sound with explains }

/-- While the peers are met nobody is asked. -/
theorem untold_of_met {heard : List Heard} {name : String} {targetNode : TNode}
    {value : Except Raised ServiceAnswer} (untold : ∀ name value, ¬ Told heard name value) :
    ∀ other answer, ¬ Told (heard ++ [⟨name, .hello targetNode, value⟩]) other answer := by
  intro other answer told
  cases List.mem_append.mp told with
  | inl old => exact untold other answer old
  | inr new => cases List.mem_singleton.mp new

theorem met_of_told {heard : List Heard} {target name : String}
    {answer value : Except Raised ServiceAnswer}
    (met : Met (heard ++ [⟨target, .reachMaster, answer⟩]) name value) : Met heard name value := by
  cases List.mem_append.mp met with
  | inl old => exact old
  | inr new => cases List.mem_singleton.mp new

/-- A peer that has been asked: it has raised, or it was down at its `hello`. -/
theorem silent_of_told {heard : List Heard} {target : String}
    {answer : Except Raised ServiceAnswer} (silent : Silent heard)
    (down : ∀ told, answer = .ok told → ∀ value, Met heard target value → value = noServer) :
    Silent (heard ++ [⟨target, .reachMaster, answer⟩]) := by
  intro name told member value met
  have earlier := met_of_told met
  cases List.mem_append.mp member with
  | inl old => exact silent name told old value earlier
  | inr new =>
      cases List.mem_singleton.mp new
      exact down told rfl value earlier

/-- What the client makes of an answer. -/
theorem learnMaster_cases (router : Router) (target : String) (route : TRoute) :
    (router.learnMaster target route).2 = true ∧ route.destinationNode.name ≠ "" ∧
        0 ≤ route.hops ∨
      router.learnMaster target route = (router, false) := by
  unfold Router.learnMaster
  split
  · rename_i usable
    exact Or.inl ⟨rfl, usable⟩
  · exact Or.inr rfl

/-- The call of `hello` has come to its end. -/
theorem sound_of_met (sound : Sound file before) {index : Nat} {name key : String}
    {lines : List String} {router : Router} {helloResult : THello} {call : ServerCall}
    {value : Except Raised ServiceAnswer}
    (phase : before.phase = .calling index name key lines router helloResult)
    (found : before.situation.calls[index]? = some call) (done : call.stage = .done value) :
    Sound file (before.hear name (.hello { name }) value
      (.meeting lines (router.meetPeer helloResult name key (helloAnswer value)).1
        (router.meetPeer helloResult name key (helloAnswer value)).2)) := by
  have explains := sound.explains
  rw [phase] at explains
  obtain ⟨⟨within, learnt, told, untold⟩, named, other, own⟩ := explains
  have same := found.symm.trans own.found
  cases same
  have later := @untold_of_met before.heard name { name } value untold
  have met : Met (before.heard ++ [⟨name, .hello { name }, value⟩]) name value :=
    List.mem_concat_self
  have known := learnt_of_met key (learnt.append _)
    (fun isMaster => (told isMaster).append _) met
  apply sound.hear own done named
  · intro other answer impossible
    exact absurd impossible (later other _)
  · exact ⟨within, known.1, known.2, later⟩

/-- The call of `reach_master` has come to a route, which is taken or passed over. -/
theorem sound_of_told (sound : Sound file before) {index : Nat} {target : String}
    {targets : List String} {router : Router} {call : ServerCall} {route : TRoute}
    (phase : before.phase = .asking index target targets router)
    (found : before.situation.calls[index]? = some call)
    (done : call.stage = .done (.ok (.route route))) :
    Sound file (before.hear target .reachMaster (.ok (.route route))
      (if (router.learnMaster target route).2 = true
        then .reached (router.learnMaster target route).1
        else .reaching targets (router.learnMaster target route).1)) := by
  have explains := sound.explains
  rw [phase] at explains
  obtain ⟨met, learnt, unknown, other, own, silent⟩ := explains
  have same := found.symm.trans own.found
  cases same
  -- a peer that has not heard the call has not answered it
  have down : ∀ value, Met before.heard target value → value = noServer := by
    apply silent.resolve_right
    intro unheard
    simp [Unheard, done, noServer] at unheard
  obtain ⟨first, firstMet⟩ := met target List.mem_cons_self
  apply sound.hear own done (sound.named _ firstMet)
  · exact silent_of_told sound.silent fun _ _ => down
  · cases learnMaster_cases router target route with
    | inl learns =>
        rw [if_pos learns.1]
        right
        refine ⟨target, route, ?_, List.mem_concat_self, learns.2⟩
        rw [down first firstMet] at firstMet
        exact List.mem_append_left _ firstMet
    | inr learns =>
        rw [learns, if_neg Bool.false_ne_true]
        exact ⟨fun other member => known_append _ (met other (List.mem_cons_of_mem _ member)),
          learnt.append _, unknown⟩

theorem sound_of_step (sound : Sound file before) (stepped : Step file before event after) :
    Sound file after := by
  have explains := sound.explains
  cases stepped with
  | served stepped =>
      exact sound.served stepped (explains_of_served sound.holds sound.answered explains stepped)
  | started node absent => exact { sound with serves := sound.serves.started absent }
  | skip phase read | malformed phase read =>
      rw [phase] at explains
      obtain ⟨within, known⟩ := explains
      refine sound.phase ⟨?_, known⟩
      first
        | exact List.nil_subset file
        | exact fun line member => within (List.mem_cons_of_mem _ member)
  | @hello line name key lines router helloResult phase read named =>
      rw [phase] at explains
      obtain ⟨within, known⟩ := explains
      apply sound.call
      intro situation own
      exact ⟨⟨fun line member => within (List.mem_cons_of_mem _ member), known⟩,
        ⟨line, within List.mem_cons_self, key, read⟩, _, own⟩
  | met phase found done => exact sound_of_met sound phase found done
  | again phase alone =>
      rw [phase] at explains
      obtain ⟨_, learnt, _, untold⟩ := explains
      refine sound.phase ⟨List.Subset.refl file, learnt, ?_, untold⟩
      intro isMaster
      cases isMaster
  | reach phase peers =>
      rw [phase] at explains
      exact sound.phase (explains_enter explains.2.1)
  | @ask target targets router phase =>
      rw [phase] at explains
      obtain ⟨met, learnt, unknown⟩ := explains
      apply sound.call
      intro situation own
      exact ⟨met, learnt, unknown, _, own, Or.inr (Or.inl ⟨rfl, rfl⟩)⟩
  | told phase found done => exact sound_of_told sound phase found done
  | @raised index target targets router call raised phase found done =>
      rw [phase] at explains
      obtain ⟨met, learnt, unknown, other, own, silent⟩ := explains
      have same := found.symm.trans own.found
      cases same
      obtain ⟨first, firstMet⟩ := met target List.mem_cons_self
      refine sound.hear own done (sound.named _ firstMet) (silent_of_told sound.silent ?_) trivial
      intro told impossible
      cases impossible
  | retry phase =>
      rw [phase] at explains
      exact sound.phase (explains_enter explains.2.1)

end Own

/-! ## Runs -/

/-- A client gets through to its domain only if a peer of its file has answered its `hello`
as the master, and is configured so, or if a peer of its file that was down at its `hello` has
been started since and has told it the way.  A peer that has answered `hello` never
answers `reach_master`, whatever it knows of the master. -/
theorem reached_by_hello (nodes : Nodes) {file : List String} {worlds : Worlds}
    {events : List StartEvent} {last : Startup} {router : Router}
    (run : Run (Step file) ⟨nodes, { states := worlds }, [], .meeting file {} {}⟩ events last)
    (through : last.phase = .reached router) :
    ((∃ name answer, Names file name ∧ Met last.heard name (.ok (.hello answer)) ∧
          answer.isMaster = true ∧ IsMasterAt last.nodes name) ∨
        ∃ name route, Names file name ∧ Met last.heard name noServer ∧
          Told last.heard name (.ok (.route route)) ∧ route.destinationNode.name ≠ "" ∧
            0 ≤ route.hops) ∧
      ∀ name met told, Met last.heard name (.ok met) → ¬ Told last.heard name (.ok told) := by
  have sound : Sound file last := by
    apply run.keeps fun _ _ _ sound stepped => sound_of_step sound stepped
    constructor
    · simp [Service.HoldsOpen]
    · simp [ServesHello]
    · simp
    · simp
    · simp [Silent, Told]
    · refine ⟨List.Subset.refl file, ⟨by simp [Router.hostNames], by simp⟩, by simp, ?_⟩
      simp [Told]
  have explains := sound.explains
  rw [through] at explains
  constructor
  · cases explains with
    | inl masterMet =>
        obtain ⟨name, answer, met, isMaster⟩ := masterMet
        obtain ⟨index, call, own, done⟩ := sound.answered _ met
        have served := sound.serves call (List.mem_of_getElem? own.found) { name } own.host
          own.request
        rw [done] at served
        exact Or.inl ⟨name, answer, sound.named _ met, met, isMaster, served answer rfl isMaster⟩
    | inr late =>
        obtain ⟨name, route, met, told, usable⟩ := late
        exact Or.inr ⟨name, route, sound.named _ met, met, told, usable⟩
  · intro name answer told met later
    have down := sound.silent name told later _ met
    cases down

/-! ## A master that is started late -/

def mainNode : Node where
  config := {
    configOptions :=
      [⟨"node_name", "main"⟩, ⟨"domain_name", "prod"⟩, ⟨"is_master", "yes"⟩].toAList }
  domain := ⟨"prod", 0, 86400⟩
  router := {}

def mainRoute : TRoute :=
  { destinationNode := { name := "main" }, hops := 0 }

/-- Nobody runs at first. -/
def nobody : Nodes :=
  fun _ => none

def mainUp : Nodes :=
  Function.update nobody "main" (some mainNode)

def mainRouter : Router :=
  (Router.meetPeer {} {} "main" "key" none).1

/-- `main`, the only peer of the client, at a call of `hello` for which there is no server. -/
def meetingMain (stage : Stage String ServiceCall (Except Raised ServiceAnswer) World)
    (log : List (Entry String ServiceCall (Except Raised ServiceAnswer))) (heard : List Heard)
    (phase : StartPhase) : Startup where
  nodes := nobody
  situation := {
    states := emptyWorlds
    calls := [⟨"main", .hello { name := "main" }, false, [], stage⟩]
    log }
  heard := heard
  phase := phase

def helloEntry : Entry String ServiceCall (Except Raised ServiceAnswer) :=
  ⟨0, "main", .hello { name := "main" }, noServer⟩

def routeEntry : Entry String ServiceCall (Except Raised ServiceAnswer) :=
  ⟨1, "main", .reachMaster, .ok (.route mainRoute)⟩

def helloHeard : Heard :=
  ⟨"main", .hello { name := "main" }, noServer⟩

/-- The client asks `main`, which runs by now. -/
def askingMain (stage : Stage String ServiceCall (Except Raised ServiceAnswer) World)
    (held : Set String) (log : List (Entry String ServiceCall (Except Raised ServiceAnswer))) :
    Startup where
  nodes := mainUp
  situation := {
    states := emptyWorlds
    calls := [⟨"main", .hello { name := "main" }, false, [], .done noServer⟩,
      ⟨"main", .reachMaster, false, [], stage⟩]
    held
    log }
  heard := [helloHeard]
  phase := .asking 1 "main" [] mainRouter

theorem run_lateMain :
    ∃ events last router, Run (Step ["main\tkey"])
      ⟨nobody, { states := emptyWorlds }, [], .meeting ["main\tkey"] {} {}⟩ events last ∧
        last.phase = .reached router ∧
          last.heard = [helloHeard, ⟨"main", .reachMaster, .ok (.route mainRoute)⟩] := by
  have read : Router.readPeerLine "main\tkey" = .peer "main" "key" := by decide
  have peers : ¬ mainRouter.getReachablePeersNumber < 1 := by decide
  have called : Step ["main\tkey"]
      ⟨nobody, { states := emptyWorlds }, [], .meeting ["main\tkey"] {} {}⟩ .own
      (meetingMain (.sent "main" (.hello { name := "main" })) [] []
        (.calling 0 "main" "key" [] {} {})) := .hello rfl read (by decide)
  have refused : Step ["main\tkey"]
      (meetingMain (.sent "main" (.hello { name := "main" })) [] []
        (.calling 0 "main" "key" [] {} {})) (.served (.refuse 0)) _ :=
    .served (.refuse rfl rfl rfl)
  have met : Step ["main\tkey"]
      (meetingMain (.done noServer) [helloEntry] [] (.calling 0 "main" "key" [] {} {})) .own
      (meetingMain (.done noServer) [helloEntry] [helloHeard] (.meeting [] mainRouter {})) :=
    .met rfl rfl rfl
  have entered : Step ["main\tkey"]
      (meetingMain (.done noServer) [helloEntry] [helloHeard] (.meeting [] mainRouter {})) .own
      (meetingMain (.done noServer) [helloEntry] [helloHeard] (.reaching ["main"] mainRouter)) :=
    .reach rfl peers
  have started : Step ["main\tkey"]
      (meetingMain (.done noServer) [helloEntry] [helloHeard] (.reaching ["main"] mainRouter))
      (.started "main") _ := .started mainNode rfl
  have accepted : Step ["main\tkey"]
      (askingMain (.sent "main" .reachMaster) ∅ [helloEntry]) (.served (.accept 1)) _ :=
    .served (.reply rfl rfl ⟨id, by simp [askingMain, Call.hosts, Stage.server]⟩ rfl)
  have replied : Step ["main\tkey"]
      (askingMain (.answered "main" (.ok (.route mainRoute))) ∅ [helloEntry, routeEntry])
      (.served (.answer 1)) _ := .served (.answer rfl rfl rfl)
  have told : Step ["main\tkey"]
      (askingMain (.done (.ok (.route mainRoute))) (insert "main" ∅) [helloEntry, routeEntry])
      .own _ := .told rfl rfl rfl
  exact ⟨_, _, _, .next called (.next refused (.next met (.next entered (.next started
    (.next (.ask rfl) (.next accepted (.next replied (.next told (.stay _))))))))), rfl, rfl⟩

theorem reached_by_hello_lateMain :
    ∃ last : Startup, ∃ name route, Names ["main\tkey"] name ∧ Met last.heard name noServer ∧
      Told last.heard name (.ok (.route route)) ∧ route.destinationNode.name ≠ "" := by
  obtain ⟨events, last, router, run, through, heard⟩ := run_lateMain
  cases (reached_by_hello nobody run through).1 with
  | inl masterMet =>
      -- the only answer to `hello` is that there is no server
      obtain ⟨name, answer, _, met, _⟩ := masterMet
      rw [heard] at met
      simp [Met, helloHeard, noServer] at met
  | inr late =>
      obtain ⟨name, route, named, met, told, usable, _⟩ := late
      exact ⟨last, name, route, named, met, told, usable⟩

end Startup

end OpenWorkloadScheduler
