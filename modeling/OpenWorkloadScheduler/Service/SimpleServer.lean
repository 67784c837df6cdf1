import OpenWorkloadScheduler.Foundations.NestedWaits
import OpenWorkloadScheduler.Service.ClientHandles
import OpenWorkloadScheduler.Service.Forwarding
import OpenWorkloadScheduler.Store.Loading

/-!
# The servers of the nodes

`Rpc_Server::run` leaves the calls to a `TSimpleServer`.  Its only thread accepts a
connection, processes the calls that come over it until the caller closes it, and then
accepts the next one.  A handler that forwards a call waits for the reply in this
thread.

Whatever the order in which the calls to the nodes make their way, the replies
and the databases are those of some order in which they are served one after the other.
-/

namespace OpenWorkloadScheduler

open Rpc Store Foundations

/-! ## A call of the service -/

/-- What a call returns. -/
inductive ServiceAnswer where
  | hello (value : THello)
  | route (value : TRoute)
  | planning (value : PlanningReply)
  | routed (value : Reply)
  deriving DecidableEq, Repr

inductive ServiceDecision where
  | answer (value : ServiceAnswer)
  | execute (operation : Action ServiceAnswer)
  | forward (gateway : String) (call : ServiceCall)

namespace ServiceCall

/-- The exceptions that the service declares for a call. -/
def declares : ServiceCall → Raised → Bool
  | .routed request, raised => request.declares raised
  | .planning _, .exProcessing _ => true
  | _, .exRouting _ => true
  | _, _ => false

/-- What the caller gets for an exception of the handler. -/
def transported (call : ServiceCall) (raised : Raised) : Raised :=
  if call.declares raised then raised
  else
    match raised with
    | .undefinedBehaviour what => .undefinedBehaviour what
    | .blocked => .blocked
    | _ => .standard (Domain.what raised)

def decide (config : Config) (router : Router) (domain : Domain) :
    ServiceCall → Except Raised ServiceDecision
  | .hello targetNode => do
      match ← OpenWorkloadScheduler.hello config router targetNode with
      | .inl answer => return .answer (.hello answer)
      | .inr hostname => do
          let _ ← Handlers.port config
          return .forward hostname (.hello targetNode)
  | .reachMaster => return .answer (.route (← answerReachMaster config router))
  | .planning request => do
      match ← Handlers.handlePlanning config router request with
      | .execute operation => return .execute (do return .planning (← operation.run domain))
      | .forward gateway forwarded => return .forward gateway (.planning forwarded)
      | .reply value => return .answer (.planning value)
  | .routed request => do
      match ← Handlers.handle config router request with
      | .execute operation => return .execute (do return .routed (← operation.run domain))
      | .forward gateway forwarded => return .forward gateway (.routed forwarded)
      | .reply value => return .answer (.routed value)

def answerOf (call : ServiceCall) :
    EStateM.Result Raised World ServiceAnswer → Except Raised ServiceAnswer
  | .ok value _ => .ok value
  | .error raised _ => .error (call.transported raised)

def handling (config : Config) (router : Router) (domain : Domain) (call : ServiceCall) :
    Handling String ServiceCall (Except Raised ServiceAnswer) World :=
  match call.decide config router domain with
  | .error raised => .reply (.error (call.transported raised))
  | .ok (.answer value) => .reply (.ok value)
  | .ok (.execute operation) =>
      .execute fun world => (call.answerOf (operation world), finalState (operation world))
  | .ok (.forward gateway forwarded) => .forward gateway forwarded

/-- What the statement that forwards the call catches, and whether it closes the client
before it returns.  `reach_master` is not forwarded. -/
def closing : ServiceCall → ExceptionKind × Bool
  | .hello _ => (.exRouting, true)
  | .reachMaster => (.exRouting, true)
  | .planning _ => (.exPlanning, true)
  | .routed request =>
      ((request.remoteCall request.target).caught,
        (request.remoteCall request.target).closesOnReturn)

/-- Whether the handler that has forwarded the call closes its connection. -/
def closesAfter (call : ServiceCall) : Except Raised ServiceAnswer → Bool
  | .ok _ => call.closing.2
  | .error raised => call.closing.1.catches raised

end ServiceCall

/-- A node that is blocked or undefined sends nothing. -/
def isSent : Except Raised ServiceAnswer → Bool
  | .error .blocked => false
  | .error (.undefinedBehaviour _) => false
  | _ => true

/-- The nodes by host. -/
abbrev Nodes := String → Option Node

abbrev ServerCall := Call String ServiceCall (Except Raised ServiceAnswer) World

abbrev ServerSituation := Situation String ServiceCall (Except Raised ServiceAnswer) World

/-- The servers of the nodes. -/
def Nodes.service (nodes : Nodes) :
    Service String ServiceCall (Except Raised ServiceAnswer) World where
  handling host call :=
    (nodes host).map fun node => call.handling node.config node.router node.domain
  unreachable := .error (.standard "open")
  passes _ call answer := answer.mapError call.transported
  closes _ call answer := call.closesAfter answer
  sends := isSent

/-! ## The handlers of the routed requests -/

theorem ServiceCall.execute_routed (request : Request) (operation : Operation) (domain : Domain)
    (world : World) :
    let execution : Action ServiceAnswer := do return .routed (← operation.run domain)
    ((routed request).answerOf (execution world), finalState (execution world)) =
      ((request.replyOf (operation.run domain world)).map .routed,
        finalState (operation.run domain world)) := by
  intro execution
  cases ran : operation.run domain world with
  | ok value after =>
      have executed : execution world = .ok (.routed value) after := bind_of_ok ran
      rw [executed]
      rfl
  | error raised after =>
      have executed : execution world = .error raised after := bind_of_error ran
      rw [executed]
      rfl

theorem ServiceCall.handling_routed (config : Config) (router : Router) (domain : Domain)
    (request : Request) :
    (ServiceCall.routed request).handling config router domain =
      match Handlers.handle config router request with
      | .error raised => .reply (.error (request.transported raised))
      | .ok (.reply value) => .reply (.ok (.routed value))
      | .ok (.execute operation) => .execute fun world =>
          ((request.replyOf (operation.run domain world)).map .routed,
            finalState (operation.run domain world))
      | .ok (.forward gateway forwarded) => .forward gateway (.routed forwarded) := by
  have decided : (ServiceCall.routed request).decide config router domain = (do
      match ← Handlers.handle config router request with
      | .execute operation => return .execute (do return .routed (← operation.run domain))
      | .forward gateway forwarded => return .forward gateway (.routed forwarded)
      | .reply value => return .answer (.routed value)) := rfl
  rw [handling, decided]
  cases Handlers.handle config router request with
  | error raised => rfl
  | ok decision =>
      cases decision with
      | reply value => rfl
      | forward gateway forwarded => rfl
      | execute operation =>
          apply congrArg Handling.execute
          funext world
          exact execute_routed request operation domain world

namespace Network

variable (network : Network)

/-- What a host of the network does with a request. -/
theorem service_handling {host : String} {node : Node}
    (configured : network.nodes host = some node) (request : Request) :
    (Nodes.service network.nodes).handling host (.routed request) =
      some ((ServiceCall.routed request).handling node.config node.router node.domain) := by
  simp [Nodes.service, configured]

theorem mapError_map (request : Request) (reply : Except Raised Reply) :
    (reply.map ServiceAnswer.routed).mapError (ServiceCall.routed request).transported =
      (reply.mapError request.transported).map ServiceAnswer.routed := by
  cases reply <;> rfl

/-- A request that the network serves is served by the servers of its nodes. -/
theorem serves_of_serve {limit : Nat} {host : String} {request : Request} {worlds : Worlds}
    {served : Served} (called : network.serve limit host request worlds = some served) :
    (Nodes.service network.nodes).Serves host (.routed request) worlds
      (served.reply.map .routed) served.worlds := by
  induction limit generalizing host request served with
  | zero => cases called
  | succ limit inductionHypothesis =>
      rw [serve] at called
      cases configured : network.nodes host with
      | none =>
          rw [configured] at called
          cases called
          exact .absent (by simp [Nodes.service, configured])
      | some node =>
          rw [configured] at called
          dsimp only at called
          have handled := network.service_handling configured request
          rw [ServiceCall.handling_routed] at handled
          cases decided : Handlers.handle node.config node.router request with
          | error raised =>
              rw [decided] at called handled
              cases called
              exact .reply handled
          | ok decision =>
              rw [decided] at called handled
              cases decision with
              | reply value =>
                  cases called
                  exact .reply handled
              | execute operation =>
                  cases called
                  exact .execute handled
              | forward gateway forwarded =>
                  obtain ⟨inner, innerCalled, rfl⟩ := Option.map_eq_some_iff.mp called
                  rw [← mapError_map]
                  exact .forward handled (inductionHypothesis innerCalled)

/-- What the handler of a node has decided where its server does this with a request. -/
def DecidedAt (node : Node) (request : Request) :
    Handling String ServiceCall (Except Raised ServiceAnswer) World → Prop
  | .reply answer =>
      (∃ value, Handlers.handle node.config node.router request = .ok (.reply value) ∧
          answer = .ok (.routed value)) ∨
        ∃ raised, Handlers.handle node.config node.router request = .error raised ∧
          answer = .error (request.transported raised)
  | .execute execution =>
      ∃ operation, Handlers.handle node.config node.router request = .ok (.execute operation) ∧
        execution = fun world => ((request.replyOf (operation.run node.domain world)).map .routed,
          finalState (operation.run node.domain world))
  | .forward gateway call =>
      ∃ forwarded,
        Handlers.handle node.config node.router request = .ok (.forward gateway forwarded) ∧
          call = .routed forwarded

/-- A host that handles a request has a node, whose handler decides. -/
theorem decidedAt_of_handling {nodes : Nodes} {host : String} {request : Request}
    {handling : Handling String ServiceCall (Except Raised ServiceAnswer) World}
    (handled : nodes.service.handling host (.routed request) = some handling) :
    ∃ node, nodes host = some node ∧ DecidedAt node request handling := by
  cases configured : nodes host with
  | none => simp [Nodes.service, configured] at handled
  | some node =>
      simp only [Nodes.service, configured, Option.map_some, Option.some.injEq] at handled
      refine ⟨node, rfl, ?_⟩
      rw [← handled, ServiceCall.handling_routed]
      cases decided : Handlers.handle node.config node.router request with
      | error raised => exact Or.inr ⟨raised, decided, rfl⟩
      | ok decision =>
          cases decision with
          | reply value => exact Or.inl ⟨value, decided, rfl⟩
          | execute operation => exact ⟨operation, decided, rfl⟩
          | forward gateway forwarded => exact ⟨forwarded, decided, rfl⟩

/-- A request that the servers serve is served by the network, where it is handed on often
enough. -/
theorem serve_of_serves {host : String} {call : ServiceCall} {worlds after : Worlds}
    {answer : Except Raised ServiceAnswer}
    (serves : (Nodes.service network.nodes).Serves host call worlds answer after) :
    ∀ request, call = .routed request →
      ∃ limit served, network.serve limit host request worlds = some served ∧
        answer = served.reply.map .routed ∧ after = served.worlds := by
  induction serves with
  | @absent host call worlds handled =>
      intro request same
      have absent : network.nodes host = none := by
        simpa [Nodes.service] using handled
      refine ⟨1, ⟨.error (.standard "open"), worlds, []⟩, ?_, rfl, rfl⟩
      simp [serve, absent]
  | @reply host call worlds answer handled =>
      intro request same
      subst same
      obtain ⟨node, configured, decided⟩ := decidedAt_of_handling handled
      cases decided with
      | inl decided =>
          obtain ⟨value, decided, rfl⟩ := decided
          exact ⟨1, ⟨.ok value, worlds, []⟩, by simp [serve, configured, decided], rfl, rfl⟩
      | inr decided =>
          obtain ⟨raised, decided, rfl⟩ := decided
          exact ⟨1, ⟨.error (request.transported raised), worlds, []⟩,
            by simp [serve, configured, decided], rfl, rfl⟩
  | @execute host call worlds execution handled =>
      intro request same
      subst same
      obtain ⟨node, configured, operation, decided, rfl⟩ := decidedAt_of_handling handled
      exact ⟨1, execute host node request operation worlds,
        by simp [serve, configured, decided], rfl, rfl⟩
  | @forward host gateway call next worlds after answer handled _ inductionHypothesis =>
      intro request same
      subst same
      obtain ⟨node, configured, forwarded, decided, rfl⟩ := decidedAt_of_handling handled
      obtain ⟨limit, served, called, rfl, rfl⟩ := inductionHypothesis forwarded rfl
      refine ⟨limit + 1, { served with reply := served.reply.mapError request.transported },
        by simp [serve, configured, decided, called], ?_, rfl⟩
      exact mapError_map request served.reply

end Network

/-! ## Calls that are under way at the same time -/

/-- In whatever order the calls to the nodes make their way, those that have been
decided are the calls that were sent, each once; their replies and the states of the nodes
are those that the calls lead to when they are served one after the other.  The order
is one in which a call that had its reply before another one was sent comes first. -/
theorem calls_served_in_turn (nodes : Nodes) {worlds : Worlds} {between last : ServerSituation}
    {earlier later : List (CallEvent String ServiceCall)}
    (run : Run nodes.service.Step { states := worlds } earlier between)
    (rest : Run nodes.service.Step between later last) :
    nodes.service.ServedInTurn worlds last.log last.states ∧
      (last.log.map Entry.index).Nodup ∧
      (∀ entry ∈ last.log, ∃ call, last.calls[entry.index]? = some call ∧
        call.host = entry.host ∧ call.request = entry.request) ∧
      (∀ (index : Nat) call value, last.calls[index]? = some call → call.stage = .done value →
        ⟨index, call.host, call.request, value⟩ ∈ last.log) ∧
      ∃ others, last.log = between.log ++ others ∧
        ∀ entry ∈ between.log, entry.index < between.calls.length := by
  have serial := Service.serial_of_run (run.append rest)
  obtain ⟨others, grown⟩ := Service.log_of_run rest
  refine ⟨serial.turns, serial.distinct, serial.known, ?_, others, grown.symm, ?_⟩
  · exact fun index call value found done => serial.entry_of_done found done
  · exact fun entry member => (Service.serial_of_run run).index_lt member

/-! ## A call over two nodes -/

def failedJobsCall : ServiceCall :=
  .routed countFailedJobs

/-- The states before any call. -/
def emptyWorlds : Worlds := fun _ => { server := ⟨∅⟩ }

/-- `relay` has handed the call on, and `worker` has not accepted it yet. -/
def handedOn : ServerSituation where
  states := emptyWorlds
  calls := [⟨"relay", failedJobsCall, true, [("relay", failedJobsCall)],
    .sent "worker" failedJobsCall⟩]

theorem run_handedOn :
    Run (Nodes.service pair.nodes).Step { states := emptyWorlds }
      [.send "relay" failedJobsCall true, .accept 0] handedOn :=
  @Service.run_handover _ _ _ _ (Nodes.service pair.nodes) _
    ⟨"relay", failedJobsCall, "worker", failedJobsCall⟩ { states := emptyWorlds } rfl
    ⟨id, fun _ member => absurd member List.not_mem_nil⟩

theorem accept_handedOn :
    ∃ after, (Nodes.service pair.nodes).Step handedOn (.accept 0) after ∧ after.held = ∅ ∧
      ∀ call ∈ after.calls, ∃ value state, call.stage = .executing "worker" value state := by
  refine ⟨_, .execute rfl rfl ?_ rfl, rfl, ?_⟩
  · exact ⟨id, by simp [handedOn, Call.hosts, Stage.server]⟩
  · simp [handedOn, Situation.setCall]

/-! ## Two calls at a time -/

/-- The job `backup` has failed. -/
def failBackup : ServiceCall :=
  .routed (.updateJobState
    { callingNode := { name := "client", domainName := "test_domain" }
      targetNode := { name := "worker", domainName := "test_domain" } }
    { name := "backup", nodeName := "worker", domain := "test_domain", cmdLine := "rsync",
      weight := 1, state := .failed })

/-- Every node has the waiting job `backup`. -/
def backupWorlds : Worlds := fun _ =>
  { server := Server.setSchema ⟨∅⟩ "test_domain" { emptySkeleton with
      tables := {
        node := [⟨"worker", 1⟩]
        job := [⟨"backup", "rsync", "worker", 1, none, none, some .waiting, none⟩] } } }

/-- While `relay` waits for `worker`, another caller reports to `worker`. -/
def interleaved : List (CallEvent String ServiceCall) :=
  [.send "relay" failedJobsCall true, .accept 0, .send "worker" failBackup true, .accept 1,
    .finish 1, .answer 1, .accept 0, .finish 0, .answer 0, .answer 0]

/-- The call that was sent first is decided last, and counts what the other one has reported. -/
theorem run_interleaved :
    ∃ last, Run (Nodes.service pair.nodes).Step { states := backupWorlds } interleaved last ∧
      last.log.map Entry.index = [1, 0] ∧
      last.log.map Entry.value = [.ok (.routed (.flag true)), .ok (.routed (.number 1))] ∧
      ∀ call ∈ last.calls, ∃ value, call.stage = .done value := by
  refine ⟨_, .next (.send _ _ _) (.next (.forward rfl rfl ?_ rfl) (.next (.send _ _ _)
    (.next (.execute rfl rfl ?_ rfl) (.next (.finish rfl rfl) (.next (.answer rfl rfl ?_)
      (.next (.execute rfl rfl ?_ rfl) (.next (.finish rfl rfl) (.next (.answer rfl rfl ?_)
        (.next (.answer rfl rfl ?_) (.stay _)))))))))), ?_, ?_, ?_⟩
  · exact ⟨id, by simp [Call.hosts, Stage.server]⟩
  · exact ⟨id, by simp [Call.hosts, Stage.server, Situation.setCall]⟩
  · decide +kernel
  · exact ⟨id, by simp [Call.hosts, Stage.server, Situation.setCall, Call.receive]⟩
  · decide +kernel
  · decide +kernel
  · rfl
  · decide +kernel
  · simp [Situation.setCall, Call.receive]

/-- Both calls have their replies, which are those of the second one served before the first. -/
theorem calls_served_in_turn_interleaved :
    ∃ last : ServerSituation, last.log.map Entry.index = [1, 0] ∧
      last.log.map Entry.value = [.ok (.routed (.flag true)), .ok (.routed (.number 1))] ∧
      (∀ call ∈ last.calls, ∃ value, call.stage = .done value) ∧
      (Nodes.service pair.nodes).ServedInTurn backupWorlds last.log last.states := by
  obtain ⟨last, run, indices, values, done⟩ := run_interleaved
  exact ⟨last, indices, values, done, (calls_served_in_turn pair.nodes run (.stay last)).1⟩

end OpenWorkloadScheduler
