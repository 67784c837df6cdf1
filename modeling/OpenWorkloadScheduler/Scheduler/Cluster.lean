import OpenWorkloadScheduler.Scheduler.Client
import OpenWorkloadScheduler.Scheduler.Lifecycle
import OpenWorkloadScheduler.Service.Operations

/-!
# The whole system

A node runs the program of the master or that of a client.  Each process has its loop,
the threads of its jobs and the thread of its server; all of them work on the database of
the node, and every call of a method of `Domain` is one step.  The steps of all the
processes and of their callers come in any order.  A client goes on only while its vector
holds one job at most.
-/

namespace OpenWorkloadScheduler

open Rpc Store Foundations

/-! ## Processes -/

inductive Program where
  | master
  | client
  deriving DecidableEq, Repr

/-- A process without its database. -/
structure Process where
  point : LoopPoint := .top
  jobs : List TJob := []
  threads : List JobThread := []
  executions : List TJob := []

def Process.on (process : Process) (world : World) : Master where
  world := world
  point := process.point
  jobs := process.jobs
  threads := process.threads
  executions := process.executions

def Master.process (master : Master) : Process where
  point := master.point
  jobs := master.jobs
  threads := master.threads
  executions := master.executions

namespace Client

variable (domain : Domain) (settings : Settings)

/-- The poll of the loop, which only the mode `ACTIVE` has.  No exception is caught. -/
def poll (client : Master) : Option Master :=
  match settings.runningMode, client.point with
  | .active, .top =>
      match Domain.getReadyJobs domain (some settings.nodeName) client.world with
      | .ok (jobs, none) world =>
          some { client with
            world, jobs := client.jobs ++ jobs, point := .polled client.world.clock }
      | .ok (jobs, some _) world =>
          some { client with world, jobs := client.jobs ++ jobs, point := .exited }
      | .error _ world => some { client with world, point := .exited }
  | _, _ => none

/-- A thread for every job of the vector, which is not cleared.  The threads are given the
address of a variable of the loop, and with two jobs in the vector it is open which of them a
thread finds there: then there is no step here. -/
def launch (client : Master) : Option Master :=
  match client.point with
  | .polled _ =>
      if client.jobs.length ≤ 1 then
        some { client with
          point := .top
          threads := client.threads ++ client.jobs.map fun job => ⟨job, .created⟩ }
      else none
  | _ => none

/-- The threads of a client are those of the master. -/
def perform (client : Master) (event : Master.Event) : Option Master :=
  match event with
  | .poll => if client.point = .exited then none else poll domain settings client
  | .switch => none
  | .launch => launch client
  | event => client.perform domain settings event

end Client

def Program.perform (program : Program) (domain : Domain) (settings : Settings)
    (process : Master) (event : Master.Event) : Option Master :=
  match program with
  | .master => process.perform domain settings event
  | .client => Client.perform domain settings process event

/-- The process itself makes the step. -/
def Master.Event.isOwn : Master.Event → Bool
  | .outside _ => false
  | _ => true

/-! ## The system -/

structure Deployment where
  nodes : Nodes
  program : String → Program

structure Cluster where
  situation : ServerSituation
  processes : String → Process

inductive ClusterEvent where
  | own (host : String) (event : Master.Event)
  | call (event : CallEvent String ServiceCall)
  | execute (index : Nat)
  | lost (index : Nat)

namespace Cluster

/-- The process of a host, with its database. -/
def on (cluster : Cluster) (host : String) : Master :=
  (cluster.processes host).on (cluster.situation.states host)

/-- The process of a host has come to another state. -/
def put (cluster : Cluster) (host : String) (process : Master) : Cluster where
  situation := { cluster.situation with
    states := Function.update cluster.situation.states host process.world }
  processes := Function.update cluster.processes host process.process

/-- No operation has begun. -/
def Idle (situation : ServerSituation) : Prop :=
  ∀ call ∈ situation.calls, ∀ host value state, call.stage ≠ .executing host value state

/-- A step of a process, of a call, or of a server that executes an operation, which a
process that has exited does not do any more.  Whoever waits for such a process gets an
exception of the transport. -/
inductive Step (deployment : Deployment) (before : Cluster) : ClusterEvent → Cluster → Prop where
  | own {host nodeName : String} {node : Node} {event : Master.Event} {after : Master}
      (configured : deployment.nodes host = some node)
      (named : node.config.getParam "node_name" = some nodeName)
      (isOwn : event.isOwn = true)
      (performed : (deployment.program host).perform node.domain
        ⟨node.config.runningMode, nodeName⟩ (before.on host) event = some after) :
      Step deployment before (.own host event) (before.put host after)
  | call {event : CallEvent String ServiceCall} {after : ServerSituation}
      (stepped : deployment.nodes.service.Step before.situation event after)
      (begins : ∀ index, event ≠ .finish index) (idle : Idle after) :
      Step deployment before (.call event) { before with situation := after }
  | execute {index : Nat} {between after : ServerSituation} {call : ServerCall} {host : String}
      {value : Except Raised ServiceAnswer} {state : World}
      (accepted : deployment.nodes.service.Step before.situation (.accept index) between)
      (begun : between.calls[index]? = some call)
      (executing : call.stage = .executing host value state)
      (alive : (before.processes host).point ≠ .exited)
      (finished : deployment.nodes.service.Step between (.finish index) after) :
      Step deployment before (.execute index) { before with situation := after }
  | lost {index : Nat} {call : ServerCall} {host what : String} {request : ServiceCall}
      (found : before.situation.calls[index]? = some call)
      (waits : call.stage = .sent host request)
      (exited : (before.processes host).point = .exited) :
      Step deployment before (.lost index) { before with
        situation := before.situation.setCall index
          (call.receive deployment.nodes.service (.error (.standard what))) }

/-- The start of all processes. -/
def start (worlds : Worlds) : Cluster where
  situation := { states := worlds }
  processes _ := {}

section Places

variable {cluster : Cluster} {host other : String}

@[simp]
theorem on_put_self (process : Master) : (cluster.put host process).on host = process := by
  simp [on, put, Process.on, Master.process]

@[simp]
theorem on_put_ne {process : Master} (different : other ≠ host) :
    (cluster.put host process).on other = cluster.on other := by
  simp [on, put, Function.update_of_ne different]

/-- Where the database of a host is as before, so is its process. -/
theorem on_of_states {situation : ServerSituation}
    (same : situation.states host = cluster.situation.states host) :
    ({ cluster with situation } : Cluster).on host = cluster.on host := by
  rw [on, on, same]

end Places

/-! ## What one step does to one process -/

/-- What a step does to the process of a host. -/
inductive Happens (deployment : Deployment) (host : String) (before : Master) :
    Master → Prop where
  | nothing : Happens deployment host before before
  | own {nodeName : String} {node : Node} {event : Master.Event} {after : Master}
      (configured : deployment.nodes host = some node)
      (named : node.config.getParam "node_name" = some nodeName)
      (isOwn : event.isOwn = true)
      (performed : (deployment.program host).perform node.domain
        ⟨node.config.runningMode, nodeName⟩ before event = some after) :
      Happens deployment host before after
  | served {call : ServiceCall} {execution : World → Except Raised ServiceAnswer × World}
      (executes : Executes deployment.nodes host call execution)
      (alive : before.point ≠ .exited) :
      Happens deployment host before { before with world := (execution before.world).2 }

section Steps

variable {deployment : Deployment} {before after : Cluster} {event : ClusterEvent}

/-- A call that does not end an operation leaves the databases as they are. -/
theorem states_of_call {before after : ServerSituation} {event : CallEvent String ServiceCall}
    (stepped : deployment.nodes.service.Step before event after)
    (begins : ∀ index, event ≠ .finish index) : after.states = before.states := by
  cases stepped with
  | finish _ _ => exact absurd rfl (begins _)
  | _ => rfl

/-- What the server executes, and what the database is then. -/
theorem executed_of_steps {before between after : ServerSituation} {index : Nat}
    {call : ServerCall} {host : String} {value : Except Raised ServiceAnswer} {state : World}
    (accepted : deployment.nodes.service.Step before (.accept index) between)
    (begun : between.calls[index]? = some call)
    (executing : call.stage = .executing host value state)
    (finished : deployment.nodes.service.Step between (.finish index) after) :
    ∃ request execution waiting, before.calls[index]? = some waiting ∧
      waiting.stage = .sent host request ∧
      deployment.nodes.service.handling host request = some (.execute execution) ∧
      value = (execution (before.states host)).1 ∧
        after.states =
          Function.update before.states host (execution (before.states host)).2 := by
  have moved : ∀ {waiting new : ServerCall}, before.calls[index]? = some waiting →
      (before.calls.set index new)[index]? = some new := by
    intro waiting new found
    exact List.getElem?_set_self (List.getElem?_eq_some_iff.mp found).1
  cases accepted with
  | reply found sent free handled =>
      rw [Situation.setCall, moved found] at begun
      cases begun
      cases executing
  | forward found sent free handled =>
      rw [Situation.setCall, moved found] at begun
      cases begun
      cases executing
  | @execute _ waiting host request execution found sent free handled =>
      rw [Situation.setCall, moved found] at begun
      cases begun
      cases executing
      cases finished with
      | finish again ran =>
          rw [Situation.setCall, moved found] at again
          cases again
          cases ran
          exact ⟨request, execution, waiting, found, sent, handled, rfl, rfl⟩

theorem happens_of_step (stepped : Step deployment before event after) (host : String) :
    Happens deployment host (before.on host) (after.on host) := by
  cases stepped with
  | @own place nodeName node ownEvent process configured named isOwn performed =>
      by_cases same : host = place
      · subst same
        rw [on_put_self]
        exact .own configured named isOwn performed
      · rw [on_put_ne same]
        exact .nothing
  | call stepped begins idle =>
      rw [on_of_states (congrFun (states_of_call stepped begins) host)]
      exact .nothing
  | @execute index between situation call place value state accepted begun executing alive
      finished =>
      obtain ⟨request, execution, _, _, _, handled, _, states⟩ :=
        executed_of_steps accepted begun executing finished
      by_cases same : host = place
      · subst same
        have left : ({ before with situation } : Cluster).on host =
            { before.on host with world := (execution (before.on host).world).2 } := by
          simp [on, states, Process.on]
        rw [left]
        exact .served (executes_of_handling handled) alive
      · have kept : situation.states host = before.situation.states host := by
          rw [states, Function.update_of_ne same]
        rw [on_of_states kept]
        exact .nothing
  | lost found waits exited => exact .nothing

end Steps

/-! ## Runs of one process -/

/-- A step that leaves the jobs of a host to its process: no poll of its loop comes between
the start of a thread and its write of `RUNNING`, and its server does not remove jobs or set
their states. -/
def LeavesJobs (deployment : Deployment) (host : String) (before : Cluster) :
    ClusterEvent → Prop
  | .own place event => place = host → ∀ node, deployment.nodes host = some node →
      Master.Timely node.domain (before.on host) event
  | .execute index => ∀ call request node operation,
      before.situation.calls[index]? = some call → call.stage = .sent host (.routed request) →
        deployment.nodes host = some node →
          Handlers.handle node.config node.router request = .ok (.execute operation) →
            operation.onlyAdds = true
  | _ => True

/-- The process and the server of a host send plain texts, and what they add fits the
columns. -/
def PlainAt (deployment : Deployment) (host : String) (before : Cluster) : ClusterEvent → Prop
  | .own place _ => place = host → ∀ node nodeName, deployment.nodes host = some node →
      node.config.getParam "node_name" = some nodeName →
        Master.PlainTexts ⟨node.config.runningMode, nodeName⟩ (before.on host)
  | .execute index => ∀ call request node operation,
      before.situation.calls[index]? = some call → call.stage = .sent host (.routed request) →
        deployment.nodes host = some node →
          Handlers.handle node.config node.router request = .ok (.execute operation) →
            operation.PlainIn (before.situation.states host).server
  | _ => True

/-- A step in which the server of the host reads all texts as they are meant. -/
def PlainStep (deployment : Deployment) (host : String) :
    Cluster → ClusterEvent → Cluster → Prop :=
  Guarded (Step deployment) (PlainAt deployment host)

theorem run_of_plainSteps {deployment : Deployment} {host : String} {before after : Cluster}
    {events : List ClusterEvent} (run : Run (PlainStep deployment host) before events after) :
    Run (Step deployment) before events after :=
  run.mono fun _ _ _ stepped => stepped.1

theorem run_of_plainGuarded {deployment : Deployment} {host : String} {before after : Cluster}
    {condition : Cluster → ClusterEvent → Prop} {events : List ClusterEvent}
    (run : Run (Guarded (PlainStep deployment host) condition) before events after) :
    Run (Guarded (Step deployment) condition) before events after :=
  run.mono fun _ _ _ stepped => ⟨stepped.1.1, stepped.2⟩

/-- What a process does alone, it does in the system. -/
theorem exists_run_of_process {deployment : Deployment} {host nodeName : String} {node : Node}
    {process last : Master} {events : List Master.Event}
    (configured : deployment.nodes host = some node)
    (named : node.config.getParam "node_name" = some nodeName)
    (master : deployment.program host = .master) (own : ∀ event ∈ events, event.isOwn = true)
    (run : Run (Guarded (Master.PlainStep node.domain ⟨node.config.runningMode, nodeName⟩)
      (Master.Timely node.domain)) process events last) :
    ∀ before : Cluster, before.on host = process →
      ∃ after, Run (Guarded (PlainStep deployment host) (LeavesJobs deployment host)) before
          (events.map (.own host)) after ∧ after.on host = last ∧
        after.situation.calls = before.situation.calls ∧
          after.situation.held = before.situation.held := by
  induction run with
  | stay process => exact fun before same => ⟨before, .stay before, same, rfl, rfl⟩
  | @next process between last event events stepped _ inductionHypothesis =>
      intro before same
      have performed : (deployment.program host).perform node.domain
          ⟨node.config.runningMode, nodeName⟩ (before.on host) event = some between := by
        rw [master, same]
        exact Master.step_of_plainStep stepped.1
      have plain : PlainAt deployment host before (.own host event) := by
        intro _ other otherName otherConfigured otherNamed
        rw [configured] at otherConfigured
        cases otherConfigured
        rw [named] at otherNamed
        cases otherNamed
        rw [same]
        exact (Master.plainStep_iff.mp stepped.1).1
      have leaves : LeavesJobs deployment host before (.own host event) := by
        intro _ other otherConfigured
        rw [configured] at otherConfigured
        cases otherConfigured
        rw [same]
        exact stepped.2
      have first : Step deployment before (.own host event) (before.put host between) :=
        .own configured named (own event List.mem_cons_self) performed
      obtain ⟨after, rest, sameLast, calls, held⟩ :=
        inductionHypothesis (fun other member => own other (List.mem_cons_of_mem event member))
          (before.put host between) (on_put_self between)
      exact ⟨after, .next ⟨⟨first, plain⟩, leaves⟩ rest, sameLast, calls, held⟩

/-! ## A master with one job -/

def localNode : Node where
  config := activeConfig "localhost"
  domain := Domain.dailyDomain
  router := {}

def localMaster : Deployment where
  nodes host := if host = "localhost" then some localNode else none
  program _ := .master

theorem configured_localMaster : localMaster.nodes "localhost" = some localNode := rfl

theorem keys_oneJobWorld : Master.oneJobWorld.server.Keys := by
  intro planning
  by_cases same : planning = Domain.planningName Domain.dailyDomain 0
  · rw [same, Master.oneJobWorld, Server.tables_setSchema_self]
    constructor <;> decide
  · rw [Master.oneJobWorld, Server.tables_setSchema_ne same]
    exact Server.keys_empty planning

/-- Ask the master for the number of its failed jobs. -/
def countHere : Request :=
  .monitorFailedJobs
    { callingNode := { name := "client", domainName := "test_domain" }
      targetNode := { name := "localhost", domainName := "test_domain" } }

/-- A server that is free can execute a call. -/
theorem exists_step_of_execute {deployment : Deployment} {host : String} {node : Node}
    {request : Request} {operation : Operation} {before : Cluster} {index : Nat}
    {call : ServerCall} (configured : deployment.nodes host = some node)
    (found : before.situation.calls[index]? = some call)
    (sent : call.stage = .sent host (.routed request)) (free : before.situation.Free host)
    (alive : (before.processes host).point ≠ .exited)
    (decided : Handlers.handle node.config node.router request = .ok (.execute operation)) :
    ∃ situation, Step deployment before (.execute index) { before with situation } ∧
      situation.states = Function.update before.situation.states host
        (finalState (operation.run node.domain (before.situation.states host))) ∧
      situation.calls = before.situation.calls.set index { call with
        stage := .answered host
          ((request.replyOf (operation.run node.domain (before.situation.states host))).map
            .routed) } ∧
      situation.held = before.situation.held := by
  have handled : deployment.nodes.service.handling host (.routed request) =
      some (.execute fun world =>
        ((request.replyOf (operation.run node.domain world)).map .routed,
          finalState (operation.run node.domain world))) := by
    simp [Nodes.service, configured, ServiceCall.handling_routed, decided]
  have bound := (List.getElem?_eq_some_iff.mp found).1
  have accepted := Service.Step.execute found sent free handled
  have begun := @List.getElem?_set_self _ before.situation.calls index
    { call with
      stage := .executing host
        ((request.replyOf (operation.run node.domain (before.situation.states host))).map .routed)
        (finalState (operation.run node.domain (before.situation.states host))) } bound
  refine ⟨_, .execute accepted begun rfl alive (.finish begun rfl), rfl, ?_, rfl⟩
  exact List.set_set _

/-- The calls, and one more that somebody has sent. -/
def asking (cluster : Cluster) (host : String) (request : Request) : ServerSituation :=
  { cluster.situation with calls := cluster.situation.calls ++
      [⟨host, .routed request, true, [], .sent host (.routed request)⟩] }

/-- The operation that a server executes is the one that its handler decides on. -/
theorem operation_of_sent {deployment : Deployment} {situation : ServerSituation} {index : Nat}
    {host : String} {call : ServerCall} {request : Request} {node : Node} {operation : Operation}
    (found : situation.calls[index]? = some call) (sent : call.stage = .sent host (.routed request))
    (configured : deployment.nodes host = some node)
    (decided : Handlers.handle node.config node.router request = .ok (.execute operation))
    {other : ServerCall} {asked : Request} {place : Node} {decision : Operation}
    (otherFound : situation.calls[index]? = some other)
    (otherSent : other.stage = .sent host (.routed asked))
    (otherConfigured : deployment.nodes host = some place)
    (otherDecided : Handlers.handle place.config place.router asked = .ok (.execute decision)) :
    decision = operation := by
  cases found.symm.trans otherFound
  cases sent.symm.trans otherSent
  cases configured.symm.trans otherConfigured
  cases decided.symm.trans otherDecided
  rfl

/-- Somebody asks a host for an operation, while nobody else does. -/
theorem exists_run_of_request {deployment : Deployment} {host : String} {node : Node}
    {request : Request} {operation : Operation} {before : Cluster}
    (configured : deployment.nodes host = some node) (alone : before.situation.calls = [])
    (unheld : before.situation.held = ∅)
    (alive : (before.processes host).point ≠ .exited)
    (decided : Handlers.handle node.config node.router request = .ok (.execute operation))
    (plain : operation.PlainIn (before.situation.states host).server)
    (adds : operation.onlyAdds = true) :
    ∃ after, Run (Guarded (PlainStep deployment host) (LeavesJobs deployment host)) before
        [.call (.send host (.routed request) true), .execute 0] after ∧
      (after.situation.states host).server =
        (finalState (operation.run node.domain (before.situation.states host))).server := by
  have found : (before.asking host request).calls[0]? =
      some ⟨host, .routed request, true, [], .sent host (.routed request)⟩ := by
    simp [asking, alone]
  have free : (before.asking host request).Free host := by
    simp [Situation.Free, asking, alone, unheld, Call.hosts, Stage.server]
  have sent : Step deployment before (.call (.send host (.routed request) true))
      { before with situation := before.asking host request } :=
    .call (.send host (ServiceCall.routed request) true) (by simp) (by simp [Idle, asking, alone])
  obtain ⟨situation, executed, states, _⟩ := @exists_step_of_execute _ _ _ _ _
    { before with situation := before.asking host request } _ _ configured found rfl free alive
      decided
  refine ⟨{ before with situation }, .next ⟨⟨sent, trivial⟩, trivial⟩
    (.next ⟨⟨executed, ?_⟩, ?_⟩ (.stay _)), ?_⟩
  · intro call other otherNode otherOperation otherFound otherSent otherConfigured otherDecided
    rw [operation_of_sent found rfl configured decided otherFound otherSent otherConfigured
      otherDecided]
    exact plain
  · intro call other otherNode otherOperation otherFound otherSent otherConfigured otherDecided
    rw [operation_of_sent found rfl configured decided otherFound otherSent otherConfigured
      otherDecided]
    exact adds
  · simp [states, asking]

/-- An operation without texts of its own, on tables with plain texts. -/
theorem plainIn_of_plainTexts {settings : Settings} {master : Master} {operation : Operation}
    (plain : Master.PlainTexts settings master) (unnamed : operation.names = [])
    (without : operation.commands = []) (fits : operation.Fits) :
    operation.PlainIn master.world.server := by
  constructor
  · intro schemaName member
    rw [unnamed]
    apply (plain.names schemaName (List.mem_append_left _ member)).mono
    exact fun name there => List.mem_cons_of_mem _ (List.mem_append_right _ there)
  · simp [without]
  · exact fits

/-- The job is executed, and then somebody asks for the number of the failed jobs. -/
theorem run_localMaster :
    ∃ earlier later between last,
      Run (Guarded (PlainStep localMaster "localhost") (LeavesJobs localMaster "localhost"))
        (start fun _ => Master.oneJobWorld) earlier between ∧
      Run (Guarded (PlainStep localMaster "localhost") (LeavesJobs localMaster "localhost"))
        between later last ∧
      Master.archiveDone ∈ ((last.situation.states "localhost").server.tables
        (Domain.planningName Domain.dailyDomain 0)).job := by
  obtain ⟨done, completes, top, plain, member⟩ := Master.completes_oneJob
  obtain ⟨between, first, sameFirst, calls, held⟩ := exists_run_of_process
    configured_localMaster rfl rfl (by decide) Master.polls_oneJob
      (start fun _ => Master.oneJobWorld) rfl
  obtain ⟨after, second, sameSecond, laterCalls, laterHeld⟩ := exists_run_of_process
    configured_localMaster rfl rfl (by decide) completes between sameFirst
  have decided : Handlers.handle localNode.config localNode.router countHere =
      .ok (.execute (.monitorFailedJobs "test_domain")) := rfl
  have alive : (after.on "localhost").point ≠ .exited := by
    rw [sameSecond, top]
    decide
  have reached : after.situation.states "localhost" = done.world :=
    congrArg Master.world sameSecond
  have asked : (Operation.monitorFailedJobs "test_domain").PlainIn
      (after.situation.states "localhost").server := by
    rw [reached]
    exact plainIn_of_plainTexts plain rfl rfl trivial
  obtain ⟨last, third, same⟩ := exists_run_of_request configured_localMaster
    (laterCalls.trans calls) (laterHeld.trans held) alive decided asked rfl
  refine ⟨_, _, between, last, first, second.append third, ?_⟩
  have unchanged := Operation.keepsOutside_run localNode.domain
    (.monitorFailedJobs "test_domain") (after.situation.states "localhost")
      (Domain.planningName Domain.dailyDomain 0) List.not_mem_nil
  rw [same, Server.tables, unchanged, reached]
  exact member

end Cluster

end OpenWorkloadScheduler
