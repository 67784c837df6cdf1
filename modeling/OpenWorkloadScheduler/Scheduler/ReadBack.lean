import OpenWorkloadScheduler.Scheduler.Integrity
import OpenWorkloadScheduler.Service.JobRecords

/-!
# A job that is sent and asked for

A job is sent to any node of the network, and later somebody asks another node for it.
In between the loops and the threads of all nodes go on, jobs are executed, and other
requests come and go.  Both requests are executed at the node of the job, and what the
second one returns is what the first one has brought.
-/

namespace OpenWorkloadScheduler

open Rpc Store Foundations Domain

/-! ## One step of a process -/

namespace Master

variable {domain : Domain} {settings : Settings} {before after : Master} {event : Event}
  {planning name : String}

theorem keepsRecord_of_updates {job : TJob} {update : JobRow → JobRow} {before after : World}
    (updates : Updates job update before after)
    (kept : ∀ row, (update row).basis = row.basis) (set : ∀ row, (update row).jobState ≠ none) :
    Domain.KeepsRecord planning name before after := by
  obtain ⟨⟨schema, tables, old, changed, new⟩, beside⟩ := updates
  cases changed
  by_cases same : planning = job.domain
  · rw [Domain.KeepsRecord, Server.KeepsRecord, same, Server.tables_of_schema? old,
      Server.tables_of_schema? new]
    exact Tables.keepsRecord_updateJob kept set
  · exact Server.keepsRecord_of_tables (beside.tables same)

/-- The process writes no more than states and times into a schema that is there. -/
theorem keepsRecord_of_step (stepped : Step domain settings before event after)
    (isOwn : event.isOwn = true) (present : before.world.server.Present planning) :
    Domain.KeepsRecord planning name before.world after.world := by
  apply related_of_step _ _ _ stepped isOwn
  · exact fun _ => Domain.keepsRecord_of_same
  · exact Server.keepsRecord_of_tables
      ((extends_switchPlanning domain before.world).same planning present)
  · exact keepsRecord_of_updates

end Master

namespace Cluster

variable {deployment : Deployment} {before after : Cluster} {event : ClusterEvent}

/-! ## The calls of the system -/

/-- Every call has come to where it is by being handed on. -/
theorem routes_of_step (routes : deployment.nodes.service.Routes before.situation)
    (stepped : Step deployment before event after) :
    deployment.nodes.service.Routes after.situation := by
  cases stepped with
  | own configured named isOwn performed => exact routes
  | call stepped begins idle => exact Service.routes_of_step routes stepped
  | execute accepted begun executing alive finished =>
      exact Service.routes_of_step (Service.routes_of_step routes accepted) finished
  | lost found waits exited =>
      exact Service.routes_of_set routes fun _ _ sent => absurd sent Service.not_sent_receive

theorem hasReply_of_step {index : Nat} {answer : ServiceAnswer}
    (stepped : Step deployment before event after)
    (has : before.situation.HasReply index (.ok answer)) :
    after.situation.HasReply index (.ok answer) := by
  have transparent := transparent_ok deployment.nodes answer
  cases stepped with
  | own configured named isOwn performed => exact has
  | call stepped begins idle => exact Service.hasReply_of_step transparent stepped has
  | execute accepted begun executing alive finished =>
      exact Service.hasReply_of_step transparent finished
        (Service.hasReply_of_step transparent accepted has)
  | @lost other call host what request found waits exited =>
      have different : other ≠ index := by
        intro same
        subst same
        rw [hasReply_of_found found, waits] at has
        cases has
      exact (hasReply_set_ne different).mpr has

theorem routes_of_run {events : List ClusterEvent}
    (routes : deployment.nodes.service.Routes before.situation)
    (run : Run (Step deployment) before events after) :
    deployment.nodes.service.Routes after.situation := by
  induction run with
  | stay cluster => exact routes
  | next stepped _ inductionHypothesis =>
      exact inductionHypothesis (routes_of_step routes stepped)

/-- A call keeps its request. -/
theorem request_of_step {index : Nat} {call : ServerCall}
    (stepped : Step deployment before event after)
    (found : before.situation.calls[index]? = some call) :
    ∃ later, after.situation.calls[index]? = some later ∧ later.request = call.request := by
  cases stepped with
  | own configured named isOwn performed => exact ⟨call, found, rfl⟩
  | call stepped begins idle =>
      obtain ⟨later, laterFound, _, same, _⟩ := Service.kept_of_step stepped found
      exact ⟨later, laterFound, same⟩
  | execute accepted begun executing alive finished =>
      obtain ⟨later, laterFound, _, same, _⟩ := Service.kept_of_step accepted found
      obtain ⟨last, lastFound, _, sameLast, _⟩ := Service.kept_of_step finished laterFound
      exact ⟨last, lastFound, sameLast.trans same⟩
  | @lost other waiting host what request otherFound waits exited =>
      have bound := (List.getElem?_eq_some_iff.mp found).1
      by_cases same : other = index
      · subst same
        rw [found] at otherFound
        cases otherFound
        exact ⟨_, List.getElem?_set_self bound, (Service.same_receive _).2⟩
      · exact ⟨call, (List.getElem?_set_ne same).trans found, rfl⟩

theorem request_of_run {index : Nat} {call : ServerCall} {events : List ClusterEvent}
    (run : Run (Step deployment) before events after)
    (found : before.situation.calls[index]? = some call) :
    ∃ later, after.situation.calls[index]? = some later ∧ later.request = call.request := by
  induction run generalizing call with
  | stay cluster => exact ⟨call, found, rfl⟩
  | next stepped _ inductionHypothesis =>
      obtain ⟨next, nextFound, same⟩ := request_of_step stepped found
      obtain ⟨last, lastFound, sameLast⟩ := inductionHypothesis nextFound
      exact ⟨last, lastFound, sameLast.trans same⟩

end Cluster

/-! ## Where a reply comes from -/

/-- The nodes of the network run their programs. -/
def Network.deployment (network : Network) (program : String → Program) : Deployment where
  nodes := network.nodes
  program := program

namespace Cluster

section Networks

variable {network : Network} {program : String → Program} {before after : Cluster}
  {event : ClusterEvent}

/-- A reply that there had not been comes from the target of the request, which executes
its operation. -/
theorem executed_of_reply {index : Nat} {request : Request} {reply : Reply}
    (routes : (Nodes.service network.nodes).Routes before.situation)
    (stepped : Step (network.deployment program) before event after)
    (asked : ∀ call, before.situation.calls[index]? = some call → call.request = .routed request)
    (without : ¬ before.situation.HasReply index (.ok (.routed reply)))
    (has : after.situation.HasReply index (.ok (.routed reply))) :
    event = .execute index ∧ ∃ node world, network.nodes request.target = some node ∧
      request.operation.run node.domain (before.situation.states request.target) =
        .ok reply world ∧
      after.situation.states = Function.update before.situation.states request.target world := by
  have transparent := transparent_ok network.nodes (.routed reply)
  -- whatever decides the call, it decides this very request
  have way : ∀ {other : ServerCall} {host : String} {handedOn : ServiceCall},
      before.situation.calls[index]? = some other → other.stage = .sent host handedOn →
        handedOn = .routed request := by
    intro other host handedOn otherFound sent
    have path := routes index other host handedOn otherFound sent
    rw [asked other otherFound] at path
    exact network.request_of_path path
  have notAccepted : ¬ (Nodes.service network.nodes).Decides before.situation index
      (.ok (.routed reply)) (.accept index) := by
    intro decides
    cases decides with
    | reply otherFound sent handled =>
        rw [way otherFound sent] at handled
        exact network.not_reply handled
  cases stepped with
  | own configured named isOwn performed => exact absurd has without
  | call stepped begins idle =>
      have decides := Service.decides_of_step transparent stepped has without
      cases decides with
      | refuse otherFound sent absent same => cases same
      | reply otherFound sent handled =>
          exact absurd (.reply otherFound sent handled) notAccepted
      | finish otherFound begun => exact absurd rfl (begins index)
  | @execute other between situation executed host value state accepted begun executing alive
      finished =>
      have waiting : ¬ between.HasReply index (.ok (.routed reply)) := by
        intro early
        have decides := Service.decides_of_step transparent accepted early without
        cases decides with
        | reply otherFound sent handled =>
            exact notAccepted (.reply otherFound sent handled)
      have decides := Service.decides_of_step transparent finished has waiting
      cases decides with
      | finish again executingAgain =>
          rw [begun] at again
          cases again
          rw [executing] at executingAgain
          cases executingAgain
          obtain ⟨handedOn, execution, sender, senderFound, sent, handled, returned, states⟩ :=
            executed_of_steps accepted begun executing finished
          rw [way senderFound sent] at handled
          obtain ⟨same, node, configured, executes⟩ := network.executes_at_target handled
          subst same executes
          dsimp only at returned states
          cases ran : request.operation.run node.domain
              (before.situation.states request.target) with
          | ok value world =>
              rw [ran] at returned states
              cases returned
              exact ⟨rfl, node, world, configured, ran, states⟩
          | error raised world =>
              rw [ran] at returned
              cases returned
  | @lost other waiting host what handedOn otherFound waits exited =>
      by_cases same : other = index
      · subst same
        have received := (hasReply_set_self otherFound).mp has
        cases (Service.reply_receive_iff transparent).mp received
      · exact absurd ((hasReply_set_ne same).mp has) without

/-- Along a run, a request that comes to a reply has been executed at its target. -/
theorem execution_of_run {condition : Cluster → ClusterEvent → Prop} {index : Nat}
    {call : ServerCall} {request : Request} {reply : Reply} {events : List ClusterEvent}
    {host : String} (routes : (Nodes.service network.nodes).Routes before.situation)
    (run : Run (Guarded (Step (network.deployment program)) condition) before events after)
    (later : before.situation.calls.length ≤ index)
    (found : after.situation.calls[index]? = some call)
    (asked : call.request = .routed request) (target : request.target = host)
    (replied : call.stage = .done (.ok (.routed reply))) :
    ∃ earlier rest first second node,
      Run (Guarded (Step (network.deployment program)) condition) before earlier first ∧
      Run (Guarded (Step (network.deployment program)) condition) second rest after ∧
      second.situation.HasReply index (.ok (.routed reply)) ∧
      network.nodes host = some node ∧
      request.operation.run node.domain (first.on host).world =
        .ok reply (second.on host).world := by
  subst target
  let replies (cluster : Cluster) : Prop :=
    cluster.situation.HasReply index (.ok (.routed reply))
  have final : replies after := by
    apply (hasReply_of_found found).mpr
    rw [replied]
    rfl
  have initial : ¬ replies before := not_hasReply_of_length_le later
  obtain ⟨earlier, event, rest, first, second, _, run, without, stepped, has, finish⟩ :=
    run.origin initial final
  have unguarded := run.mono fun _ _ _ stepped => stepped.1
  have kept : ∀ call, first.situation.calls[index]? = some call →
      call.request = .routed request := by
    intro earlierCall earlierFound
    have whole := Run.next stepped.1 (finish.mono fun _ _ _ stepped => stepped.1)
    obtain ⟨last, lastFound, same⟩ := request_of_run whole earlierFound
    rw [found] at lastFound
    cases lastFound
    rw [← same, asked]
  obtain ⟨_, node, world, configured, ran, states⟩ := executed_of_reply
    (routes_of_run routes unguarded) stepped.1 kept without has
  refine ⟨earlier, rest, first, second, node, run, finish, has, configured, ran.trans ?_⟩
  simp [on, Process.on, states]

end Networks

/-! ## The job in between -/

/-- A step of which the job of a name in a schema of a host does not notice more than its
state: no request but the one of the given number is executed that removes the job, or that
adds a job of this name or one that comes after it. -/
def SparesJob (deployment : Deployment) (host planning name : String) (added : Nat)
    (before : Cluster) : ClusterEvent → Prop
  | .execute index => index ≠ added → ∀ call request node operation,
      before.situation.calls[index]? = some call → call.stage = .sent host (.routed request) →
        deployment.nodes host = some node →
          Handlers.handle node.config node.router request = .ok (.execute operation) →
            operation.Spares node.domain planning name
  | _ => True

section Records

variable {deployment : Deployment} {before after : Cluster} {host planning name : String}
  {added : Nat} {answer : ServiceAnswer}

/-- The host has a row of the job. -/
def HasRecord (cluster : Cluster) (host planning name : String) : Prop :=
  (((cluster.on host).world.server.tables planning).jobRecord name).rows ≠ []

theorem present_of_hasRecord {cluster : Cluster} (recorded : cluster.HasRecord host planning name) :
    (cluster.on host).world.server.Present planning := by
  by_contra absent
  apply recorded
  rw [Server.Present, Option.not_isSome_iff_eq_none] at absent
  rw [Server.tables, absent]
  rfl

theorem keepsRecord_of_step {event : ClusterEvent}
    (stepped : Guarded (Step deployment) (SparesJob deployment host planning name added) before
      event after)
    (has : before.situation.HasReply added (.ok answer))
    (recorded : before.HasRecord host planning name) :
    Domain.KeepsRecord planning name (before.on host).world (after.on host).world := by
  obtain ⟨stepped, spares⟩ := stepped
  cases stepped with
  | @own place nodeName node ownEvent process configured named isOwn performed =>
      by_cases same : host = place
      · subst same
        rw [on_put_self]
        cases Program.perform_cases performed with
        | inl unchanged => exact Domain.keepsRecord_of_same unchanged
        | inr stepped =>
            exact Master.keepsRecord_of_step stepped.1 isOwn (present_of_hasRecord recorded)
      · rw [on_put_ne same]
        exact refl _
  | call stepped begins idle =>
      rw [on_of_states (congrFun (states_of_call stepped begins) host)]
      exact refl _
  | @execute index between situation call place value state accepted begun executing alive
      finished =>
      obtain ⟨request, execution, waiting, found, sent, handled, _, states⟩ :=
        executed_of_steps accepted begun executing finished
      have different : index ≠ added := by
        intro same
        rw [same] at found
        rw [hasReply_of_found found, sent] at has
        cases has
      by_cases same : host = place
      · subst same
        have left : (({ before with situation } : Cluster).on host).world =
            (execution (before.on host).world).2 := by
          simp [on, states, Process.on]
        rw [left]
        cases executes_of_handling handled with
        | @operation node routed operation _ configured decided leaves =>
            rw [leaves]
            exact operation.keepsRecord_run node.domain
              (spares different waiting routed node operation found sent configured decided) _
        | selection configured reads => exact Domain.keepsRecord_of_same (reads _).server
      · have kept : situation.states host = before.situation.states host := by
          rw [states, Function.update_of_ne same]
        rw [on_of_states kept]
        exact refl _
  | lost found waits exited => exact refl _

theorem keepsRecord_of_run {events : List ClusterEvent}
    (run : Run (Guarded (Step deployment) (SparesJob deployment host planning name added))
      before events after)
    (has : before.situation.HasReply added (.ok answer))
    (recorded : before.HasRecord host planning name) :
    Domain.KeepsRecord planning name (before.on host).world (after.on host).world := by
  induction run with
  | stay cluster => exact refl _
  | next stepped _ inductionHypothesis =>
      have first := keepsRecord_of_step stepped has recorded
      apply IsTrans.trans _ _ _ first
      apply inductionHypothesis (hasReply_of_step stepped.1 has)
      rw [HasRecord, first.same]
      exact recorded

end Records

/-! ## The job comes back -/

/-- A job of `worker` that is not run before five o'clock. -/
def outpostJob : TJob :=
  { archiveJob 18000 with nodeName := "worker", nxt := [] }

def outpostTables : Tables where
  node := [⟨"worker", 10⟩]

def toWorker : TRoutingData where
  callingNode := { name := "client", domainName := "test_domain" }
  targetNode := { name := "worker", domainName := "test_domain" }

theorem insertable_outpostJob : Insertable outpostTables outpostJob := by
  have links : linksOfJob outpostJob = [] := rfl
  refine ⟨by decide, by decide, ?_, ?_, ?_, List.pairwise_singleton _ _, ?_⟩
  · simp [links]
  · simp [links]
  · simp [links]
  · exact fun _ _ _ other => absurd other List.not_mem_nil

theorem addJob_outpostJob :
    addJob dailyDomain "test_domain" outpostJob (stagedWorld outpostTables) =
      .ok true (stagedWorld (withJob outpostTables outpostJob)) := by
  refine addJob_stagedWorld rfl rfl (fun constraint member => ?_) insertable_outpostJob
  cases List.mem_singleton.mp member
  decide

theorem getJob_outpostJob :
    getJob dailyDomain "test_domain" (some "worker") outpostJob.name
        (stagedWorld (withJob outpostTables outpostJob)) =
      .ok (decodedNamedJob dailyDomain (withJob outpostTables outpostJob) (rowOfJob outpostJob))
        (stagedWorld (withJob outpostTables outpostJob)) := by
  have located : ∀ nodeName ∈ some "worker", nodeName = outpostJob.nodeName := by
    intro nodeName member
    cases member
    rfl
  have found : (stagedWorld outpostTables).server.schema? "test_domain" =
      some { oneNode with tables := outpostTables } := Server.schema?_setSchema_self _ _ _
  exact getJob_of_addJob dailyDomain found (complete_staged outpostTables) (by decide) located
    addJob_outpostJob

theorem plainIn_addJob :
    (Operation.addJob "test_domain" outpostJob).PlainIn (stagedWorld outpostTables).server where
  names := by decide +kernel
  commands := by decide
  fits := by
    unfold Operation.Fits
    decide

theorem plainIn_getJob :
    (Operation.getJob "test_domain" "worker" outpostJob.name).PlainIn
      (stagedWorld (withJob outpostTables outpostJob)).server where
  names := by decide +kernel
  commands := by decide
  fits := trivial

/-- A reply goes back by one server. -/
theorem exists_step_of_answer {deployment : Deployment} {before : Cluster} {index : Nat}
    {call : ServerCall} {host : String} {value : Except Raised ServiceAnswer}
    (found : before.situation.calls[index]? = some call)
    (decided : call.stage = .answered host value) (sends : isSent value = true)
    (idle : Idle before.situation) :
    ∃ situation, Step deployment before (.call (.answer index)) { before with situation } ∧
      situation.states = before.situation.states ∧
      situation.calls =
        before.situation.calls.set index (call.receive deployment.nodes.service value) ∧
      Idle situation ∧ (call.closesAfter deployment.nodes.service value = true →
        situation.held = before.situation.held) := by
  have still : Idle { before.situation.setCall index
      (call.receive deployment.nodes.service value) with
        held := if call.closesAfter deployment.nodes.service value then before.situation.held
          else insert host before.situation.held } := by
    intro other member place given state
    cases List.mem_or_eq_of_mem_set member with
    | inl old => exact idle other old place given state
    | inr new =>
        rw [new, Call.receive]
        cases call.frames <;> simp
  exact ⟨_, .call (.answer found decided sends) (by simp) still, rfl, rfl, still,
    fun closes => if_pos closes⟩

/-- `relay` and `worker` run clients. -/
def outpost : Deployment :=
  pair.deployment fun _ => .client

def outpostAdd : Request :=
  .addJob toWorker outpostJob

def outpostGet : Request :=
  .getJob toWorker outpostJob

/-- `worker` has the job, and its caller knows. -/
structure OutpostStored (cluster : Cluster) : Prop where
  processes : cluster.processes = fun _ => {}
  states : cluster.situation.states "worker" = stagedWorld (withJob outpostTables outpostJob)
  held : cluster.situation.held = ∅
  calls : cluster.situation.calls = [⟨"worker", .routed outpostAdd, true, [],
    .done (.ok (.routed (.flag true)))⟩]

/-- The job is sent to `worker` itself. -/
theorem run_outpostAdd :
    ∃ between, Run (Guarded (PlainStep outpost "worker")
        (SparesJob outpost "worker" "test_domain" outpostJob.name 0))
      (start fun _ => stagedWorld outpostTables)
      [.call (.send "worker" (.routed outpostAdd) true), .execute 0, .call (.answer 0)] between ∧
        OutpostStored between := by
  let first : Cluster := start fun _ => stagedWorld outpostTables
  have sent : Step outpost first (.call (.send "worker" (.routed outpostAdd) true))
      { first with situation := first.asking "worker" outpostAdd } :=
    .call (.send "worker" (ServiceCall.routed outpostAdd) true) (by simp)
      (by simp [Idle, asking, first, start])
  have decided : Handlers.handle (pairNode "worker").config (pairNode "worker").router outpostAdd =
      .ok (.execute (.addJob "test_domain" outpostJob)) := rfl
  have configured : outpost.nodes "worker" = some (pairNode "worker") := rfl
  have free : (first.asking "worker" outpostAdd).Free "worker" := by
    simp [Situation.Free, asking, first, start, Call.hosts, Stage.server]
  have ran : (Operation.addJob "test_domain" outpostJob).run (pairNode "worker").domain
      (stagedWorld outpostTables) =
        .ok (.flag true) (stagedWorld (withJob outpostTables outpostJob)) :=
    bind_of_ok addJob_outpostJob
  obtain ⟨second, executed, states, calls, held⟩ := @exists_step_of_execute _ _ _ _ _
    { first with situation := first.asking "worker" outpostAdd } 0 _ configured rfl rfl free
      (by simp [first, start]) decided
  have here : (first.asking "worker" outpostAdd).states "worker" = stagedWorld outpostTables := rfl
  rw [here, ran] at calls states
  obtain ⟨third, answered, sameStates, lastCalls, _, sameHeld⟩ := @exists_step_of_answer outpost
    { first with situation := second } 0 _ "worker" _ (by rw [calls]; rfl) rfl rfl
      (by rw [Idle, calls]; simp [asking, first, start])
  have plain : PlainAt outpost "worker"
      { first with situation := first.asking "worker" outpostAdd } (.execute 0) := by
    intro call request node operation callFound sentOn atWorker handled
    rw [operation_of_sent rfl rfl configured decided callFound sentOn atWorker handled]
    exact plainIn_addJob
  refine ⟨{ first with situation := third }, .next ⟨⟨sent, trivial⟩, trivial⟩ (.next
    ⟨⟨executed, plain⟩, fun different => absurd rfl different⟩ (.next
      ⟨⟨answered, trivial⟩, trivial⟩ (.stay _))), ?_⟩
  constructor
  · rfl
  · rw [sameStates, states]
    simp
  · rw [sameHeld rfl, held]
    rfl
  · rw [lastCalls, calls]
    rfl

/-- `relay` is asked for it, and asks `worker`. -/
theorem run_outpostGet {between : Cluster} (stored : OutpostStored between) :
    ∃ last, Run (Guarded (PlainStep outpost "worker")
        (SparesJob outpost "worker" "test_domain" outpostJob.name 0)) between
      [.call (.send "relay" (.routed outpostGet) true), .call (.accept 1), .execute 1,
        .call (.answer 1), .call (.answer 1)] last ∧
      last.situation.calls[1]? = some ⟨"relay", .routed outpostGet, true, [],
        .done (.ok (.routed (.job (decodedNamedJob dailyDomain
          (withJob outpostTables outpostJob) (rowOfJob outpostJob)))))⟩ := by
  obtain ⟨processes, here, unheld, done⟩ := stored
  have sent : Step outpost between (.call (.send "relay" (.routed outpostGet) true))
      { between with situation := between.asking "relay" outpostGet } :=
    .call (.send "relay" (ServiceCall.routed outpostGet) true) (by simp)
      (by simp [Idle, asking, done])
  have found : (between.asking "relay" outpostGet).calls[1]? =
      some ⟨"relay", .routed outpostGet, true, [], .sent "relay" (.routed outpostGet)⟩ := by
    simp [asking, done]
  have freeRelay : (between.asking "relay" outpostGet).Free "relay" := by
    simp [Situation.Free, asking, done, unheld, Call.hosts, Stage.server]
  have handedOn : outpost.nodes.service.handling "relay" (.routed outpostGet) =
      some (.forward "worker" (.routed outpostGet)) := rfl
  let asked : ServerSituation := (between.asking "relay" outpostGet).setCall 1
    ⟨"relay", .routed outpostGet, true, [("relay", .routed outpostGet)],
      .sent "worker" (.routed outpostGet)⟩
  have calls : asked.calls = [⟨"worker", .routed outpostAdd, true, [],
      .done (.ok (.routed (.flag true)))⟩,
      ⟨"relay", .routed outpostGet, true, [("relay", .routed outpostGet)],
        .sent "worker" (.routed outpostGet)⟩] := by
    simp [asked, Situation.setCall, asking, done]
  have accepted : Step outpost { between with situation := between.asking "relay" outpostGet }
      (.call (.accept 1)) { between with situation := asked } :=
    .call (.forward found rfl freeRelay handedOn) (by simp) (by simp [Idle, calls])
  have decided : Handlers.handle (pairNode "worker").config (pairNode "worker").router outpostGet =
      .ok (.execute (.getJob "test_domain" "worker" outpostJob.name)) := rfl
  have configured : outpost.nodes "worker" = some (pairNode "worker") := rfl
  have freeWorker : asked.Free "worker" := by
    constructor
    · change "worker" ∉ between.situation.held
      simp [unheld]
    · rw [calls]
      simp [Call.hosts, Stage.server]
  have ran : (Operation.getJob "test_domain" "worker" outpostJob.name).run
      (pairNode "worker").domain (stagedWorld (withJob outpostTables outpostJob)) =
        .ok (.job (decodedNamedJob dailyDomain (withJob outpostTables outpostJob)
          (rowOfJob outpostJob))) (stagedWorld (withJob outpostTables outpostJob)) :=
    bind_of_ok getJob_outpostJob
  have askedFound : asked.calls[1]? = some ⟨"relay", .routed outpostGet, true,
      [("relay", .routed outpostGet)], .sent "worker" (.routed outpostGet)⟩ := by
    rw [calls]
    rfl
  obtain ⟨second, executed, _, secondCalls, _⟩ := @exists_step_of_execute _ _ _ _ _
    { between with situation := asked } 1 _ configured askedFound rfl freeWorker
      (by simp [processes]) decided
  have there : asked.states "worker" = stagedWorld (withJob outpostTables outpostJob) := here
  rw [there, ran, calls] at secondCalls
  obtain ⟨third, passed, _, thirdCalls, idle, _⟩ := @exists_step_of_answer outpost
    { between with situation := second } 1 _ "worker" _ (by rw [secondCalls]; rfl) rfl rfl
      (by rw [Idle, secondCalls]; simp)
  obtain ⟨fourth, answered, _, lastCalls, _⟩ := @exists_step_of_answer outpost
    { between with situation := third } 1 _ "relay" _
      (by rw [thirdCalls, secondCalls]; rfl) rfl rfl idle
  have reading : ∀ call request node operation, asked.calls[1]? = some call →
      call.stage = .sent "worker" (.routed request) → outpost.nodes "worker" = some node →
        Handlers.handle node.config node.router request = .ok (.execute operation) →
          operation = .getJob "test_domain" "worker" outpostJob.name :=
    fun _ _ _ _ => operation_of_sent askedFound rfl configured decided
  refine ⟨{ between with situation := fourth }, .next ⟨⟨sent, trivial⟩, trivial⟩ (.next
    ⟨⟨accepted, trivial⟩, trivial⟩ (.next ⟨⟨executed, ?_⟩, ?_⟩ (.next
      ⟨⟨passed, trivial⟩, trivial⟩ (.next ⟨⟨answered, trivial⟩, trivial⟩ (.stay _))))), ?_⟩
  · intro call request node operation callFound sentOn atWorker handled
    rw [reading call request node operation callFound sentOn atWorker handled]
    change Operation.PlainIn (asked.states "worker").server _
    rw [there]
    exact plainIn_getJob
  · intro _ call request node operation callFound sentOn atWorker handled
    rw [reading call request node operation callFound sentOn atWorker handled]
    exact trivial
  · rw [lastCalls, thirdCalls, secondCalls]
    rfl

end Cluster

end OpenWorkloadScheduler
