import OpenWorkloadScheduler.Scheduler.Integrity

/-!
# The master beside its callers

What the system does to the process of a master is a run of that process, in which the
requests that its server executes come from outside.  Jobs and nodes can be added at any
time, from any node of the network: the jobs that are there keep to their course.
-/

namespace OpenWorkloadScheduler

open Rpc Store Foundations Domain

namespace Cluster

variable {deployment : Deployment} {host nodeName : String} {node : Node}

/-! ## What the server adds -/

theorem leavesStates_of_onlyAdds {before after : World} (keys : before.server.Keys)
    (adds : Domain.OnlyAdds before after) :
    Master.LeavesStates before.server after.server where
  key planning := (adds planning).key (keys planning).jobName
  kept planning row member := ⟨row, (adds planning).mem member, rfl, rfl⟩

theorem leavesStates_of_readOnly {before after : World} (keys : before.server.Keys)
    (readOnly : ReadOnly before after) : Master.LeavesStates before.server after.server := by
  apply leavesStates_of_onlyAdds keys
  rw [Domain.OnlyAdds, readOnly.server]
  exact refl _

/-- What a server executes leaves the attributes of its process alone. -/
theorem keepsTimes_of_executes {call : ServiceCall}
    {execution : World → Except Raised ServiceAnswer × World}
    (executes : Executes deployment.nodes host call execution) (world : World) :
    KeepsTimes world (execution world).2 := by
  cases executes with
  | @operation node request operation _ configured decided left =>
      rw [left]
      exact operation.keepsTimes_run node.domain world
  | selection configured reads => exact keepsTimes_of_frame (reads world).frame

/-- What a server has executed came to its process from outside. -/
theorem step_outside {settings : Settings} {process : Master} {world : World}
    (alive : process.point ≠ .exited) (kept : KeepsTimes process.world world) :
    Master.Step node.domain settings process (.outside world) { process with world } := by
  unfold Master.Step Master.perform
  rw [if_neg alive]
  have same : { world with planningStartTime := process.world.planningStartTime } = world := by
    rw [← kept.planningStartTime]
  simp only [same]

/-! ## The run of the process -/

theorem exists_run_of_step {before after : Cluster} {event : ClusterEvent}
    (configured : deployment.nodes host = some node)
    (named : node.config.getParam "node_name" = some nodeName)
    (master : deployment.program host = .master)
    (keys : (before.on host).world.server.Keys)
    (stepped : Guarded (Step deployment) (LeavesJobs deployment host) before event after) :
    ∃ own, Run (Guarded
      (Master.Step node.domain ⟨node.config.runningMode, nodeName⟩) (Master.Timely node.domain))
        (before.on host) own (after.on host) := by
  obtain ⟨stepped, leaves⟩ := stepped
  cases stepped with
  | @own place placeName other ownEvent process otherConfigured otherNamed isOwn performed =>
      by_cases same : host = place
      · subst same
        rw [configured] at otherConfigured
        cases otherConfigured
        rw [named] at otherNamed
        cases otherNamed
        rw [on_put_self]
        rw [master] at performed
        exact ⟨[ownEvent], .next ⟨performed, leaves rfl node configured⟩ (.stay _)⟩
      · rw [on_put_ne same]
        exact ⟨[], .stay _⟩
  | call stepped begins idle =>
      rw [on_of_states (congrFun (states_of_call stepped begins) host)]
      exact ⟨[], .stay _⟩
  | @execute index between situation call place value state accepted begun executing alive
      finished =>
      obtain ⟨request, execution, waiting, found, sent, handled, _, states⟩ :=
        executed_of_steps accepted begun executing finished
      by_cases same : host = place
      · subst same
        have left : ({ before with situation } : Cluster).on host =
            { before.on host with world := (execution (before.on host).world).2 } := by
          simp [on, states, Process.on]
        have executes := executes_of_handling handled
        rw [left]
        have outside := @step_outside node ⟨node.config.runningMode, nodeName⟩ (before.on host) _
          alive (keepsTimes_of_executes executes (before.on host).world)
        refine ⟨[.outside _], .next ⟨outside, ?_⟩ (.stay _)⟩
        cases executes with
        | @operation other routed operation _ otherConfigured decided leftBy =>
            have adds := leaves waiting routed other operation found sent otherConfigured decided
            change Master.LeavesStates _ _
            rw [leftBy]
            exact leavesStates_of_onlyAdds keys (operation.onlyAdds_run other.domain adds _)
        | selection _ reads => exact leavesStates_of_readOnly keys (reads _)
      · have kept : situation.states host = before.situation.states host := by
          rw [states, Function.update_of_ne same]
        rw [on_of_states kept]
        exact ⟨[], .stay _⟩
  | lost found waits exited => exact ⟨[], .stay _⟩

theorem exists_run_of_run {before after : Cluster} {events : List ClusterEvent}
    (configured : deployment.nodes host = some node)
    (named : node.config.getParam "node_name" = some nodeName)
    (master : deployment.program host = .master)
    (keys : (before.on host).world.server.Keys)
    (run : Run (Guarded (Step deployment) (LeavesJobs deployment host)) before events after) :
    ∃ own, Run (Guarded
      (Master.Step node.domain ⟨node.config.runningMode, nodeName⟩) (Master.Timely node.domain))
        (before.on host) own (after.on host) := by
  induction run with
  | stay cluster => exact ⟨[], .stay _⟩
  | next stepped _ inductionHypothesis =>
      have kept := keepsKeys_of_happens (happens_of_step stepped.1 host)
      obtain ⟨first, begun⟩ := exists_run_of_step configured named master keys stepped
      obtain ⟨rest, ended⟩ := inductionHypothesis (keys.keep kept)
      exact ⟨first ++ rest, begun.append ended⟩

/-- Whoever adds jobs and nodes to the database of a master, reads it or counts its jobs, at
any time and from any node: as long as all texts that the node gets are plain, no poll of the
master comes between the start of a thread and its write of `RUNNING`, and nobody removes jobs
of this node or sets their states by a request, no job disappears or goes back in its state,
and no command is executed twice. -/
theorem states_advance_beside_callers {worlds : Worlds} {between last : Cluster}
    {earlier later : List ClusterEvent}
    (configured : deployment.nodes host = some node)
    (named : node.config.getParam "node_name" = some nodeName)
    (master : deployment.program host = .master) (keys : (worlds host).server.Keys)
    (plainRun : Run (Guarded (PlainStep deployment host) (LeavesJobs deployment host))
      (start worlds) earlier between)
    (plainRest : Run (Guarded (PlainStep deployment host) (LeavesJobs deployment host))
      between later last) :
    (between.situation.states host).server.MovesOn (last.situation.states host).server ∧
      ∀ planning name, (last.on host).executionsOf planning name ≤ 1 := by
  have run := run_of_plainGuarded plainRun
  have rest := run_of_plainGuarded plainRest
  have initial : ((start worlds).on host).world.server.Keys := keys
  obtain ⟨first, begun⟩ := exists_run_of_run configured named master initial run
  have later := initial.keep (keepsKeys_of_run (run.mono fun _ _ _ stepped => stepped.1) host)
  obtain ⟨second, ended⟩ := exists_run_of_run configured named master later rest
  have orderly := Master.orderly_of_run
    (Master.orderly_initial fun planning => (keys planning).jobName) begun
  apply And.intro (Master.movesOn_of_run orderly ended)
  intro planning name
  have once := (Master.orderly_of_run orderly ended).single.once planning name
  rw [Master.attempts] at once
  omega

theorem states_advance_beside_callers_localMaster :
    ∃ between last : Cluster,
      (between.situation.states "localhost").server.MovesOn
        (last.situation.states "localhost").server ∧
      Master.archiveDone ∈
        ((last.situation.states "localhost").server.tables (planningName dailyDomain 0)).job := by
  obtain ⟨earlier, later, between, last, run, rest, done⟩ := run_localMaster
  exact ⟨between, last, (states_advance_beside_callers configured_localMaster rfl rfl
    (fun planning => keys_oneJobWorld planning) run rest).1, done⟩

end Cluster

end OpenWorkloadScheduler
