import OpenWorkloadScheduler.Scheduler.Integrity

/-!
# Where a change comes from

The rows of a schema change for one of four reasons: the master prepares this planning,
a thread reports the state of one of its jobs, before or after its command, or the
server of the node executes a request that names the schema.
-/

namespace OpenWorkloadScheduler

open Rpc Store Foundations Domain

/-! ## One step of a process -/

namespace Master

variable {domain : Domain} {settings : Settings} {before after : Master} {event : Event}
  {planning : String}

/-- What changes the rows of a schema in one step of a process. -/
inductive Changes (domain : Domain) (planning : String) (before : Master) : Event → Prop where
  | switch (next : planning =
        planningName domain (nextPlanningStartTime domain before.world.clock))
      (new : ¬ before.world.server.Present planning) : Changes domain planning before .switch
  | start {index : Nat} {job : TJob}
      (found : before.threads[index]? = some ⟨job, .created⟩) (named : job.domain = planning) :
      Changes domain planning before (.start index)
  | finish {index : Nat} {job : TJob} {startTime stopTime : Int} {returnCode : Integer}
      (found : before.threads[index]? = some ⟨job, .executed startTime stopTime returnCode⟩)
      (named : job.domain = planning) : Changes domain planning before (.finish index)

theorem tables_of_switch (stepped : Step domain settings before .switch after)
    (other : planning ≠ planningName domain (nextPlanningStartTime domain before.world.clock)) :
    after.world.server.tables planning = before.world.server.tables planning := by
  cases world_of_switch stepped with
  | inl same => rw [same]
  | inr left =>
      obtain ⟨_, switched⟩ := finalState_switchPlanning domain before.world
      rw [left, switched]
      exact (keepsBeside_preparePlanning domain _ before.world).tables other

theorem changes_of_step (stepped : Step domain settings before event after)
    (isOwn : event.isOwn = true)
    (changed : after.world.server.tables planning ≠ before.world.server.tables planning) :
    Changes domain planning before event := by
  have moves := moves_of_step stepped
  have unchanged : ∀ {world : World}, world.server = before.world.server →
      world.server.tables planning = before.world.server.tables planning := by
    intro world same
    rw [same]
  cases moves with
  | polled top readOnly busy pushed => exact absurd (unchanged readOnly.server) changed
  | switched busy extend clock start =>
      apply Changes.switch
      · by_contra other
        exact changed (tables_of_switch stepped other)
      · exact fun present => changed (extend.same planning present)
  | started found times updates =>
      apply Changes.start found
      by_contra other
      exact changed (updates.beside.tables (Ne.symm other))
  | reported found times updates =>
      apply Changes.finish found
      by_contra other
      exact changed (updates.beside.tables (Ne.symm other))
  | refused found times same | aborted found times same | unreported found times same =>
      exact absurd (unchanged same) changed
  | launched sublist => exact absurd rfl changed
  | opened found | notOpened found | closed found => exact absurd rfl changed
  | ticked seconds => exact absurd rfl changed
  | interfered world => cases isOwn

end Master

/-! ## One step of the system -/

namespace Cluster

variable {deployment : Deployment} {host planning : String}

/-- What changes the rows of a schema of a host in one step of the system. -/
inductive Causes (deployment : Deployment) (host planning : String) (before : Cluster) :
    ClusterEvent → Prop where
  | own {node : Node} {event : Master.Event} (configured : deployment.nodes host = some node)
      (changes : Master.Changes node.domain planning (before.on host) event)
      (master : event = .switch → deployment.program host = .master) :
      Causes deployment host planning before (.own host event)
  | request {index : Nat} {node : Node} {call : ServerCall} {request : Request}
      {operation : Operation} (configured : deployment.nodes host = some node)
      (found : before.situation.calls[index]? = some call)
      (sent : call.stage = .sent host (.routed request))
      (decided : Handlers.handle node.config node.router request = .ok (.execute operation))
      (addressed : node.config.getParam "node_name" = some request.target ∨
        node.config.getParam "node_name" = some node.config.masterNode)
      (writes : planning ∈ operation.schemas node.domain) :
      Causes deployment host planning before (.execute index)

theorem causes_of_step {before after : Cluster} {event : ClusterEvent}
    (stepped : Step deployment before event after)
    (changed : (after.on host).world.server.tables planning ≠
      (before.on host).world.server.tables planning) :
    Causes deployment host planning before event := by
  cases stepped with
  | @own place nodeName node ownEvent process configured named isOwn performed =>
      by_cases same : host = place
      · subst same
        rw [on_put_self] at changed
        cases Program.perform_cases performed with
        | inl unchanged =>
            rw [Server.tables, unchanged] at changed
            exact absurd rfl changed
        | inr stepped =>
            exact .own configured (Master.changes_of_step stepped.1 isOwn changed) stepped.2
      · rw [on_put_ne same] at changed
        exact absurd rfl changed
  | call stepped begins idle =>
      rw [on_of_states (congrFun (states_of_call stepped begins) host)] at changed
      exact absurd rfl changed
  | @execute index between situation call place value state accepted begun executing alive
      finished =>
      obtain ⟨request, execution, waiting, found, sent, handled, _, states⟩ :=
        executed_of_steps accepted begun executing finished
      by_cases same : host = place
      · subst same
        have left : (({ before with situation } : Cluster).on host).world =
            (execution (before.on host).world).2 := by
          simp [on, states, Process.on]
        rw [left] at changed
        cases executes_of_handling handled with
        | @operation node routed operation _ configured decided leaves =>
            apply Causes.request configured found sent decided (addressed_of_execute decided)
            by_contra outside
            rw [leaves] at changed
            apply changed
            rw [Server.tables, operation.keepsOutside_run node.domain _ planning outside]
            rfl
        | selection configured reads =>
            rw [(reads _).server] at changed
            exact absurd rfl changed
      · have kept : situation.states host = before.situation.states host := by
          rw [states, Function.update_of_ne same]
        rw [on_of_states kept] at changed
        exact absurd rfl changed
  | lost found waits exited => exact absurd rfl changed

/-- In every run of the whole system, rows of a schema of a node that have changed have been
changed by a step of one of these kinds: the node's own master has prepared this planning,
which had not been there; a thread of the node has reported on a job of the
schema; or the node has executed a request for an operation on the schema that
was addressed to it. -/
theorem change_has_cause {before last : Cluster} {events : List ClusterEvent}
    (run : Run (Step deployment) before events last)
    (changed : (last.situation.states host).server.tables planning ≠
      (before.situation.states host).server.tables planning) :
    ∃ earlier event later between, events = earlier ++ event :: later ∧
      Run (Step deployment) before earlier between ∧
        Causes deployment host planning between event := by
  let differs (cluster : Cluster) : Prop :=
    (cluster.situation.states host).server.tables planning ≠
      (before.situation.states host).server.tables planning
  have initial : ¬ differs before := not_not.mpr rfl
  have final : differs last := changed
  obtain ⟨earlier, event, later, between, next, split, first, same, stepped, different, _⟩ :=
    run.origin initial final
  refine ⟨earlier, event, later, between, split, first, causes_of_step stepped ?_⟩
  intro unchanged
  exact different (Eq.trans unchanged (not_not.mp same))

theorem change_has_cause_localMaster :
    ∃ between event,
      Causes localMaster "localhost" (planningName dailyDomain 0) between event := by
  obtain ⟨earlier, later, _, last, run, rest, done⟩ := run_localMaster
  have whole := run_of_plainSteps ((run.append rest).mono fun _ _ _ stepped => stepped.1)
  have changed : (last.situation.states "localhost").server.tables (planningName dailyDomain 0) ≠
      Master.oneJobWorld.server.tables (planningName dailyDomain 0) := by
    intro same
    rw [same, Master.oneJobWorld, Server.tables_setSchema_self] at done
    revert done
    decide
  obtain ⟨_, event, _, between, _, _, causes⟩ := change_has_cause whole changed
  exact ⟨between, event, causes⟩

end Cluster

end OpenWorkloadScheduler
