import OpenWorkloadScheduler.Service.Forwarding
import OpenWorkloadScheduler.Service.PlanningHandlers

/-!
# Calls without a gateway

A node that has to forward a call asks its router for the gateway of the target,
which gives NULL for a target without a route.  The handlers of `hello`, `add_job`
and `update_job` test for it, and all the others go on to read the gateway.
-/

namespace OpenWorkloadScheduler

open Rpc Store Foundations

namespace ServiceCall

variable (config : Config) (router : Router) (domain : Domain)

/-- In the mode ACTIVE the node has to forward the call to the target: it is neither the
target nor the master, as far as the handler asks for that. -/
def ForwardsTo (target : String) : ServiceCall → Prop
  | hello targetNode =>
      target = targetNode.name ∧
        ∃ nodeName, config.getParam "node_name" = some nodeName ∧ targetNode.name ≠ nodeName
  | reachMaster => False
  | planning _ =>
      target = config.masterNode ∧
        ∃ isMaster, config.getParam "is_master" = some isMaster ∧ isMaster ≠ "yes"
  | routed request =>
      target = request.target ∧ request.Accepted ∧
        ∃ nodeName, config.getParam "node_name" = some nodeName ∧ nodeName ≠ request.target ∧
          match request with
          | .addJob _ _ => config.masterNode ≠ nodeName
          | _ => True

/-- The handler tests the gateway for NULL. -/
def testsGateway : ServiceCall → Bool
  | hello _ | routed (.addJob _ _) | routed (.updateJob _ _) => true
  | _ => false

/-- What the handler does on a NULL gateway. -/
def withoutGateway : ServiceCall → Raised
  | hello targetNode => .exRouting ("Cannot reach target node " ++ targetNode.name)
  | routed request => request.noGateway
  | _ => Handlers.nullGateway

/-- The call raises `ex_routing`, and neither has it changed anything nor been forwarded. -/
def RaisesRouting (call : ServiceCall) (world : World) : Prop :=
  ∃ message, call.run config router domain world = .error (.exRouting message) world

section Unknown

variable {config router} {target : String}

theorem atTarget_of_unknown {nodeName : String} {noGateway : Raised} {request : Request}
    {operation : Operation} (named : config.getParam "node_name" = some nodeName)
    (other : nodeName ≠ target) (unknown : router.getGateway target = .ok none) :
    Handlers.atTarget config router target noGateway request operation = .error noGateway := by
  rw [Handlers.atTarget, Config.param_of_getParam named, except_ok_bind, if_pos other,
    Handlers.forward, unknown]
  rfl

theorem active_of_unknown {nodeName : String} {request : Request}
    (named : config.getParam "node_name" = some nodeName) (other : nodeName ≠ request.target)
    (unknown : router.getGateway request.target = .ok none)
    (master : ∀ routing job, request = .addJob routing job → config.masterNode ≠ nodeName) :
    request.active config router = .error request.noGateway := by
  cases request with
  | addJob routing job =>
      have noMaster := master routing job rfl
      change nodeName ≠ job.nodeName at other
      change router.getGateway job.nodeName = .ok none at unknown
      rw [Request.active, Config.param_of_getParam named, except_ok_bind,
        if_pos ⟨other, noMaster⟩, Handlers.forward, unknown]
      rfl
  | _ => exact atTarget_of_unknown named other unknown

theorem handlePlanning_of_unknown {isMaster : String} {request : PlanningRequest}
    (active : config.runningMode = .active)
    (configured : config.getParam "is_master" = some isMaster) (slave : isMaster ≠ "yes")
    (unknown : router.getGateway config.masterNode = .ok none) :
    Handlers.handlePlanning config router request = .error Handlers.nullGateway := by
  obtain ⟨initial, operation, handled⟩ := Handlers.handlePlanning_eq request
  rw [handled, Handlers.planningByMode, active]
  dsimp only
  rw [Handlers.atMaster, Config.param_of_getParam configured, except_ok_bind, if_pos slave,
    unknown]
  rfl

/-- The end of every call that has to be forwarded without a gateway. -/
theorem run_of_unknown {call : ServiceCall} (active : config.runningMode = .active)
    (forwards : call.ForwardsTo config target) (unknown : router.getGateway target = .ok none)
    (world : World) :
    call.run config router domain world = .error call.withoutGateway world := by
  cases call with
  | hello targetNode =>
      obtain ⟨rfl, nodeName, named, other⟩ := forwards
      have answered : OpenWorkloadScheduler.hello config router targetNode =
          .error (.exRouting ("Cannot reach target node " ++ targetNode.name)) := by
        rw [OpenWorkloadScheduler.hello, Config.param_of_getParam named, except_ok_bind,
          if_neg other, unknown]
        rfl
      rw [run, answered]
      rfl
  | reachMaster => exact forwards.elim
  | planning request =>
      obtain ⟨rfl, isMaster, configured, slave⟩ := forwards
      rw [run, handlePlanning_of_unknown active configured slave unknown]
      rfl
  | routed request =>
      obtain ⟨rfl, accepted, nodeName, named, other, master⟩ := forwards
      have decided := active_of_unknown named other unknown (by
        rintro routing job rfl
        exact master)
      rw [run, Handlers.handle_of_accepted config router accepted, Handlers.byMode, active]
      dsimp only
      rw [decided]
      rfl

end Unknown

/-- A call that has to be forwarded to a target without a gateway raises `ex_routing`
and does nothing else if and only if it is one of the three that test for NULL. -/
theorem raisesRouting_iff (config : Config) (router : Router) (domain : Domain)
    (call : ServiceCall) (target : String) (world : World)
    (active : config.runningMode = .active) (forwards : call.ForwardsTo config target)
    (unknown : router.getGateway target = .ok none) :
    call.RaisesRouting config router domain world ↔ call.testsGateway = true := by
  rw [RaisesRouting, run_of_unknown domain active forwards unknown]
  cases call with
  | hello targetNode => simp [withoutGateway, testsGateway]
  | reachMaster => exact forwards.elim
  | planning request => simp [withoutGateway, testsGateway, Handlers.nullGateway]
  | routed request =>
      cases request with
      | addJob routing job | updateJob routing job =>
          simp [withoutGateway, testsGateway, Request.noGateway, Handlers.unknownGateway]
      | _ => simp [withoutGateway, testsGateway, Request.noGateway, Handlers.nullGateway]

/-- `hello` for a node that the router does not know. -/
theorem hello_raisesRouting :
    (hello { name := "worker" }).RaisesRouting (activeConfig "relay") {}
      (pairNode "relay").domain { server := ⟨∅⟩ } :=
  (raisesRouting_iff (activeConfig "relay") {} (pairNode "relay").domain
    (hello { name := "worker" }) "worker" { server := ⟨∅⟩ } rfl
    ⟨rfl, "relay", rfl, by decide⟩ rfl).mpr rfl

/-- A request for the failed jobs of a node without a route reads the NULL gateway. -/
theorem monitorFailedJobs_reads_null :
    ¬ ∀ (config : Config) (router : Router) (domain : Domain) (call : ServiceCall)
      (target : String) (world : World), config.runningMode = .active →
        call.ForwardsTo config target → router.getGateway target = .ok none →
          call.RaisesRouting config router domain world := by
  intro always
  have accepted : countFailedJobs.Accepted :=
    (rfl : Handlers.checkCallingNode "test_domain"
      { name := "client", domainName := "test_domain" } = .ok ())
  obtain ⟨message, raised⟩ := always (activeConfig "relay") {} (pairNode "relay").domain
    (routed countFailedJobs) "worker" { server := ⟨∅⟩ } rfl
    ⟨rfl, accepted, "relay", rfl, by decide, trivial⟩ rfl
  cases raised

end ServiceCall

end OpenWorkloadScheduler
