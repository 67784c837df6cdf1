import OpenWorkloadScheduler.Domain.JobRecords
import OpenWorkloadScheduler.Foundations.NestedReplies
import OpenWorkloadScheduler.Service.Operations
import OpenWorkloadScheduler.Service.ServerWaits

/-!
# Requests beside a job

Which requests leave a job of a schema as it has been added, and where a request of a
network of nodes in the mode ACTIVE is executed.
-/

namespace OpenWorkloadScheduler

open Rpc Store Foundations

/-! ## Operations that spare a job -/

/-- The job has another name, and does not come after the one of that name. -/
def Domain.Apart (name : String) (job : TJob) : Prop :=
  job.name ≠ name ∧ name ∉ job.prv

theorem Domain.jobStatements_spare {name : String} {job : TJob} (apart : Apart name job) :
    ∀ statement ∈ jobStatements job ++ constraintStatements job,
      statement.spares name = true := by
  intro statement member
  have different : ∀ prv ∈ job.prv, prv ≠ name := by
    intro prv prvMember same
    rw [same] at prvMember
    exact apart.2 prvMember
  cases List.mem_append.mp member with
  | inl member =>
      rw [jobStatements, List.mem_append, List.mem_cons, List.mem_map, List.mem_map] at member
      cases member with
      | inl member =>
          cases member with
          | inl same => simp [same, Statement.spares, apart.1]
          | inr member =>
              obtain ⟨prv, prvMember, same⟩ := member
              simp [← same, Statement.spares, different prv prvMember]
      | inr member =>
          obtain ⟨nxt, _, same⟩ := member
          simp [← same, Statement.spares, apart.1]
  | inr member =>
      obtain ⟨constraint, _, same⟩ := List.mem_map.mp member
      simp [← same, Statement.spares, apart.1]

namespace Operation

/-- The operation neither removes the job from the schema nor links a new job to it from
behind. -/
def Spares (domain : Domain) (planning name : String) : Operation → Prop
  | addNode domainName node => domainName = planning → ∀ job ∈ node.jobs, Domain.Apart name job
  | addJob domainName job => domainName = planning → Domain.Apart name job
  | removeNode _ _ => domain.name ≠ planning
  | removeJob job => job.domain = planning → job.name ≠ name
  | _ => True

theorem keepsRecord_run (domain : Domain) {planning name : String} {operation : Operation}
    (spares : operation.Spares domain planning name) :
    Within (Domain.KeepsRecord planning name) (operation.run domain) := by
  have general := within_run domain (Domain.respects_keepsRecord planning name) operation
  cases operation with
  | addNode domainName node =>
      apply general
      intro database statement sent
      obtain ⟨named, sent⟩ := sent
      cases sent with
      | inl same =>
          rw [same]
          exact ⟨rfl, domainName, named, fun _ => rfl⟩
      | inr sent =>
          cases sent with
          | inl sent =>
              obtain ⟨resource, _, same⟩ := sent
              rw [same]
              exact ⟨rfl, domainName, named, fun _ => rfl⟩
          | inr sent =>
              obtain ⟨job, jobMember, member⟩ := sent
              exact ⟨Domain.jobStatements_onRows job statement member, domainName, named,
                fun here => Domain.jobStatements_spare (spares here job jobMember) statement
                  member⟩
  | addWeightedNode domainName nodeName weight =>
      apply general
      intro database statement sent
      rw [sent.2]
      exact ⟨rfl, domainName, sent.1, fun _ => rfl⟩
  | removeNode domainName nodeName =>
      apply general
      intro database statement sent
      cases sent with
      | inl sent =>
          obtain ⟨named, jobName, member⟩ := sent
          exact ⟨Domain.deletions_onRows jobName statement member, domain.name, named,
            fun here => absurd here spares⟩
      | inr sent =>
          rw [sent.2]
          exact ⟨rfl, domainName, sent.1, fun _ => rfl⟩
  | addJob domainName job =>
      apply general
      intro database statement sent
      exact ⟨Domain.jobStatements_onRows job statement sent.2, domainName, sent.1,
        fun here => Domain.jobStatements_spare (spares here) statement sent.2⟩
  | updateJob job =>
      exact fun world => Domain.keepsRecord_of_same (server_run_updateJob domain job world)
  | removeJob job => exact within_flag (Domain.keepsRecord_removeNamedJob spares)
  | updateJobState domainName job =>
      apply general
      intro database statement sent
      rw [sent.2]
      exact ⟨rfl, domainName, sent.1, fun _ => rfl⟩
  | _ => exact general fun _ _ sent => sent.elim

end Operation

/-! ## The way of a request -/

theorem transparent_ok (nodes : Nodes) (answer : ServiceAnswer) :
    nodes.service.Transparent (.ok answer) := by
  intro host call other
  cases other with
  | ok value => exact Iff.rfl
  | error raised => exact iff_of_false (by simp [Nodes.service, Except.mapError]) (by simp)

namespace Network

variable (network : Network)

/-- A node executes what is for it, and hands on what is not. -/
theorem decision_cases {host : String} {node : Node} {request : Request} {decision : Decision}
    (configured : network.nodes host = some node)
    (decided : Handlers.handle node.config node.router request = .ok decision) :
    host = request.target ∧ decision = .execute request.operation ∨
      ∃ gateway, decision = .forward gateway request := by
  have accepted : request.Accepted := by
    rw [Handlers.handle_eq] at decided
    obtain ⟨_, checked, _⟩ := except_bind_eq_ok_iff.mp decided
    exact request.accepted_iff.mpr checked
  by_cases same : host = request.target
  · subst same
    rw [network.handle_of_target configured accepted] at decided
    cases decided
    exact Or.inl ⟨rfl, rfl⟩
  · rw [network.handle_of_other configured accepted same] at decided
    obtain ⟨gateway, _, forwards⟩ := forward_eq_ok decided
    exact Or.inr ⟨gateway, forwards⟩

/-- Wherever a request has come to, it is the one that was sent. -/
theorem request_of_path {start host : String} {request : Request} {call : ServiceCall}
    {frames : List (String × ServiceCall)}
    (path : (Nodes.service network.nodes).Path start (.routed request) frames host call) :
    call = .routed request := by
  induction path with
  | here => rfl
  | forward path handled inductionHypothesis =>
      subst inductionHypothesis
      obtain ⟨node, configured, forwarded, decided, same⟩ := decidedAt_of_handling handled
      rw [same, (Handlers.handle_eq_forward decided).1]

/-- No server of the network replies to a request without executing it, other than by an
exception. -/
theorem not_reply {host : String} {request : Request} {answer : ServiceAnswer} :
    (Nodes.service network.nodes).handling host (.routed request) ≠
      some (.reply (.ok answer)) := by
  intro handled
  obtain ⟨node, configured, decided⟩ := decidedAt_of_handling handled
  cases decided with
  | inl decided =>
      obtain ⟨value, decided, _⟩ := decided
      cases network.decision_cases configured decided with
      | inl executes => cases executes.2
      | inr forwards =>
          obtain ⟨gateway, same⟩ := forwards
          cases same
  | inr decided =>
      obtain ⟨raised, _, same⟩ := decided
      cases same

/-- What a server of the network executes for a request. -/
theorem executes_at_target {host : String} {request : Request}
    {execution : World → Except Raised ServiceAnswer × World}
    (handled : (Nodes.service network.nodes).handling host (.routed request) =
      some (.execute execution)) :
    host = request.target ∧ ∃ node, network.nodes host = some node ∧
      execution = fun world =>
        ((request.replyOf (request.operation.run node.domain world)).map .routed,
          finalState (request.operation.run node.domain world)) := by
  obtain ⟨node, configured, operation, decided, same⟩ := decidedAt_of_handling handled
  cases network.decision_cases configured decided with
  | inl executes =>
      cases executes.2
      exact ⟨executes.1, node, configured, same⟩
  | inr forwards =>
      obtain ⟨gateway, forwards⟩ := forwards
      cases forwards

end Network

end OpenWorkloadScheduler
