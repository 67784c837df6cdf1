import OpenWorkloadScheduler.Domain.Integrity
import OpenWorkloadScheduler.Domain.Switching
import OpenWorkloadScheduler.Service.Passive
import OpenWorkloadScheduler.Service.SimpleServer
import OpenWorkloadScheduler.Service.TimeToLive
import OpenWorkloadScheduler.Store.Names

/-!
# What a call does to a database

Each operation sends statements of a few kinds to a few schemas.  What these statements
keep, the operation keeps, however it is left.
-/

namespace OpenWorkloadScheduler

open Rpc Store Foundations

namespace Operation

/-! ## The statements of an operation -/

/-- The operation may send the statement to the database. -/
def Sends (domain : Domain) : Operation → Option String → Statement → Prop
  | addNode domainName node, database, statement =>
      database = some domainName ∧
        (statement = .insertIgnoreWeightedNode node.name node.weight ∨
          (∃ resource ∈ node.resources, statement = .insertResource resource.name node.name
            resource.currentValue resource.initialValue) ∨
          ∃ job ∈ node.jobs,
            statement ∈ Domain.jobStatements job ++ Domain.constraintStatements job)
  | addWeightedNode domainName nodeName weight, database, statement =>
      database = some domainName ∧ statement = .insertIgnoreWeightedNode nodeName weight
  | removeNode domainName nodeName, database, statement =>
      database = some domain.name ∧ (∃ jobName, statement ∈ Domain.deletions jobName) ∨
        database = some domainName ∧ statement = .deleteNode nodeName
  | addJob domainName job, database, statement =>
      database = some domainName ∧
        statement ∈ Domain.jobStatements job ++ Domain.constraintStatements job
  | updateJob job, database, statement =>
      database = some job.nodeName ∧ statement ∈ Domain.updateJobStatements job
  | removeJob job, database, statement =>
      database = some job.domain ∧ statement ∈ Domain.deletions job.name
  | updateJobState domainName job, database, statement =>
      database = some domainName ∧ statement = .updateJobState job.name job.state
  | _, _, _ => False

theorem within_flag {relation : World → World → Prop} [IsPreorder World relation]
    {action : Action Bool} (within : Within relation action) :
    Within relation (do return Reply.flag (← action)) :=
  within_bind within fun _ => within_pure _

section Kept

variable (domain : Domain) {relation : World → World → Prop} [IsPreorder World relation]
  {admitted : Option String → Statement → Prop}

/-- What the statements of an operation keep, the operation keeps. -/
theorem within_run (respects : Domain.Respects relation admitted) (operation : Operation)
    (admits : ∀ database statement, operation.Sends domain database statement →
      admitted database statement) :
    Within relation (operation.run domain) := by
  have reads : ∀ {Alpha : Type} {action : Action Alpha} (reply : Alpha → Reply),
      Within ReadOnly action → Within relation (do return reply (← action)) :=
    fun reply within => within_bind (within.mono respects.reading) fun _ => within_pure _
  cases operation with
  | addNode domainName node =>
      apply within_flag
      apply respects.within_addNode domain
      · exact admits _ _ ⟨rfl, Or.inl rfl⟩
      · exact fun resource member => admits _ _ ⟨rfl, Or.inr (Or.inl ⟨resource, member, rfl⟩)⟩
      · exact fun job member statement sent =>
          admits _ _ ⟨rfl, Or.inr (Or.inr ⟨job, member, sent⟩)⟩
  | addWeightedNode domainName nodeName weight =>
      exact within_flag (respects.within_execute (admits _ _ ⟨rfl, rfl⟩))
  | removeNode domainName nodeName =>
      apply within_flag
      apply respects.within_removeNode domain
      · exact fun jobName statement sent => admits _ _ (Or.inl ⟨rfl, jobName, sent⟩)
      · exact admits _ _ (Or.inr ⟨rfl, rfl⟩)
  | addJob domainName job =>
      exact within_flag (respects.within_addJob domain fun statement sent =>
        admits _ _ ⟨rfl, sent⟩)
  | updateJob job =>
      exact within_flag (respects.within_lockedExecute fun statement sent =>
        admits _ _ ⟨rfl, sent⟩)
  | removeJob job =>
      exact within_flag (respects.within_removeNamedJob fun statement sent =>
        admits _ _ ⟨rfl, sent⟩)
  | updateJobState domainName job =>
      exact within_flag (respects.within_updateState (admits _ _ ⟨rfl, rfl⟩))
  | getNode domainName nodeName => exact reads .node (Domain.within_getNode domain _ _)
  | getNodes domainName => exact reads .nodes (Domain.within_getNodes domain _)
  | getJobs domainName runningNode => exact reads .jobs (Domain.within_getJobs domain _ _)
  | getReadyJobs runningNode => exact reads .jobs (Domain.within_getReadyRpcJobs domain _)
  | getJob domainName runningNode jobName =>
      exact reads .job (Domain.within_getJob domain _ _ _)
  | monitorFailedJobs domainName | monitorWaitingJobs domainName =>
      exact reads .number (Domain.within_countJobs _ _)

/-! ## What every operation keeps -/

theorem keepsKeys_run (operation : Operation) :
    Within Domain.KeepsKeys (operation.run domain) :=
  within_run domain Domain.respects_keepsKeys operation fun _ _ _ => trivial

theorem keepsTimes_run (operation : Operation) :
    Within Domain.KeepsTimes (operation.run domain) :=
  within_run domain Domain.respects_keepsTimes operation fun _ _ _ => trivial

end Kept

/-! ## The texts of an operation -/

/-- The names that the operation pastes into its statements and its queries. -/
def names : Operation → List String
  | addNode _ node => node.names
  | addWeightedNode _ nodeName _ | removeNode _ nodeName | getNode _ nodeName => [nodeName]
  | addJob _ job | updateJob job => job.names
  | removeJob job | updateJobState _ job => [job.name]
  | getJob _ runningNode jobName => [runningNode, jobName]
  | getJobs _ runningNode | getReadyJobs runningNode => [runningNode]
  | getNodes _ | monitorFailedJobs _ | monitorWaitingJobs _ => []

def commands : Operation → List String
  | addNode _ node => node.jobs.map TJob.cmdLine
  | addJob _ job | updateJob job => [job.cmdLine]
  | _ => []

/-- What the operation adds fits the columns. -/
def Fits : Operation → Prop
  | addNode _ node => node.Fits
  | addWeightedNode _ nodeName _ => nodeName.length ≤ 45
  | addJob _ job => job.Fits
  | _ => True

/-- The server reads the texts of the operation as they are meant, tells its names from those
of every schema, and has room for what it adds. -/
structure PlainIn (server : Server) (operation : Operation) : Prop where
  names : ∀ schemaName ∈ server.schemas.keys,
    Plain (operation.names ++ (server.tables schemaName).names)
  commands : ∀ command ∈ operation.commands, isClean command.toList = true
  fits : operation.Fits

/-! ## The schemas of an operation -/

/-- The schemas whose rows the operation may change.  `update_job` never changes any,
and `remove_node` removes the jobs from the template. -/
def schemas (domain : Domain) : Operation → List String
  | addNode domainName _ => [domainName]
  | addWeightedNode domainName _ _ => [domainName]
  | removeNode domainName _ => [domain.name, domainName]
  | addJob domainName _ => [domainName]
  | removeJob job => [job.domain]
  | updateJobState domainName _ => [domainName]
  | _ => []

/-- Every schema but those of the list is as it was. -/
def KeepsOutside (schemas : List String) (before after : World) : Prop :=
  ∀ other, other ∉ schemas → after.server.schema? other = before.server.schema? other

instance (schemas : List String) : IsPreorder World (KeepsOutside schemas) where
  refl _ _ _ := rfl
  trans _ _ _ first second other outside :=
    (second other outside).trans (first other outside)

theorem keepsOutside_of_same {schemas : List String} {before after : World}
    (same : after.server = before.server) : KeepsOutside schemas before after :=
  fun other _ => by rw [same]

theorem respects_keepsOutside (schemas : List String) :
    Domain.Respects (KeepsOutside schemas) fun database statement =>
      statement.onRows = true ∧ ∃ name ∈ schemas, database = some name where
  reading _ _ readOnly := keepsOutside_of_same readOnly.server
  mutex _ _ := keepsOutside_of_same rfl
  executing := by
    intro statements database admits world
    cases statements with
    | nil => exact keepsOutside_of_same (Mysql.server_standaloneExecute_nil database world)
    | cons statement statements =>
        obtain ⟨name, member, same⟩ := (admits statement List.mem_cons_self).2
        subst same
        have beside := (Domain.respects_keepsBeside name).executing
          (fun other sent => ⟨rfl, (admits other sent).1⟩) world
        intro other outside
        apply beside other
        intro same
        exact outside (same ▸ member)

theorem server_run_updateJob (domain : Domain) (job : TJob) (world : World) :
    (finalState ((updateJob job).run domain world)).server = world.server := by
  rw [← Domain.server_updateJob job world]
  cases ran : Domain.updateJob job world with
  | ok value after =>
      have executed : (updateJob job).run domain world = .ok (.flag value) after :=
        bind_of_ok ran
      rw [executed]
      rfl
  | error raised after =>
      have executed : (updateJob job).run domain world = .error raised after :=
        bind_of_error ran
      rw [executed]
      rfl

theorem keepsOutside_run (domain : Domain) (operation : Operation) :
    Within (KeepsOutside (operation.schemas domain)) (operation.run domain) := by
  have general := within_run domain (respects_keepsOutside (operation.schemas domain)) operation
  cases operation with
  | updateJob job => exact fun world => keepsOutside_of_same (server_run_updateJob domain job world)
  | addNode domainName node =>
      apply general
      intro database statement sent
      obtain ⟨named, sent⟩ := sent
      refine ⟨?_, domainName, List.mem_cons_self, named⟩
      cases sent with
      | inl same =>
          rw [same]
          rfl
      | inr sent =>
          cases sent with
          | inl sent =>
              obtain ⟨resource, _, same⟩ := sent
              rw [same]
              rfl
          | inr sent =>
              obtain ⟨job, _, member⟩ := sent
              exact Domain.jobStatements_onRows job statement member
  | addWeightedNode domainName nodeName weight =>
      apply general
      intro database statement sent
      obtain ⟨named, same⟩ := sent
      rw [same]
      exact ⟨rfl, domainName, List.mem_cons_self, named⟩
  | removeNode domainName nodeName =>
      apply general
      intro database statement sent
      cases sent with
      | inl sent =>
          obtain ⟨named, jobName, member⟩ := sent
          exact ⟨Domain.deletions_onRows jobName statement member, domain.name,
            List.mem_cons_self, named⟩
      | inr sent =>
          obtain ⟨named, same⟩ := sent
          rw [same]
          exact ⟨rfl, domainName, by simp [schemas], named⟩
  | addJob domainName job =>
      apply general
      intro database statement sent
      obtain ⟨named, member⟩ := sent
      exact ⟨Domain.jobStatements_onRows job statement member, domainName,
        List.mem_cons_self, named⟩
  | removeJob job =>
      apply general
      intro database statement sent
      obtain ⟨named, member⟩ := sent
      exact ⟨Domain.deletions_onRows job.name statement member, job.domain,
        List.mem_cons_self, named⟩
  | updateJobState domainName job =>
      apply general
      intro database statement sent
      obtain ⟨named, same⟩ := sent
      rw [same]
      exact ⟨rfl, domainName, List.mem_cons_self, named⟩
  | _ => exact general fun _ _ sent => sent.elim

/-! ## The operations that only add -/

/-- The operation neither removes a job nor sets its state. -/
def onlyAdds : Operation → Bool
  | removeNode _ _ => false
  | removeJob _ => false
  | updateJobState _ _ => false
  | _ => true

theorem onlyAdds_run (domain : Domain) {operation : Operation}
    (adds : operation.onlyAdds = true) : Within Domain.OnlyAdds (operation.run domain) := by
  have general := within_run domain Domain.respects_onlyAdds operation
  cases operation with
  | updateJob job =>
      intro world
      rw [Domain.OnlyAdds, server_run_updateJob]
      exact refl world.server
  | addNode domainName node =>
      apply general
      intro database statement sent
      cases sent.2 with
      | inl same =>
          rw [same]
          rfl
      | inr sent =>
          cases sent with
          | inl sent =>
              obtain ⟨resource, _, same⟩ := sent
              rw [same]
              rfl
          | inr sent =>
              obtain ⟨job, _, member⟩ := sent
              exact Domain.jobStatements_onlyAdd job statement member
  | addWeightedNode domainName nodeName weight =>
      apply general
      intro database statement sent
      rw [sent.2]
      rfl
  | addJob domainName job =>
      exact general fun _ statement sent => Domain.jobStatements_onlyAdd job statement sent.2
  | removeNode _ _ | removeJob _ | updateJobState _ _ => cases adds
  | _ => exact general fun _ _ sent => sent.elim

end Operation

/-! ## Who executes -/

/-- A node executes what is addressed to it, or what comes to it as the configured
master. -/
theorem addressed_of_execute {config : Config} {router : Router} {request : Request}
    {operation : Operation}
    (decided : Handlers.handle config router request = .ok (.execute operation)) :
    config.getParam "node_name" = some request.target ∨
      config.getParam "node_name" = some config.masterNode := by
  cases mode : config.runningMode with
  | passive => exact Or.inl (master_of_execute mode decided).2.2.2
  | p2p =>
      rw [Handlers.handle_eq] at decided
      obtain ⟨_, _, decided⟩ := except_bind_eq_ok_iff.mp decided
      rw [Handlers.byMode, mode] at decided
      cases decided
  | active =>
      rw [Handlers.handle_eq] at decided
      obtain ⟨_, _, decided⟩ := except_bind_eq_ok_iff.mp decided
      rw [Handlers.byMode, mode] at decided
      have targeted : ∀ {target : String} {noGateway : Raised} {wanted : Operation},
          Handlers.atTarget config router target noGateway request wanted =
            .ok (.execute operation) → config.getParam "node_name" = some target := by
        intro target noGateway wanted decided
        obtain ⟨nodeName, read, decided⟩ := except_bind_eq_ok_iff.mp decided
        split at decided
        · obtain ⟨neighbour, _, forwards⟩ := Network.forward_eq_ok decided
          cases forwards
        · rename_i same
          rw [Config.param_eq_ok_iff.mp read, not_not.mp same]
      cases request with
      | addJob routing job =>
          obtain ⟨nodeName, read, decided⟩ := except_bind_eq_ok_iff.mp decided
          split at decided
          · obtain ⟨neighbour, _, forwards⟩ := Network.forward_eq_ok decided
            cases forwards
          · rename_i own
            rw [Config.param_eq_ok_iff.mp read]
            by_cases same : nodeName = job.nodeName
            · exact Or.inl (congrArg some same)
            · right
              by_contra other
              exact own ⟨same, fun master => other (congrArg some master.symm)⟩
      | _ => exact Or.inl (targeted decided)

/-! ## Calls that are executed -/

/-- What the server of a host executes for a call: the operation of a request, or a
selection. -/
inductive Executes (nodes : Nodes) (host : String) :
    ServiceCall → (World → Except Raised ServiceAnswer × World) → Prop where
  | operation {node : Node} {request : Request} {operation : Operation}
      {execution : World → Except Raised ServiceAnswer × World}
      (configured : nodes host = some node)
      (decided : Handlers.handle node.config node.router request = .ok (.execute operation))
      (left : ∀ world, (execution world).2 = finalState (operation.run node.domain world)) :
      Executes nodes host (.routed request) execution
  | selection {node : Node} {request : PlanningRequest}
      {execution : World → Except Raised ServiceAnswer × World}
      (configured : nodes host = some node)
      (reads : ∀ world, ReadOnly world (execution world).2) :
      Executes nodes host (.planning request) execution

theorem PlanningOperation.within_run (domain : Domain) (operation : PlanningOperation) :
    Within ReadOnly (operation.run domain) := by
  cases operation with
  | getCurrentPlanningName =>
      exact within_bind (Domain.within_getCurrentPlanningName domain) fun _ => within_pure _
  | getAvailablePlanningNames =>
      exact within_bind Domain.within_getAvailablePlanningNames fun _ => within_pure _
  | getPlanning domainName nodeName =>
      exact within_bind (Domain.within_getPlanning domain _ _) fun _ => within_pure _

/-- Where a call is executed, this is what its handler has decided. -/
theorem ServiceCall.decide_of_execute {config : Config} {router : Router} {domain : Domain}
    {call : ServiceCall} {execution : World → Except Raised ServiceAnswer × World}
    (handled : call.handling config router domain = .execute execution) :
    ∃ operation, call.decide config router domain = .ok (.execute operation) ∧
      ∀ world, (execution world).2 = finalState (operation world) := by
  rw [handling] at handled
  split at handled <;> cases handled
  rename_i operation decided
  exact ⟨operation, decided, fun _ => rfl⟩

theorem executes_of_handling {nodes : Nodes} {host : String} {call : ServiceCall}
    {execution : World → Except Raised ServiceAnswer × World}
    (handled : nodes.service.handling host call = some (.execute execution)) :
    Executes nodes host call execution := by
  cases configured : nodes host with
  | none => simp [Nodes.service, configured] at handled
  | some node =>
      simp only [Nodes.service, configured, Option.map_some, Option.some.injEq] at handled
      obtain ⟨action, decided, left⟩ := ServiceCall.decide_of_execute handled
      cases call with
      | hello targetNode =>
          obtain ⟨answer, _, decided⟩ := except_bind_eq_ok_iff.mp decided
          cases answer with
          | inl answer => cases decided
          | inr hostname =>
              obtain ⟨number, _, forwards⟩ := except_bind_eq_ok_iff.mp decided
              cases forwards
      | reachMaster =>
          obtain ⟨route, _, decided⟩ := except_bind_eq_ok_iff.mp decided
          cases decided
      | planning request =>
          obtain ⟨decision, _, decided⟩ := except_bind_eq_ok_iff.mp decided
          cases decision with
          | execute operation =>
              cases decided
              apply Executes.selection configured
              intro world
              rw [left]
              exact within_bind (operation.within_run node.domain)
                (fun _ => within_pure _) world
          | forward gateway forwarded => cases decided
          | reply value => cases decided
      | routed request =>
          obtain ⟨decision, handledRequest, decided⟩ := except_bind_eq_ok_iff.mp decided
          cases decision with
          | execute operation =>
              cases decided
              apply Executes.operation configured handledRequest
              intro world
              rw [left]
              exact congrArg Prod.snd
                (ServiceCall.execute_routed request operation node.domain world)
          | forward gateway forwarded => cases decided
          | reply value => cases decided

end OpenWorkloadScheduler
