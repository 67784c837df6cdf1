import Mathlib.Data.List.TakeWhile
import OpenWorkloadScheduler.Domain.Serving

/-!
# The two overloads of `get_ready_jobs`

The loops of the processes call the overload on the `Job` objects, the service the
one on its own structures.  The second one has a test of the start time, which
returns for the plannings that have started, and not for those that are still to
come.  Where it does query, it differs in the text without a node, in an empty
result and in a job without a recovery type.
-/

namespace OpenWorkloadScheduler

open Rpc Store Foundations

theorem Store.Mysql.queryFullResult_of_quiet_failure {query : Query} {database : Option String}
    {world : World} (quiet : Quiet world) (exist : Exists database world.server)
    (failure : ∀ rows, query.run database world.server world.now ≠ .ok rows) :
    queryFullResult query database world = .ok none world := by
  rw [queryFullResult, bind_of_ok (init_of_done (answer_of_quiet quiet) exist),
    answered_of_quiet quiet,
    bind_of_ok (fetch_of_failure fun rows selected => failure rows selected.2),
    answered_of_quiet quiet]
  rfl

namespace Domain

variable (domain : Domain)

/-! ## What is compared -/

/-- The columns that both overloads decode. -/
def shared (job : TJob) : String × String × String × Integer × EJobState :=
  (job.name, job.cmdLine, job.nodeName, job.weight, job.state)

/-- The jobs of the overload on the `Job` objects; `none` when it raises. -/
def localOffer (runningNode : Option String) (world : World) :
    Option (List (String × String × String × Integer × EJobState)) :=
  match getReadyJobs domain runningNode world with
  | .ok (jobs, none) _ => some (jobs.map shared)
  | _ => none

/-- The jobs of the overload on the structures of the service. -/
def rpcOffer (runningNode : Option String) (world : World) :
    Option (List (String × String × String × Integer × EJobState)) :=
  match getReadyRpcJobs domain runningNode world with
  | .ok jobs _ => some (jobs.map shared)
  | .error _ _ => none

/-- From the start of the planning on, the overloads return the same jobs.  Before it,
the overload of the service returns none, whatever the database would answer. -/
structure OverloadsAgree (runningNode : Option String) (world : World) : Prop where
  started : world.planningStartTime ≤ world.clock →
    rpcOffer domain runningNode world = localOffer domain runningNode world
  notStarted : world.clock < world.planningStartTime → ∀ answers,
    getReadyRpcJobs domain runningNode { world with answers } = .ok [] { world with answers }

/-! ## The loop of the service -/

theorem yields_catchStandard {Alpha : Type} {action : Action Alpha}
    {handler : Raised → Action Alpha} {world : World} {condition : Prop} {value : Alpha}
    (yields : Yields action world condition value)
    (handled : ∀ raised after, raises (handler raised after) = true) :
    Yields (catchStandard action handler) world condition value := by
  constructor
  · intro holds
    exact tryCatch_of_ok (yields.returns holds)
  · intro fails
    change raises (EStateM.tryCatch action _ world) = true
    rw [EStateM.tryCatch]
    cases ran : action world with
    | ok other after => exact absurd (yields.of_ok ran).1 fails
    | error first after =>
        cases first with
        | undefinedBehaviour what | blocked => rfl
        | _ => exact handled _ _

/-- The row of a ready job is decoded, and its recovery type is there. -/
structure ReadyReadable (tables : Tables) (row : JobRow) : Prop where
  weight : Fits 32 row.jobWeight
  state : row.jobState ≠ none
  recoveryType : ∃ id, row.jobRectypeId = some id ∧ Fits 32 id ∧ RecoveryReadable tables id

section Reading

variable {domain} {world : World} {schema : Schema}

/-- The conversion of the column raises on NULL. -/
theorem yields_recoveryColumn {name : String} (readable : Readable world name schema)
    (rectypeId : Option Int) :
    Yields (lift (cast 32 ((rectypeId.map toString).getD "NULL")) >>= getRecoveryType name) world
      (∃ id, rectypeId = some id ∧ Fits 32 id ∧ RecoveryReadable schema.tables id)
      ((rectypeId.bind (recoveryRow schema.tables)).elim {} decodedRecovery) := by
  cases rectypeId with
  | none =>
      have refused : cast 32 "NULL" = .error badLexicalCast := by rfl
      rw [Option.map_none, Option.getD_none, refused]
      exact (yields_throw badLexicalCast _).congr (by simp)
  | some id =>
      rw [Option.map_some, Option.getD_some]
      exact (yields_bind (yields_cast 32 id world) (yields_getRecoveryType readable id)).congr
        (by simp)

theorem yields_completeReadyJob
    (readable : Readable world (planningName domain world.planningStartTime) schema)
    (query : String) (row : JobRow) :
    Yields (completeReadyJob domain query (jobTexts row)) world
      (ReadyReadable schema.tables row)
      { basicJob (planningName domain world.planningStartTime) row with
        recoveryType := (row.jobRectypeId.bind (recoveryRow schema.tables)).elim {}
          decodedRecovery } := by
  have job := yields_readJob (planningName domain world.planningStartTime) query row [] world
  rw [List.append_nil] at job
  have decoded : Yields (completeReadyJob domain query (jobTexts row)) world
      ((Fits 32 row.jobWeight ∧ row.jobState ≠ none) ∧
        (∃ id, row.jobRectypeId = some id ∧ Fits 32 id ∧ RecoveryReadable schema.tables id) ∧
        True)
      { basicJob (planningName domain world.planningStartTime) row with
        recoveryType := (row.jobRectypeId.bind (recoveryRow schema.tables)).elim {}
          decodedRecovery } := by
    apply yields_bind_of_ok (rfl : getCurrentPlanningName domain world = .ok _ world)
    apply yields_bind job
    apply yields_bind_of_ok (rfl : lift (column (jobTexts row) 5) world = .ok _ world)
    refine yields_bind ?_ (yields_pure _)
    exact yields_catchStandard (yields_recoveryColumn readable row.jobRectypeId)
      fun _ _ => rfl
  refine decoded.congr ⟨?_, ?_⟩
  · rintro ⟨⟨weight, state⟩, recoveryType, _⟩
    exact ⟨weight, state, recoveryType⟩
  · rintro ⟨weight, state, recoveryType⟩
    exact ⟨⟨weight, state⟩, recoveryType, trivial⟩

/-- The rows of the view for the node. -/
def readyRows (tables : Tables) (now : Int) (runningNode : Option String) : List JobRow :=
  (tables.getReadyJob now).filter (Query.runsOn runningNode)

theorem selects_readyJobs
    (readable : Readable world (planningName domain world.planningStartTime) schema)
    (runningNode : Option String) :
    (Query.readyJobs runningNode).run (some (planningName domain world.planningStartTime))
        world.server world.now =
      .ok ((readyRows schema.tables world.now runningNode).map Query.jobRow) := by
  have present : "get_ready_job" ∈ skeletonViews := by decide
  rw [Query.run_eq_runOn (by change "get_ready_job" ≠ ""; decide)]
  exact Query.runOn_eq_ok_iff.mpr ⟨schema, readable.found,
    Or.inr (readable.complete.views _ present), rfl⟩

/-- The local overload gives up at a row that is not acceptable. -/
theorem localOffer_of_readable
    (readable : Readable world (planningName domain world.planningStartTime) schema)
    (runningNode : Option String) :
    localOffer domain runningNode world =
      if ∀ row ∈ readyRows schema.tables world.now runningNode, isAcceptable row = true then
        some ((readyRows schema.tables world.now runningNode).map fun row =>
          shared (basicJob (planningName domain world.planningStartTime) row))
      else none := by
  obtain ⟨raised, returned, acceptable⟩ := getReadyJobs_of_selects domain
    (Mysql.selects_of_quiet readable.quiet readable.exist
      (selects_readyJobs readable runningNode))
  rw [Server.tables_of_schema? readable.found] at acceptable
  rw [localOffer, returned]
  by_cases all : ∀ row ∈ readyRows schema.tables world.now runningNode, isAcceptable row = true
  · have whole : (readyRows schema.tables world.now runningNode).takeWhile isAcceptable =
        readyRows schema.tables world.now runningNode := List.takeWhile_eq_self_iff.mpr all
    rw [if_pos all, acceptable.mpr all, currentOffer, Server.tables_of_schema? readable.found,
      offeredJobs]
    change some (List.map shared (List.map _ (List.takeWhile isAcceptable
      (readyRows schema.tables world.now runningNode)))) = _
    rw [whole, List.map_map]
    rfl
  · rw [if_neg all]
    cases raised with
    | none => exact absurd (acceptable.mp rfl) all
    | some raised => rfl

/-- Before the planning and at its very start the overload of the service queries. -/
theorem yields_getReadyRpcJobs
    (readable : Readable world (planningName domain world.planningStartTime) schema)
    (queries : ¬ world.planningStartTime < world.clock) (runningNode : Option String) :
    Yields (getReadyRpcJobs domain runningNode) world
      (runningNode ≠ none ∧ readyRows schema.tables world.now runningNode ≠ [] ∧
        ∀ row ∈ readyRows schema.tables world.now runningNode, ReadyReadable schema.tables row)
      ((readyRows schema.tables world.now runningNode).map fun row =>
        { basicJob (planningName domain world.planningStartTime) row with
          recoveryType := (row.jobRectypeId.bind (recoveryRow schema.tables)).elim {}
            decodedRecovery }) := by
  apply yields_bind_of_ok (rfl : (get : Action World) world = .ok world world)
  rw [if_neg queries]
  apply yields_bind_of_ok (rfl : getCurrentPlanningName domain world = .ok _ world)
  cases runningNode with
  | none =>
      have failure : ∀ rows, (readyJobsQuery none).run
          (some (planningName domain world.planningStartTime)) world.server world.now ≠
            .ok rows := by
        intro rows selected
        cases selected
      refine yields_bind_of_ok
        (Mysql.queryFullResult_of_quiet_failure readable.quiet readable.exist failure) ?_
      exact (yields_throw _ _).congr (by simp)
  | some node =>
      refine yields_bind_of_ok (Mysql.queryFullResult_of_quiet readable.quiet readable.exist
        (selects_readyJobs readable (some node))) ?_
      dsimp only
      rw [List.map_map]
      cases rows : readyRows schema.tables world.now (some node) with
      | nil => exact (yields_throw _ _).congr (by simp)
      | cons row others =>
          rw [if_neg (by simp), List.mapM_map]
          exact (yields_mapM fun row _ => yields_completeReadyJob readable _ row).congr
            (by simp)

theorem rpcOffer_of_readable
    (readable : Readable world (planningName domain world.planningStartTime) schema)
    (queries : ¬ world.planningStartTime < world.clock) (runningNode : Option String) :
    ((runningNode ≠ none ∧ readyRows schema.tables world.now runningNode ≠ [] ∧
        ∀ row ∈ readyRows schema.tables world.now runningNode,
          ReadyReadable schema.tables row) →
      rpcOffer domain runningNode world =
        some ((readyRows schema.tables world.now runningNode).map fun row =>
          shared (basicJob (planningName domain world.planningStartTime) row))) ∧
      (¬ (runningNode ≠ none ∧ readyRows schema.tables world.now runningNode ≠ [] ∧
          ∀ row ∈ readyRows schema.tables world.now runningNode,
            ReadyReadable schema.tables row) →
        rpcOffer domain runningNode world = none) := by
  have yields := yields_getReadyRpcJobs readable queries runningNode
  constructor
  · intro decoded
    rw [rpcOffer, yields.returns decoded]
    dsimp only
    rw [List.map_map]
    rfl
  · intro undecoded
    rw [rpcOffer]
    cases ran : getReadyRpcJobs domain runningNode world with
    | ok jobs after => exact absurd (yields.of_ok ran).1 undecoded
    | error first after => rfl

theorem rpcOffer_of_later (later : world.planningStartTime < world.clock)
    (runningNode : Option String) : rpcOffer domain runningNode world = some [] := by
  rw [rpcOffer, getReadyRpcJobs, bind_get, if_pos later]
  rfl

/-- Before the start of the planning a database that does not answer is noticed. -/
theorem getReadyRpcJobs_of_refused (queries : ¬ world.planningStartTime < world.clock)
    (runningNode : Option String) :
    raises (getReadyRpcJobs domain runningNode { world with answers := [.refused] }) = true := by
  rw [getReadyRpcJobs, bind_get, if_neg queries]
  rfl

/-- Once the planning has started, the overloads have to return the same. -/
theorem overloadsAgree_iff_of_begun (begun : world.planningStartTime ≤ world.clock)
    (runningNode : Option String) :
    OverloadsAgree domain runningNode world ↔
      rpcOffer domain runningNode world = localOffer domain runningNode world :=
  ⟨fun agree => agree.started begun, fun same => ⟨fun _ => same, fun _ => by omega⟩⟩

/-- In a complete planning with plain names the two overloads agree if and only if the
planning has started before and has no ready job for the node, or it starts at this very
second and both of them decode all rows or none does. -/
theorem overloadsAgree_iff (domain : Domain) (runningNode : Option String) (world : World)
    (schema : Schema) (readableFor : ReadableFor runningNode.toList world
      (planningName domain world.planningStartTime) schema) :
    OverloadsAgree domain runningNode world ↔
      world.planningStartTime < world.clock ∧
          readyRows schema.tables world.now runningNode = [] ∨
        world.planningStartTime = world.clock ∧
          ((∀ row ∈ readyRows schema.tables world.now runningNode, isAcceptable row = true) ↔
            runningNode ≠ none ∧ readyRows schema.tables world.now runningNode ≠ [] ∧
              ∀ row ∈ readyRows schema.tables world.now runningNode,
                ReadyReadable schema.tables row) := by
  have readable := readableFor.toReadable
  have localOffered := localOffer_of_readable readable runningNode
  rcases lt_trichotomy world.planningStartTime world.clock with later | now | ahead
  · have offered : rpcOffer domain runningNode world = some [] :=
      rpcOffer_of_later later runningNode
    have past : world.planningStartTime ≠ world.clock := by omega
    rw [overloadsAgree_iff_of_begun (by omega), offered, localOffered]
    by_cases none : readyRows schema.tables world.now runningNode = []
    · simp [none, later]
    · simp only [none, later, past, and_false, false_and, or_self, iff_false]
      split
      · simpa using Ne.symm none
      · simp
  · have queries : ¬ world.planningStartTime < world.clock := by omega
    obtain ⟨decoded, undecoded⟩ := rpcOffer_of_readable readable queries runningNode
    rw [overloadsAgree_iff_of_begun (by omega), localOffered]
    by_cases readableRows : runningNode ≠ none ∧
        readyRows schema.tables world.now runningNode ≠ [] ∧
          ∀ row ∈ readyRows schema.tables world.now runningNode,
            ReadyReadable schema.tables row
    · rw [decoded readableRows, iff_true_right readableRows]
      simp [now]
    · rw [undecoded readableRows, iff_false_right readableRows]
      simp [now]
  · have queries : ¬ world.planningStartTime < world.clock := by omega
    constructor
    · intro agree
      have raised : raises (getReadyRpcJobs domain runningNode
          { world with answers := [.refused] }) = true :=
        getReadyRpcJobs_of_refused queries runningNode
      rw [agree.notStarted ahead [.refused]] at raised
      cases raised
    · rintro (⟨later, _⟩ | ⟨now, _⟩)
      · exact absurd later queries
      · omega

end Reading

/-- A planning that started 100 seconds ago. -/
def startedWorld (tables : Tables) : World where
  server := (⟨∅⟩ : Server).setSchema "test_domain_0" { emptySkeleton with tables }
  clock := 100

theorem readable_startedWorld (tables : Tables) :
    Readable (startedWorld tables)
      (planningName dailyDomain (startedWorld tables).planningStartTime)
      { emptySkeleton with tables } where
  quiet := rfl
  found := Server.schema?_setSchema_self _ _ _
  complete := complete_emptySkeleton.withTables tables

/-- A job that waits is offered by the local overload only. -/
def waitingJob : Tables where
  node := [⟨"localhost", 10⟩]
  job := [{ jobName := "backup", jobCmdLine := "/bin/ls", jobNodeName := "localhost" }]

/-- For another node there is nothing. -/
theorem overloadsAgree_elsewhere :
    OverloadsAgree dailyDomain (some "elsewhere") (startedWorld waitingJob) := by
  have readable : ReadableFor ["elsewhere"] (startedWorld waitingJob)
      (planningName dailyDomain (startedWorld waitingJob).planningStartTime)
      { emptySkeleton with tables := waitingJob } :=
    { readable_startedWorld waitingJob with plain := by decide +kernel }
  exact (overloadsAgree_iff dailyDomain (some "elsewhere") (startedWorld waitingJob) _
    readable).mpr (Or.inl ⟨by decide, by decide⟩)

theorem overloads_differ :
    ¬ ∀ (domain : Domain) (runningNode : Option String) (world : World) (schema : Schema),
      Readable world (planningName domain world.planningStartTime) schema →
        OverloadsAgree domain runningNode world := by
  intro always
  have agree := always dailyDomain (some "localhost") (startedWorld waitingJob) _
    (readable_startedWorld waitingJob)
  have offered : rpcOffer dailyDomain (some "localhost") (startedWorld waitingJob) = some [] :=
    rpcOffer_of_later (by decide) _
  have ready : localOffer dailyDomain (some "localhost") (startedWorld waitingJob) ≠ some [] := by
    decide
  exact ready ((agree.started (by decide)).symm.trans offered)

end Domain

end OpenWorkloadScheduler
