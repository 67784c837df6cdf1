import OpenWorkloadScheduler.Domain.Writes

/-!
# The mutex of the writers

`updates_mutex` keeps two writers from working at the same time.  Its purpose
asks that whoever takes it gives it back.  The writers do so on both of their
return paths, and on no other: an exception raised between `lock` and `unlock`
leaves the mutex locked, and the next writer waits for ever.

The conditions below are about the arguments of a call, the schemas and the
answers of the MySQL server.  They say when nothing is raised under the mutex.
-/

namespace OpenWorkloadScheduler.Domain

open Rpc Store Foundations

variable (domain : Domain)

def MutexFree (world : World) : Prop :=
  world.updatesMutex = false

instance (world : World) : Decidable (MutexFree world) :=
  inferInstanceAs (Decidable (_ = _))

/-! ## Taking and releasing -/

theorem lock_of_free {world : World} (free : MutexFree world) :
    lock world = .ok () { world with updatesMutex := true } := by
  rw [lock, bind_get]
  rw [MutexFree] at free
  simp only [free, Bool.false_eq_true, if_false]
  rfl

/-- Whoever asks for a mutex that was not released waits for ever. -/
theorem lock_of_locked {world : World} (locked : ¬ MutexFree world) :
    lock world = .error .blocked world := by
  rw [lock, bind_get]
  have held : world.updatesMutex = true := by simpa [MutexFree] using locked
  simp only [held, if_true]
  rfl

/-- Whoever gets the mutex has found it free. -/
theorem lock_eq_ok_iff {world after : World} :
    lock world = .ok () after ↔ MutexFree world ∧ after = { world with updatesMutex := true } := by
  by_cases free : MutexFree world
  · rw [lock_of_free free, EStateM.Result.ok.injEq]
    simp [free, eq_comm]
  · rw [lock_of_locked free]
    simp [free]

theorem within_frame_locked {Alpha : Type} {action : Action Alpha}
    (within : Within Frame action) (world : World) :
    ¬ MutexFree (finalState (action { world with updatesMutex := true })) := by
  have same := (within { world with updatesMutex := true }).updatesMutex
  simp [MutexFree, same]

/-- What follows `standalone_execute` in every mutator releases the mutex, and
an exception of `standalone_execute` skips it. -/
theorem free_executeAndUnlock_iff (statements : List Statement) (database : Option String)
    (world : World) :
    MutexFree (finalState
        (executeAndUnlock statements database { world with updatesMutex := true })) ↔
      Mysql.Transacts statements database world := by
  have completed := Mysql.raises_standaloneExecute_iff statements database
    { world with updatesMutex := true }
  change _ ↔ Mysql.Transacts statements database world at completed
  rw [← completed, executeAndUnlock]
  cases ran : Mysql.standaloneExecute statements database
      { world with updatesMutex := true } with
  | ok executed after =>
      rw [bind_of_ok ran]
      exact ⟨fun _ => rfl, fun _ => rfl⟩
  | error raised after =>
      have locked := within_frame_locked
        (Mysql.within_standaloneExecute statements database) world
      rw [ran] at locked
      rw [bind_of_error ran]
      exact ⟨fun free => absurd free locked, nofun⟩

theorem returned_executeAndUnlock {statements : List Statement} {database : Option String}
    {before after : World} {value : Bool}
    (ran : executeAndUnlock statements database before = .ok value after) :
    MutexFree after := by
  obtain ⟨executed, between, _, rest⟩ := bind_eq_ok_iff.mp ran
  cases rest
  rfl

theorem keeps_lockedExecute (statements : List Statement) (database : Option String) :
    Keeps MutexFree (lockedExecute statements database)
      (Mysql.Transacts statements database) := by
  constructor
  · intro before value after free ran
    rw [lockedExecute, bind_of_ok (lock_of_free free)] at ran
    exact returned_executeAndUnlock ran
  · intro world free
    rw [lockedExecute, bind_of_ok (lock_of_free free)]
    exact free_executeAndUnlock_iff statements database world

theorem lockedExecute_of_quiet {statements : List Statement} {database : Option String}
    {world : World} {after : Session} (quiet : Mysql.Quiet world) (free : MutexFree world)
    (exist : Mysql.Exists database world.server)
    (known : ∀ statement ∈ statements, statement.isBlank = false)
    (ran : Mysql.runAll statements ⟨database, world.server⟩ = .ok after) :
    lockedExecute statements database world = .ok true { world with server := after.work } := by
  have quietHere : Mysql.Quiet { world with updatesMutex := true } := quiet
  have executed := Mysql.standaloneExecute_of_quiet_ok quietHere exist known ran
  rw [lockedExecute, bind_of_ok (lock_of_free free), executeAndUnlock, bind_of_ok executed]
  have released : world.updatesMutex = false := free
  change EStateM.Result.ok true
    { world with server := after.work, updatesMutex := false } = _
  rw [← released]

/-! ## `add_job` -/

/-- The statements of `add_job` for the constraints. -/
def constraintStatements (job : TJob) : List Statement :=
  job.timeConstraints.map fun constraint =>
    .insertTimeConstraint job.name constraint.type constraint.value

def WithinDuration (job : TJob) : Prop :=
  ∀ constraint ∈ job.timeConstraints, constraint.value ≤ domain.planningDuration

theorem mapM_timeConstraintStatement {job : TJob} (within : WithinDuration domain job) :
    job.timeConstraints.mapM (timeConstraintStatement domain job.name) =
      .ok (constraintStatements job) := by
  refine mapM_ok fun constraint member => ?_
  have bounded := within constraint member
  rw [timeConstraintStatement, if_neg (by omega)]

theorem mapM_timeConstraintStatement_of_above {job : TJob}
    (above : ¬ WithinDuration domain job) :
    ∃ raised, job.timeConstraints.mapM (timeConstraintStatement domain job.name) =
      .error raised := by
  simp only [WithinDuration, not_forall, Int.not_le] at above
  obtain ⟨constraint, member, exceeds⟩ := above
  have refused : timeConstraintStatement domain job.name constraint =
      .error (.exProcessing (durationMessage domain constraint.value)) := by
    rw [timeConstraintStatement, if_pos exceeds]
  exact mapM_error member refused

/-- How many nodes of the name of its node the job finds. -/
def nodesOf (job : TJob) (tables : Tables) : Nat :=
  (tables.node.filter fun row => row.nodeName = job.nodeName).length

/-- The node of the job is found, in the schema that the job names. -/
structure FindsNode (job : TJob) (world : World) : Prop where
  connected : world.answer = .done
  answered : world.answered.answer = .done
  found : ∃ schema, world.server.schema? job.domain = some schema ∧
    ("node" ∈ schema.baseTables ∨ "node" ∈ schema.views) ∧
    0 < nodesOf job schema.tables ∧ nodesOf job schema.tables < 2 ^ 31

theorem within_checkNode (job : TJob) : Within ReadOnly (checkNode job) := by
  refine within_bind (Mysql.within_queryOneRow _ _) fun row => ?_
  cases row with
  | none => exact within_throw _
  | some row =>
      refine within_bind (within_lift _) fun count => ?_
      split
      · exact within_throw _
      · exact within_pure _

theorem run_countNode_eq_ok_iff {job : TJob} {server : Server} {now : Int}
    {rows : List Query.ResultRow} :
    (Query.countNode job.nodeName).run (some job.domain) server now = .ok rows ↔
      ∃ schema, server.schema? job.domain = some schema ∧
        ("node" ∈ schema.baseTables ∨ "node" ∈ schema.views) ∧
        rows = [[some (toString (nodesOf job schema.tables))]] := by
  rw [Query.run_eq_runOn (by simp [Query.relation]), Query.runOn_eq_ok_iff]
  simp only [Query.select, Except.ok.injEq, nodesOf, eq_comm, Query.relation]

/-- The number of nodes, read back as `lexical_cast<int>` does. -/
theorem cast_nodesOf (job : TJob) (tables : Tables) :
    (do cast 32 (← columnAt [toString (nodesOf job tables)] 0) : Except Raised Int) =
      if nodesOf job tables < 2 ^ 31 then .ok (nodesOf job tables : Int)
      else .error badLexicalCast := by
  change cast 32 (toString (nodesOf job tables : Int)) = _
  rw [cast, lexicalCast_toString]
  have nonnegative : -2 ^ (32 - 1) ≤ (nodesOf job tables : Int) := by omega
  simp only [nonnegative, true_and]
  by_cases small : nodesOf job tables < 2 ^ 31
  · rw [if_pos (by omega), if_pos small]
  · rw [if_neg (by omega), if_neg small]

theorem checkNode_of_finds {job : TJob} {world : World} (finds : FindsNode job world) :
    checkNode job world = .ok () world.answered.answered := by
  obtain ⟨schema, exist, present, positive, small⟩ := finds.found
  have selects : Mysql.Selects (.countNode job.nodeName) (some job.domain) world
      [[some (toString (nodesOf job schema.tables))]] := by
    refine ⟨finds.connected, ?_, finds.answered,
      run_countNode_eq_ok_iff.mpr ⟨schema, exist, present, rfl⟩⟩
    rintro _ ⟨⟩
    rw [exist]
    rfl
  rw [checkNode, bind_of_ok (Mysql.queryOneRow_of_selects selects)]
  change ((do
    let count ← lift (do cast 32 (← columnAt [toString (nodesOf job schema.tables)] 0))
    if count = 0 then throw _ else pure () : Action Unit)) _ = _
  rw [cast_nodesOf, if_pos small]
  change (if (nodesOf job schema.tables : Int) = 0 then throw _ else pure () : Action Unit) _ = _
  rw [if_neg (by omega)]
  rfl

theorem finds_of_checkNode {job : TJob} {world after : World}
    (ran : checkNode job world = .ok () after) : FindsNode job world := by
  obtain ⟨row, between, selected, rest⟩ := bind_eq_ok_iff.mp ran
  cases row with
  | none => cases rest
  | some row =>
      obtain ⟨rows, selects, rfl, rfl⟩ := Mysql.selects_of_queryOneRow selected
      obtain ⟨schema, exist, present, rfl⟩ := run_countNode_eq_ok_iff.mp selects.ran
      change ((do
        let count ← lift (do cast 32 (← columnAt [toString (nodesOf job schema.tables)] 0))
        if count = 0 then throw _ else pure () : Action Unit)) _ = _ at rest
      rw [cast_nodesOf] at rest
      by_cases small : nodesOf job schema.tables < 2 ^ 31
      · rw [if_pos small] at rest
        change (if (nodesOf job schema.tables : Int) = 0 then throw _ else pure () :
          Action Unit) _ = _ at rest
        by_cases zero : (nodesOf job schema.tables : Int) = 0
        · rw [if_pos zero] at rest
          cases rest
        · exact ⟨selects.connected, selects.answered, schema, exist, present, by omega, small⟩
      · rw [if_neg small] at rest
        cases rest

/-- The node is found, no constraint exceeds the duration, and the insertions
go through. -/
structure AddsJob (domainName : String) (job : TJob) (world : World) : Prop where
  node : FindsNode job world
  constraints : WithinDuration domain job
  executed : Mysql.Transacts (jobStatements job ++ constraintStatements job)
    (some domainName) world.answered.answered

theorem keeps_addJob (domainName : String) (job : TJob) :
    Keeps MutexFree (addJob domain domainName job) (AddsJob domain domainName job) := by
  constructor
  · intro before value after free ran
    rw [addJob, bind_of_ok (lock_of_free free)] at ran
    obtain ⟨_, _, _, rest⟩ := bind_eq_ok_iff.mp ran
    obtain ⟨_, _, _, executed⟩ := bind_eq_ok_iff.mp rest
    exact returned_executeAndUnlock executed
  · intro world free
    rw [addJob, bind_of_ok (lock_of_free free)]
    cases checked : checkNode job { world with updatesMutex := true } with
    | error raised after =>
        have locked := within_frame_locked
          ((within_checkNode job).mono fun _ _ => ReadOnly.frame) world
        rw [checked] at locked
        rw [bind_of_error checked]
        refine ⟨fun free => absurd free locked, fun adds => ?_⟩
        have found : FindsNode job { world with updatesMutex := true } :=
          ⟨adds.node.connected, adds.node.answered, adds.node.found⟩
        rw [checkNode_of_finds found] at checked
        cases checked
    | ok _ after =>
        have found := finds_of_checkNode checked
        have finds : FindsNode job world := ⟨found.connected, found.answered, found.found⟩
        rw [checkNode_of_finds found] at checked
        cases checked
        rw [bind_of_ok (checkNode_of_finds found)]
        by_cases bounded : WithinDuration domain job
        · rw [mapM_timeConstraintStatement domain bounded,
            bind_of_ok (rfl : lift (.ok (constraintStatements job)) _ = .ok _ _)]
          have executed := free_executeAndUnlock_iff
            (jobStatements job ++ constraintStatements job) (some domainName)
            world.answered.answered
          exact executed.trans ⟨fun executes => ⟨finds, bounded, executes⟩, AddsJob.executed⟩
        · obtain ⟨raised, left⟩ := mapM_timeConstraintStatement_of_above domain bounded
          rw [left, bind_of_error (rfl : lift (.error raised) _ = .error raised _)]
          refine ⟨nofun, fun adds => absurd adds.constraints bounded⟩

/-! ## Every mutator -/

/-- The insertion of `add_resource` goes through. -/
def AddsResource (domainName nodeName : String) (resource : TResource) : World → Prop :=
  Mysql.Transacts
    [.insertResource resource.name nodeName resource.currentValue resource.initialValue]
    (some domainName)

/-- The insertions of `add_node` go through, in the states that the loops reach. -/
def AddsNode (domainName : String) (node : TNode) (world : World) : Prop :=
  Mysql.Transacts [.insertIgnoreWeightedNode node.name node.weight] (some domainName) world ∧
    ∀ after, addWeightedNode domainName node.name node.weight world = .ok true after →
      AlongLoop (fun resource => addResource domainName resource node.name)
          (AddsResource domainName node.name) node.resources after ∧
        ∀ later,
          allTrue (fun resource => addResource domainName resource node.name)
              node.resources after = .ok true later →
            AlongLoop (addJob domain domainName) (AddsJob domain domainName) node.jobs later

theorem keeps_addNode (domainName : String) (node : TNode) :
    Keeps MutexFree (addNode domain domainName node) (AddsNode domain domainName node) := by
  have resources := keeps_allTrue (fun resource : TResource => keeps_lockedExecute
    [.insertResource resource.name node.name resource.currentValue resource.initialValue]
    (some domainName)) node.resources
  have jobs := keeps_allTrue (keeps_addJob domain domainName) node.jobs
  exact keeps_andThen (keeps_lockedExecute _ _) (keeps_andThen resources jobs)

/-- The deletions of `remove_job` go through. -/
def RemovesJob (domainName jobName : String) : World → Prop :=
  Mysql.Transacts [.deleteJob jobName, .deleteLinks jobName, .deleteTimeConstraints jobName]
    (some domainName)

/-- The deletions of `remove_node` go through.  Whatever `get_node` does, it does
before the mutex is taken. -/
def RemovesNode (domainName nodeName : String) (world : World) : Prop :=
  ∀ node after, getNode domain domainName nodeName world = .ok node after →
    AlongLoop removeJob (fun job => RemovesJob job.domain job.name) node.jobs after ∧
      ∀ later, allTrue removeJob node.jobs after = .ok true later →
        Mysql.Transacts [.deleteNode nodeName] (some domainName) later

theorem keeps_removeNode (domainName nodeName : String) :
    Keeps MutexFree (removeNode domain domainName nodeName)
      (RemovesNode domain domainName nodeName) := by
  have kept : ∀ before after, ReadOnly before after → MutexFree before → MutexFree after := by
    intro before after readOnly free
    exact readOnly.frame.updatesMutex.trans free
  have reads := keeps_of_within kept (within_getNode domain domainName nodeName)
  have removes : ∀ node : TNode, Keeps MutexFree
      (andThen (allTrue removeJob node.jobs)
        (lockedExecute [.deleteNode nodeName] (some domainName))) _ := fun node =>
    keeps_andThen (keeps_allTrue (fun job : TJob => keeps_lockedExecute _ _) node.jobs)
      (keeps_lockedExecute [.deleteNode nodeName] (some domainName))
  exact (keeps_bind reads removes).congr fun world => iff_of_eq (true_and _)

/-- The state of a job is updated, unless the name of the node is empty. -/
def UpdatesState (domainName runningNode : String) (statement : Statement)
    (world : World) : Prop :=
  runningNode ≠ "" → Mysql.Transacts [statement] (some domainName) world

theorem keeps_updatesState (domainName runningNode : String) (statement : Statement) :
    Keeps MutexFree
      (if runningNode = "" then return false
        else lockedExecute [statement] (some domainName))
      (UpdatesState domainName runningNode statement) := by
  refine (keeps_ite (keeps_pure false)
    (keeps_lockedExecute [statement] (some domainName))).congr fun world => ?_
  by_cases empty : runningNode = ""
  · simp [UpdatesState, empty]
  · simp [UpdatesState, empty]

/-- A call of a method that takes `updates_mutex`, with its arguments. -/
inductive Mutation where
  | addNode (domainName : String) (node : TNode)
  | addNamedNode (domainName nodeName : String)
  | addWeightedNode (domainName nodeName : String) (weight : Integer)
  | removeNode (domainName nodeName : String)
  | addJob (domainName : String) (job : TJob)
  | updateJob (job : TJob)
  | removeJob (job : TJob)
  | removeNamedJob (domainName jobName : String)
  | updateRpcJobState (domainName : String) (job : TJob)
  | updateStateOfJob (domainName : String) (job : Option TJob) (state : EJobState)
  | updateJobState (domainName runningNode jobName : String) (state : EJobState)
  | updateJobStateTimes (domainName runningNode jobName : String) (state : EJobState)
      (startTime stopTime : Int)
  | updateStateTimesOfJob (domainName : String) (job : TJob) (state : EJobState)
      (startTime stopTime : Int)
  | addResource (domainName : String) (resource : TResource) (nodeName : String)
  deriving DecidableEq, Repr

namespace Mutation

def run : Mutation → Action Bool
  | addNode domainName node => domain.addNode domainName node
  | addNamedNode domainName nodeName => Domain.addNamedNode domainName nodeName
  | addWeightedNode domainName nodeName weight =>
      Domain.addWeightedNode domainName nodeName weight
  | removeNode domainName nodeName => domain.removeNode domainName nodeName
  | addJob domainName job => domain.addJob domainName job
  | updateJob job => Domain.updateJob job
  | removeJob job => Domain.removeJob job
  | removeNamedJob domainName jobName => Domain.removeNamedJob domainName jobName
  | updateRpcJobState domainName job => Domain.updateRpcJobState domainName job
  | updateStateOfJob domainName job state => Domain.updateStateOfJob domainName job state
  | updateJobState domainName runningNode jobName state =>
      Domain.updateJobState domainName runningNode jobName state
  | updateJobStateTimes domainName runningNode jobName state startTime stopTime =>
      Domain.updateJobStateTimes domainName runningNode jobName state startTime stopTime
  | updateStateTimesOfJob domainName job state startTime stopTime =>
      Domain.updateStateTimesOfJob domainName job state startTime stopTime
  | addResource domainName resource nodeName =>
      Domain.addResource domainName resource nodeName

/-- No database call that the method makes under the mutex raises, and no check
that it makes there fails. -/
def Undisturbed : Mutation → World → Prop
  | addNode domainName node => AddsNode domain domainName node
  | addNamedNode domainName nodeName =>
      Mysql.Transacts [.insertIgnoreNode nodeName] (some domainName)
  | addWeightedNode domainName nodeName weight =>
      Mysql.Transacts [.insertIgnoreWeightedNode nodeName weight] (some domainName)
  | removeNode domainName nodeName => RemovesNode domain domainName nodeName
  | addJob domainName job => AddsJob domain domainName job
  | updateJob job => Mysql.Transacts (updateJobStatements job) (some job.nodeName)
  | removeJob job => RemovesJob job.domain job.name
  | removeNamedJob domainName jobName => RemovesJob domainName jobName
  | updateRpcJobState domainName job =>
      UpdatesState domainName job.nodeName (.updateJobState job.name job.state)
  | updateStateOfJob domainName job state => fun world =>
      ∀ job' ∈ job, UpdatesState domainName job'.nodeName (.updateJobState job'.name state) world
  | updateJobState domainName runningNode jobName state =>
      UpdatesState domainName runningNode (.updateJobState jobName state)
  | updateJobStateTimes domainName runningNode jobName state startTime stopTime =>
      UpdatesState domainName runningNode
        (.updateJobStateTimes jobName state startTime stopTime)
  | updateStateTimesOfJob domainName job state startTime stopTime =>
      UpdatesState domainName job.nodeName
        (.updateJobStateTimes job.name state startTime stopTime)
  | addResource domainName resource nodeName => AddsResource domainName nodeName resource

theorem keeps_run (mutation : Mutation) :
    Keeps MutexFree (mutation.run domain) (mutation.Undisturbed domain) := by
  cases mutation with
  | addNode domainName node => exact keeps_addNode domain domainName node
  | addNamedNode domainName nodeName => exact keeps_lockedExecute _ _
  | addWeightedNode domainName nodeName weight => exact keeps_lockedExecute _ _
  | removeNode domainName nodeName => exact keeps_removeNode domain domainName nodeName
  | addJob domainName job => exact keeps_addJob domain domainName job
  | updateJob job => exact keeps_lockedExecute _ _
  | removeJob job => exact keeps_lockedExecute _ _
  | removeNamedJob domainName jobName => exact keeps_lockedExecute _ _
  | updateRpcJobState domainName job => exact keeps_updatesState _ _ _
  | updateStateOfJob domainName job state =>
      cases job with
      | none => exact (keeps_pure false).congr fun world => by simp [Undisturbed]
      | some job =>
          exact (keeps_updatesState domainName job.nodeName _).congr fun world => by
            simp [Undisturbed]
  | updateJobState domainName runningNode jobName state => exact keeps_updatesState _ _ _
  | updateJobStateTimes domainName runningNode jobName state startTime stopTime =>
      exact keeps_updatesState _ _ _
  | updateStateTimesOfJob domainName job state startTime stopTime =>
      exact keeps_updatesState _ _ _
  | addResource domainName resource nodeName => exact keeps_lockedExecute _ _

end Mutation

/-! ## Sequences of calls -/

/-- A call, with the schemas and the answers of the server that it finds. -/
structure Call where
  mutation : Mutation
  server : Server
  answers : List Answer

namespace Call

/-- The state in which the call is made after whatever has left `world`. -/
def entry (call : Call) (world : World) : World :=
  { world with server := call.server, answers := call.answers }

/-- The state in which the call is left, by a return or by an exception. -/
def exit (call : Call) (world : World) : World :=
  finalState (call.mutation.run domain (call.entry world))

end Call

/-- After each of the calls the mutex is free and the next writer can take it. -/
def FreeAfterEach : List Call → World → Prop
  | [], _ => True
  | call :: calls, world =>
      let after := call.exit domain world
      MutexFree after ∧ (∃ entered, lock after = .ok () entered) ∧ FreeAfterEach calls after

/-- Each of the calls is undisturbed in the state in which it is made. -/
def UndisturbedEach : List Call → World → Prop
  | [], _ => True
  | call :: calls, world =>
      call.mutation.Undisturbed domain (call.entry world) ∧
        UndisturbedEach calls (call.exit domain world)

/-- From a free mutex, every call of a sequence leaves the mutex free if and only
if every call is undisturbed. -/
theorem mutex_free_after_each_iff (calls : List Call) (world : World)
    (free : MutexFree world) :
    FreeAfterEach domain calls world ↔ UndisturbedEach domain calls world := by
  induction calls generalizing world with
  | nil => exact Iff.rfl
  | cons call calls inductionHypothesis =>
      have entered : MutexFree (call.entry world) := free
      have step : MutexFree (call.exit domain world) ↔
          call.mutation.Undisturbed domain (call.entry world) :=
        (call.mutation.keeps_run domain).exact entered
      constructor
      · rintro ⟨freeAfter, _, rest⟩
        exact ⟨step.mp freeAfter, (inductionHypothesis _ freeAfter).mp rest⟩
      · rintro ⟨undisturbed, rest⟩
        have freeAfter := step.mpr undisturbed
        exact ⟨freeAfter, ⟨_, lock_of_free freeAfter⟩,
          (inductionHypothesis _ freeAfter).mpr rest⟩

def dailyDomain : Domain where
  name := "test_domain"
  initialPlanningStartTime := 0
  planningDuration := 86400

/-- The template schema of `dailyDomain` with a single node. -/
def oneNode : Schema where
  baseTables := skeletonBaseTables
  views := skeletonViews
  tables := { node := [⟨"localhost", 10⟩] }

def oneNodeWorld : World where
  server := (⟨∅⟩ : Server).setSchema "test_domain" oneNode

def addSecondNode : Call where
  mutation := .addNamedNode "test_domain" "second"
  server := oneNodeWorld.server
  answers := []

theorem mutex_free_after_addSecondNode :
    FreeAfterEach dailyDomain [addSecondNode] oneNodeWorld := by
  refine (mutex_free_after_each_iff dailyDomain [addSecondNode] oneNodeWorld rfl).mpr
    ⟨?_, trivial⟩
  exact (Mysql.raises_standaloneExecute_iff _ _ _).mp (by decide)

/-- A job for a node that nobody has added. -/
def lostJob : TJob where
  name := "backup"
  nodeName := "nowhere"
  domain := "test_domain"
  cmdLine := "/bin/ls"

def addLostJob : Call where
  mutation := .addJob "test_domain" lostJob
  server := oneNodeWorld.server
  answers := []

/-- `add_job` on an unknown node raises under the mutex and leaves it locked. -/
theorem mutex_locked_after_addLostJob :
    ¬ ∀ (domain : Domain) (calls : List Call) (world : World),
      MutexFree world → FreeAfterEach domain calls world := by
  intro always
  have refuted : ¬ MutexFree (addLostJob.exit dailyDomain oneNodeWorld) := by decide
  exact refuted (always dailyDomain [addLostJob] oneNodeWorld rfl).1

end OpenWorkloadScheduler.Domain
