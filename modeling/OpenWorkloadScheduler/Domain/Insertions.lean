import OpenWorkloadScheduler.Domain.Mutex
import OpenWorkloadScheduler.Foundations.Prefixes
import OpenWorkloadScheduler.Store.Rows

/-!
# What the insertions do to the rows

The transaction of `add_job` on the rows of a schema: when its statements go
through, and which rows they add.  When no call of MySQL fails, this is what
`add_job` does to the schema that it is given.
-/

namespace OpenWorkloadScheduler.Domain

open Rpc Store Foundations

/-! ## The rows of a job -/

def rowOfJob (job : TJob) : JobRow where
  jobName := job.name
  jobCmdLine := job.cmdLine
  jobNodeName := job.nodeName
  jobWeight := job.weight

def linksOfJob (job : TJob) : List JobsLinkRow :=
  (job.prv.map fun prv => ⟨prv, job.name⟩) ++ job.nxt.map fun nxt => ⟨job.name, nxt⟩

def constraintsOfJob (job : TJob) : List TimeConstraintRow :=
  job.timeConstraints.map fun constraint =>
    ⟨constraint.type, secToTime constraint.value, job.name⟩

/-- The rows with those of one more job. -/
def withJob (tables : Tables) (job : TJob) : Tables :=
  { tables with
    job := tables.job ++ [rowOfJob job]
    jobsLink := tables.jobsLink ++ linksOfJob job
    timeConstraint := tables.timeConstraint ++ constraintsOfJob job }

/-! ## Insertions, row by row -/

/-- The rows with more links. -/
def withLinks (tables : Tables) (rows : List JobsLinkRow) : Tables :=
  { tables with jobsLink := tables.jobsLink ++ rows }

theorem inserts_jobsLink :
    Inserts Tables.insertJobsLink withLinks
      (fun tables row => row ∉ tables.jobsLink ∧ tables.hasJob row.jobNamePrv ∧
        tables.hasJob row.jobNameNxt)
      Eq where
  step := by
    intro before after row
    unfold Tables.insertJobsLink
    split
    · rename_i duplicate
      exact ⟨nofun, fun ⟨⟨new, _⟩, _⟩ => absurd duplicate new⟩
    · rename_i new
      split
      · rename_i orphan
        exact ⟨nofun, fun ⟨⟨_, prv, _⟩, _⟩ => absurd prv orphan⟩
      · rename_i prv
        split
        · rename_i orphan
          exact ⟨nofun, fun ⟨⟨_, _, nxt⟩, _⟩ => absurd nxt orphan⟩
        · rename_i nxt
          rw [Except.ok.injEq, eq_comm]
          exact ⟨fun same => ⟨⟨new, not_not.mp prv, not_not.mp nxt⟩, same⟩, And.right⟩
  allowed_add := by
    intro tables first second
    simp only [withLinks, List.mem_append, List.mem_singleton, not_or, Tables.hasJob, eq_comm]
    tauto
  add_nil tables := by
    simp [withLinks]
  add_add tables rows others := by
    simp [withLinks]

/-- The rows with more constraints. -/
def withConstraints (tables : Tables) (rows : List TimeConstraintRow) : Tables :=
  { tables with timeConstraint := tables.timeConstraint ++ rows }

/-- Two constraints of one job and one type have the same key. -/
def SameKey (first second : TimeConstraintRow) : Prop :=
  first.timeCType = second.timeCType ∧ first.timeCJobName = second.timeCJobName

theorem inserts_timeConstraint :
    Inserts Tables.insertTimeConstraint withConstraints
      (fun tables row => (∀ other ∈ tables.timeConstraint, ¬ SameKey other row) ∧
        tables.hasJob row.timeCJobName)
      SameKey where
  step := by
    intro before after row
    unfold Tables.insertTimeConstraint
    split
    · rename_i duplicate
      obtain ⟨other, member, same⟩ := duplicate
      exact ⟨nofun, fun ⟨⟨new, _⟩, _⟩ => absurd same (new other member)⟩
    · rename_i new
      split
      · rename_i orphan
        exact ⟨nofun, fun ⟨⟨_, named⟩, _⟩ => absurd named orphan⟩
      · rename_i named
        rw [Except.ok.injEq, eq_comm]
        refine ⟨fun same => ⟨⟨fun other member clash => ?_, not_not.mp named⟩, same⟩, And.right⟩
        exact new ⟨other, member, clash⟩
  allowed_add := by
    intro tables first second
    simp only [withConstraints, List.forall_mem_append, List.forall_mem_singleton,
      Tables.hasJob]
    tauto
  add_nil tables := by
    simp [withConstraints]
  add_add tables rows others := by
    simp [withConstraints]

theorem insertJob_eq_ok_iff {tables changed : Tables} {row : JobRow} :
    tables.insertJob row = .ok changed ↔
      (¬ tables.hasJob row.jobName ∧ tables.hasNode row.jobNodeName) ∧
        changed = { tables with job := tables.job ++ [row] } := by
  unfold Tables.insertJob
  split
  · rename_i duplicate
    exact ⟨nofun, fun ⟨⟨new, _⟩, _⟩ => absurd duplicate new⟩
  · rename_i new
    split
    · rename_i orphan
      exact ⟨nofun, fun ⟨⟨_, node⟩, _⟩ => absurd node orphan⟩
    · rename_i node
      rw [Except.ok.injEq, eq_comm]
      exact ⟨fun same => ⟨⟨new, not_not.mp node⟩, same⟩, And.right⟩

/-! ## The transaction of `add_job` -/

theorem rowsAfter_links (job : TJob) (tables : Tables) :
    rowsAfter ((job.prv.map fun prv => .insertPrvLink prv job.name) ++
        job.nxt.map fun nxt => .insertNxtLink nxt job.name) tables =
      (linksOfJob job).foldlM Tables.insertJobsLink tables := by
  unfold rowsAfter linksOfJob
  rw [List.foldlM_append, List.foldlM_append, List.foldlM_map, List.foldlM_map]
  simp only [List.foldlM_map]
  rfl

theorem rowsAfter_constraints (job : TJob) (tables : Tables) :
    rowsAfter (constraintStatements job) tables =
      (constraintsOfJob job).foldlM Tables.insertTimeConstraint tables := by
  unfold rowsAfter constraintStatements constraintsOfJob
  rw [List.foldlM_map, List.foldlM_map]
  rfl

/-- The job is new and on a node that exists, its links and constraints are new
and lead to jobs that exist, the job itself included. -/
structure Insertable (tables : Tables) (job : TJob) : Prop where
  name : ¬ tables.hasJob job.name
  node : tables.hasNode job.nodeName
  links : (linksOfJob job).Nodup
  newLinks : ∀ row ∈ linksOfJob job, row ∉ tables.jobsLink
  linked : ∀ row ∈ linksOfJob job,
    (tables.hasJob row.jobNamePrv ∨ row.jobNamePrv = job.name) ∧
      (tables.hasJob row.jobNameNxt ∨ row.jobNameNxt = job.name)
  constraints : (constraintsOfJob job).Pairwise fun first second => ¬ SameKey first second
  newConstraints : ∀ row ∈ constraintsOfJob job, ∀ other ∈ tables.timeConstraint,
    ¬ SameKey other row

theorem hasJob_append {tables : Tables} {rows : List JobRow} {name : String} :
    Tables.hasJob { tables with job := tables.job ++ rows } name ↔
      tables.hasJob name ∨ name ∈ rows.map JobRow.jobName := by
  simp [Tables.hasJob]

theorem rowsAfter_addJob (job : TJob) (tables : Tables) :
    rowsAfter (jobStatements job ++ constraintStatements job) tables =
      tables.insertJob (rowOfJob job) >>= fun inserted =>
        (linksOfJob job).foldlM Tables.insertJobsLink inserted >>= fun linked =>
          (constraintsOfJob job).foldlM Tables.insertTimeConstraint linked := by
  have inserted : (Statement.insertJob job.name job.cmdLine job.nodeName
      job.weight).effect.changedRows tables = tables.insertJob (rowOfJob job) :=
    rfl
  rw [jobStatements, List.cons_append, List.cons_append, rowsAfter_cons, inserted]
  cases tables.insertJob (rowOfJob job) with
  | error error => rfl
  | ok inserted =>
      rw [except_ok_bind, except_ok_bind, rowsAfter_append, rowsAfter_links]
      exact congrArg _ (funext fun linked => rowsAfter_constraints job linked)

theorem rowsAfter_addJob_eq_ok_iff {tables changed : Tables} {job : TJob} :
    rowsAfter (jobStatements job ++ constraintStatements job) tables = .ok changed ↔
      Insertable tables job ∧ changed = withJob tables job := by
  rw [rowsAfter_addJob]
  simp only [except_bind_eq_ok_iff, insertJob_eq_ok_iff, inserts_jobsLink.foldlM_eq_ok_iff,
    inserts_timeConstraint.foldlM_eq_ok_iff]
  constructor
  · rintro ⟨_, ⟨⟨name, node⟩, rfl⟩, _, ⟨⟨links, linked⟩, rfl⟩, ⟨constraints, constrained⟩, rfl⟩
    refine ⟨⟨name, node, links, fun row member => (linked row member).1, ?_, constraints,
      fun row member => (constrained row member).1⟩, rfl⟩
    intro row member
    have known := (linked row member).2
    simpa [hasJob_append, rowOfJob] using known
  · rintro ⟨insertable, rfl⟩
    refine ⟨_, ⟨⟨insertable.name, insertable.node⟩, rfl⟩, _,
      ⟨⟨insertable.links, fun row member => ⟨insertable.newLinks row member, ?_⟩⟩, rfl⟩,
      ⟨insertable.constraints, fun row member => ⟨insertable.newConstraints row member, ?_⟩⟩,
      rfl⟩
    · have known := insertable.linked row member
      simpa [hasJob_append, rowOfJob] using known
    · obtain ⟨constraint, _, rfl⟩ := List.mem_map.mp member
      simp [withLinks, Tables.hasJob, rowOfJob]

/-! ## The writers on a schema that holds given rows -/

section Held

variable {world : World} {schema : Schema} {name : String}

theorem holding_locked (free : MutexFree world) (name : String) (schema : Schema)
    (tables : Tables) :
    { World.holding { world with updatesMutex := true } name schema tables with
      updatesMutex := false } = world.holding name schema tables := by
  unfold MutexFree at free
  cases world
  cases free
  rfl

theorem lock_holding (free : MutexFree world) (name : String) (schema : Schema)
    (tables : Tables) :
    lock (world.holding name schema tables) =
      .ok () (World.holding { world with updatesMutex := true } name schema tables) :=
  lock_of_free free

theorem executeAndUnlock_of_rowsAfter_ok {statements : List Statement}
    {tables changed : Tables} (quiet : Mysql.Quiet world) (free : MutexFree world)
    (changes : ∀ statement ∈ statements, statement.ChangesRows schema)
    (ran : rowsAfter statements tables = .ok changed) :
    executeAndUnlock statements (some name)
        (World.holding { world with updatesMutex := true } name schema tables) =
      .ok true (world.holding name schema changed) := by
  have later : Mysql.Quiet { world with updatesMutex := true } := quiet
  rw [executeAndUnlock,
    bind_of_ok (Mysql.standaloneExecute_of_rowsAfter_ok later changes name ran),
    ← holding_locked free name schema changed]
  rfl

theorem raises_executeAndUnlock_of_rowsAfter_error {statements : List Statement}
    {tables : Tables} {error : String} (quiet : Mysql.Quiet world)
    (changes : ∀ statement ∈ statements, statement.ChangesRows schema)
    (ran : rowsAfter statements tables = .error error) :
    raises (executeAndUnlock statements (some name)
      (World.holding { world with updatesMutex := true } name schema tables)) = true := by
  have later : Mysql.Quiet { world with updatesMutex := true } := quiet
  have raised := Mysql.raises_standaloneExecute_of_rowsAfter_error later changes name ran
  rw [executeAndUnlock]
  cases left : Mysql.standaloneExecute statements (some name)
      (World.holding { world with updatesMutex := true } name schema tables) with
  | ok value after =>
      rw [left] at raised
      cases raised
  | error text after =>
      rw [bind_of_error left]
      rfl

theorem changesRows_of_effect {statement : Statement} {table : String}
    {change : Tables → Except String Tables} (complete : schema.Complete)
    (effect : statement.effect = .rows table change) (member : table ∈ skeletonBaseTables) :
    statement.ChangesRows schema :=
  ⟨table, change, effect, complete.baseTables table member⟩

theorem addWeightedNode_of_quiet (quiet : Mysql.Quiet world) (free : MutexFree world)
    (complete : schema.Complete) (tables : Tables) (nodeName : String) (weight : Integer) :
    addWeightedNode name nodeName weight (world.holding name schema tables) =
      .ok true (world.holding name schema (tables.insertIgnoreNode ⟨nodeName, weight⟩)) := by
  rw [addWeightedNode, lockedExecute, bind_of_ok (lock_holding free name schema tables)]
  refine executeAndUnlock_of_rowsAfter_ok quiet free ?_ rfl
  rintro statement (_ | ⟨_, ⟨⟩⟩)
  exact changesRows_of_effect complete rfl (by decide)

theorem changesRows_addJob (complete : schema.Complete) (job : TJob) :
    ∀ statement ∈ jobStatements job ++ constraintStatements job,
      statement.ChangesRows schema := by
  intro statement member
  rcases List.mem_append.mp member with inserted | constrained
  · rcases List.mem_append.mp inserted with first | nxt
    · rcases List.mem_cons.mp first with rfl | prv
      · exact changesRows_of_effect complete rfl (by decide)
      · obtain ⟨_, _, rfl⟩ := List.mem_map.mp prv
        exact changesRows_of_effect complete rfl (by decide)
    · obtain ⟨_, _, rfl⟩ := List.mem_map.mp nxt
      exact changesRows_of_effect complete rfl (by decide)
  · obtain ⟨_, _, rfl⟩ := List.mem_map.mp constrained
    exact changesRows_of_effect complete rfl (by decide)

variable (domain : Domain)

/-- `add_job` of a job whose node is found, on a schema of the given rows. -/
theorem answers_addJob (quiet : Mysql.Quiet world) (free : MutexFree world)
    (complete : schema.Complete) {tables : Tables} {job : TJob}
    (finds : FindsNode job (world.holding name schema tables)) :
    Answers (addJob domain name job) (world.holding name schema tables)
      (WithinDuration domain job ∧ Insertable tables job)
      (world.holding name schema (withJob tables job)) := by
  have later : Mysql.Quiet
      (World.holding { world with updatesMutex := true } name schema tables) := quiet
  have found : FindsNode job
      (World.holding { world with updatesMutex := true } name schema tables) :=
    ⟨finds.connected, finds.answered, finds.found⟩
  have checked := checkNode_of_finds found
  rw [Mysql.answered_of_quiet later, Mysql.answered_of_quiet later] at checked
  have entered : addJob domain name job (world.holding name schema tables) =
      (do
        let constraints ←
          lift (job.timeConstraints.mapM (timeConstraintStatement domain job.name))
        executeAndUnlock (jobStatements job ++ constraints) (some name))
        (World.holding { world with updatesMutex := true } name schema tables) := by
    rw [addJob, bind_of_ok (lock_holding free name schema tables), bind_of_ok checked]
  constructor
  · rintro ⟨bounded, insertable⟩
    rw [entered, mapM_timeConstraintStatement domain bounded]
    exact executeAndUnlock_of_rowsAfter_ok quiet free (changesRows_addJob complete job)
      (rowsAfter_addJob_eq_ok_iff.mpr ⟨insertable, rfl⟩)
  · intro fails
    rw [entered]
    by_cases bounded : WithinDuration domain job
    · rw [mapM_timeConstraintStatement domain bounded]
      cases ran : rowsAfter (jobStatements job ++ constraintStatements job) tables with
      | ok changed =>
          exact absurd ⟨bounded, (rowsAfter_addJob_eq_ok_iff.mp ran).1⟩ fails
      | error error =>
          exact raises_executeAndUnlock_of_rowsAfter_error quiet
            (changesRows_addJob complete job) ran
    · obtain ⟨raised, left⟩ := mapM_timeConstraintStatement_of_above domain bounded
      rw [left]
      rfl

end Held

end OpenWorkloadScheduler.Domain
