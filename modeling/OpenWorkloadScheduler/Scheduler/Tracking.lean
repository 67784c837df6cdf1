import OpenWorkloadScheduler.Foundations.Replacing
import OpenWorkloadScheduler.Scheduler.ServedSteps
import OpenWorkloadScheduler.Store.JobRows
import OpenWorkloadScheduler.Store.Readiness

/-!
# The threads and the states in the database

While the threads are the only ones to write to the planning in service, and every
command ends well, the state of each job is that of its thread: a job waits until
it has a thread that has written `RUNNING`, and it has succeeded once its thread
has come to its end.
-/

namespace OpenWorkloadScheduler

open Rpc Store Foundations Domain

/-! ## Where a thread stands -/

/-- The state of the job in the database. -/
def Phase.rowState : Phase → EJobState
  | .created => .waiting
  | .running => .running
  | .executing _ => .running
  | .executed _ _ _ => .running
  | .finished => .succeded

/-- The command has been executed. -/
def Phase.hasExecuted : Phase → Bool
  | .created => false
  | .running => false
  | _ => true

/-- The number of steps that the thread has still to make. -/
def Phase.remaining : Phase → Nat
  | .created => 4
  | .running => 3
  | .executing _ => 2
  | .executed _ _ _ => 1
  | .finished => 0

/-- The command has not failed. -/
def Phase.EndsWell : Phase → Prop
  | .executed _ _ returnCode => returnCode = 0
  | _ => True

namespace Master

variable (domain : Domain) (settings : Settings)

/-- The rows of the planning of the given start time. -/
def rowsOf (startTime : Int) (master : Master) : List JobRow :=
  (master.world.server.tables (planningName domain startTime)).job

/-- The schema with other rows of `job`. -/
def withRows (schema : Schema) (rows : List JobRow) : Schema :=
  { schema with tables := { schema.tables with job := rows } }

/-- The jobs of the planning wait on this node, without constraints, and their links
can be followed to the end. -/
structure Startable (tables : Tables) : Prop where
  key : (tables.job.map JobRow.jobName).Nodup
  here : ∀ row ∈ tables.job, row.jobNodeName = settings.nodeName
  waiting : ∀ row ∈ tables.job, row.jobState = some .waiting
  acceptable : ∀ row ∈ tables.job, isAcceptable row = true
  unconstrained : tables.timeConstraint = []
  acyclic : ∀ name, ¬ Relation.TransGen tables.Links name name
  existing : ∀ link ∈ tables.jobsLink, tables.hasJob link.jobNamePrv ∧
    tables.hasJob link.jobNameNxt

/-- The planning was started with the given schema, and the threads that have been
started for its jobs have written all that has been written since. -/
structure Tracks (schema : Schema) (startTime : Int) (master : Master) : Prop where
  current : master.world.planningStartTime = startTime
  begun : startTime ≤ master.world.clock
  serving : Serving master.world (planningName domain startTime)
    (withRows schema (rowsOf domain startTime master))
  basis : (rowsOf domain startTime master).map JobRow.basis =
    schema.tables.job.map JobRow.basis
  jobs : ∀ thread ∈ master.threads,
    thread.job ∈ schema.tables.job.map (basicJob (planningName domain startTime))
  distinct : (master.threads.map fun thread => thread.job.name).Nodup
  followed : ∀ thread ∈ master.threads, ∀ row ∈ rowsOf domain startTime master,
    row.jobName = thread.job.name → row.jobState = some thread.phase.rowState
  untouched : ∀ row ∈ rowsOf domain startTime master,
    (∀ thread ∈ master.threads, thread.job.name ≠ row.jobName) → row.jobState = some .waiting
  endsWell : ∀ thread ∈ master.threads, thread.phase.EndsWell
  counted : ∀ job, master.executions.count job =
    master.threads.countP fun thread => thread.phase.hasExecuted && thread.job = job

section Tracking

variable {domain settings} {schema : Schema} {startTime : Int} {master : Master}

theorem map_jobName_rowsOf (tracks : Tracks domain schema startTime master) :
    (rowsOf domain startTime master).map JobRow.jobName =
      schema.tables.job.map JobRow.jobName := by
  have names := congrArg (List.map JobRow.jobName) tracks.basis
  rw [List.map_map, List.map_map] at names
  exact names

/-- The job of a thread is not empty, and its copy says that it waits. -/
theorem job_of_tracks (startable : Startable settings schema.tables)
    (tracks : Tracks domain schema startTime master) {thread : JobThread}
    (member : thread ∈ master.threads) :
    thread.job.domain = planningName domain startTime ∧ thread.job.state = .waiting ∧
      thread.job.nodeName ≠ "" := by
  obtain ⟨row, rowMember, equality⟩ := List.mem_map.mp (tracks.jobs thread member)
  have acceptable := startable.acceptable row rowMember
  simp only [isAcceptable, Bool.and_eq_true, decide_eq_true_eq] at acceptable
  rw [← equality]
  refine ⟨rfl, ?_, acceptable.1.2⟩
  rw [basicJob, startable.waiting row rowMember]
  rfl

/-! ## Steps that keep the correspondence -/

theorem Tracks.later (tracks : Tracks domain schema startTime master) (seconds : Nat) :
    Tracks domain schema startTime { master with
      world := { master.world with clock := master.world.clock + seconds } } where
  current := tracks.current
  begun := by
    have begun := tracks.begun
    change startTime ≤ master.world.clock + seconds
    omega
  serving := tracks.serving.later _
  basis := tracks.basis
  jobs := tracks.jobs
  distinct := tracks.distinct
  followed := tracks.followed
  untouched := tracks.untouched
  endsWell := tracks.endsWell
  counted := tracks.counted

theorem Tracks.loop (tracks : Tracks domain schema startTime master) (point : LoopPoint)
    (jobs : List TJob) : Tracks domain schema startTime { master with point, jobs } where
  current := tracks.current
  begun := tracks.begun
  serving := tracks.serving
  basis := tracks.basis
  jobs := tracks.jobs
  distinct := tracks.distinct
  followed := tracks.followed
  untouched := tracks.untouched
  endsWell := tracks.endsWell
  counted := tracks.counted

theorem Tracks.move (tracks : Tracks domain schema startTime master) {index : Nat} {job : TJob}
    {phase : Phase} (found : master.threads[index]? = some ⟨job, phase⟩) (next : Phase)
    {world : World} {executions : List TJob}
    (frame : world.planningStartTime = master.world.planningStartTime ∧
      world.clock = master.world.clock)
    (serving : Serving world (planningName domain startTime)
      (withRows schema (world.server.tables (planningName domain startTime)).job))
    (basis : (world.server.tables (planningName domain startTime)).job.map JobRow.basis =
      (rowsOf domain startTime master).map JobRow.basis)
    (moved : ∀ row ∈ (world.server.tables (planningName domain startTime)).job,
      row.jobName = job.name ∧ row.jobState = some next.rowState ∨
        row.jobName ≠ job.name ∧ row ∈ rowsOf domain startTime master)
    (endsWell : next.EndsWell)
    (counted : ∀ other, executions.count other + (phase.hasExecuted && job = other).toNat =
      master.executions.count other + (next.hasExecuted && job = other).toNat) :
    Tracks domain schema startTime { master with
      world, executions, threads := master.threads.set index ⟨job, next⟩ } := by
  have old : (⟨job, phase⟩ : JobThread) ∈ master.threads := List.mem_of_getElem? found
  have threads : ∀ thread ∈ master.threads.set index ⟨job, next⟩, thread = ⟨job, next⟩ ∨
      thread ∈ master.threads ∧ thread.job.name ≠ job.name := fun thread member =>
    mem_set_of_nodup tracks.distinct found member
  have names := map_set_of_eq (fun thread => thread.job.name) ⟨job, next⟩ found rfl
  constructor
  · exact frame.1.trans tracks.current
  · exact tracks.begun.trans_eq frame.2.symm
  · exact serving
  · exact basis.trans tracks.basis
  · intro thread member
    rcases threads thread member with rfl | ⟨earlier, _⟩
    · exact tracks.jobs ⟨job, phase⟩ old
    · exact tracks.jobs thread earlier
  · change ((master.threads.set index ⟨job, next⟩).map fun thread => thread.job.name).Nodup
    rw [names]
    exact tracks.distinct
  · intro thread member row rowMember sameName
    rcases threads thread member with rfl | ⟨earlier, different⟩
    · rcases moved row rowMember with ⟨_, state⟩ | ⟨other, _⟩
      · exact state
      · exact absurd sameName other
    · rcases moved row rowMember with ⟨same, _⟩ | ⟨_, kept⟩
      · exact absurd (sameName.symm.trans same) different
      · exact tracks.followed thread earlier row kept sameName
  · intro row rowMember without
    rcases moved row rowMember with ⟨same, _⟩ | ⟨different, kept⟩
    · obtain ⟨bound, _⟩ := List.getElem?_eq_some_iff.mp found
      exact absurd same.symm (without ⟨job, next⟩ (List.mem_set bound _))
    · refine tracks.untouched row kept fun thread earlier sameName => ?_
      have member : thread.job.name ∈
          (master.threads.set index ⟨job, next⟩).map fun thread => thread.job.name := by
        rw [names]
        exact List.mem_map_of_mem earlier
      obtain ⟨other, otherMember, otherName⟩ := List.mem_map.mp member
      exact without other otherMember (otherName.trans sameName)
  · intro thread member
    rcases threads thread member with rfl | ⟨earlier, _⟩
    · exact endsWell
    · exact tracks.endsWell thread earlier
  · intro other
    have threadsCounted := countP_set_add
      (fun thread => thread.phase.hasExecuted && thread.job = other) ⟨job, next⟩ found
    have executionsCounted := counted other
    have before := tracks.counted other
    change executions.count other = (master.threads.set index ⟨job, next⟩).countP _
    dsimp only at threadsCounted
    omega

theorem Tracks.write (tracks : Tracks domain schema startTime master) {index : Nat} {job : TJob}
    {phase : Phase} (found : master.threads[index]? = some ⟨job, phase⟩) (next : Phase)
    {update : JobRow → JobRow} (basis : ∀ row, (update row).basis = row.basis)
    (state : ∀ row, (update row).jobState = some next.rowState) (endsWell : next.EndsWell)
    (same : next.hasExecuted = phase.hasExecuted) :
    Tracks domain schema startTime { master.moveThread index job next with
      world := master.world.holding (planningName domain startTime)
        (withRows schema (rowsOf domain startTime master))
        ((withRows schema (rowsOf domain startTime master)).tables.updateJob job.name
          update) } := by
  have named : ∀ row, (update row).jobName = row.jobName := by
    intro row
    have kept := congrArg JobRow.jobName (basis row)
    exact kept
  have written : ∀ tables, (master.world.holding (planningName domain startTime)
      (withRows schema (rowsOf domain startTime master)) tables).server.tables
        (planningName domain startTime) = tables :=
    fun tables => Server.tables_setSchema_self _ _ _
  refine tracks.move found next ⟨rfl, rfl⟩ ?_ ?_ ?_ endsWell ?_
  · rw [written]
    exact tracks.serving.holding _
  · rw [written]
    exact Tables.map_updateJob basis
  · intro row member
    rw [written] at member
    obtain ⟨old, oldMember, sameName, equality⟩ := (Tables.mem_updateJob named).mp member
    split at equality
    · rename_i updated
      exact Or.inl ⟨updated, by rw [equality, state]⟩
    · rename_i other
      rw [equality]
      exact Or.inr ⟨by rwa [← equality], oldMember⟩
  · intro other
    rw [same]
    rfl

theorem Tracks.still (tracks : Tracks domain schema startTime master) {index : Nat} {job : TJob}
    {phase : Phase} (found : master.threads[index]? = some ⟨job, phase⟩) (next : Phase)
    {executions : List TJob} (state : next.rowState = phase.rowState) (endsWell : next.EndsWell)
    (counted : ∀ other, executions.count other + (phase.hasExecuted && job = other).toNat =
      master.executions.count other + (next.hasExecuted && job = other).toNat) :
    Tracks domain schema startTime { master with
      executions, threads := master.threads.set index ⟨job, next⟩ } := by
  refine tracks.move found next ⟨rfl, rfl⟩ tracks.serving rfl (fun row member => ?_) endsWell
    counted
  by_cases same : row.jobName = job.name
  · rw [state]
    exact Or.inl ⟨same, tracks.followed _ (List.mem_of_getElem? found) row member same⟩
  · exact Or.inr ⟨same, member⟩

/-! ## The next step of a thread -/

/-- What a thread does next, if its command ends well. -/
def nextEvent (index : Nat) : Phase → Event
  | .created => .start index
  | .running => .popen index true
  | .executing _ => .pclose index 0
  | .executed _ _ _ => .finish index
  | .finished => .tick 0

/-- A thread that has not come to its end can make a step, which keeps the
correspondence. -/
theorem advance_of_tracks (startable : Startable settings schema.tables)
    (tracks : Tracks domain schema startTime master) (alive : master.point ≠ .exited)
    {index : Nat} {job : TJob} {phase : Phase}
    (found : master.threads[index]? = some ⟨job, phase⟩) (unfinished : phase ≠ .finished) :
    ∃ next world executions, next.remaining < phase.remaining ∧
      master.perform domain settings (nextEvent index phase) = some { master with
        world, executions, threads := master.threads.set index ⟨job, next⟩ } ∧
      Tracks domain schema startTime { master with
        world, executions, threads := master.threads.set index ⟨job, next⟩ } := by
  obtain ⟨sameDomain, waiting, located⟩ := job_of_tracks startable tracks
    (List.mem_of_getElem? found)
  dsimp only at sameDomain waiting located
  have serving := tracks.serving
  rw [← sameDomain] at serving
  cases phase with
  | created =>
      refine ⟨.running, _, _, Nat.lt_succ_self 3, start_of_serving domain settings alive found
        (by rw [waiting]; decide) located serving, ?_⟩
      rw [sameDomain]
      exact tracks.write found .running (fun row => rfl) (fun row => rfl) trivial rfl
  | running =>
      refine ⟨.executing master.world.clock, _, _, Nat.lt_succ_self 2,
        popen_of_opened domain settings alive found, ?_⟩
      refine tracks.still found _ rfl trivial fun other => ?_
      rw [List.count_append, List.count_singleton]
      by_cases same : job = other
      · simp [same, Phase.hasExecuted]
      · simp [same, Phase.hasExecuted]
  | executing executionStart =>
      refine ⟨.executed executionStart master.world.clock (Integer.narrow 0), _, _,
        Nat.lt_succ_self 1, pclose_of_found domain settings alive found 0, ?_⟩
      exact tracks.still found _ rfl rfl fun other => rfl
  | executed executionStart executionStop returnCode =>
      have endsWell : returnCode = 0 := tracks.endsWell _ (List.mem_of_getElem? found)
      refine ⟨.finished, _, _, Nat.lt_succ_self 0,
        finish_of_serving domain settings alive found located serving, ?_⟩
      rw [sameDomain]
      refine tracks.write found .finished (fun row => rfl) (fun row => ?_) trivial rfl
      rw [endsWell]
      rfl
  | finished => exact absurd rfl unfinished

end Tracking

end Master

end OpenWorkloadScheduler
