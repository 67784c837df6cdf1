import Mathlib.Data.List.TakeWhile
import OpenWorkloadScheduler.Scheduler.Tracking

/-!
# Round after round

A round is one iteration of the loop together with all that its threads do.  While
the planning stays the current one, the commands end well and nobody else writes,
a round executes at least one job that waits, if there is one.  Hence as many
rounds as there are jobs are enough, and each job is executed exactly once.
-/

namespace OpenWorkloadScheduler

open Rpc Store Foundations Domain

namespace Master

variable (domain : Domain) (settings : Settings)

/-! ## Rounds -/

/-- All threads have come to their end. -/
def Finished (master : Master) : Prop :=
  ∀ thread ∈ master.threads, thread.phase = .finished

/-- What happens in a round after the poll: the next planning is not due, every
command ends well, and nobody else works on the database. -/
def Ordinary (before : Master) : Event → Prop
  | .poll => False
  | .switch => ∀ now, before.point = .polled now →
      60 < nextPlanningStartTime domain before.world.clock - now
  | .popen _ opened => opened = true
  | .pclose _ status => status = 0
  | .outside _ => False
  | _ => True

/-- A round of the loop with steps of a kind, in which all the threads that it starts come to
their end.  The steps of the loop and of the threads may come in any order. -/
structure Round (step : Master → Event → Master → Prop) (before after : Master) : Prop where
  ran : ∃ polled events, step before .poll polled ∧
    Run (Guarded step (Ordinary domain)) polled events after
  returned : after.point = .top
  finished : after.Finished

/-- Every job has succeeded, and each command has been executed once. -/
structure Completed (schema : Schema) (startTime : Int) (master : Master) : Prop where
  same : (rowsOf domain startTime master).map JobRow.basis =
    schema.tables.job.map JobRow.basis
  succeeded : ∀ row ∈ rowsOf domain startTime master, row.jobState = some .succeded
  once : (master.executions.map fun job => (job.name, job.cmdLine)).Perm
    (schema.tables.job.map fun row => (row.jobName, row.jobCmdLine))

/-- Between two rounds. -/
structure Idle (schema : Schema) (startTime : Int) (master : Master) : Prop where
  tracks : Tracks domain schema startTime master
  top : master.point = .top
  finished : master.Finished

section Rounds

variable {domain settings} {schema : Schema} {startTime : Int} {master before : Master}

/-! ## The rows -/

theorem basicJob_of_basis {planning : String} {row other : JobRow}
    (basis : row.basis = other.basis) (state : row.jobState = other.jobState) :
    basicJob planning row = basicJob planning other := by
  obtain ⟨⟩ := row
  obtain ⟨⟩ := other
  simp only [JobRow.basis, JobRow.mk.injEq] at basis
  simp_all [basicJob]

theorem isAcceptable_of_basis {row other : JobRow} (basis : row.basis = other.basis)
    (state : row.jobState ≠ none) (acceptable : isAcceptable other = true) :
    isAcceptable row = true := by
  obtain ⟨⟩ := row
  obtain ⟨⟩ := other
  simp only [JobRow.basis, JobRow.mk.injEq] at basis
  simp_all [isAcceptable]

/-- A row of the planning comes from a row that it was started with. -/
theorem Tracks.origin (tracks : Tracks domain schema startTime master) {row : JobRow}
    (member : row ∈ rowsOf domain startTime master) :
    ∃ first ∈ schema.tables.job, row.basis = first.basis := by
  have mapped : row.basis ∈ schema.tables.job.map JobRow.basis := by
    rw [← tracks.basis]
    exact List.mem_map_of_mem member
  obtain ⟨first, firstMember, same⟩ := List.mem_map.mp mapped
  exact ⟨first, firstMember, same.symm⟩

/-- The state of a row is the one of its thread, if it has one. -/
theorem Tracks.state (tracks : Tracks domain schema startTime master) {row : JobRow}
    (member : row ∈ rowsOf domain startTime master) :
    row.jobState = some .waiting ∨ ∃ thread ∈ master.threads,
      thread.job.name = row.jobName ∧ row.jobState = some thread.phase.rowState := by
  by_cases threaded : ∃ thread ∈ master.threads, thread.job.name = row.jobName
  · obtain ⟨thread, threadMember, same⟩ := threaded
    exact Or.inr ⟨thread, threadMember, same,
      tracks.followed thread threadMember row member same.symm⟩
  · refine Or.inl (tracks.untouched row member fun thread threadMember same => ?_)
    exact threaded ⟨thread, threadMember, same⟩

theorem Tracks.acceptable (startable : Startable settings schema.tables)
    (tracks : Tracks domain schema startTime master) :
    ∀ row ∈ rowsOf domain startTime master, isAcceptable row = true := by
  intro row member
  obtain ⟨first, firstMember, basis⟩ := tracks.origin member
  refine isAcceptable_of_basis basis ?_ (startable.acceptable first firstMember)
  rcases tracks.state member with state | ⟨_, _, _, state⟩ <;> rw [state] <;> exact nofun

/-! ## The offer of a poll -/

/-- The jobs that the loop is to start threads for, at a poll at which all earlier
threads have come to their end. -/
structure Offers (domain : Domain) (schema : Schema) (startTime : Int)
    (threads : List JobThread) (launched : List TJob) : Prop where
  known : ∀ job ∈ launched,
    job ∈ schema.tables.job.map (basicJob (planningName domain startTime))
  distinct : (launched.map TJob.name).Nodup
  fresh : ∀ job ∈ launched, ∀ thread ∈ threads, thread.job.name ≠ job.name
  progress : launched = [] → schema.tables.job.length ≤ threads.length

/-- A job that waits and that the view returns is launched. -/
theorem mem_launched (startable : Startable settings schema.tables)
    (tracks : Tracks domain schema startTime master) {now : Int} {row : JobRow}
    (ready : row ∈ (withRows schema (rowsOf domain startTime master)).tables.getReadyJob now)
    (waiting : row.jobState = some .waiting) :
    basicJob (planningName domain startTime) row ∈
      (offeredJobs (planningName domain startTime)
        (withRows schema (rowsOf domain startTime master)).tables now
          (askedNode settings)).filter (isLaunched settings) := by
  have member := (Tables.mem_getReadyJob.mp ready).1
  obtain ⟨first, firstMember, basis⟩ := tracks.origin member
  have here : row.jobNodeName = settings.nodeName := by
    have sameNode := congrArg JobRow.jobNodeName basis
    exact sameNode.trans (startable.here first firstMember)
  have all : ∀ other ∈ ((withRows schema (rowsOf domain startTime master)).tables.getReadyJob
      now).filter (Query.runsOn (askedNode settings)), isAcceptable other = true :=
    fun other otherMember => tracks.acceptable startable other
      (Tables.mem_getReadyJob.mp (List.mem_of_mem_filter otherMember)).1
  refine List.mem_filter.mpr ⟨List.mem_map_of_mem ?_, ?_⟩
  · rw [List.takeWhile_eq_self_iff.mpr all]
    refine List.mem_filter.mpr ⟨ready, ?_⟩
    unfold askedNode
    split
    · rfl
    · exact decide_eq_true here
  · rw [isLaunched, basicJob, waiting, here]
    simp

/-- Where no thread is under way, a job without a thread makes the view return one. -/
theorem exists_ready_of_finished (startable : Startable settings schema.tables)
    (tracks : Tracks domain schema startTime master) (finished : master.Finished) (now : Int)
    {row : JobRow} (member : row ∈ rowsOf domain startTime master)
    (without : ∀ thread ∈ master.threads, thread.job.name ≠ row.jobName) :
    ∃ ready ∈ (withRows schema (rowsOf domain startTime master)).tables.getReadyJob now,
      ready.jobState = some .waiting := by
  refine Tables.exists_ready_of_acyclic now startable.unconstrained startable.acyclic ?_ ?_
    ⟨row, member, tracks.untouched row member without⟩
  · intro link linkMember
    have present := (startable.existing link linkMember).1
    rw [Tables.hasJob, ← map_jobName_rowsOf tracks] at present
    exact present
  · intro other otherMember
    rcases tracks.state otherMember with state | ⟨thread, threadMember, _, state⟩
    · exact Or.inl state
    · rw [finished thread threadMember] at state
      exact Or.inr state

theorem offers_of_poll (startable : Startable settings schema.tables)
    (tracks : Tracks domain schema startTime master) (finished : master.Finished) (now : Int) :
    Offers domain schema startTime master.threads ((offeredJobs (planningName domain startTime)
      (withRows schema (rowsOf domain startTime master)).tables now
        (askedNode settings)).filter (isLaunched settings)) := by
  have key : ((rowsOf domain startTime master).map JobRow.jobName).Nodup := by
    rw [map_jobName_rowsOf tracks]
    exact startable.key
  have offered : ∀ job ∈ (offeredJobs (planningName domain startTime)
      (withRows schema (rowsOf domain startTime master)).tables now
        (askedNode settings)).filter (isLaunched settings),
      ∃ row ∈ rowsOf domain startTime master, row.jobState = some .waiting ∧
        job = basicJob (planningName domain startTime) row := by
    intro job member
    obtain ⟨jobMember, launched⟩ := List.mem_filter.mp member
    obtain ⟨row, ready, acceptable, rfl⟩ := mem_offeredJobs jobMember
    simp only [isLaunched, Bool.and_eq_true, decide_eq_true_eq] at launched
    exact ⟨row, (Tables.mem_getReadyJob.mp ready).1,
      waiting_of_basicJob acceptable launched.1, rfl⟩
  constructor
  · intro job member
    obtain ⟨row, rowMember, waiting, rfl⟩ := offered job member
    obtain ⟨first, firstMember, basis⟩ := tracks.origin rowMember
    rw [basicJob_of_basis basis (waiting.trans (startable.waiting first firstMember).symm)]
    exact List.mem_map_of_mem firstMember
  · have nodup := @nodup_offeredJobs (planningName domain startTime)
      (withRows schema (rowsOf domain startTime master)).tables now (askedNode settings) key
    exact nodup.sublist (List.filter_sublist.map TJob.name)
  · intro job member thread threadMember same
    obtain ⟨row, rowMember, waiting, rfl⟩ := offered job member
    have state := tracks.followed thread threadMember row rowMember same.symm
    rw [waiting, finished thread threadMember] at state
    cases state
  · intro none
    have threaded : ∀ name ∈ (rowsOf domain startTime master).map JobRow.jobName,
        name ∈ master.threads.map fun thread => thread.job.name := by
      intro name member
      obtain ⟨row, rowMember, rfl⟩ := List.mem_map.mp member
      by_contra without
      obtain ⟨ready, readyMember, waiting⟩ := exists_ready_of_finished startable tracks finished
        now rowMember fun thread threadMember same =>
          without (List.mem_map.mpr ⟨thread, threadMember, same⟩)
      have launched := mem_launched startable tracks readyMember waiting
      rw [none] at launched
      cases launched
    have fewer := (List.subperm_of_subset key threaded).length_le
    rw [map_jobName_rowsOf tracks, List.length_map, List.length_map] at fewer
    exact fewer

/-! ## Within a round -/

/-- The loop is to start threads for the jobs that it has polled. -/
structure Pending (domain : Domain) (settings : Settings) (schema : Schema) (startTime : Int)
    (before master : Master) (now : Int) : Prop where
  finished : master.Finished
  begun : startTime ≤ now
  offers : Offers domain schema startTime master.threads (master.jobs.filter (isLaunched settings))
  threads : master.threads.length = before.threads.length

/-- The threads of the round have been started, one at least unless every job has
had one. -/
def Grown (schema : Schema) (before master : Master) : Prop :=
  schema.tables.job.length ≤ master.threads.length ∨
    before.threads.length < master.threads.length

/-- Where the loop stands in its round. -/
def Stage (domain : Domain) (settings : Settings) (schema : Schema) (startTime : Int)
    (before master : Master) : LoopPoint → Prop
  | .top => Grown schema before master
  | .polled now => Pending domain settings schema startTime before master now
  | .launching now => Pending domain settings schema startTime before master now
  | .exited => False

structure InRound (domain : Domain) (settings : Settings) (schema : Schema) (startTime : Int)
    (before master : Master) : Prop where
  tracks : Tracks domain schema startTime master
  stage : Stage domain settings schema startTime before master master.point

theorem inRound_of_poll (startable : Startable settings schema.tables)
    (idle : Idle domain schema startTime before) :
    ∃ polled, before.perform domain settings .poll = some polled ∧
      polled.point = .polled before.world.clock ∧ polled.world = before.world ∧
      InRound domain settings schema startTime before polled := by
  have current := idle.tracks.current
  have begun := idle.tracks.begun
  have serving := idle.tracks.serving
  rw [← current] at serving begun
  refine ⟨_, poll_of_serving domain settings idle.top serving begun ?_, rfl, rfl, ?_, ?_⟩
  · rw [current]
    exact idle.tracks.acceptable startable
  · exact idle.tracks.loop _ _
  · rw [current]
    exact ⟨idle.finished, idle.tracks.begun,
      offers_of_poll startable idle.tracks idle.finished before.world.now, rfl⟩

theorem Tracks.launch (tracks : Tracks domain schema startTime master) {launched : List TJob}
    (offers : Offers domain schema startTime master.threads launched) :
    Tracks domain schema startTime { master with
      point := .top
      jobs := []
      threads := master.threads ++ launched.map fun job => ⟨job, .created⟩ } := by
  have started : ∀ thread ∈ master.threads ++ launched.map fun job => ⟨job, .created⟩,
      thread ∈ master.threads ∨ thread.job ∈ launched ∧ thread.phase = .created := by
    intro thread member
    rcases List.mem_append.mp member with member | member
    · exact Or.inl member
    · obtain ⟨job, jobMember, rfl⟩ := List.mem_map.mp member
      exact Or.inr ⟨jobMember, rfl⟩
  have names : (launched.map fun job => (⟨job, .created⟩ : JobThread)).map
      (fun thread => thread.job.name) = launched.map TJob.name := by
    rw [List.map_map]
    rfl
  constructor
  · exact tracks.current
  · exact tracks.begun
  · exact tracks.serving
  · exact tracks.basis
  · intro thread member
    rcases started thread member with earlier | ⟨now, _⟩
    · exact tracks.jobs thread earlier
    · exact offers.known thread.job now
  · change ((master.threads ++ launched.map fun job => (⟨job, .created⟩ : JobThread)).map
      fun thread => thread.job.name).Nodup
    rw [List.map_append, names]
    refine tracks.distinct.append offers.distinct fun name earlier now => ?_
    obtain ⟨thread, threadMember, rfl⟩ := List.mem_map.mp earlier
    obtain ⟨job, jobMember, same⟩ := List.mem_map.mp now
    exact offers.fresh job jobMember thread threadMember same.symm
  · intro thread member row rowMember same
    rcases started thread member with earlier | ⟨now, created⟩
    · exact tracks.followed thread earlier row rowMember same
    · rw [created]
      exact tracks.untouched row rowMember fun other otherMember otherName =>
        offers.fresh thread.job now other otherMember (otherName.trans same)
  · intro row rowMember without
    exact tracks.untouched row rowMember fun thread member =>
      without thread (List.mem_append_left _ member)
  · intro thread member
    rcases started thread member with earlier | ⟨_, created⟩
    · exact tracks.endsWell thread earlier
    · rw [created]
      trivial
  · intro job
    have none : (launched.map fun job => (⟨job, .created⟩ : JobThread)).countP
        (fun thread => thread.phase.hasExecuted && thread.job = job) = 0 := by
      rw [List.countP_map]
      exact List.countP_eq_zero.mpr fun other _ => by simp [Phase.hasExecuted]
    change master.executions.count job = (master.threads ++ launched.map _).countP _
    rw [List.countP_append, none]
    exact tracks.counted job

/-! ## The steps of a round -/

theorem event_cases {after : Master} {event : Event}
    (stepped : Step domain settings master event after) (ordinary : master.Ordinary domain event) :
    event = .switch ∨ event = .launch ∨ (∃ seconds, event = .tick seconds) ∨
      ∃ index job phase, master.threads[index]? = some ⟨job, phase⟩ ∧ phase ≠ .finished ∧
        event = nextEvent index phase := by
  unfold Step perform at stepped
  split at stepped
  · cases stepped
  · cases event with
    | poll => exact ordinary.elim
    | switch => exact Or.inl rfl
    | launch => exact Or.inr (Or.inl rfl)
    | start index =>
        dsimp only at stepped
        rw [start, startWith] at stepped
        split at stepped
        · rename_i job found
          exact Or.inr (Or.inr (Or.inr ⟨index, job, .created, found, by simp, rfl⟩))
        · cases stepped
    | popen index opened =>
        dsimp only at stepped
        rw [popen] at stepped
        split at stepped
        · rename_i job found
          refine Or.inr (Or.inr (Or.inr ⟨index, job, .running, found, by simp, ?_⟩))
          rw [show opened = true from ordinary]
          rfl
        · cases stepped
    | pclose index status =>
        dsimp only at stepped
        rw [pclose] at stepped
        split at stepped
        · rename_i job startTime found
          refine Or.inr (Or.inr (Or.inr ⟨index, job, .executing startTime, found, by simp, ?_⟩))
          rw [show status = 0 from ordinary]
          rfl
        · cases stepped
    | finish index =>
        dsimp only at stepped
        rw [finish, finishWith] at stepped
        split at stepped
        · rename_i job startTime stopTime returnCode found
          exact Or.inr (Or.inr (Or.inr
            ⟨index, job, .executed startTime stopTime returnCode, found, by simp, rfl⟩))
        · cases stepped
    | tick seconds => exact Or.inr (Or.inr (Or.inl ⟨seconds, rfl⟩))
    | outside world => exact ordinary.elim

/-- While the loop has jobs to launch, no thread makes a step. -/
theorem stage_of_thread {index : Nat} {job : TJob} {phase : Phase}
    (inRound : InRound domain settings schema startTime before master)
    (found : master.threads[index]? = some ⟨job, phase⟩) (unfinished : phase ≠ .finished) :
    master.point = .top ∧ Grown schema before master := by
  have member := List.mem_of_getElem? found
  have stage := inRound.stage
  cases point : master.point with
  | top =>
      rw [point] at stage
      exact ⟨rfl, stage⟩
  | polled now =>
      rw [point] at stage
      exact absurd (stage.finished _ member) unfinished
  | launching now =>
      rw [point] at stage
      exact absurd (stage.finished _ member) unfinished
  | exited =>
      rw [point] at stage
      exact stage.elim

/-- The next step of a thread can be made, and the round goes on. -/
theorem inRound_of_thread (startable : Startable settings schema.tables)
    (inRound : InRound domain settings schema startTime before master) {index : Nat} {job : TJob}
    {phase : Phase} (found : master.threads[index]? = some ⟨job, phase⟩)
    (unfinished : phase ≠ .finished) :
    ∃ next after, next.remaining < phase.remaining ∧
      master.perform domain settings (nextEvent index phase) = some after ∧
      after.point = .top ∧ after.threads = master.threads.set index ⟨job, next⟩ ∧
      InRound domain settings schema startTime before after := by
  obtain ⟨top, grown⟩ := stage_of_thread inRound found unfinished
  have alive : master.point ≠ .exited := by rw [top]; exact nofun
  obtain ⟨next, world, executions, nearer, performed, tracks⟩ :=
    advance_of_tracks startable inRound.tracks alive found unfinished
  refine ⟨next, _, nearer, performed, top, rfl, tracks, ?_⟩
  change Stage domain settings schema startTime before _ master.point
  rw [top]
  change _ ≤ (master.threads.set index ⟨job, next⟩).length ∨
    _ < (master.threads.set index ⟨job, next⟩).length
  rw [List.length_set]
  exact grown

/-- Where the loop stands depends on its jobs and on the threads. -/
theorem Stage.congr {other : Master} {point : LoopPoint}
    (stage : Stage domain settings schema startTime before master point)
    (threads : other.threads = master.threads) (jobs : other.jobs = master.jobs) :
    Stage domain settings schema startTime before other point := by
  have pending : ∀ now, Pending domain settings schema startTime before master now →
      Pending domain settings schema startTime before other now := by
    intro now pending
    constructor
    · rw [Finished, threads]
      exact pending.finished
    · exact pending.begun
    · rw [threads, jobs]
      exact pending.offers
    · rw [threads]
      exact pending.threads
  cases point with
  | top =>
      change Grown schema before other
      rw [Grown, threads]
      exact stage
  | polled now => exact pending now stage
  | launching now => exact pending now stage
  | exited => exact stage.elim

theorem inRound_of_switch (inRound : InRound domain settings schema startTime before master)
    {now : Int} (polled : master.point = .polled now)
    (later : 60 < nextPlanningStartTime domain master.world.clock - now) :
    ∃ after, master.perform domain settings .switch = some after ∧
      after.point = .launching now ∧ after.world = master.world ∧
      InRound domain settings schema startTime before after := by
  have stage := inRound.stage
  rw [polled] at stage
  have launching : Stage domain settings schema startTime before master (.launching now) := stage
  exact ⟨_, switch_of_later domain settings polled later, rfl, rfl,
    inRound.tracks.loop _ _, launching.congr rfl rfl⟩

theorem inRound_of_launch (inRound : InRound domain settings schema startTime before master)
    {now : Int} (launching : master.point = .launching now) :
    ∃ after, master.perform domain settings .launch = some after ∧ after.point = .top ∧
      InRound domain settings schema startTime before after := by
  have stage := inRound.stage
  rw [launching] at stage
  have begun := stage.begun
  rw [← inRound.tracks.current] at begun
  refine ⟨_, launch_of_begun domain settings launching begun, rfl,
    inRound.tracks.launch stage.offers, ?_⟩
  change _ ≤ (master.threads ++ (master.jobs.filter (isLaunched settings)).map _).length ∨
    _ < (master.threads ++ (master.jobs.filter (isLaunched settings)).map _).length
  rw [List.length_append, List.length_map, ← stage.threads]
  cases launched : master.jobs.filter (isLaunched settings) with
  | nil =>
      have progress := stage.offers.progress launched
      exact Or.inl (by omega)
  | cons job jobs => exact Or.inr (by simp)

theorem inRound_of_step (startable : Startable settings schema.tables)
    (inRound : InRound domain settings schema startTime before master) {after : Master}
    {event : Event} (stepped : Step domain settings master event after)
    (ordinary : master.Ordinary domain event) :
    InRound domain settings schema startTime before after := by
  have performed := stepped
  unfold Step perform at performed
  split at performed
  · cases performed
  · rcases event_cases stepped ordinary with rfl | rfl | ⟨seconds, rfl⟩ |
      ⟨index, job, phase, found, unfinished, rfl⟩
    · obtain ⟨now, polled⟩ : ∃ now, master.point = .polled now := by
        dsimp only at performed
        rw [switch] at performed
        split at performed
        · exact ⟨_, ‹_›⟩
        · cases performed
      obtain ⟨other, ran, _, _, kept⟩ := inRound_of_switch inRound polled (ordinary now polled)
      cases ran.symm.trans stepped
      exact kept
    · obtain ⟨now, launching⟩ : ∃ now, master.point = .launching now := by
        dsimp only at performed
        rw [launch] at performed
        split at performed
        · exact ⟨_, ‹_›⟩
        · cases performed
      obtain ⟨other, ran, _, kept⟩ := inRound_of_launch inRound launching
      cases ran.symm.trans stepped
      exact kept
    · cases performed
      exact ⟨inRound.tracks.later seconds, Stage.congr inRound.stage rfl rfl⟩
    · obtain ⟨next, other, _, ran, _, _, kept⟩ :=
        inRound_of_thread startable inRound found unfinished
      cases ran.symm.trans stepped
      exact kept

/-! ## Rounds keep the correspondence and go on -/

theorem inRound_of_round (startable : Startable settings schema.tables)
    (idle : Idle domain schema startTime before) {after : Master}
    (round : Round domain (Step domain settings) before after) :
    InRound domain settings schema startTime before after := by
  obtain ⟨polled, events, poll, run⟩ := round.ran
  obtain ⟨other, performed, _, _, inRound⟩ := inRound_of_poll startable idle
  cases performed.symm.trans poll
  exact run.keeps (fun _ _ _ inRound stepped =>
    inRound_of_step startable inRound stepped.1 stepped.2) inRound

theorem idle_of_round (startable : Startable settings schema.tables)
    (idle : Idle domain schema startTime before) {after : Master}
    (round : Round domain (Step domain settings) before after) :
    Idle domain schema startTime after :=
  ⟨(inRound_of_round startable idle round).tracks, round.returned, round.finished⟩

theorem grown_of_round (startable : Startable settings schema.tables)
    (idle : Idle domain schema startTime before) {after : Master}
    (round : Round domain (Step domain settings) before after) : Grown schema before after := by
  have stage := (inRound_of_round startable idle round).stage
  rw [round.returned] at stage
  exact stage

/-- Whatever has happened before, a round can be completed while the next planning
is not due. -/
theorem exists_round (startable : Startable settings schema.tables)
    (idle : Idle domain schema startTime before)
    (later : 60 < nextPlanningStartTime domain before.world.clock - before.world.clock) :
    ∃ after, Round domain (Step domain settings) before after := by
  obtain ⟨polled, poll, polledPoint, polledWorld, inPolled⟩ := inRound_of_poll startable idle
  obtain ⟨tested, switch, testedPoint, testedWorld, inTested⟩ :=
    inRound_of_switch inPolled polledPoint (by rwa [polledWorld])
  obtain ⟨launched, launch, top, inLaunched⟩ := inRound_of_launch inTested testedPoint
  have progress : ∀ master : Master,
      master.point = .top ∧ InRound domain settings schema startTime before master →
      ¬ master.Finished → ∃ event after,
        Guarded (Step domain settings) (Ordinary domain) master event after ∧
        (after.point = .top ∧ InRound domain settings schema startTime before after) ∧
        (after.threads.map fun thread => thread.phase.remaining).sum <
          (master.threads.map fun thread => thread.phase.remaining).sum := by
    rintro master ⟨_, inRound⟩ unfinished
    obtain ⟨⟨job, phase⟩, member, goesOn⟩ : ∃ thread ∈ master.threads,
        thread.phase ≠ .finished := by
      by_contra none
      exact unfinished fun thread member => not_not.mp fun goesOn =>
        none ⟨thread, member, goesOn⟩
    obtain ⟨index, found⟩ := List.mem_iff_getElem?.mp member
    obtain ⟨next, after, nearer, performed, afterTop, threads, kept⟩ :=
      inRound_of_thread startable inRound found goesOn
    have ordinary : master.Ordinary domain (nextEvent index phase) := by
      cases phase <;> trivial
    refine ⟨nextEvent index phase, after, ⟨performed, ordinary⟩, ⟨afterTop, kept⟩, ?_⟩
    have replaced := sum_map_set_add (fun thread : JobThread => thread.phase.remaining)
      ⟨job, next⟩ found
    dsimp only at replaced
    rw [threads]
    omega
  obtain ⟨events, after, run, ⟨returned, _⟩, finished⟩ := exists_run_of_progress
    (fun master : Master => (master.threads.map fun thread => thread.phase.remaining).sum)
    progress launched ⟨top, inLaunched⟩
  refine ⟨after, ⟨polled, .switch :: .launch :: events, poll, ?_⟩, returned, finished⟩
  refine .next ⟨switch, fun now point => ?_⟩ (.next ⟨launch, trivial⟩ run)
  rw [polledPoint] at point
  cases point
  rwa [polledWorld]

/-! ## The first and the last state -/

/-- The loop begins on a planning that has started, with jobs that wait. -/
theorem idle_of_startable {world : World} (startable : Startable settings schema.tables)
    (serving : Serving world (planningName domain world.planningStartTime) schema)
    (begun : world.planningStartTime ≤ world.clock) :
    Idle domain schema world.planningStartTime { world } := by
  have rows : rowsOf domain world.planningStartTime { world } = schema.tables.job := by
    rw [rowsOf, Server.tables_of_schema? serving.found]
  have same : withRows schema (rowsOf domain world.planningStartTime { world }) = schema := by
    rw [rows]
    rfl
  have none : ∀ thread ∈ ({ world } : Master).threads, False :=
    fun thread member => List.not_mem_nil member
  refine ⟨?_, rfl, fun thread member => (none thread member).elim⟩
  constructor
  · rfl
  · exact begun
  · rw [same]
    exact serving
  · rw [rows]
  · exact fun thread member => (none thread member).elim
  · exact List.nodup_nil
  · exact fun thread member => (none thread member).elim
  · intro row member _
    rw [rows] at member
    exact startable.waiting row member
  · exact fun thread member => (none thread member).elim
  · exact fun job => rfl

/-- Once every job has had a thread, all is done. -/
theorem completed_of_idle (idle : Idle domain schema startTime master)
    (all : schema.tables.job.length ≤ master.threads.length) :
    Completed domain schema startTime master := by
  have tracks := idle.tracks
  have distinct : (master.threads.map JobThread.job).Nodup := by
    apply List.Nodup.of_map TJob.name
    rw [List.map_map]
    exact tracks.distinct
  have jobs : (master.threads.map JobThread.job).Perm
      (schema.tables.job.map (basicJob (planningName domain startTime))) := by
    refine (List.subperm_of_subset distinct fun job member => ?_).perm_of_length_le
      (by simpa using all)
    obtain ⟨thread, threadMember, rfl⟩ := List.mem_map.mp member
    exact tracks.jobs thread threadMember
  have executions : master.executions.Perm (master.threads.map JobThread.job) := by
    refine List.perm_iff_count.mpr fun job => ?_
    rw [tracks.counted job, List.count, List.countP_map]
    refine List.countP_congr fun thread member => ?_
    rw [idle.finished thread member]
    simp [Phase.hasExecuted]
  constructor
  · exact tracks.basis
  · intro row member
    have named : row.jobName ∈ (schema.tables.job.map
        (basicJob (planningName domain startTime))).map TJob.name := by
      have mapped := List.mem_map_of_mem (f := JobRow.jobName) member
      rw [map_jobName_rowsOf tracks] at mapped
      rw [List.map_map]
      exact mapped
    obtain ⟨job, jobMember, same⟩ := List.mem_map.mp named
    obtain ⟨thread, threadMember, rfl⟩ := List.mem_map.mp (jobs.mem_iff.mpr jobMember)
    rw [tracks.followed thread threadMember row member same.symm, idle.finished thread threadMember]
    rfl
  · have commands := (executions.trans jobs).map fun job => (job.name, job.cmdLine)
    rw [List.map_map] at commands
    exact commands

end Rounds

end Master

end OpenWorkloadScheduler
