import OpenWorkloadScheduler.Foundations.Replacing
import OpenWorkloadScheduler.Scheduler.PlainTexts
import OpenWorkloadScheduler.Scheduler.ServedSteps

/-!
# How often a command is executed

The loop clears the vector of its jobs so that no job is run again.  What a poll
finds is the state in the database, though, and a job stays `waiting` there until
its thread has written `RUNNING`, which may take longer than the wait between two
polls.  A job that is polled in between gets a second thread, and a thread tests
only the state in its own copy.

Where no poll comes in between, every job is executed at most once: a job that
waits in the database has no thread that could still execute it.
-/

namespace OpenWorkloadScheduler

open Rpc Store Foundations Domain

/-- The thread has not yet come to `popen`. -/
def Phase.mayExecute : Phase → Bool
  | .created => true
  | .running => true
  | _ => false

namespace Master

variable (domain : Domain) (settings : Settings)

def isJob (planning name : String) (job : TJob) : Bool :=
  job.domain = planning && job.name = name

/-- How often the command of a job of the planning has been executed. -/
def executionsOf (master : Master) (planning name : String) : Nat :=
  master.executions.countP (isJob planning name)

/-- The rows of `job` stay, with their names and their states; others may come. -/
structure LeavesStates (before after : Server) : Prop where
  key : ∀ planning, ((after.tables planning).job.map JobRow.jobName).Nodup
  kept : ∀ planning, ∀ row ∈ (before.tables planning).job,
    ∃ other ∈ (after.tables planning).job,
      other.jobName = row.jobName ∧ other.jobState = row.jobState

/-- A poll does not find waiting a job whose thread has been started and has not
yet written `RUNNING`; nobody else writes `job_state`. -/
def Timely (before : Master) : Event → Prop
  | .poll => ∀ thread ∈ before.threads, thread.phase = .created →
      thread.job.domain = planningName domain before.world.planningStartTime →
        ∀ row ∈ (before.world.server.tables thread.job.domain).getReadyJob before.world.now,
          row.jobName = thread.job.name → row.jobState ≠ some .waiting
  | .outside world => LeavesStates before.world.server world.server
  | _ => True

theorem LeavesStates.advances {before after : Server} (leaves : LeavesStates before after) :
    before.Advances after := by
  intro planning
  constructor
  · intro name present
    obtain ⟨row, member, rfl⟩ := List.mem_map.mp present
    obtain ⟨other, otherMember, sameName, _⟩ := leaves.kept planning row member
    rw [← sameName]
    exact List.mem_map_of_mem otherMember
  · rintro name present ⟨later, laterMember, rfl, waiting⟩
    obtain ⟨row, member, rowName⟩ := List.mem_map.mp present
    obtain ⟨other, otherMember, sameName, sameState⟩ := leaves.kept planning row member
    have same : other = later :=
      List.inj_on_of_nodup_map (leaves.key planning) otherMember laterMember
        (sameName.trans rowName)
    exact ⟨row, member, rowName, by rw [← sameState, same, waiting]⟩
  · exact fun _ => leaves.key planning

/-! ## The invariant -/

/-- The executions of a job, past and to come. -/
def attempts (master : Master) (planning name : String) : Nat :=
  (master.jobs.filter (isLaunched settings)).countP (isJob planning name) +
    master.threads.countP
      (fun thread => thread.phase.mayExecute && isJob planning name thread.job) +
    master.executionsOf planning name

/-- The loop, a thread or an execution has the job. -/
def Holds (master : Master) (job : TJob) : Prop :=
  job ∈ master.jobs ∨ (∃ thread ∈ master.threads, thread.job = job) ∨ job ∈ master.executions

/-- The job has been executed, or its thread is just before `popen`. -/
def Started (master : Master) (job : TJob) : Prop :=
  (∃ thread ∈ master.threads, thread.job = job ∧ thread.phase = .running) ∨
    job ∈ master.executions

structure Single (master : Master) : Prop where
  key : ∀ planning, ((master.world.server.tables planning).job.map JobRow.jobName).Nodup
  idle : master.point = .top → master.jobs = []
  known : ∀ job, master.Holds job →
    (master.world.server.tables job.domain).hasJob job.name
  settled : ∀ job, master.Started job →
    ¬ (master.world.server.tables job.domain).Waits job.name
  once : ∀ planning name, master.attempts settings planning name ≤ 1

theorem Started.holds {master : Master} {job : TJob} (started : master.Started job) :
    master.Holds job := by
  rcases started with ⟨thread, member, same, _⟩ | member
  · exact Or.inr (Or.inl ⟨thread, member, same⟩)
  · exact Or.inr (Or.inr member)

section Steps

variable {settings} {before : Master}

theorem Single.advance (single : before.Single settings) {world : World} {point : LoopPoint}
    (advances : before.world.Advances world) (idle : point = .top → before.jobs = []) :
    ({ before with world, point } : Master).Single settings where
  key planning := (advances planning).key (single.key planning)
  idle := idle
  known job holds := (advances job.domain).stays job.name (single.known job holds)
  settled job started waits := single.settled job started
    ((advances job.domain).settled job.name (single.known job started.holds) waits)
  once := single.once

/-- The state after a thread has moved on. -/
def moved (before : Master) (world : World) (index : Nat) (job : TJob) (next : Phase)
    (executes : Bool) : Master :=
  { before with
    world
    threads := before.threads.set index ⟨job, next⟩
    executions := before.executions ++ if executes then [job] else [] }

variable {world : World} {index : Nat} {job : TJob} {phase next : Phase} {executes : Bool}

theorem moved_false : before.moved world index job next false =
    { before.moveThread index job next with world } := by
  simp [moved, moveThread]

theorem mem_executions_moved {other : TJob} :
    other ∈ (before.moved world index job next executes).executions ↔
      other ∈ before.executions ∨ executes = true ∧ other = job := by
  cases executes <;> simp [moved]

theorem holds_of_moved {other : TJob} (found : before.threads[index]? = some ⟨job, phase⟩)
    (holds : (before.moved world index job next executes).Holds other) : before.Holds other := by
  have held : before.Holds job :=
    Or.inr (Or.inl ⟨⟨job, phase⟩, List.mem_of_getElem? found, rfl⟩)
  rcases holds with member | ⟨thread, member, rfl⟩ | member
  · exact Or.inl member
  · rcases List.mem_or_eq_of_mem_set member with member | rfl
    · exact Or.inr (Or.inl ⟨thread, member, rfl⟩)
    · exact held
  · rcases mem_executions_moved.mp member with member | ⟨_, rfl⟩
    · exact Or.inr (Or.inr member)
    · exact held

theorem started_of_moved {other : TJob}
    (started : (before.moved world index job next executes).Started other) :
    before.Started other ∨ other = job ∧ (executes = true ∨ next = .running) := by
  rcases started with ⟨thread, member, rfl, running⟩ | member
  · rcases List.mem_or_eq_of_mem_set member with member | rfl
    · exact Or.inl (Or.inl ⟨thread, member, rfl, running⟩)
    · exact Or.inr ⟨rfl, Or.inr running⟩
  · rcases mem_executions_moved.mp member with member | ⟨executed, rfl⟩
    · exact Or.inl (Or.inr member)
    · exact Or.inr ⟨rfl, Or.inl executed⟩

theorem attempts_moved (settings : Settings) (world : World) (next : Phase) (executes : Bool)
    (found : before.threads[index]? = some ⟨job, phase⟩) (planning name : String) :
    (before.moved world index job next executes).attempts settings planning name +
        (phase.mayExecute && isJob planning name job).toNat =
      before.attempts settings planning name +
        (next.mayExecute && isJob planning name job).toNat +
        (executes && isJob planning name job).toNat := by
  have threads := countP_set_add
    (fun thread => thread.phase.mayExecute && isJob planning name thread.job)
    ⟨job, next⟩ found
  have executed : (before.moved world index job next executes).executionsOf planning name =
      before.executionsOf planning name + (executes && isJob planning name job).toNat := by
    rw [executionsOf, moved, List.countP_append]
    cases executes
    · rfl
    · rw [if_pos rfl, List.countP_singleton]
      cases isJob planning name job <;> rfl
  dsimp only at threads
  rw [attempts, executed, attempts]
  change (before.jobs.filter (isLaunched settings)).countP _ +
    (before.threads.set index ⟨job, next⟩).countP _ + _ + _ = _
  omega

/-- A thread moves on: it may come to `popen` no more often than before, and a job
that it executes or is about to execute does not wait. -/
theorem Single.move (single : before.Single settings)
    (found : before.threads[index]? = some ⟨job, phase⟩) (next : Phase) (executes : Bool)
    (advances : before.world.Advances world)
    (fewer : executes.toNat + next.mayExecute.toNat ≤ phase.mayExecute.toNat)
    (settles : executes = true ∨ next = .running →
      ¬ (world.server.tables job.domain).Waits job.name) :
    (before.moved world index job next executes).Single settings where
  key planning := (advances planning).key (single.key planning)
  idle := single.idle
  known other holds :=
    (advances other.domain).stays other.name (single.known other (holds_of_moved found holds))
  settled other started waits := by
    rcases started_of_moved started with earlier | ⟨rfl, now⟩
    · exact single.settled other earlier ((advances other.domain).settled other.name
        (single.known other earlier.holds) waits)
    · exact settles now waits
  once planning name := by
    have counted := attempts_moved settings world next executes found planning name
    have bounded := single.once planning name
    cases same : isJob planning name job
    · simp only [same, Bool.and_false, Bool.toNat_false] at counted
      omega
    · simp only [same, Bool.and_true] at counted
      omega

theorem Single.moveThread (single : before.Single settings)
    (found : before.threads[index]? = some ⟨job, phase⟩) (next : Phase)
    (advances : before.world.Advances world)
    (fewer : next.mayExecute.toNat ≤ phase.mayExecute.toNat)
    (settles : next = .running → ¬ (world.server.tables job.domain).Waits job.name) :
    ({ before.moveThread index job next with world } : Master).Single settings := by
  rw [← moved_false]
  exact single.move found next false advances (by simpa using fewer)
    fun started => settles (started.resolve_left (by simp))

/-! ## The steps of the threads -/

theorem single_of_start (single : before.Single settings) {after : Master}
    (started : before.start index = some after) : after.Single settings := by
  rw [start, startWith] at started
  split at started
  · rename_i job found
    split at started
    · cases started
      exact single.moveThread found .finished (refl before.world) (by decide) (by simp)
    · have advances := advances_updateStateOfJob job.domain job
        (show EJobState.running ≠ .waiting by decide) before.world
      cases ran : updateStateOfJob job.domain (some job) .running before.world with
      | ok accepted world =>
          rw [Option.bind_some, ran] at started
          rw [ran] at advances
          cases accepted with
          | true =>
              cases started
              exact single.moveThread found .running advances (by decide) fun _ =>
                not_waits_of_updateStateOfJob (by decide) ran
          | false =>
              cases started
              exact single.moveThread found .finished advances (by decide) (by simp)
      | error raised world =>
          rw [Option.bind_some, ran] at started
          rw [ran] at advances
          cases raised <;> cases started <;> exact single.advance advances (by simp)
  · cases started

theorem single_of_popen (single : before.Single settings) {after : Master} {opened : Bool}
    (called : before.popen index opened = some after) : after.Single settings := by
  rw [popen] at called
  split at called
  · rename_i job found
    have settled : ¬ (before.world.server.tables job.domain).Waits job.name :=
      single.settled job (Or.inl ⟨⟨job, .running⟩, List.mem_of_getElem? found, rfl, rfl⟩)
    dsimp only at called
    cases opened with
    | true =>
        cases called
        exact single.move found (.executing before.world.clock) true (refl before.world)
          (Nat.le_refl 1) fun _ => settled
    | false =>
        cases called
        exact single.moveThread found _ (refl before.world) (Nat.zero_le _) (by simp)
  · cases called

theorem single_of_pclose (single : before.Single settings) {after : Master} {status : Int}
    (called : before.pclose index status = some after) : after.Single settings := by
  rw [pclose] at called
  split at called
  · rename_i job startTime found
    cases called
    exact single.moveThread found _ (refl before.world) (Nat.zero_le _) (by simp)
  · cases called

theorem single_of_finish (single : before.Single settings) {after : Master}
    (called : before.finish index = some after) : after.Single settings := by
  rw [finish, finishWith] at called
  split at called
  · rename_i job startTime stopTime returnCode found
    have leaves : finalJobState returnCode ≠ .waiting := by
      unfold finalJobState
      split <;> decide
    have advances := advances_updateStateTimesOfJob job.domain job leaves startTime stopTime
      before.world
    rw [Option.bind_some] at called
    split at called
    · rename_i accepted world ran
      cases called
      rw [ran] at advances
      exact single.moveThread found .finished advances (Nat.zero_le _) (by simp)
    · cases called
    · rename_i raised world _ ran
      cases called
      rw [ran] at advances
      exact single.moveThread found .finished advances (Nat.zero_le _) (by simp)
  · cases called

/-! ## The steps of the loop -/

theorem caught_ne_top (now : Int) (raised : Raised) : caught now raised ≠ .top := by
  cases raised <;> simp [caught]

/-- The test of the switch leaves the loop and the threads as they are, and calls
`switch_planning` or not. -/
theorem switch_cases {after : Master} (called : before.switch domain = some after) :
    ∃ world point, after = { before with world, point } ∧ point ≠ .top ∧
      (world = before.world ∨ world = finalState (switchPlanning domain before.world)) := by
  rw [switch] at called
  split at called
  · rename_i now point
    split at called
    · split at called
      · rename_i prepared world ran
        cases called
        exact ⟨world, .launching now, rfl, by simp, Or.inr (by rw [ran, finalState_ok])⟩
      · cases called
      · rename_i raised world _ ran
        cases called
        exact ⟨world, _, rfl, caught_ne_top now raised, Or.inr (by rw [ran, finalState_error])⟩
    · cases called
      exact ⟨before.world, .launching now, rfl, by simp, Or.inl rfl⟩
  · cases called

theorem single_of_switch (single : before.Single settings) {after : Master}
    (called : before.switch domain = some after) : after.Single settings := by
  obtain ⟨world, point, rfl, busy, rfl | rfl⟩ := switch_cases domain called
  · exact single.advance (refl before.world) fun top => absurd top busy
  · exact single.advance (advances_switchPlanning domain before.world)
      fun top => absurd top busy

/-- The loop starts threads for some of the jobs that it has polled. -/
theorem launch_cases {after : Master} (called : before.launch settings = some after) :
    ∃ launched : List TJob, launched.Sublist (before.jobs.filter (isLaunched settings)) ∧
      after = { before with
        point := .top
        jobs := []
        threads := before.threads ++ launched.map fun job => ⟨job, .created⟩ } := by
  rw [launch] at called
  split at called
  · cases called
    refine ⟨_, ?_, rfl⟩
    split
    · exact List.Sublist.refl _
    · exact List.nil_sublist _
  · cases called

theorem single_of_launch (single : before.Single settings) {after : Master}
    (called : before.launch settings = some after) : after.Single settings := by
  obtain ⟨launched, sublist, rfl⟩ := launch_cases called
  have created : ∀ thread ∈ launched.map fun job => (⟨job, .created⟩ : JobThread),
      thread.job ∈ before.jobs ∧ thread.phase = .created := by
    intro thread member
    obtain ⟨job, jobMember, rfl⟩ := List.mem_map.mp member
    exact ⟨List.mem_of_mem_filter (sublist.subset jobMember), rfl⟩
  constructor
  · exact single.key
  · exact fun _ => rfl
  · rintro job (member | ⟨thread, member, rfl⟩ | member)
    · cases member
    · rcases List.mem_append.mp member with member | member
      · exact single.known _ (Or.inr (Or.inl ⟨thread, member, rfl⟩))
      · exact single.known _ (Or.inl (created thread member).1)
    · exact single.known _ (Or.inr (Or.inr member))
  · rintro job (⟨thread, member, rfl, running⟩ | member)
    · rcases List.mem_append.mp member with member | member
      · exact single.settled _ (Or.inl ⟨thread, member, rfl, running⟩)
      · rw [(created thread member).2] at running
        cases running
    · exact single.settled _ (Or.inr member)
  · intro planning name
    have counted : (launched.map fun job => (⟨job, .created⟩ : JobThread)).countP
        (fun thread => thread.phase.mayExecute && isJob planning name thread.job) =
          launched.countP (isJob planning name) := by
      rw [List.countP_map]
      rfl
    have fewer := sublist.countP_le (p := isJob planning name)
    have bounded := single.once planning name
    rw [attempts] at bounded ⊢
    rw [List.countP_append, counted]
    change 0 + _ + before.executionsOf planning name ≤ 1
    omega

/-! ## The poll -/

/-- Of jobs with distinct names, one at most has the given name. -/
theorem countP_isJob_le_one {jobs : List TJob} (nodup : (jobs.map TJob.name).Nodup)
    (planning name : String) : jobs.countP (isJob planning name) ≤ 1 := by
  have named : jobs.countP (isJob planning name) ≤ jobs.countP fun job => job.name == name := by
    refine List.countP_mono_left fun job _ same => ?_
    simp only [isJob, Bool.and_eq_true, decide_eq_true_eq] at same
    simp [same.2]
  have counted : (jobs.map TJob.name).count name = jobs.countP fun job => job.name == name := by
    rw [List.count, List.countP_map]
    rfl
  have once := List.nodup_iff_count_le_one.mp nodup name
  omega

/-- A job that a timely poll offers as waiting has neither been executed nor a
thread that may still execute it. -/
theorem none_of_waiting (single : before.Single settings) (timely : before.Timely domain .poll)
    {row : JobRow}
    (ready : row ∈ (before.world.server.tables
      (planningName domain before.world.planningStartTime)).getReadyJob before.world.now)
    (waiting : row.jobState = some .waiting) :
    before.threads.countP (fun thread => thread.phase.mayExecute &&
        isJob (planningName domain before.world.planningStartTime) row.jobName thread.job) +
      before.executionsOf (planningName domain before.world.planningStartTime)
        row.jobName = 0 := by
  have waits : (before.world.server.tables
      (planningName domain before.world.planningStartTime)).Waits row.jobName :=
    ⟨row, (Tables.mem_getReadyJob.mp ready).1, rfl, waiting⟩
  have same : ∀ job, isJob (planningName domain before.world.planningStartTime) row.jobName job =
      true → job.domain = planningName domain before.world.planningStartTime ∧
        job.name = row.jobName := by
    intro job isJob
    simpa [Master.isJob] using isJob
  have threads : before.threads.countP (fun thread => thread.phase.mayExecute &&
      isJob (planningName domain before.world.planningStartTime) row.jobName thread.job) = 0 := by
    refine List.countP_eq_zero.mpr fun thread member counted => ?_
    rw [Bool.and_eq_true] at counted
    obtain ⟨sameDomain, sameName⟩ := same thread.job counted.2
    cases phase : thread.phase with
    | created =>
        refine timely thread member phase sameDomain row ?_ sameName.symm waiting
        rwa [sameDomain]
    | running =>
        refine single.settled thread.job (Or.inl ⟨thread, member, rfl, phase⟩) ?_
        rwa [sameDomain, sameName]
    | executing startTime => simp [phase, Phase.mayExecute] at counted
    | executed startTime stopTime returnCode => simp [phase, Phase.mayExecute] at counted
    | finished => simp [phase, Phase.mayExecute] at counted
  have executions : before.executionsOf
      (planningName domain before.world.planningStartTime) row.jobName = 0 := by
    refine List.countP_eq_zero.mpr fun job member counted => ?_
    obtain ⟨sameDomain, sameName⟩ := same job counted
    refine single.settled job (Or.inr member) ?_
    rwa [sameDomain, sameName]
  rw [threads, executions]

/-- A poll reads the database, and pushes the current offer or nothing. -/
theorem poll_cases {after : Master} (called : before.poll domain settings = some after) :
    before.point = .top ∧ ∃ world point jobs, ReadOnly before.world world ∧ point ≠ .top ∧
      (jobs = before.jobs ∨ jobs = currentOffer domain (askedNode settings) before.world) ∧
      after = { before with world, point, jobs } := by
  rw [poll] at called
  split at called
  · rename_i point
    refine ⟨point, ?_⟩
    dsimp only at called
    split at called
    · have readOnly := within_getReadyJobs domain (askedNode settings) before.world
      split at called
      · rename_i jobs world ran
        cases called
        rw [ran] at readOnly
        exact ⟨world, .polled before.world.clock, jobs, readOnly, by simp,
          Or.inr (offer_of_getReadyJobs domain ran), rfl⟩
      · rename_i jobs raised world ran
        cases called
        rw [ran] at readOnly
        exact ⟨world, _, jobs, readOnly, caught_ne_top _ raised,
          Or.inr (offer_of_getReadyJobs domain ran), rfl⟩
      · rename_i raised world ran
        cases called
        rw [ran] at readOnly
        exact ⟨world, _, before.jobs, readOnly, caught_ne_top _ raised, Or.inl rfl, rfl⟩
    · cases called
      exact ⟨before.world, .polled before.world.clock, before.jobs, rfl, by simp, Or.inl rfl, rfl⟩
  · cases called

theorem single_of_poll (single : before.Single settings) (timely : before.Timely domain .poll)
    {after : Master} (called : before.poll domain settings = some after) :
    after.Single settings := by
  obtain ⟨top, world, point, jobs, readOnly, left, rfl | offered, rfl⟩ := poll_cases domain called
  · exact single.advance readOnly.advances fun impossible => absurd impossible left
  · have idle := single.idle top
    have offer : ∀ job ∈ jobs, ∃ row ∈ (before.world.server.tables
        (planningName domain before.world.planningStartTime)).getReadyJob before.world.now,
        isAcceptable row = true ∧
          job = basicJob (planningName domain before.world.planningStartTime) row := by
      intro job member
      rw [offered] at member
      exact mem_offeredJobs member
    constructor
    · intro planning
      rw [readOnly.server]
      exact single.key planning
    · exact fun impossible => absurd impossible left
    · rintro job (member | held)
      · obtain ⟨row, ready, _, rfl⟩ := offer job member
        rw [readOnly.server]
        exact List.mem_map_of_mem (Tables.mem_getReadyJob.mp ready).1
      · rw [readOnly.server]
        exact single.known job (Or.inr held)
    · intro job started
      rw [readOnly.server]
      exact single.settled job started
    · intro planning name
      have nodup : (jobs.map TJob.name).Nodup := by
        rw [offered]
        exact nodup_offeredJobs (single.key _)
      have polled := countP_isJob_le_one nodup planning name
      have launched : (jobs.filter (isLaunched settings)).countP (isJob planning name) ≤
          jobs.countP (isJob planning name) := List.filter_sublist.countP_le
      change (jobs.filter (isLaunched settings)).countP (isJob planning name) +
        before.threads.countP _ + before.executionsOf planning name ≤ 1
      by_cases none : (jobs.filter (isLaunched settings)).countP (isJob planning name) = 0
      · have others := single.once planning name
        rw [attempts] at others
        omega
      · obtain ⟨job, member, same⟩ := List.countP_pos_iff.mp (Nat.pos_of_ne_zero none)
        obtain ⟨jobMember, waiting⟩ := List.mem_filter.mp member
        obtain ⟨row, ready, acceptable, rfl⟩ := offer job jobMember
        simp only [isLaunched, Bool.and_eq_true, decide_eq_true_eq] at waiting
        simp only [isJob, Bool.and_eq_true, decide_eq_true_eq] at same
        obtain ⟨samePlanning, sameName⟩ := same
        change planningName domain before.world.planningStartTime = planning at samePlanning
        change row.jobName = name at sameName
        subst samePlanning sameName
        have others := none_of_waiting domain single timely ready
          (waiting_of_basicJob acceptable waiting.1)
        omega

/-! ## Runs -/

theorem single_of_step (single : before.Single settings) {after : Master} {event : Event}
    (stepped : Step domain settings before event after) (timely : before.Timely domain event) :
    after.Single settings := by
  unfold Step perform at stepped
  split at stepped
  · cases stepped
  · cases event with
    | poll => exact single_of_poll domain single timely stepped
    | switch => exact single_of_switch domain single stepped
    | launch => exact single_of_launch single stepped
    | start index => exact single_of_start single stepped
    | popen index opened => exact single_of_popen single stepped
    | pclose index status => exact single_of_pclose single stepped
    | finish index => exact single_of_finish single stepped
    | tick seconds =>
        cases stepped
        exact single.advance (refl before.world.server) single.idle
    | outside world =>
        cases stepped
        exact single.advance (LeavesStates.advances timely) single.idle

end Steps

/-- In every run on plain texts in which no poll comes between the start of a thread and
its write of `RUNNING`, each job of each planning is executed at most once. -/
theorem command_executed_once_of_run {world : World} {after : Master} {events : List Event}
    (key : ∀ planning, ((world.server.tables planning).job.map JobRow.jobName).Nodup)
    (run : Run (Guarded (PlainStep domain settings) (Timely domain)) { world } events after)
    (planning name : String) :
    after.executionsOf planning name ≤ 1 := by
  have initial : ({ world } : Master).Single settings := by
    constructor
    · exact key
    · exact fun _ => rfl
    · rintro job (member | ⟨thread, member, _⟩ | member) <;>
        exact absurd member List.not_mem_nil
    · rintro job (⟨thread, member, _⟩ | member) <;> exact absurd member List.not_mem_nil
    · exact fun planning name => Nat.zero_le 1
  have single : after.Single settings :=
    (run_of_plainGuarded run).keeps (fun before event after single stepped =>
      single_of_step domain single stepped.1 stepped.2) initial
  have bounded := single.once planning name
  rw [attempts] at bounded
  omega

/-! ## One job, polled once and twice -/

def thisNode : Settings where
  runningMode := .active
  nodeName := "localhost"

def archiveRow : JobRow where
  jobName := "archive"
  jobCmdLine := "tar"
  jobNodeName := "localhost"

/-- The planning of the first day, with one job that waits. -/
def oneJob : Schema :=
  { emptySkeleton with
    tables := { node := [{ nodeName := "localhost", nodeWeight := 1 }], job := [archiveRow] } }

def oneJobWorld : World where
  server := Server.setSchema ⟨∅⟩ (planningName dailyDomain 0) oneJob
  clock := 100

def archive : TJob :=
  basicJob (planningName dailyDomain 0) archiveRow

theorem serving_oneJob :
    Serving oneJobWorld (planningName dailyDomain oneJobWorld.planningStartTime) oneJob where
  quiet := rfl
  found := Server.schema?_setSchema_self _ _ _
  complete := complete_emptySkeleton.withTables _
  free := rfl

theorem iterate_oneJob {master : Master} (top : master.point = .top)
    (serving : Serving master.world (planningName dailyDomain master.world.planningStartTime)
      oneJob) (begun : master.world.planningStartTime ≤ master.world.clock)
    (later : 60 < nextPlanningStartTime dailyDomain master.world.clock - master.world.clock) :
    performAll (perform dailyDomain thisNode) master [.poll, .switch, .launch] =
      some { master with
        point := .top
        jobs := []
        threads := master.threads ++
          [⟨basicJob (planningName dailyDomain master.world.planningStartTime) archiveRow,
            .created⟩] } :=
  iterate_of_serving dailyDomain thisNode top serving begun (by decide) later

/-- The second poll comes before the first thread has written `RUNNING`. -/
def twoPolls : List Event :=
  [.poll, .switch, .launch, .tick 60, .poll, .switch, .launch,
    .start 0, .popen 0 true, .start 1, .popen 1 true]

/-- The loop starts a second thread for the job, and both execute its command. -/
theorem command_executed_twice_after_twoPolls :
    ∃ after, Run (PlainStep dailyDomain thisNode) { world := oneJobWorld } twoPolls after ∧
      after.executionsOf (planningName dailyDomain 0) "archive" = 2 := by
  have counted : (performAll (performPlain dailyDomain thisNode) { world := oneJobWorld }
      twoPolls).map (fun after => after.executionsOf (planningName dailyDomain 0) "archive") =
        some 2 := by
    decide +kernel
  obtain ⟨after, performed, twice⟩ := Option.map_eq_some_iff.mp counted
  exact ⟨after, run_of_performAll performed, twice⟩

theorem key_oneJobWorld (planning : String) :
    ((oneJobWorld.server.tables planning).job.map JobRow.jobName).Nodup := by
  by_cases same : planning = planningName dailyDomain 0
  · rw [same, oneJobWorld, Server.tables_setSchema_self]
    exact List.nodup_singleton _
  · rw [oneJobWorld, Server.tables_setSchema_ne same]
    exact List.nodup_nil

/-- Polled once, the job is executed at most once. -/
theorem command_executed_once_after_onePoll :
    ∃ after, Run (Guarded (PlainStep dailyDomain thisNode) (Timely dailyDomain))
        { world := oneJobWorld } [.poll, .switch, .launch, .start 0, .popen 0 true] after ∧
      after.executionsOf (planningName dailyDomain 0) "archive" ≤ 1 := by
  have possible : (performAll (performPlain dailyDomain thisNode) { world := oneJobWorld }
      [.poll, .switch, .launch, .start 0, .popen 0 true]).isSome = true := by
    decide +kernel
  obtain ⟨after, performed⟩ := Option.isSome_iff_exists.mp possible
  have timely : ∀ event ∈ ([.switch, .launch, .start 0, .popen 0 true] : List Event),
      ∀ master, Timely dailyDomain master event := by
    intro event member master
    rcases member with _ | ⟨_, _ | ⟨_, _ | ⟨_, _ | ⟨_, ⟨⟩⟩⟩⟩⟩ <;> trivial
  cases run_of_performAll performed with
  | next polled rest =>
      have idle : Timely dailyDomain { world := oneJobWorld } .poll :=
        fun thread member => absurd member List.not_mem_nil
      have run : Run (Guarded (PlainStep dailyDomain thisNode) (Timely dailyDomain))
          { world := oneJobWorld } _ _ :=
        .next ⟨polled, idle⟩ (rest.guarded timely)
      exact ⟨_, run, command_executed_once_of_run dailyDomain thisNode key_oneJobWorld run _ _⟩

end Master

end OpenWorkloadScheduler
