import OpenWorkloadScheduler.Domain.Mutex
import OpenWorkloadScheduler.Scheduler.ServedSteps

/-!
# One call of `Job::run`

A call updates the state of the job, executes its command and updates the state once
more.  What it does outside of the process is recorded, whichever way it is left.  The
thread of the master goes through the same call in four steps.
-/

namespace OpenWorkloadScheduler

open Rpc Store Foundations

/-- What becomes of the command: the status that `pclose` returns, or `none` where
`popen` returns NULL, and what happens to the database until it has ended. -/
structure Command where
  status : Option Int
  meanwhile : World → World := id

/-- What a call does outside of the process.  An update has returned, or it has been left
in another way. -/
inductive JobEffect where
  | update (state : EJobState) (returned : Option Bool)
  | execute
  deriving DecidableEq, Repr

/-- The attribute `job` of a `Job`, the database, and what the call has done. -/
structure JobRun where
  job : TJob
  world : World
  effects : List JobEffect := []

namespace JobRun

/-- A method of `Job`. -/
abbrev Method := EStateM Raised JobRun

/-- A call of `Domain::update_job_state`. -/
def attempt (state : EJobState) (update : Action Bool) : Method Bool := fun run =>
  match update run.world with
  | .ok done world =>
      .ok done { run with world, effects := run.effects ++ [.update state (some done)] }
  | .error raised world =>
      .error raised { run with world, effects := run.effects ++ [.update state none] }

/-- `Job::update_state`. -/
def updateState (state : EJobState) : Method Bool := do
  let job := (← get).job
  attempt state (Domain.updateStateOfJob job.domain (some job) state)

/-- `Job::update_state` with the times. -/
def updateStateTimes (state : EJobState) (startTime stopTime : Int) : Method Bool := do
  let job := (← get).job
  attempt state (Domain.updateStateTimesOfJob job.domain job state startTime stopTime)

/-- The first `try` block of `run`, in which nothing raises. -/
def executed (command : Command) (run : JobRun) : JobRun :=
  let startTime := run.world.clock
  match command.status with
  | some status =>
      let world := command.meanwhile run.world
      { job := { run.job with
          startTime, returnCode := Integer.narrow status, stopTime := world.clock }
        world
        effects := run.effects ++ [.execute] }
  | none => { run with job := { run.job with startTime, returnCode := 1, stopTime := startTime } }

/-- The second `try` block of `run`. -/
def writeFinalState : Method Bool := do
  let job := (← get).job
  if job.returnCode = 0 then
    if ← updateStateTimes .succeded job.startTime job.stopTime then return true
    else return false
  else
    let _ ← updateStateTimes .failed job.startTime job.stopTime
    return false

/-- Its handler. -/
def catchException (method : Method Bool) : Method Bool :=
  tryCatch method fun raised =>
    match raised with
    | .undefinedBehaviour _ => throw raised
    | .blocked => throw raised
    | _ => return false

/-- `Job::run`. -/
def run (command : Command) : Method Bool := do
  if (← get).job.state = .running then return false
  else if ← updateState .running then
    modify (executed command)
    catchException writeFinalState
  else return false

/-! ## The updates -/

section Updates

variable {current : JobRun} {state : EJobState} {update : Action Bool} {after : World}

theorem attempt_of_ok {done : Bool} (ran : update current.world = .ok done after) :
    attempt state update current =
      .ok done { current with
        world := after
        effects := current.effects ++ [.update state (some done)] } := by
  rw [attempt, ran]

theorem attempt_of_error {raised : Raised} (ran : update current.world = .error raised after) :
    attempt state update current =
      .error raised { current with
        world := after
        effects := current.effects ++ [.update state none] } := by
  rw [attempt, ran]

theorem finalState_attempt :
    finalState (attempt state update current) =
      { current with
        world := finalState (update current.world)
        effects := current.effects ++ [.update state (returned (update current.world))] } := by
  unfold attempt
  cases update current.world <;> rfl

theorem returned_attempt :
    returned (attempt state update current) = returned (update current.world) := by
  unfold attempt
  cases update current.world <;> rfl

end Updates

theorem updateState_eq (state : EJobState) (current : JobRun) :
    updateState state current =
      attempt state (Domain.updateStateOfJob current.job.domain (some current.job) state)
        current :=
  bind_get _ current

theorem updateStateTimes_eq (state : EJobState) (startTime stopTime : Int) (current : JobRun) :
    updateStateTimes state startTime stopTime current =
      attempt state (Domain.updateStateTimesOfJob current.job.domain current.job state startTime
        stopTime) current :=
  bind_get _ current

/-- The update at the end of a call. -/
def finalUpdate (current : JobRun) : Action Bool :=
  Domain.updateStateTimesOfJob current.job.domain current.job
    (Master.finalJobState current.job.returnCode) current.job.startTime current.job.stopTime

theorem writeFinalState_of_success {current : JobRun} (success : current.job.returnCode = 0) :
    writeFinalState current =
      (attempt .succeded (finalUpdate current) >>= fun done =>
        if done then pure true else pure false) current := by
  have state : Master.finalJobState current.job.returnCode = .succeded := if_pos success
  rw [writeFinalState, bind_get]
  rw [if_pos success, finalUpdate, state]
  exact bind_of_eq (updateStateTimes_eq _ _ _ current)

theorem writeFinalState_of_failure {current : JobRun} (failure : current.job.returnCode ≠ 0) :
    writeFinalState current =
      (attempt .failed (finalUpdate current) >>= fun _ => pure false) current := by
  have state : Master.finalJobState current.job.returnCode = .failed := if_neg failure
  rw [writeFinalState, bind_get]
  rw [if_neg failure, finalUpdate, state]
  exact bind_of_eq (updateStateTimes_eq _ _ _ current)

/-- The end of a call attempts one update, with the state that the return code gives. -/
theorem writeFinalState_spec (current : JobRun) :
    finalState (writeFinalState current) =
        { current with
          world := finalState (finalUpdate current current.world)
          effects := current.effects ++
            [.update (Master.finalJobState current.job.returnCode)
              (returned (finalUpdate current current.world))] } ∧
      (returned (writeFinalState current) = some true ↔
        current.job.returnCode = 0 ∧
          returned (finalUpdate current current.world) = some true) := by
  by_cases success : current.job.returnCode = 0
  · rw [writeFinalState_of_success success, Master.finalJobState, if_pos success]
    constructor
    · rw [finalState_bind_of_still (by rintro (_ | _) state <;> rfl), finalState_attempt]
    · rw [returned_bind_of_same (by rintro (_ | _) state <;> rfl), returned_attempt]
      simp [success]
  · rw [writeFinalState_of_failure success, Master.finalJobState, if_neg success]
    constructor
    · rw [finalState_bind_of_still fun _ _ => rfl, finalState_attempt]
    · refine iff_of_false (returned_bind_ne ?_) fun both => success both.1
      intro done state
      simp

/-- An exception of the last update is caught, which changes neither what has been done
nor whether the call returns `true`. -/
theorem catchException_spec (method : Method Bool) (current : JobRun) :
    finalState (catchException method current) = finalState (method current) ∧
      (returned (catchException method current) = some true ↔
        returned (method current) = some true) := by
  constructor
  · refine finalState_tryCatch_of_still fun raised after => ?_
    cases raised <;> rfl
  · refine returned_tryCatch_eq_some_iff fun raised after => ?_
    cases raised <;> simp

/-- Where a call that has come to its last update is left, if it returns. -/
theorem finalState_of_returned {current after : JobRun} {value : Bool}
    (ran : catchException writeFinalState current = .ok value after) :
    after.world = finalState (finalUpdate current current.world) ∧
      ∃ last, after.effects = current.effects ++
        [.update (Master.finalJobState current.job.returnCode) last] := by
  have left := (catchException_spec writeFinalState current).1
  rw [ran, (writeFinalState_spec current).1, finalState_ok] at left
  rw [left]
  exact ⟨rfl, _, rfl⟩

/-- A last update that waits for the mutex for ever is not caught. -/
theorem not_blocked_of_returned {current after : JobRun} {value : Bool}
    (ran : catchException writeFinalState current = .ok value after) (world : World) :
    finalUpdate current current.world ≠ .error .blocked world := by
  intro blocks
  obtain ⟨between, left⟩ : ∃ between, writeFinalState current = .error .blocked between := by
    by_cases success : current.job.returnCode = 0
    · rw [writeFinalState_of_success success, bind_of_error (attempt_of_error blocks)]
      exact ⟨_, rfl⟩
    · rw [writeFinalState_of_failure success, bind_of_error (attempt_of_error blocks)]
      exact ⟨_, rfl⟩
  change EStateM.tryCatch writeFinalState _ current = _ at ran
  unfold EStateM.tryCatch at ran
  rw [left] at ran
  cases ran

theorem executed_of_failed {command : Command} (failed : command.status = none)
    (current : JobRun) :
    executed command current =
      { current with
        job := { current.job with
          startTime := current.world.clock
          returnCode := 1
          stopTime := current.world.clock } } := by
  unfold executed
  rw [failed]

theorem executed_of_opened {command : Command} {status : Int}
    (opened : command.status = some status) (current : JobRun) :
    executed command current =
      { job := { current.job with
          startTime := current.world.clock
          returnCode := Integer.narrow status
          stopTime := (command.meanwhile current.world).clock }
        world := command.meanwhile current.world
        effects := current.effects ++ [.execute] } := by
  unfold executed
  rw [opened]

/-! ## The call -/

/-- The statuses that `pclose` can return: a failure, or what `wait` gives. -/
def IsWaitStatus (status : Int) : Prop :=
  status = -1 ∨ 0 ≤ status ∧ status < 2 ^ 16

theorem narrow_eq_zero_iff {status : Int} (wait : IsWaitStatus status) :
    Integer.narrow status = 0 ↔ status = 0 := by
  constructor
  · intro zero
    have divides : (2 ^ 16 : Int) ∣ status := by
      rw [Integer.narrow] at zero
      exact Int.dvd_of_bmod_eq_zero zero
    rcases wait with rfl | bounds <;> omega
  · rintro rfl
    rfl

section Call

variable {command : Command} {job : TJob} {world : World}

/-- The first update of a call. -/
def firstUpdate (job : TJob) : Action Bool :=
  Domain.updateStateOfJob job.domain (some job) .running

theorem run_of_idle (idle : job.state ≠ .running) :
    run command { job, world } =
      (attempt .running (firstUpdate job) >>= fun done =>
        if done then do
          modify (executed command)
          catchException writeFinalState
        else pure false) { job, world } := by
  rw [run, bind_get, if_neg idle]
  exact bind_of_eq (updateState_eq .running { job, world })

theorem run_of_refused (idle : job.state ≠ .running)
    (refused : returned (firstUpdate job world) ≠ some true) :
    (finalState (run command { job, world })).effects =
        [.update .running (returned (firstUpdate job world))] ∧
      returned (run command { job, world }) ≠ some true := by
  rw [run_of_idle idle]
  cases first : firstUpdate job world with
  | error raised after =>
      rw [bind_of_error (attempt_of_error first)]
      simp
  | ok done after =>
      rw [first, returned_ok] at refused
      cases done with
      | true => exact absurd rfl refused
      | false =>
          rw [bind_of_ok (attempt_of_ok first)]
          exact ⟨rfl, by simp⟩

/-- The call when it comes to its last update. -/
def beforeFinalUpdate (command : Command) (job : TJob) (world : World) : JobRun :=
  executed command
    { job, world := finalState (firstUpdate job world), effects := [.update .running (some true)] }

theorem beforeFinalUpdate_spec
    (wait : ∀ status, command.status = some status → IsWaitStatus status) :
    (beforeFinalUpdate command job world).effects =
        .update .running (some true) :: (if command.status.isSome then [.execute] else []) ∧
      ((beforeFinalUpdate command job world).job.returnCode = 0 ↔ command.status = some 0) := by
  unfold beforeFinalUpdate executed
  cases waited : command.status with
  | none => simp
  | some status => simp [narrow_eq_zero_iff (wait status waited)]

theorem run_of_started (idle : job.state ≠ .running)
    (started : returned (firstUpdate job world) = some true) :
    run command { job, world } =
      catchException writeFinalState (beforeFinalUpdate command job world) := by
  rw [run_of_idle idle]
  cases first : firstUpdate job world with
  | error raised after =>
      rw [first] at started
      cases started
  | ok done after =>
      rw [first, returned_ok] at started
      cases started
      rw [bind_of_ok (attempt_of_ok first), beforeFinalUpdate, first]
      rfl

/-- A call on a job that is not running, whatever becomes of the command and however the
updates are left.  If the update to `RUNNING` does not succeed, the call does no more and
does not return `true`.  Otherwise it executes the command unless `popen` fails, and then
attempts one update, to `SUCCEDED` if and only if the status is 0.  It returns `true` if
and only if the status is 0 and that update succeeds too. -/
theorem run_effects (idle : job.state ≠ .running)
    (wait : ∀ status, command.status = some status → IsWaitStatus status) :
    (∀ status, command.status = some status → (Integer.narrow status = 0 ↔ status = 0)) ∧
      (returned (firstUpdate job world) ≠ some true →
        (finalState (run command { job, world })).effects =
            [.update .running (returned (firstUpdate job world))] ∧
          returned (run command { job, world }) ≠ some true) ∧
      (returned (firstUpdate job world) = some true →
        ∃ last,
          (finalState (run command { job, world })).effects =
              .update .running (some true) ::
                (if command.status.isSome then [.execute] else []) ++
                  [.update (if command.status = some 0 then .succeded else .failed) last] ∧
            (returned (run command { job, world }) = some true ↔
              command.status = some 0 ∧ last = some true)) := by
  refine ⟨fun status waited => narrow_eq_zero_iff (wait status waited), run_of_refused idle, ?_⟩
  intro started
  obtain ⟨effects, code⟩ := @beforeFinalUpdate_spec command job world wait
  obtain ⟨caughtState, caughtValue⟩ :=
    catchException_spec writeFinalState (beforeFinalUpdate command job world)
  obtain ⟨writtenState, writtenValue⟩ := writeFinalState_spec (beforeFinalUpdate command job world)
  refine ⟨returned (finalUpdate (beforeFinalUpdate command job world)
    (beforeFinalUpdate command job world).world), ?_, ?_⟩
  · rw [run_of_started idle started, caughtState, writtenState]
    dsimp only
    rw [Master.finalJobState, if_congr code rfl rfl, effects]
  · rw [run_of_started idle started, caughtValue, writtenValue]
    exact and_congr_left fun _ => code

end Call

/-- A job of the single node. -/
def listingJob : TJob where
  name := "listing"
  nodeName := "localhost"
  domain := "test_domain"
  cmdLine := "/bin/ls /nowhere"

/-- The command ends with the exit code 1. -/
theorem run_effects_listingJob :
    listingJob.state ≠ .running ∧ IsWaitStatus 256 ∧
      (∃ last, (finalState (run { status := some 256 }
          { job := listingJob, world := Domain.oneNodeWorld })).effects =
        [.update .running (some true), .execute, .update .failed last]) ∧
      returned (run { status := some 256 }
        { job := listingJob, world := Domain.oneNodeWorld }) ≠ some true := by
  have idle : listingJob.state ≠ .running := by decide
  have wait : IsWaitStatus 256 := Or.inr (by decide)
  obtain ⟨_, _, effects⟩ := @run_effects { status := some 256 } listingJob Domain.oneNodeWorld
    idle fun status waited => Option.some.inj waited ▸ wait
  obtain ⟨last, done, value⟩ := effects rfl
  exact ⟨idle, wait, ⟨last, done⟩, fun succeeded => absurd (value.mp succeeded).1 (by decide)⟩

end JobRun

/-! ## The thread of the master -/

namespace Master

variable (domain : Domain) (settings : Settings)

section Thread

variable {master : Master} {index : Nat} {job : TJob}

theorem start_of_ok (alive : master.point ≠ .exited)
    (found : master.threads[index]? = some ⟨job, .created⟩) (idle : job.state ≠ .running)
    {done : Bool} {world : World}
    (ran : JobRun.firstUpdate job master.world = .ok done world) :
    master.perform domain settings (.start index) =
      some { master with
        world
        threads := master.threads.set index ⟨job, if done then .running else .finished⟩ } := by
  have updated : Domain.updateStateOfJob job.domain (some job) .running master.world =
      .ok done world := ran
  unfold perform
  rw [if_neg alive]
  dsimp only
  rw [start, startWith, found]
  dsimp only
  rw [if_neg idle, Option.bind_some, updated]
  cases done <;> rfl

theorem popen_of_failed (alive : master.point ≠ .exited)
    (found : master.threads[index]? = some ⟨job, .running⟩) :
    master.perform domain settings (.popen index false) =
      some (master.moveThread index job
        (.executed master.world.clock master.world.clock 1)) := by
  unfold perform
  rw [if_neg alive]
  dsimp only
  rw [popen, found]
  rfl

theorem outside_of_kept (alive : master.point ≠ .exited) {world : World}
    (kept : world.planningStartTime = master.world.planningStartTime) :
    master.perform domain settings (.outside world) = some { master with world } := by
  unfold perform
  rw [if_neg alive]
  dsimp only
  rw [← kept]

theorem finish_of_found (alive : master.point ≠ .exited) {startTime stopTime : Int}
    {returnCode : Integer} {update : Action Bool}
    (found : master.threads[index]? = some ⟨job, .executed startTime stopTime returnCode⟩)
    (same : update = Domain.updateStateTimesOfJob job.domain job (finalJobState returnCode)
      startTime stopTime)
    (ends : ∀ world, update master.world ≠ .error .blocked world) :
    master.perform domain settings (.finish index) =
      some { master.moveThread index job .finished with
        world := finalState (update master.world) } := by
  unfold perform
  rw [if_neg alive]
  dsimp only
  rw [finish, finishWith, found]
  dsimp only
  rw [Option.bind_some, ← same]
  cases left : update master.world with
  | ok done world => rfl
  | error raised world =>
      cases raised with
      | blocked => exact absurd left (ends world)
      | _ => rfl

theorem thread_of_executed (alive : master.point ≠ .exited)
    (found : master.threads[index]? = some ⟨job, .running⟩)
    {command : Command} {effects : List JobEffect} {value : Bool} {after : JobRun}
    (keeps : ∀ world, (command.meanwhile world).planningStartTime = world.planningStartTime)
    (ran : JobRun.catchException JobRun.writeFinalState
      (JobRun.executed command { job, world := master.world, effects }) = .ok value after) :
    ∃ events, performAll (perform domain settings) master events =
      some { master with
        world := after.world
        threads := master.threads.set index ⟨job, .finished⟩
        executions := master.executions ++ if command.status.isSome then [job] else [] } := by
  obtain ⟨bound, _⟩ := List.getElem?_eq_some_iff.mp found
  cases waited : command.status with
  | none =>
      rw [JobRun.executed_of_failed waited] at ran
      have finished := @finish_of_found domain settings
        (master.moveThread index job (.executed master.world.clock master.world.clock 1))
        index job alive _ _ _ _ (List.getElem?_set_self bound) rfl
        (JobRun.not_blocked_of_returned ran)
      refine ⟨[.popen index false, .finish index], ?_⟩
      rw [performAll, popen_of_failed domain settings alive found, Option.bind_some, performAll,
        finished, (JobRun.finalState_of_returned ran).1]
      simp only [performAll, moveThread, List.set_set, Option.isSome_none, Bool.false_eq_true,
        if_false, List.append_nil]
      rfl
  | some status =>
      rw [JobRun.executed_of_opened waited] at ran
      -- the master while the command runs, and after it has ended
      let opened : Master := { master.moveThread index job (.executing master.world.clock) with
        executions := master.executions ++ [job] }
      let meanwhile : Master := { opened with world := command.meanwhile master.world }
      have passed := @outside_of_kept domain settings opened alive
        (command.meanwhile master.world) (keeps master.world)
      have closed := @pclose_of_found domain settings meanwhile index job alive _
        (List.getElem?_set_self bound) status
      have finished := @finish_of_found domain settings
        (meanwhile.moveThread index job (.executed master.world.clock
          (command.meanwhile master.world).clock (Integer.narrow status)))
        index job alive _ _ _ _
        (List.getElem?_set_self ((List.length_set ..).symm ▸ bound)) rfl
        (JobRun.not_blocked_of_returned ran)
      refine ⟨[.popen index true, .outside (command.meanwhile master.world),
        .pclose index status, .finish index], ?_⟩
      rw [performAll, popen_of_opened domain settings alive found, Option.bind_some, performAll,
        passed, Option.bind_some, performAll, closed, Option.bind_some, performAll, finished,
        (JobRun.finalState_of_returned ran).1]
      simp only [performAll, moveThread, meanwhile, opened, List.set_set, Option.isSome_some,
        if_true, Option.bind_some]
      rfl

/-- What a call of `run` does, the thread of the job does in steps of the master, with what
happens to the database between them. -/
theorem thread_of_run (alive : master.point ≠ .exited)
    (found : master.threads[index]? = some ⟨job, .created⟩) (idle : job.state ≠ .running)
    {command : Command} {value : Bool} {after : JobRun}
    (keeps : ∀ world, (command.meanwhile world).planningStartTime = world.planningStartTime)
    (ran : JobRun.run command { job, world := master.world } = .ok value after) :
    ∃ events, performAll (perform domain settings) master events =
      some { master with
        world := after.world
        threads := master.threads.set index ⟨job, .finished⟩
        executions := master.executions ++ if .execute ∈ after.effects then [job] else [] } := by
  obtain ⟨bound, _⟩ := List.getElem?_eq_some_iff.mp found
  cases first : JobRun.firstUpdate job master.world with
  | error raised world =>
      rw [JobRun.run_of_idle idle, bind_of_error (JobRun.attempt_of_error first)] at ran
      cases ran
  | ok done world =>
      have begins := start_of_ok domain settings alive found idle first
      cases done with
      | false =>
          rw [JobRun.run_of_idle idle, bind_of_ok (JobRun.attempt_of_ok first)] at ran
          cases ran
          refine ⟨[.start index], ?_⟩
          rw [performAll, begins]
          simp [performAll]
      | true =>
          have started : returned (JobRun.firstUpdate job master.world) = some true := by
            rw [first, returned_ok]
          rw [JobRun.run_of_started idle started, JobRun.beforeFinalUpdate, first] at ran
          obtain ⟨events, performed⟩ := @thread_of_executed domain settings
            { master with world, threads := master.threads.set index ⟨job, .running⟩ } index job
            alive (List.getElem?_set_self bound) command _ value after keeps ran
          have executes : .execute ∈ after.effects ↔ command.status.isSome = true := by
            obtain ⟨_, last, effects⟩ := JobRun.finalState_of_returned ran
            rw [effects]
            cases waited : command.status with
            | none => simp [JobRun.executed_of_failed waited]
            | some status => simp [JobRun.executed_of_opened waited]
          refine ⟨.start index :: events, ?_⟩
          rw [performAll, begins, Option.bind_some]
          refine performed.trans ?_
          simp only [List.set_set, executes]

end Thread

end Master

end OpenWorkloadScheduler
