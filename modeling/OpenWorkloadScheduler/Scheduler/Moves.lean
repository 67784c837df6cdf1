import OpenWorkloadScheduler.Domain.Additions
import OpenWorkloadScheduler.Domain.Switching
import OpenWorkloadScheduler.Scheduler.OwnPlanning

/-!
# What one step can do

Each step of the process has a few outcomes.  They are listed once, with all that
holds where one of them is reached; the invariants of the runs are read off this
list.
-/

namespace OpenWorkloadScheduler.Master

open Rpc Store Foundations Domain

variable (domain : Domain) (settings : Settings)

/-- The rows of `job` that the update of a state has changed. -/
abbrev Updates (job : TJob) (update : JobRow → JobRow) (before after : World) : Prop :=
  ChangesTables job.domain (fun tables => .ok (tables.updateJob job.name update))
    before.server after.server

/-- What the end of `Job::run` writes into the row. -/
def writeEnd (startTime stopTime : Int) (returnCode : Integer) (row : JobRow) : JobRow :=
  { row with
    jobState := some (finalJobState returnCode)
    jobStartTime := some startTime
    jobStopTime := some stopTime }

/-- The outcomes of a step. -/
inductive Moves (before : Master) : Event → Master → Prop where
  | polled {world : World} {point : LoopPoint} {jobs : List TJob}
      (top : before.point = .top) (readOnly : ReadOnly before.world world)
      (busy : point ≠ .top)
      (pushed : jobs = before.jobs ∨
        before.world.planningStartTime ≤ before.world.clock ∧
          jobs = currentOffer domain (askedNode settings) before.world) :
      Moves before .poll { before with world, point, jobs }
  | switched {world : World} {point : LoopPoint} (busy : point ≠ .top)
      (extend : before.world.server.Extends world.server)
      (clock : world.clock = before.world.clock)
      (start : world.planningStartTime = before.world.planningStartTime ∨
        world.planningStartTime = nextPlanningStartTime domain before.world.clock) :
      Moves before .switch { before with world, point }
  | launched {launched : List TJob}
      (sublist : launched.Sublist (before.jobs.filter (isLaunched settings))) :
      Moves before .launch { before with
        point := .top
        jobs := []
        threads := before.threads ++ launched.map fun job => ⟨job, .created⟩ }
  | started {index : Nat} {job : TJob} {world : World}
      (found : before.threads[index]? = some ⟨job, .created⟩)
      (times : KeepsTimes before.world world)
      (updates : Updates job (fun row => { row with jobState := some .running })
        before.world world) :
      Moves before (.start index) { before.moveThread index job .running with world }
  | refused {index : Nat} {job : TJob} {world : World}
      (found : before.threads[index]? = some ⟨job, .created⟩)
      (times : KeepsTimes before.world world)
      (same : world.server = before.world.server) :
      Moves before (.start index) { before.moveThread index job .finished with world }
  | aborted {index : Nat} {job : TJob} {world : World}
      (found : before.threads[index]? = some ⟨job, .created⟩)
      (times : KeepsTimes before.world world)
      (same : world.server = before.world.server) :
      Moves before (.start index) { before with world, point := .exited }
  | opened {index : Nat} {job : TJob}
      (found : before.threads[index]? = some ⟨job, .running⟩) :
      Moves before (.popen index true) {
        before.moveThread index job (.executing before.world.clock) with
        executions := before.executions ++ [job] }
  | notOpened {index : Nat} {job : TJob}
      (found : before.threads[index]? = some ⟨job, .running⟩) :
      Moves before (.popen index false)
        (before.moveThread index job (.executed before.world.clock before.world.clock 1))
  | closed {index : Nat} {status : Int} {job : TJob} {startTime : Int}
      (found : before.threads[index]? = some ⟨job, .executing startTime⟩) :
      Moves before (.pclose index status) (before.moveThread index job
        (.executed startTime before.world.clock (Integer.narrow status)))
  | reported {index : Nat} {job : TJob} {startTime stopTime : Int} {returnCode : Integer}
      {world : World}
      (found : before.threads[index]? = some ⟨job, .executed startTime stopTime returnCode⟩)
      (times : KeepsTimes before.world world)
      (updates : Updates job (writeEnd startTime stopTime returnCode) before.world world) :
      Moves before (.finish index) { before.moveThread index job .finished with world }
  | unreported {index : Nat} {job : TJob} {startTime stopTime : Int} {returnCode : Integer}
      {world : World}
      (found : before.threads[index]? = some ⟨job, .executed startTime stopTime returnCode⟩)
      (times : KeepsTimes before.world world)
      (same : world.server = before.world.server) :
      Moves before (.finish index) { before.moveThread index job .finished with world }
  | ticked (seconds : Nat) :
      Moves before (.tick seconds) { before with
        world := { before.world with clock := before.world.clock + seconds } }
  | interfered (world : World) :
      Moves before (.outside world) { before with
        world := { world with planningStartTime := before.world.planningStartTime } }

/-! ## The loop -/

section Loop

variable {domain settings} {before after : Master}

theorem moves_of_poll (called : before.poll domain settings = some after) :
    Moves domain settings before .poll after := by
  have cases := poll_cases domain called
  rw [poll] at called
  split at called
  · rename_i top
    dsimp only at called
    split at called
    · rename_i begun
      obtain ⟨_, world, point, jobs, readOnly, busy, pushed, rfl⟩ := cases
      exact .polled top readOnly busy (pushed.imp_right fun offered => ⟨begun, offered⟩)
    · cases called
      exact @Moves.polled domain settings before before.world _ before.jobs top rfl (by simp)
        (Or.inl rfl)
  · cases called

theorem moves_of_switch (called : before.switch domain = some after) :
    Moves domain settings before .switch after := by
  obtain ⟨world, point, rfl, busy, rfl | rfl⟩ := switch_cases domain called
  · exact .switched busy (Server.extends_of_same rfl) rfl (Or.inl rfl)
  · have extend := extends_switchPlanning domain before.world
    by_cases switched : ∃ other, switchPlanning domain before.world = .ok true other
    · obtain ⟨other, ran⟩ := switched
      obtain ⟨start, clock⟩ := planningStartTime_of_switchPlanning domain ran
      rw [ran] at extend ⊢
      exact .switched busy extend clock (Or.inr start)
    · have kept := keepsTimes_of_switchPlanning domain (not_exists.mp switched)
      exact .switched busy extend kept.clock (Or.inl kept.planningStartTime)

end Loop

/-! ## The threads -/

section Threads

variable {domain settings} {before after : Master} {index : Nat}

/-- An update of a state returns `true` and has changed its rows, or it has changed
nothing. -/
theorem updateState_cases {action : Action Bool} (name runningNode : String)
    (statement : Statement) (jobName : String) (update : JobRow → JobRow)
    (effect : statement.effect.changedRows = fun tables => .ok (tables.updateJob jobName update))
    (onRows : statement.onRows = true)
    (guarded : action =
      if runningNode = "" then return false else lockedExecute [statement] (some name))
    (world : World) :
    ((∃ after, action world = .ok true after ∧
        ChangesTables name (fun tables => .ok (tables.updateJob jobName update)) world.server
          after.server) ∨
      (∀ after, action world ≠ .ok true after) ∧
        (finalState (action world)).server = world.server) ∧
      KeepsTimes world (finalState (action world)) := by
  subst guarded
  refine ⟨?_, respects_keepsTimes.within_updateState trivial world⟩
  split
  · exact Or.inr ⟨nofun, rfl⟩
  · have single : ∀ other ∈ [statement], other.onRows = true :=
      List.forall_mem_singleton.mpr onRows
    have rows : rowsAfter [statement] = fun tables => .ok (tables.updateJob jobName update) := by
      funext tables
      rw [rowsAfter_cons, effect]
      rfl
    have cases := lockedExecute_cases name world single
    rw [rows] at cases
    exact cases

theorem moves_of_start (called : before.start index = some after) :
    Moves domain settings before (.start index) after := by
  rw [start, startWith] at called
  split at called
  · rename_i job found
    split at called
    · cases called
      exact @Moves.refused domain settings before index job before.world found
        (refl before.world) rfl
    · obtain ⟨outcome, kept⟩ := @updateState_cases
        (updateStateOfJob job.domain (some job) .running) job.domain job.nodeName
        (.updateJobState job.name .running) job.name _ rfl rfl rfl before.world
      cases ran : updateStateOfJob job.domain (some job) .running before.world with
      | ok accepted world =>
          rw [Option.bind_some, ran] at called
          rw [ran] at kept outcome
          cases accepted with
          | true =>
              cases called
              rcases outcome with ⟨_, ⟨⟩, updates⟩ | ⟨refused, _⟩
              · exact .started found kept updates
              · exact absurd rfl (refused world)
          | false =>
              cases called
              rcases outcome with ⟨_, ⟨⟩, _⟩ | ⟨_, same⟩
              exact .refused found kept same
      | error raised world =>
          rw [Option.bind_some, ran] at called
          rw [ran] at kept outcome
          rcases outcome with ⟨_, ⟨⟩, _⟩ | ⟨_, same⟩
          cases raised <;> cases called <;> exact .aborted found kept same
  · cases called

theorem moves_of_finish (called : before.finish index = some after) :
    Moves domain settings before (.finish index) after := by
  rw [finish, finishWith] at called
  split at called
  · rename_i job startTime stopTime returnCode found
    obtain ⟨outcome, kept⟩ := @updateState_cases
      (updateStateTimesOfJob job.domain job (finalJobState returnCode) startTime stopTime)
      job.domain job.nodeName
      (.updateJobStateTimes job.name (finalJobState returnCode) startTime stopTime) job.name
      (writeEnd startTime stopTime returnCode) rfl rfl rfl before.world
    cases ran : updateStateTimesOfJob job.domain job (finalJobState returnCode) startTime stopTime
        before.world with
    | ok accepted world =>
        rw [Option.bind_some, ran] at called
        rw [ran] at kept outcome
        cases called
        rcases outcome with ⟨_, ⟨⟩, updates⟩ | ⟨_, same⟩
        · exact .reported found kept updates
        · exact .unreported found kept same
    | error raised world =>
        rw [Option.bind_some, ran] at called
        rw [ran] at kept outcome
        rcases outcome with ⟨_, ⟨⟩, _⟩ | ⟨_, same⟩
        cases raised <;> cases called <;> exact .unreported found kept same
  · cases called

/-- Every step of the process has one of the outcomes. -/
theorem moves_of_step {event : Event} (stepped : Step domain settings before event after) :
    Moves domain settings before event after := by
  unfold Step perform at stepped
  split at stepped
  · cases stepped
  · cases event with
    | poll => exact moves_of_poll stepped
    | switch => exact moves_of_switch stepped
    | launch =>
        obtain ⟨launched, sublist, rfl⟩ := launch_cases stepped
        exact .launched sublist
    | start index => exact moves_of_start stepped
    | popen index opened =>
        dsimp only at stepped
        rw [popen] at stepped
        split at stepped
        · rename_i job found
          cases opened with
          | true =>
              cases stepped
              exact .opened found
          | false =>
              cases stepped
              exact .notOpened found
        · cases stepped
    | pclose index status =>
        dsimp only at stepped
        rw [pclose] at stepped
        split at stepped
        · rename_i job startTime found
          cases stepped
          exact .closed found
        · cases stepped
    | finish index => exact moves_of_finish stepped
    | tick seconds =>
        cases stepped
        exact .ticked seconds
    | outside world =>
        cases stepped
        exact .interfered world

end Threads

end OpenWorkloadScheduler.Master
