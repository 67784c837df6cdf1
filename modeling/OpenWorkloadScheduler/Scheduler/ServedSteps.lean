import OpenWorkloadScheduler.Domain.Serving
import OpenWorkloadScheduler.Scheduler.Master

/-!
# The steps on a planning in service

Each step of the loop and of the threads, where the planning is complete, no call
of MySQL fails and nobody holds the mutex.
-/

namespace OpenWorkloadScheduler.Master

open Rpc Store Foundations Domain

variable (domain : Domain) (settings : Settings) {master : Master}

/-! ## The loop -/

section Loop

variable {schema : Schema} {now : Int}

theorem poll_of_serving (top : master.point = .top)
    (serving : Serving master.world (planningName domain master.world.planningStartTime) schema)
    (begun : master.world.planningStartTime ≤ master.world.clock)
    (acceptable : ∀ row ∈ schema.tables.job, isAcceptable row = true) :
    master.perform domain settings .poll =
      some { master with
        point := .polled master.world.clock
        jobs := offeredJobs (planningName domain master.world.planningStartTime) schema.tables
          master.world.now (askedNode settings) } := by
  unfold perform
  rw [if_neg (by rw [top]; exact nofun)]
  dsimp only
  rw [poll, top]
  dsimp only
  rw [if_pos begun, getReadyJobs_of_serving domain serving (askedNode settings) acceptable]

theorem switch_of_later (polled : master.point = .polled now)
    (later : 60 < nextPlanningStartTime domain master.world.clock - now) :
    master.perform domain settings .switch = some { master with point := .launching now } := by
  unfold perform
  rw [if_neg (by rw [polled]; exact nofun)]
  dsimp only
  rw [switch, polled]
  dsimp only
  rw [if_neg (by omega)]

theorem launch_of_begun (launching : master.point = .launching now)
    (begun : master.world.planningStartTime ≤ now) :
    master.perform domain settings .launch =
      some { master with
        point := .top
        jobs := []
        threads := master.threads ++
          (master.jobs.filter (isLaunched settings)).map fun job => ⟨job, .created⟩ } := by
  unfold perform
  rw [if_neg (by rw [launching]; exact nofun)]
  dsimp only
  rw [launch, launching]
  dsimp only
  rw [if_pos begun]

/-- One iteration of the loop: a thread for each job that waits on this node. -/
theorem iterate_of_serving (top : master.point = .top)
    (serving : Serving master.world (planningName domain master.world.planningStartTime) schema)
    (begun : master.world.planningStartTime ≤ master.world.clock)
    (acceptable : ∀ row ∈ schema.tables.job, isAcceptable row = true)
    (later : 60 < nextPlanningStartTime domain master.world.clock - master.world.clock) :
    performAll (perform domain settings) master [.poll, .switch, .launch] =
      some { master with
        point := .top
        jobs := []
        threads := master.threads ++
          ((offeredJobs (planningName domain master.world.planningStartTime) schema.tables
            master.world.now (askedNode settings)).filter (isLaunched settings)).map
              fun job => ⟨job, .created⟩ } := by
  have polled := poll_of_serving domain settings top serving begun acceptable
  have switched := @switch_of_later domain settings
    { master with
      point := .polled master.world.clock
      jobs := offeredJobs (planningName domain master.world.planningStartTime) schema.tables
        master.world.now (askedNode settings) }
    master.world.clock rfl later
  have launched := @launch_of_begun domain settings
    { master with
      point := .launching master.world.clock
      jobs := offeredJobs (planningName domain master.world.planningStartTime) schema.tables
        master.world.now (askedNode settings) }
    master.world.clock rfl begun
  rw [performAll, polled, Option.bind_some, performAll, switched, Option.bind_some, performAll,
    launched]
  rfl

end Loop

/-! ## The threads -/

section Threads

variable {schema : Schema} {index : Nat} {job : TJob}

theorem start_of_serving (alive : master.point ≠ .exited)
    (found : master.threads[index]? = some ⟨job, .created⟩) (waiting : job.state ≠ .running)
    (located : job.nodeName ≠ "") (serving : Serving master.world job.domain schema) :
    master.perform domain settings (.start index) =
      some { master.moveThread index job .running with
        world := master.world.holding job.domain schema
          (schema.tables.updateJob job.name fun row =>
            { row with jobState := some .running }) } := by
  unfold perform
  rw [if_neg alive]
  dsimp only
  rw [start, startWith, found]
  dsimp only
  rw [if_neg waiting, Option.bind_some, updateStateOfJob_of_serving serving located]

theorem popen_of_opened (alive : master.point ≠ .exited)
    (found : master.threads[index]? = some ⟨job, .running⟩) :
    master.perform domain settings (.popen index true) =
      some { master.moveThread index job (.executing master.world.clock) with
        executions := master.executions ++ [job] } := by
  unfold perform
  rw [if_neg alive]
  dsimp only
  rw [popen, found]
  rfl

theorem pclose_of_found (alive : master.point ≠ .exited) {startTime : Int}
    (found : master.threads[index]? = some ⟨job, .executing startTime⟩) (status : Int) :
    master.perform domain settings (.pclose index status) =
      some (master.moveThread index job
        (.executed startTime master.world.clock (Integer.narrow status))) := by
  unfold perform
  rw [if_neg alive]
  dsimp only
  rw [pclose, found]

theorem finish_of_serving (alive : master.point ≠ .exited) {startTime stopTime : Int}
    {returnCode : Integer}
    (found : master.threads[index]? = some ⟨job, .executed startTime stopTime returnCode⟩)
    (located : job.nodeName ≠ "") (serving : Serving master.world job.domain schema) :
    master.perform domain settings (.finish index) =
      some { master.moveThread index job .finished with
        world := master.world.holding job.domain schema
          (schema.tables.updateJob job.name fun row =>
            { row with
              jobState := some (finalJobState returnCode)
              jobStartTime := some startTime
              jobStopTime := some stopTime }) } := by
  unfold perform
  rw [if_neg alive]
  dsimp only
  rw [finish, finishWith, found]
  dsimp only
  rw [Option.bind_some, updateStateTimesOfJob_of_serving serving located]

end Threads

end OpenWorkloadScheduler.Master
