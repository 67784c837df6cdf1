import OpenWorkloadScheduler.Config
import OpenWorkloadScheduler.Domain.Planning
import OpenWorkloadScheduler.Foundations.Runs

/-!
# The loop of the master and its job threads

The loop of `main` polls the ready jobs, tests whether the next planning is due,
and starts a thread for each waiting job of its node.  A thread is one call of
`Job::run`: it writes the state `RUNNING`, executes the command, and writes the
final state.

The loop and the threads work on the same database.  Every call of a method of
`Domain` is one step, and the steps of the loop, of the threads and of the rest of
the process come in any order.
-/

namespace OpenWorkloadScheduler

open Rpc Store Foundations

/-- Where the thread of a job stands in `Job::run`. -/
inductive Phase where
  | created
  | running
  | executing (startTime : Int)
  | executed (startTime stopTime : Int) (returnCode : Integer)
  | finished
  deriving DecidableEq, Repr

/-- The copy of a `Job` that its thread was started with. -/
structure JobThread where
  job : TJob
  phase : Phase
  deriving DecidableEq, Repr

/-- Where the loop stands.  `now` is the clock reading at the top of the loop;
after `exited` the process does no more. -/
inductive LoopPoint where
  | top
  | polled (now : Int)
  | launching (now : Int)
  | exited
  deriving DecidableEq, Repr

/-- The parameters that the loop reads. -/
structure Settings where
  runningMode : ERunningMode
  nodeName : String
  deriving DecidableEq, Repr

/-- The process: the database and the attributes of `Domain`, the vector `jobs`
of the loop, the threads, and the jobs whose commands have been executed. -/
structure Master where
  world : World
  point : LoopPoint := .top
  jobs : List TJob := []
  threads : List JobThread := []
  executions : List TJob := []

namespace Master

variable (domain : Domain) (settings : Settings)

/-! ## The loop -/

/-- The node whose jobs are asked for; NULL is `none`. -/
def askedNode : Option String :=
  match settings.runningMode with
  | .passive => none
  | _ => some settings.nodeName

/-- What the handlers of the loop do: an `ex_job` is logged inside the loop, any
other exception ends the process. -/
def caught (now : Int) : Raised → LoopPoint
  | .exJob _ => .launching now
  | _ => .exited

/-- The first part of the `try` block: the jobs pushed so far are there even when
`get_ready_jobs` raises. -/
def poll (master : Master) : Option Master :=
  match master.point with
  | .top =>
      let now := master.world.clock
      if master.world.planningStartTime ≤ now then
        match Domain.getReadyJobs domain (askedNode settings) master.world with
        | .ok (jobs, none) world => some { master with world, jobs, point := .polled now }
        | .ok (jobs, some raised) world =>
            some { master with world, jobs, point := caught now raised }
        | .error raised world => some { master with world, point := caught now raised }
      else
        some { master with point := .polled now }
  | _ => none

/-- The second part of the `try` block.  A call that waits for the mutex makes no
step. -/
def switch (master : Master) : Option Master :=
  match master.point with
  | .polled now =>
      if Domain.nextPlanningStartTime domain master.world.clock - now ≤ 60 then
        match Domain.switchPlanning domain master.world with
        | .ok _ world => some { master with world, point := .launching now }
        | .error .blocked _ => none
        | .error raised world => some { master with world, point := caught now raised }
      else
        some { master with point := .launching now }
  | _ => none

/-- The jobs for which the loop starts a thread. -/
def isLaunched (job : TJob) : Bool :=
  job.state = .waiting && job.nodeName = settings.nodeName

/-- The rest of the loop, up to the next iteration. -/
def launch (master : Master) : Option Master :=
  match master.point with
  | .launching now =>
      let launched :=
        if master.world.planningStartTime ≤ now then master.jobs.filter (isLaunched settings)
        else []
      some { master with
        point := .top
        jobs := []
        threads := master.threads ++ launched.map fun job => ⟨job, .created⟩ }
  | _ => none

/-! ## The threads -/

def moveThread (master : Master) (index : Nat) (job : TJob) (phase : Phase) : Master :=
  { master with threads := master.threads.set index ⟨job, phase⟩ }

/-- The beginning of `Job::run`, with what the server makes of the first update.  Its
exception leaves the function of the thread, which ends the process. -/
def startWith (update : TJob → Option (Action Bool)) (master : Master) (index : Nat) :
    Option Master :=
  match master.threads[index]? with
  | some ⟨job, .created⟩ =>
      if job.state = .running then some (master.moveThread index job .finished)
      else
        (update job).bind fun action =>
          match action master.world with
          | .ok true world => some { master.moveThread index job .running with world }
          | .ok false world => some { master.moveThread index job .finished with world }
          | .error .blocked _ => none
          | .error _ world => some { master with world, point := .exited }
  | _ => none

def start (master : Master) (index : Nat) : Option Master :=
  master.startWith
    (fun job => some (Domain.updateStateOfJob job.domain (some job) .running)) index

/-- `popen`, which executes the command or gives NULL. -/
def popen (master : Master) (index : Nat) (opened : Bool) : Option Master :=
  match master.threads[index]? with
  | some ⟨job, .running⟩ =>
      let now := master.world.clock
      if opened then
        some { master.moveThread index job (.executing now) with
          executions := master.executions ++ [job] }
      else
        some (master.moveThread index job (.executed now now 1))
  | _ => none

/-- `pclose`, which waits for the command; the status is stored as an `integer`. -/
def pclose (master : Master) (index : Nat) (status : Int) : Option Master :=
  match master.threads[index]? with
  | some ⟨job, .executing startTime⟩ =>
      some (master.moveThread index job
        (.executed startTime master.world.clock (Integer.narrow status)))
  | _ => none

/-- The state that `Job::run` writes at its end. -/
def finalJobState (returnCode : Integer) : EJobState :=
  if returnCode = 0 then .succeded else .failed

/-- The end of `Job::run`, which catches the exceptions of the update. -/
def finishWith (update : TJob → EJobState → Int → Int → Option (Action Bool)) (master : Master)
    (index : Nat) : Option Master :=
  match master.threads[index]? with
  | some ⟨job, .executed startTime stopTime returnCode⟩ =>
      (update job (finalJobState returnCode) startTime stopTime).bind fun action =>
        match action master.world with
        | .ok _ world => some { master.moveThread index job .finished with world }
        | .error .blocked _ => none
        | .error _ world => some { master.moveThread index job .finished with world }
  | _ => none

def finish (master : Master) (index : Nat) : Option Master :=
  master.finishWith
    (fun job state startTime stopTime =>
      some (Domain.updateStateTimesOfJob job.domain job state startTime stopTime)) index

/-! ## Runs -/

/-- A step of the process.  `outside` is whatever the other threads of the process
and the clients of the database do in between; only the loop changes the attribute
`planning_start_time`. -/
inductive Event where
  | poll
  | switch
  | launch
  | start (index : Nat)
  | popen (index : Nat) (opened : Bool)
  | pclose (index : Nat) (status : Int)
  | finish (index : Nat)
  | tick (seconds : Nat)
  | outside (world : World)

def perform (master : Master) (event : Event) : Option Master :=
  if master.point = .exited then none
  else
    match event with
    | .poll => master.poll domain settings
    | .switch => master.switch domain
    | .launch => master.launch settings
    | .start index => master.start index
    | .popen index opened => master.popen index opened
    | .pclose index status => master.pclose index status
    | .finish index => master.finish index
    | .tick seconds =>
        some { master with world := { master.world with clock := master.world.clock + seconds } }
    | .outside world =>
        some { master with
          world := { world with planningStartTime := master.world.planningStartTime } }

/-- One event of the process. -/
def Step (before : Master) (event : Event) (after : Master) : Prop :=
  before.perform domain settings event = some after

end Master

end OpenWorkloadScheduler
