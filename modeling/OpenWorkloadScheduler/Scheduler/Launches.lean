import OpenWorkloadScheduler.Domain.Configuration
import OpenWorkloadScheduler.Scheduler.Boundaries

/-!
# What an iteration launches

The loop reads the start time of the planning twice: before it fetches the ready
jobs, and before it starts their threads.  The switch stands between the two
readings.  A switch that succeeds leaves a start time that is still to come, and
the jobs that were fetched from the running planning are dropped.
-/

namespace OpenWorkloadScheduler

open Rpc Store Foundations Domain

namespace Master

variable (domain : Domain) (settings : Settings)

/-! ## One iteration -/

/-- The vector `jobs` after the poll. -/
def fetched (now : Int) (world : World) : List TJob :=
  if world.planningStartTime ≤ now then
    match Domain.getReadyJobs domain (askedNode settings) world with
    | .ok (jobs, _) _ => jobs
    | .error _ _ => []
  else
    []

/-- The state that the poll of the iteration finds. -/
def pollWorld (iteration : Iteration) (planningStartTime : Int) : World :=
  { iteration.polled with planningStartTime }

/-- The state that the switch of the iteration finds. -/
def switchWorld (iteration : Iteration) (planningStartTime : Int) : World :=
  { iteration.entered with planningStartTime }

@[simp]
theorem clock_switchWorld (iteration : Iteration) (planningStartTime : Int) :
    (switchWorld iteration planningStartTime).clock = iteration.entered.clock := rfl

/-- The start time of the planning after the second part of the `try` block; `none`
when an exception has ended the process, or when the switch waits for ever. -/
def startAfterSwitch (now test : Int) (entered : World) : Option Int :=
  if nextPlanningStartTime domain test - now ≤ 60 then
    match switchPlanning domain entered with
    | .ok _ after => some after.planningStartTime
    | .error (.exJob _) after => some after.planningStartTime
    | .error _ _ => none
  else
    some entered.planningStartTime

/-- The start time of the planning when the iteration comes to its launches. -/
def startAtLaunch (iteration : Iteration) (planningStartTime : Int) : Option Int :=
  match pollPoint domain settings iteration.now (pollWorld iteration planningStartTime) with
  | .polled now =>
      startAfterSwitch domain now iteration.test (switchWorld iteration planningStartTime)
  | .launching _ => some planningStartTime
  | _ => none

/-- The jobs that the iteration starts a thread for. -/
def launched (iteration : Iteration) (planningStartTime : Int) : List TJob :=
  match startAtLaunch domain settings iteration planningStartTime with
  | none => []
  | some startTime =>
      if startTime ≤ iteration.now then
        (fetched domain settings iteration.now (pollWorld iteration planningStartTime)).filter
          (isLaunched settings)
      else []

/-- The jobs that are launched from the state of a poll when no switch comes in
between. -/
def launchable (world : World) : List TJob :=
  match pollPoint domain settings world.clock world with
  | .exited => []
  | _ => (fetched domain settings world.clock world).filter (isLaunched settings)

/-- Every local job that the iteration has fetched as waiting is launched by it. -/
def LaunchesFetched (iteration : Iteration) (planningStartTime : Int) : Prop :=
  ∀ job ∈ fetched domain settings iteration.now (pollWorld iteration planningStartTime),
    isLaunched settings job = true → job ∈ launched domain settings iteration planningStartTime

/-! ## The steps of the process -/

section Steps

variable {domain settings} {master polled switched launching : Master} {world : World}

theorem fetched_of_poll (top : master.point = .top) (empty : master.jobs = [])
    (polls : master.poll domain settings = some polled) :
    polled.jobs = fetched domain settings master.world.clock master.world ∧
      polled.point = pollPoint domain settings master.world.clock master.world ∧
      polled.world.planningStartTime = master.world.planningStartTime ∧
      polled.threads = master.threads := by
  have read := within_getReadyJobs domain (askedNode settings) master.world
  rw [poll, top] at polls
  dsimp only at polls
  unfold fetched pollPoint
  by_cases begun : master.world.planningStartTime ≤ master.world.clock
  · rw [if_pos begun] at polls ⊢
    rw [if_pos begun]
    cases ran : Domain.getReadyJobs domain (askedNode settings) master.world with
    | error raised after =>
        rw [ran] at polls read
        cases polls
        exact ⟨empty, rfl, read.frame.planningStartTime, rfl⟩
    | ok found after =>
        rw [ran] at polls read
        obtain ⟨jobs, _ | raised⟩ := found
        · cases polls
          exact ⟨rfl, rfl, read.frame.planningStartTime, rfl⟩
        · cases polls
          exact ⟨rfl, rfl, read.frame.planningStartTime, rfl⟩
  · rw [if_neg begun] at polls ⊢
    rw [if_neg begun]
    cases polls
    exact ⟨empty, rfl, rfl, rfl⟩

theorem startAfterSwitch_of_switch {now later : Int} (reached : polled.point = .polled now)
    (switches : polled.switch domain = some switched)
    (goesOn : switched.point = .launching later) :
    later = now ∧ switched.jobs = polled.jobs ∧ switched.threads = polled.threads ∧
      startAfterSwitch domain now polled.world.clock polled.world =
        some switched.world.planningStartTime := by
  rw [switch, reached] at switches
  dsimp only at switches
  unfold startAfterSwitch
  by_cases due : nextPlanningStartTime domain polled.world.clock - now ≤ 60
  · rw [if_pos due] at switches ⊢
    cases ran : switchPlanning domain polled.world with
    | ok flag after =>
        rw [ran] at switches
        cases switches
        cases goesOn
        exact ⟨rfl, rfl, rfl, rfl⟩
    | error raised after =>
        rw [ran] at switches
        cases raised with
        | blocked => cases switches
        | exJob message =>
            cases switches
            cases goesOn
            exact ⟨rfl, rfl, rfl, rfl⟩
        | _ =>
            cases switches
            cases goesOn
  · rw [if_neg due] at switches ⊢
    cases switches
    cases goesOn
    exact ⟨rfl, rfl, rfl, rfl⟩

/-- The launch of a master that has come there as the iteration does. -/
theorem threads_of_launch {iteration : Iteration} {planningStartTime : Int} {later : World}
    (jobs : switched.jobs =
      fetched domain settings iteration.now (pollWorld iteration planningStartTime))
    (reached : switched.point = .launching iteration.now)
    (atLaunch : startAtLaunch domain settings iteration planningStartTime =
      some switched.world.planningStartTime)
    (launches : ({ switched with
      world := { later with planningStartTime := switched.world.planningStartTime } } :
        Master).launch settings = some launching) :
    launching.threads = switched.threads ++
      (launched domain settings iteration planningStartTime).map fun job =>
        ⟨job, .created⟩ := by
  rw [launch, reached] at launches
  cases launches
  rw [launched, atLaunch]
  dsimp only
  rw [jobs]

/-- A master that goes from the poll to the launch, while the rest of the process may
change everything but the attribute in between, starts the threads of the iteration. -/
theorem threads_of_steps {now : Int} {later : World} (top : master.point = .top)
    (empty : master.jobs = []) (polls : master.poll domain settings = some polled)
    (goesOn : polled.point = .polled master.world.clock)
    (switches : ({ polled with
      world := { world with planningStartTime := polled.world.planningStartTime } } :
        Master).switch domain = some switched)
    (reached : switched.point = .launching now)
    (launches : ({ switched with
      world := { later with planningStartTime := switched.world.planningStartTime } } :
        Master).launch settings = some launching) :
    launching.threads = master.threads ++
      (launched domain settings ⟨master.world.clock, master.world, world.clock, world⟩
        master.world.planningStartTime).map fun job => ⟨job, .created⟩ := by
  obtain ⟨jobs, point, startTime, threads⟩ := fetched_of_poll top empty polls
  let entering : Master :=
    { polled with world := { world with planningStartTime := polled.world.planningStartTime } }
  have waits : entering.point = .polled master.world.clock := goesOn
  obtain ⟨rfl, sameJobs, sameThreads, after⟩ := startAfterSwitch_of_switch waits switches reached
  have atLaunch : startAtLaunch domain settings
      ⟨master.world.clock, master.world, world.clock, world⟩ master.world.planningStartTime =
        some switched.world.planningStartTime := by
    rw [goesOn] at point
    change startAfterSwitch domain master.world.clock world.clock
      { world with planningStartTime := polled.world.planningStartTime } = _ at after
    rw [startTime] at after
    unfold startAtLaunch
    rw [show pollPoint domain settings _ (pollWorld _ _) = .polled master.world.clock from
      point.symm]
    exact after
  have started := threads_of_launch (sameJobs.trans jobs) reached atLaunch launches
  rw [started, sameThreads, threads]

/-- After an `ex_job` of the poll the master launches without a switch. -/
theorem threads_of_raised {iteration : Iteration} {later : World} (top : master.point = .top)
    (empty : master.jobs = []) (polls : master.poll domain settings = some polled)
    (now : iteration.now = master.world.clock) (found : iteration.polled = master.world)
    (raised : polled.point = .launching master.world.clock)
    (launches : ({ polled with
      world := { later with planningStartTime := polled.world.planningStartTime } } :
        Master).launch settings = some launching) :
    launching.threads = master.threads ++
      (launched domain settings iteration master.world.planningStartTime).map fun job =>
        ⟨job, .created⟩ := by
  obtain ⟨jobs, point, startTime, threads⟩ := fetched_of_poll top empty polls
  have polledThere : pollWorld iteration master.world.planningStartTime = master.world := by
    rw [pollWorld, found]
  have atLaunch : startAtLaunch domain settings iteration master.world.planningStartTime =
      some polled.world.planningStartTime := by
    rw [startAtLaunch, now, polledThere, ← point, raised, startTime]
  rw [← now, ← polledThere] at jobs
  rw [← now] at raised
  rw [threads_of_launch jobs raised atLaunch launches, threads]

end Steps

/-! ## Fetched and launched -/

/-- The switch fails in a way that leaves the loop going. -/
def FailsInLoop (entered : World) : Prop :=
  (∃ after, switchPlanning domain entered = .ok false after) ∨
    ∃ message after, switchPlanning domain entered = .error (.exJob message) after

/-- The iteration comes to its launches, and what it has done about the next planning
leaves the one of its poll running. -/
def KeepsPlanning (iteration : Iteration) (planningStartTime : Int) : Prop :=
  pollPoint domain settings iteration.now (pollWorld iteration planningStartTime) =
      .launching iteration.now ∨
    Polls domain settings iteration planningStartTime ∧
      (iteration.now + 60 < nextPlanningStartTime domain iteration.test ∨
        FailsInLoop domain (switchWorld iteration planningStartTime) ∨
        (∃ after, switchPlanning domain (switchWorld iteration planningStartTime) =
            .ok true after) ∧
          nextPlanningStartTime domain iteration.entered.clock ≤ iteration.now)

section Fetched

variable {domain settings}

theorem startAfterSwitch_le_iff {now test : Int} {entered : World}
    (begun : entered.planningStartTime ≤ now) :
    (∃ startTime, startAfterSwitch domain now test entered = some startTime ∧
        startTime ≤ now) ↔
      now + 60 < nextPlanningStartTime domain test ∨ FailsInLoop domain entered ∨
        (∃ after, switchPlanning domain entered = .ok true after) ∧
          nextPlanningStartTime domain entered.clock ≤ now := by
  by_cases due : nextPlanningStartTime domain test - now ≤ 60
  · have early : ¬ now + 60 < nextPlanningStartTime domain test := by omega
    simp only [startAfterSwitch, if_pos due, early, false_or, FailsInLoop]
    cases ran : switchPlanning domain entered with
    | ok switched after =>
        cases switched with
        | true => simp [(planningStartTime_of_switchPlanning domain ran).1]
        | false =>
            have failure : ∀ other, switchPlanning domain entered ≠ .ok true other := by simp [ran]
            have kept := keepsTimes_of_switchPlanning domain failure
            rw [ran] at kept
            have same : after.planningStartTime = entered.planningStartTime :=
              kept.planningStartTime
            simpa [same] using begun
    | error raised after =>
        have failure : ∀ other, switchPlanning domain entered ≠ .ok true other := by simp [ran]
        have kept := keepsTimes_of_switchPlanning domain failure
        rw [ran] at kept
        have same : after.planningStartTime = entered.planningStartTime := kept.planningStartTime
        cases raised with
        | exJob message => simpa [same] using begun
        | _ => simp
  · simp only [startAfterSwitch, if_neg due]
    have far : now + 60 < nextPlanningStartTime domain test := by omega
    simpa [far] using begun

/-- The jobs of the poll are those of a planning that runs. -/
theorem begun_of_mem_fetched {now : Int} {world : World} {job : TJob}
    (member : job ∈ fetched domain settings now world) : world.planningStartTime ≤ now := by
  unfold fetched at member
  split at member
  · assumption
  · cases member

theorem startAtLaunch_le_iff {iteration : Iteration} {planningStartTime : Int}
    (begun : planningStartTime ≤ iteration.now) :
    (∃ startTime, startAtLaunch domain settings iteration planningStartTime = some startTime ∧
        startTime ≤ iteration.now) ↔
      KeepsPlanning domain settings iteration planningStartTime := by
  have polls : Polls domain settings iteration planningStartTime ↔ pollPoint domain settings
      iteration.now (pollWorld iteration planningStartTime) = .polled iteration.now := Iff.rfl
  rw [KeepsPlanning, polls, startAtLaunch]
  rcases @pollPoint_cases domain settings iteration.now
    (pollWorld iteration planningStartTime) with polled | launching | exited
  · have switched : (switchWorld iteration planningStartTime).planningStartTime ≤
        iteration.now := begun
    rw [polled]
    simpa using startAfterSwitch_le_iff switched
  · rw [launching]
    simpa using begun
  · rw [exited]
    simp

/-- Every job that an iteration has fetched as waiting for its node is launched by it
if and only if there is none, or the iteration keeps the planning of its poll. -/
theorem launchesFetched_iff (domain : Domain) (settings : Settings) (iteration : Iteration)
    (planningStartTime : Int) :
    LaunchesFetched domain settings iteration planningStartTime ↔
      (∀ job ∈ fetched domain settings iteration.now (pollWorld iteration planningStartTime),
        isLaunched settings job = false) ∨
      KeepsPlanning domain settings iteration planningStartTime := by
  constructor
  · intro launches
    by_cases idle : ∀ job ∈ fetched domain settings iteration.now
        (pollWorld iteration planningStartTime), isLaunched settings job = false
    · exact Or.inl idle
    · simp only [not_forall, Bool.not_eq_false] at idle
      obtain ⟨job, member, ours⟩ := idle
      have begun : planningStartTime ≤ iteration.now := begun_of_mem_fetched member
      have started := launches job member ours
      apply Or.inr
      rw [← startAtLaunch_le_iff begun]
      unfold launched at started
      split at started
      · cases started
      · rename_i startTime reached
        split at started
        · rename_i running
          exact ⟨startTime, reached, running⟩
        · cases started
  · rintro (idle | keeps) job member ours
    · rw [idle job member] at ours
      cases ours
    · have begun : planningStartTime ≤ iteration.now := begun_of_mem_fetched member
      obtain ⟨startTime, reached, running⟩ := (startAtLaunch_le_iff begun).mpr keeps
      rw [launched, reached]
      dsimp only
      rw [if_pos running]
      exact List.mem_filter.mpr ⟨member, ours⟩

/-- An iteration that keeps the planning of its poll launches what it has fetched. -/
theorem launched_of_keepsPlanning {iteration : Iteration} {planningStartTime : Int}
    (keeps : KeepsPlanning domain settings iteration planningStartTime) :
    launched domain settings iteration planningStartTime =
      (fetched domain settings iteration.now (pollWorld iteration planningStartTime)).filter
        (isLaunched settings) := by
  by_cases begun : planningStartTime ≤ iteration.now
  · obtain ⟨startTime, reached, running⟩ := (startAtLaunch_le_iff begun).mpr keeps
    rw [launched, reached]
    dsimp only
    rw [if_pos running]
  · have nothing : fetched domain settings iteration.now
        (pollWorld iteration planningStartTime) = [] := if_neg begun
    rw [launched, nothing]
    split
    · rfl
    · exact ite_self []

theorem launched_eq_launchable {iteration : Iteration} {planningStartTime : Int}
    (reading : iteration.polled.clock = iteration.now)
    (keeps : KeepsPlanning domain settings iteration planningStartTime) :
    launched domain settings iteration planningStartTime =
      launchable domain settings (pollWorld iteration planningStartTime) := by
  have clock : (pollWorld iteration planningStartTime).clock = iteration.now := reading
  rw [launched_of_keepsPlanning keeps, launchable, clock]
  rcases keeps with launching | ⟨polled, _⟩
  · rw [launching]
  · rw [show pollPoint domain settings _ (pollWorld _ _) = .polled iteration.now from polled]

/-- After a switch that succeeds while the clock goes on, nothing is launched. -/
theorem launched_eq_nil_of_switch {iteration : Iteration} {planningStartTime : Int}
    {after : World} (positive : 0 < domain.planningDuration)
    (begun : domain.initialPlanningStartTime ≤ iteration.entered.clock)
    (ordered : iteration.now ≤ iteration.entered.clock)
    (due : Due domain settings iteration planningStartTime)
    (switched : switchPlanning domain (switchWorld iteration planningStartTime) =
      .ok true after) :
    launched domain settings iteration planningStartTime = [] := by
  have polled : pollPoint domain settings iteration.now
      (pollWorld iteration planningStartTime) = .polled iteration.now := due.1
  have startTime := (planningStartTime_of_switchPlanning domain switched).1
  have later : iteration.entered.clock < nextPlanningStartTime domain iteration.entered.clock :=
    lt_nextPlanningStartTime positive begun
  rw [clock_switchWorld] at startTime
  rw [launched, startAtLaunch, polled]
  dsimp only
  rw [startAfterSwitch, if_pos due.2, switched]
  dsimp only
  rw [if_neg (by omega)]

end Fetched

/-! ## A job of the last minute -/

def hourlyConfig : Config where
  configOptions := [⟨"domain_name", "demo"⟩, ⟨"day_start_time", "00:00"⟩,
    ⟨"day_duration", "1h"⟩].toAList

/-- The planning of 3600 has a job in the given state, the next one exists. -/
def lastMinute (state : EJobState) : World where
  server := ((⟨∅⟩ : Server).setSchema "demo_3600"
    { baseTables := skeletonBaseTables
      views := skeletonViews
      tables :=
        { node := [⟨"localhost", 1⟩]
          job := [
            { jobName := "archive", jobCmdLine := "tar", jobNodeName := "localhost",
              jobState := some state }] }
    }).setSchema "demo_7200" {}
  clock := 7150
  planningStartTime := 3600

def lastIteration : Iteration where
  now := 7150
  polled := lastMinute .waiting
  test := 7150
  entered := lastMinute .waiting

/-- The job as `get_ready_jobs` returns it. -/
def lateArchive : TJob where
  name := "archive"
  nodeName := "localhost"
  domain := "demo_3600"
  cmdLine := "tar"
  weight := 1

/-- Fifty seconds before the end of its planning the job is fetched and dropped. -/
theorem iteration_drops_fetched :
    ¬ ∀ (config : Config) (domain : Domain) (settings : Settings) (iteration : Iteration)
      (planningStartTime : Int), configured config = .ok domain →
        iteration.now ≤ iteration.polled.clock → iteration.polled.clock ≤ iteration.test →
          iteration.test ≤ iteration.entered.clock →
            LaunchesFetched domain settings iteration planningStartTime := by
  intro always
  have launches := always hourlyConfig hourlyDomain localSettings lastIteration 3600 rfl
    (by decide) (by decide) (by decide)
  have nothing : launched hourlyDomain localSettings lastIteration 3600 = [] := by rfl
  have member : lateArchive ∈ fetched hourlyDomain localSettings lastIteration.now
      (pollWorld lastIteration 3600) := by decide
  have started := launches _ member (by decide)
  rw [nothing] at started
  cases started

end Master

end OpenWorkloadScheduler
