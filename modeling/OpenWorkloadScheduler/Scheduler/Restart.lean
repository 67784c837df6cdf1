import OpenWorkloadScheduler.Scheduler.Moves
import OpenWorkloadScheduler.Scheduler.SingleExecution

/-!
# The master is started again

The constructor of `Domain` sets the start time of the next planning, whatever is in the
database.  A master that is started while a planning is in progress therefore never
comes back to this planning: its jobs are executed by nobody.
-/

namespace OpenWorkloadScheduler

open Rpc Store Foundations Domain

namespace Domain

variable (domain : Domain)

/-- Plannings of different start times have different names. -/
theorem planningName_injective : Function.Injective (planningName domain) := by
  intro first second same
  have digits : toString first = toString second := by
    rw [planningName, planningName] at same
    exact (String.append_right_inj _).mp same
  have values := decimalValue_toString first
  rw [digits, decimalValue_toString] at values
  exact (Option.some.inj values).symm

end Domain

namespace Master

variable (domain : Domain) (settings : Settings)

/-- The clock does not go back. -/
def ClockKept (before : Master) : Event → Prop
  | .outside world => before.world.clock ≤ world.clock
  | _ => True

/-- The planning starts after the given time, and so has that of every job of the
process. -/
structure Ahead (time : Int) (master : Master) : Prop where
  later : time ≤ master.world.clock
  start : time < master.world.planningStartTime
  jobs : ∀ job, master.Holds job →
    ∃ startTime, time < startTime ∧ job.domain = planningName domain startTime

section Steps

variable {domain settings} {before after : Master} {event : Event} {time : Int}

theorem times_of_step (stepped : Step domain settings before event after)
    (kept : ClockKept before event) :
    before.world.clock ≤ after.world.clock ∧
      (after.world.planningStartTime = before.world.planningStartTime ∨
        after.world.planningStartTime = nextPlanningStartTime domain before.world.clock) := by
  have moves := moves_of_step stepped
  cases moves with
  | polled _ readOnly _ _ =>
      have times := keepsTimes_of_frame readOnly.frame
      exact ⟨Int.le_of_eq times.clock.symm, Or.inl times.planningStartTime⟩
  | switched _ _ clock start => exact ⟨Int.le_of_eq clock.symm, start⟩
  | launched _ | opened _ | notOpened _ | closed _ => exact ⟨Int.le_refl _, Or.inl rfl⟩
  | started _ times _ | refused _ times _ | aborted _ times _ | reported _ times _
  | unreported _ times _ =>
      exact ⟨Int.le_of_eq times.clock.symm, Or.inl times.planningStartTime⟩
  | ticked seconds =>
      refine ⟨?_, Or.inl rfl⟩
      change before.world.clock ≤ before.world.clock + seconds
      omega
  | interfered world => exact ⟨kept, Or.inl rfl⟩

theorem ahead_of_step (positive : 0 < domain.planningDuration)
    (begun : domain.initialPlanningStartTime ≤ time) (ahead : Ahead domain time before)
    (stepped : Step domain settings before event after) (kept : ClockKept before event) :
    Ahead domain time after := by
  obtain ⟨clock, start⟩ := times_of_step stepped kept
  have later := ahead.later
  refine ⟨later.trans clock, ?_, fun job holds => ?_⟩
  · rcases start with same | next
    · rw [same]
      exact ahead.start
    · rw [next]
      exact later.trans_lt (lt_nextPlanningStartTime positive (begun.trans later))
  · by_cases earlier : before.Holds job
    · exact ahead.jobs job earlier
    · obtain ⟨_, offered⟩ := polled_of_step stepped earlier holds
      obtain ⟨row, _, _, rfl⟩ := mem_offeredJobs offered
      exact ⟨_, ahead.start, rfl⟩

end Steps

/-- From the constructor of `Domain` on, as long as the clock does not go back, no job of
a planning that had already started then is executed. -/
theorem restart_abandons_planning {threadSafe : Bool} {entered first : World} {last : Master}
    {events : List Event} (positive : 0 < domain.planningDuration)
    (begun : domain.initialPlanningStartTime ≤ entered.clock)
    (constructed : construct domain threadSafe entered = .ok () first)
    (run : Run (Guarded (Step domain settings) ClockKept) { world := first } events last)
    {startTime : Int} (started : startTime ≤ entered.clock) (name : String) :
    last.executionsOf (planningName domain startTime) name = 0 := by
  obtain ⟨start, clock⟩ := planningStartTime_of_construct domain constructed
  have initial : Ahead domain entered.clock { world := first } := by
    refine ⟨Int.le_of_eq clock.symm, ?_, ?_⟩
    · change entered.clock < first.planningStartTime
      rw [start]
      exact lt_nextPlanningStartTime positive begun
    · rintro job (member | ⟨thread, member, _⟩ | member) <;> exact absurd member List.not_mem_nil
  have ahead : Ahead domain entered.clock last :=
    run.keeps (fun _ _ _ ahead stepped => ahead_of_step positive begun ahead stepped.1 stepped.2)
      initial
  refine List.countP_eq_zero.mpr fun job executed same => ?_
  simp only [isJob, Bool.and_eq_true, decide_eq_true_eq] at same
  obtain ⟨other, later, named⟩ := ahead.jobs job (Or.inr (Or.inr executed))
  rw [same.1] at named
  rw [planningName_injective domain named] at started
  omega

/-- The template and the planning of the first hour, each with a job that waits. -/
def firstHour : World where
  server := ((⟨∅⟩ : Server).setSchema "demo" oneJob).setSchema "demo_0" oneJob
  clock := 100

/-- The next hour comes, and its job is executed. -/
def nextHour : List Event :=
  [.poll, .switch, .launch, .tick 3600, .poll, .switch, .launch, .start 0, .popen 0 true]

/-- The state of a process that has come through the constructor. -/
def constructed (domain : Domain) (entered : World) : Option Master :=
  match construct domain true entered with
  | .ok () world => some { world }
  | .error _ _ => none

theorem construct_of_constructed {entered : World} {master : Master}
    (begun : constructed domain entered = some master) :
    ∃ world, construct domain true entered = .ok () world ∧ master = { world } := by
  rw [constructed] at begun
  split at begun
  · rename_i world ran
    exact ⟨world, ran, (Option.some.inj begun).symm⟩
  · cases begun

/-- A master that is started at 100 seconds executes the archive of the second hour, and
leaves that of the first hour waiting. -/
theorem restart_abandons_planning_firstHour :
    ∃ first last, construct hourlyDomain true firstHour = .ok () first ∧
      Run (Step hourlyDomain thisNode) { world := first } nextHour last ∧
      last.executionsOf (planningName hourlyDomain 3600) "archive" = 1 ∧
      (last.world.server.tables (planningName hourlyDomain 0)).Waits "archive" ∧
      last.executionsOf (planningName hourlyDomain 0) "archive" = 0 := by
  have computed : ((constructed hourlyDomain firstHour).bind fun begun =>
      (performAll (perform hourlyDomain thisNode) begun nextHour).map fun last =>
        (last.executionsOf (planningName hourlyDomain 3600) "archive",
          decide ((last.world.server.tables (planningName hourlyDomain 0)).Waits "archive"))) =
        some (1, true) := by
    decide +kernel
  obtain ⟨begun, started, rest⟩ := Option.bind_eq_some_iff.mp computed
  obtain ⟨first, ran, rfl⟩ := construct_of_constructed hourlyDomain started
  obtain ⟨last, performed, same⟩ := Option.map_eq_some_iff.mp rest
  obtain ⟨executed, waits⟩ := Prod.mk.inj same
  have run : Run (Step hourlyDomain thisNode) { world := first } nextHour last :=
    run_of_performAll performed
  have kept : ∀ event ∈ nextHour, ∀ master, ClockKept master event := by
    intro event member master
    cases event with
    | outside world => simp [nextHour] at member
    | _ => trivial
  exact ⟨first, last, ran, run, executed, of_decide_eq_true waits,
    restart_abandons_planning hourlyDomain thisNode (by decide) (by decide) ran
      (run.guarded kept) (by decide) "archive"⟩

end Master

end OpenWorkloadScheduler
