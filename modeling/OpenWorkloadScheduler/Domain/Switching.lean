import OpenWorkloadScheduler.Domain.Respects
import OpenWorkloadScheduler.Foundations.Periods
import OpenWorkloadScheduler.Foundations.Runs

/-!
# The start time of the planning

The constructor of `Domain` writes `planning_start_time` through the reference
that it hands to `set_next_planning`, `switch_planning` through a local variable
that it copies after a success.  Plannings are meant to start at the boundaries:
the initial start time and the multiples of the duration after it.
-/

namespace OpenWorkloadScheduler.Domain

open Rpc Store Foundations

variable (domain : Domain)

/-- A planning starts at the given time. -/
def IsBoundary (time : Int) : Prop :=
  Recurs domain.initialPlanningStartTime domain.planningDuration time

instance (time : Int) : Decidable (IsBoundary domain time) :=
  inferInstanceAs (Decidable (Recurs _ _ _))

/-- Once the first planning has begun, `%` does not round towards it. -/
theorem nextPlanningStartTime_eq {now : Int}
    (begun : domain.initialPlanningStartTime ≤ now) :
    nextPlanningStartTime domain now =
      nextInstant domain.initialPlanningStartTime domain.planningDuration now := by
  rw [nextPlanningStartTime, nextInstant, Int.tmod_eq_emod_of_nonneg (by omega)]

section Next

variable {domain}

theorem isBoundary_nextPlanningStartTime {now : Int}
    (begun : domain.initialPlanningStartTime ≤ now) :
    IsBoundary domain (nextPlanningStartTime domain now) := by
  rw [nextPlanningStartTime_eq domain begun]
  exact recurs_nextInstant now

theorem lt_nextPlanningStartTime (positive : 0 < domain.planningDuration) {now : Int}
    (begun : domain.initialPlanningStartTime ≤ now) :
    now < nextPlanningStartTime domain now := by
  rw [nextPlanningStartTime_eq domain begun]
  exact lt_nextInstant positive now

theorem nextPlanningStartTime_le (positive : 0 < domain.planningDuration) {now : Int}
    (begun : domain.initialPlanningStartTime ≤ now) :
    nextPlanningStartTime domain now ≤ now + domain.planningDuration := by
  rw [nextPlanningStartTime_eq domain begun]
  exact nextInstant_le positive now

/-- The next planning starts no later than any boundary to come. -/
theorem nextPlanningStartTime_le_of_isBoundary (positive : 0 < domain.planningDuration)
    {now boundary : Int} (begun : domain.initialPlanningStartTime ≤ now)
    (isBoundary : IsBoundary domain boundary) (later : now < boundary) :
    nextPlanningStartTime domain now ≤ boundary := by
  rw [nextPlanningStartTime_eq domain begun]
  exact nextInstant_le_of_recurs positive isBoundary later

theorem nextPlanningStartTime_mono (positive : 0 < domain.planningDuration)
    {earlier later : Int} (begun : domain.initialPlanningStartTime ≤ earlier)
    (ordered : earlier ≤ later) :
    nextPlanningStartTime domain earlier ≤ nextPlanningStartTime domain later := by
  rw [nextPlanningStartTime_eq domain begun,
    nextPlanningStartTime_eq domain (Int.le_trans begun ordered)]
  exact nextInstant_mono positive ordered

theorem isLeast_nextPlanningStartTime (positive : 0 < domain.planningDuration) {now : Int}
    (begun : domain.initialPlanningStartTime ≤ now) :
    IsLeast {time | IsBoundary domain time ∧ now < time} (nextPlanningStartTime domain now) := by
  rw [nextPlanningStartTime_eq domain begun]
  exact isLeast_nextInstant positive now

/-- Throughout the planning that it ends, a boundary is the start time of the next one. -/
theorem nextPlanningStartTime_eq_of_isBoundary (positive : 0 < domain.planningDuration)
    {now boundary : Int} (begun : domain.initialPlanningStartTime ≤ now)
    (isBoundary : IsBoundary domain boundary)
    (near : boundary - domain.planningDuration ≤ now) (ahead : now < boundary) :
    nextPlanningStartTime domain now = boundary := by
  rw [nextPlanningStartTime_eq domain begun]
  exact isBoundary.nextInstant_eq positive (by omega) ahead

theorem nextPlanningStartTime_self (positive : 0 < domain.planningDuration) {boundary : Int}
    (begun : domain.initialPlanningStartTime ≤ boundary)
    (isBoundary : IsBoundary domain boundary) :
    nextPlanningStartTime domain boundary = boundary + domain.planningDuration := by
  rw [nextPlanningStartTime_eq domain begun]
  exact isBoundary.nextInstant_self positive

theorem getNextPlanningStartTime_eq (world : World) :
    getNextPlanningStartTime domain world =
      .ok (nextPlanningStartTime domain world.clock) world :=
  rfl

/-- At every clock time from the initial start time on, the function returns the
first boundary after it.  It returns the same one throughout the planning that ends
there, no earlier one later on, and the next one at the boundary itself. -/
theorem getNextPlanningStartTime_first (positive : 0 < domain.planningDuration)
    {world : World} (begun : domain.initialPlanningStartTime ≤ world.clock) :
    ∃ next, getNextPlanningStartTime domain world = .ok next world ∧
      IsLeast {time | IsBoundary domain time ∧ world.clock < time} next ∧
      (∀ clock, next - domain.planningDuration ≤ clock → clock < next →
        getNextPlanningStartTime domain { world with clock } = .ok next { world with clock }) ∧
      (∀ clock, world.clock ≤ clock →
        ∃ later, getNextPlanningStartTime domain { world with clock } =
          .ok later { world with clock } ∧ next ≤ later) ∧
      getNextPlanningStartTime domain { world with clock := next } =
        .ok (next + domain.planningDuration) { world with clock := next } := by
  have least := isLeast_nextPlanningStartTime positive begun
  have isBoundary : IsBoundary domain (nextPlanningStartTime domain world.clock) := least.1.1
  have ahead : world.clock < nextPlanningStartTime domain world.clock := least.1.2
  refine ⟨_, getNextPlanningStartTime_eq world, least, ?_, ?_, ?_⟩
  · intro clock near before
    -- the planning that ends at the boundary does not begin before the first one
    have spaced : domain.initialPlanningStartTime + domain.planningDuration ≤
        nextPlanningStartTime domain world.clock :=
      Recurs.add_le (recurs_origin _ _) isBoundary (by omega)
    rw [getNextPlanningStartTime_eq,
      nextPlanningStartTime_eq_of_isBoundary positive (by omega) isBoundary near
        before]
  · intro clock ordered
    exact ⟨_, getNextPlanningStartTime_eq _, nextPlanningStartTime_mono positive begun ordered⟩
  · rw [getNextPlanningStartTime_eq, nextPlanningStartTime_self positive (by omega)
      isBoundary]

/-- Days that begin at six in the evening. -/
def sixOClockDomain : Domain where
  name := "default"
  initialPlanningStartTime := 64800
  planningDuration := 86400

/-- At a boundary, the next planning starts a whole day later. -/
theorem getNextPlanningStartTime_first_sixOClockDomain :
    0 < sixOClockDomain.planningDuration ∧ sixOClockDomain.initialPlanningStartTime ≤ 64800 ∧
      ∃ next, getNextPlanningStartTime sixOClockDomain { server := ⟨∅⟩, clock := 64800 } =
          .ok next { server := ⟨∅⟩, clock := 64800 } ∧
        IsLeast {time | IsBoundary sixOClockDomain time ∧ 64800 < time} next := by
  have positive : 0 < sixOClockDomain.planningDuration := by decide
  have begun : sixOClockDomain.initialPlanningStartTime ≤ 64800 := by decide
  obtain ⟨next, returned, least, _⟩ := @getNextPlanningStartTime_first sixOClockDomain
    positive { server := ⟨∅⟩, clock := 64800 } begun
  exact ⟨positive, begun, next, returned, least⟩

end Next

/-! ## The constructor -/

/-- The last `try` block of the constructor, which catches one type of exception. -/
def prepareFirstPlanning : Action Unit :=
  tryCatch
    (do
      if ← setNextPlanning domain .planningStartTime then pure ()
      else throw (.exProcessing "Error: cannot prepare the next planning"))
    fun raised =>
      match raised with
      | .exProcessing _ => pure ()
      | _ => throw raised

/-- The constructor `Domain::Domain` once it has read the configuration;
`threadSafe` is the answer of `mysql_thread_safe`. -/
def construct (threadSafe : Bool) : Action Unit := do
  if !threadSafe then throw (.exProcessing "Error: cannot prepare the database")
  else if ← Mysql.initDomainStructure domain.name then prepareFirstPlanning domain
  else throw (.exProcessing "Error: cannot prepare the template planning")

/-! ## What is written -/

/-- The clock and the start time of the planning stay. -/
structure KeepsTimes (before after : World) : Prop where
  planningStartTime : after.planningStartTime = before.planningStartTime
  clock : after.clock = before.clock

instance : IsPreorder World KeepsTimes where
  refl _ := ⟨rfl, rfl⟩
  trans _ _ _ first second :=
    ⟨second.planningStartTime.trans first.planningStartTime, second.clock.trans first.clock⟩

theorem keepsTimes_of_frame {before after : World} (frame : Frame before after) :
    KeepsTimes before after :=
  ⟨frame.planningStartTime, frame.clock⟩

theorem respects_keepsTimes : Respects KeepsTimes fun _ _ => True where
  reading _ _ readOnly := keepsTimes_of_frame readOnly.frame
  mutex _ _ := ⟨rfl, rfl⟩
  executing _ world := keepsTimes_of_frame (Mysql.within_standaloneExecute _ _ world)

theorem keepsTimes_preparePlanning (startTime : Int) :
    Within KeepsTimes (preparePlanning domain startTime) :=
  respects_keepsTimes.within_preparePlanning domain (fun _ _ => trivial) fun _ =>
    respects_keepsTimes.within_addNode domain trivial (fun _ _ => trivial)
      fun _ _ _ _ => trivial

/-- The local variable of `switch_planning` takes the start time at first. -/
theorem keepsTimes_setNextPlanning :
    Within KeepsTimes (setNextPlanning domain .result) := by
  intro world
  have prepared := keepsTimes_preparePlanning domain
    (nextPlanningStartTime domain world.clock) world
  exact prepared

/-- However the constructor is left after its reading of the clock, it has set the
start time of that reading. -/
theorem planningStartTime_prepareFirstPlanning (world : World) :
    (finalState (prepareFirstPlanning domain world)).planningStartTime =
        nextPlanningStartTime domain world.clock ∧
      (finalState (prepareFirstPlanning domain world)).clock = world.clock := by
  have prepared := keepsTimes_preparePlanning domain (nextPlanningStartTime domain world.clock)
    { world with planningStartTime := nextPlanningStartTime domain world.clock }
  rw [prepareFirstPlanning, finalState_tryCatch_of_still ?_, finalState_bind_of_still ?_]
  · exact ⟨prepared.planningStartTime, prepared.clock⟩
  · rintro (_ | _) after <;> rfl
  · rintro raised after
    cases raised <;> rfl

theorem planningStartTime_of_construct {threadSafe : Bool} {before after : World}
    (constructed : construct domain threadSafe before = .ok () after) :
    after.planningStartTime = nextPlanningStartTime domain before.clock ∧
      after.clock = before.clock := by
  rw [construct] at constructed
  split at constructed
  · cases constructed
  · obtain ⟨initialized, between, ran, rest⟩ := bind_eq_ok_iff.mp constructed
    have initializes : Within KeepsTimes (Mysql.initDomainStructure domain.name) :=
      respects_keepsTimes.within_initDomainStructure fun _ _ => trivial
    have kept := initializes before
    rw [ran] at kept
    have sameClock : between.clock = before.clock := kept.clock
    cases initialized with
    | false => cases rest
    | true =>
        have set := planningStartTime_prepareFirstPlanning domain between
        change prepareFirstPlanning domain between = _ at rest
        rw [rest, sameClock] at set
        exact set

/-- A successful switch sets the start time of its clock reading. -/
theorem planningStartTime_of_switchPlanning {before after : World}
    (switched : switchPlanning domain before = .ok true after) :
    after.planningStartTime = nextPlanningStartTime domain before.clock ∧
      after.clock = before.clock := by
  have kept := keepsTimes_setNextPlanning domain before
  obtain ⟨startTime, between, ⟨⟩, rest⟩ := bind_eq_ok_iff.mp switched
  obtain ⟨prepared, last, ran, assigned⟩ := bind_eq_ok_iff.mp rest
  change setNextPlanning domain .result before = _ at ran
  rw [ran] at kept
  cases prepared with
  | false => cases assigned
  | true =>
      cases assigned
      exact ⟨rfl, kept.clock⟩

/-- A switch that does not return `true` leaves the start time as it is. -/
theorem keepsTimes_of_switchPlanning {before : World}
    (failure : ∀ after, switchPlanning domain before ≠ .ok true after) :
    KeepsTimes before (finalState (switchPlanning domain before)) := by
  have kept := keepsTimes_setNextPlanning domain before
  have entered : getNextPlanningStartTime domain before =
      .ok (nextPlanningStartTime domain before.clock) before := rfl
  rw [switchPlanning, bind_of_ok entered] at failure ⊢
  cases ran : setNextPlanning domain .result before with
  | error raised after =>
      rw [ran] at kept
      rw [bind_of_error ran]
      exact kept
  | ok prepared after =>
      rw [ran] at kept
      rw [bind_of_ok ran] at failure ⊢
      cases prepared with
      | false => exact kept
      | true => exact absurd rfl (failure _)

/-! ## Runs -/

/-- A call of `switch_planning`.  What it enters is the state before it, in which
time has passed and everything but the attribute may have changed. -/
def Switches (before entered after : World) : Prop :=
  entered.planningStartTime = before.planningStartTime ∧ before.clock ≤ entered.clock ∧
    after = finalState (switchPlanning domain entered)

/-- The start time of the planning is that of a clock reading of the past. -/
def Scheduled (world : World) : Prop :=
  ∃ reading, domain.initialPlanningStartTime ≤ reading ∧ reading ≤ world.clock ∧
    world.planningStartTime = nextPlanningStartTime domain reading

variable {domain}

theorem Scheduled.isBoundary {world : World} (scheduled : Scheduled domain world) :
    IsBoundary domain world.planningStartTime := by
  obtain ⟨reading, begun, _, start⟩ := scheduled
  rw [start]
  exact isBoundary_nextPlanningStartTime begun

/-- The start time is not after the one that the clock leads to now. -/
theorem Scheduled.le_next (positive : 0 < domain.planningDuration) {world : World}
    (scheduled : Scheduled domain world) {now : Int} (later : world.clock ≤ now) :
    world.planningStartTime ≤ nextPlanningStartTime domain now := by
  obtain ⟨reading, begun, past, start⟩ := scheduled
  rw [start]
  exact nextPlanningStartTime_mono positive begun (by omega)

theorem Switches.cases {before entered after : World}
    (switches : Switches domain before entered after) :
    (switchPlanning domain entered = .ok true after ∧
        after.planningStartTime = nextPlanningStartTime domain entered.clock ∧
        after.clock = entered.clock) ∨
      (∀ other, switchPlanning domain entered ≠ .ok true other) ∧
        after.planningStartTime = before.planningStartTime ∧
        after.clock = entered.clock := by
  obtain ⟨sameStart, _, rfl⟩ := switches
  by_cases switched : ∃ other, switchPlanning domain entered = .ok true other
  · obtain ⟨other, ran⟩ := switched
    rw [ran]
    exact Or.inl ⟨rfl, planningStartTime_of_switchPlanning domain ran⟩
  · have failure := not_exists.mp switched
    have kept := keepsTimes_of_switchPlanning domain failure
    exact Or.inr ⟨failure, kept.planningStartTime.trans sameStart, kept.clock⟩

theorem scheduled_of_construct {threadSafe : Bool} {start first : World}
    (begun : domain.initialPlanningStartTime ≤ start.clock)
    (constructed : construct domain threadSafe start = .ok () first) :
    Scheduled domain first := by
  obtain ⟨set, sameClock⟩ := planningStartTime_of_construct domain constructed
  exact ⟨start.clock, begun, by omega, set⟩

theorem Switches.scheduled {before entered after : World}
    (switches : Switches domain before entered after) (scheduled : Scheduled domain before) :
    Scheduled domain after := by
  have later := switches.2.1
  obtain ⟨reading, begun, past, start⟩ := scheduled
  rcases switches.cases with ⟨_, set, sameClock⟩ | ⟨_, same, sameClock⟩
  · exact ⟨entered.clock, by omega, by omega, set⟩
  · exact ⟨reading, begun, by omega, same.trans start⟩

theorem Switches.planningStartTime_le (positive : 0 < domain.planningDuration)
    {before entered after : World} (switches : Switches domain before entered after)
    (scheduled : Scheduled domain before) :
    before.planningStartTime ≤ after.planningStartTime := by
  rcases switches.cases with ⟨_, set, _⟩ | ⟨_, same, _⟩
  · rw [set]
    exact scheduled.le_next positive switches.2.1
  · exact Int.le_of_eq same.symm

theorem scheduled_of_run (positive : 0 < domain.planningDuration) {first last : World}
    {entries : List World} (run : Run (Switches domain) first entries last)
    (scheduled : Scheduled domain first) :
    Scheduled domain last ∧ first.planningStartTime ≤ last.planningStartTime := by
  induction run with
  | stay state => exact ⟨scheduled, Int.le_refl _⟩
  | next switches _ inductionHypothesis =>
      obtain ⟨later, ordered⟩ := inductionHypothesis (switches.scheduled scheduled)
      exact ⟨later, Int.le_trans (switches.planningStartTime_le positive scheduled) ordered⟩

/-- After the constructor and any number of calls of `switch_planning`, the start
time of the planning is a boundary, and it has never decreased.  The next call
sets it to a boundary within one duration after its clock reading, or fails and
leaves it alone. -/
theorem switchPlanning_keeps_boundaries {threadSafe : Bool} {start first last : World}
    {entries : List World} (positive : 0 < domain.planningDuration)
    (begun : domain.initialPlanningStartTime ≤ start.clock)
    (constructed : construct domain threadSafe start = .ok () first)
    (run : Run (Switches domain) first entries last) :
    IsBoundary domain last.planningStartTime ∧
      first.planningStartTime ≤ last.planningStartTime ∧
      ∀ entered after, Switches domain last entered after →
        IsBoundary domain after.planningStartTime ∧
          last.planningStartTime ≤ after.planningStartTime ∧
          (switchPlanning domain entered = .ok true after →
            entered.clock < after.planningStartTime ∧
              after.planningStartTime ≤ entered.clock + domain.planningDuration) ∧
          ((∀ other, switchPlanning domain entered ≠ .ok true other) →
            after.planningStartTime = last.planningStartTime) := by
  obtain ⟨scheduled, ordered⟩ :=
    scheduled_of_run positive run (scheduled_of_construct begun constructed)
  refine ⟨scheduled.isBoundary, ordered, fun entered after switches => ?_⟩
  refine ⟨(switches.scheduled scheduled).isBoundary,
    switches.planningStartTime_le positive scheduled, ?_, ?_⟩
  · intro switched
    obtain ⟨reading, past, recent, _⟩ := scheduled
    have later := switches.2.1
    have begunThen : domain.initialPlanningStartTime ≤ entered.clock := by omega
    rw [(planningStartTime_of_switchPlanning domain switched).1]
    exact ⟨lt_nextPlanningStartTime positive begunThen,
      nextPlanningStartTime_le positive begunThen⟩
  · intro failure
    rcases switches.cases with ⟨switched, _⟩ | ⟨_, same, _⟩
    · exact absurd switched (failure after)
    · exact same

/-- A new planning every hour. -/
def hourlyDomain : Domain where
  name := "demo"
  initialPlanningStartTime := 0
  planningDuration := 3600

/-- The template and two plannings exist. -/
def hourlyWorld (clock planningStartTime : Int) : World where
  server := (((⟨∅⟩ : Server).setSchema "demo" {}).setSchema "demo_3600" {}).setSchema
    "demo_7200" {}
  clock := clock
  planningStartTime := planningStartTime

theorem switchPlanning_keeps_boundaries_hourly :
    IsBoundary hourlyDomain 7200 ∧ (3600 : Int) ≤ 7200 ∧
      ∀ entered after, Switches hourlyDomain (hourlyWorld 3600 7200) entered after →
        IsBoundary hourlyDomain after.planningStartTime ∧
          7200 ≤ after.planningStartTime ∧
          (switchPlanning hourlyDomain entered = .ok true after →
            entered.clock < after.planningStartTime ∧
              after.planningStartTime ≤ entered.clock + hourlyDomain.planningDuration) ∧
          ((∀ other, switchPlanning hourlyDomain entered ≠ .ok true other) →
            after.planningStartTime = 7200) := by
  have constructed : construct hourlyDomain true (hourlyWorld 100 0) =
      .ok () (hourlyWorld 100 3600) := by rfl
  have switched : Switches hourlyDomain (hourlyWorld 100 3600) (hourlyWorld 3600 3600)
      (hourlyWorld 3600 7200) := ⟨rfl, by decide, by rfl⟩
  exact switchPlanning_keeps_boundaries (by decide) (by decide) constructed
    (.next switched (.stay _))

end OpenWorkloadScheduler.Domain
