import OpenWorkloadScheduler.Domain.Switching
import OpenWorkloadScheduler.Scheduler.Master

/-!
# Whether every planning begins

The loop tests once in an iteration whether the next planning starts within a
minute, and an iteration lasts its own work beside the minute of `sleep`.  The
clock is read three times on the way: at the top of the loop, in the test, and in
`set_next_planning`.

A planning that starts between two iterations is met by the test only if the
first of them begins in the minute before it, and it is the one that gets
prepared only if `set_next_planning` still reads the clock before its start.
-/

namespace OpenWorkloadScheduler

open Rpc Store Foundations Domain

/-- An iteration of the loop: its reading of the clock, the state that the poll
finds, the reading of the test, and the state that `switch_planning` finds, the
clock of which is the third reading. -/
structure Iteration where
  now : Int
  polled : World
  test : Int
  entered : World

namespace Master

variable (domain : Domain) (settings : Settings)

/-- Where the poll leads the loop. -/
def pollPoint (now : Int) (world : World) : LoopPoint :=
  if world.planningStartTime ≤ now then
    match Domain.getReadyJobs domain (askedNode settings) world with
    | .ok (_, none) _ => .polled now
    | .ok (_, some raised) _ => caught now raised
    | .error raised _ => caught now raised
  else
    .polled now

/-- The poll of the iteration does not leave the `try` block. -/
def Polls (iteration : Iteration) (planningStartTime : Int) : Prop :=
  pollPoint domain settings iteration.now { iteration.polled with planningStartTime } =
    .polled iteration.now

/-- The iteration comes to `switch_planning`. -/
def Due (iteration : Iteration) (planningStartTime : Int) : Prop :=
  Polls domain settings iteration planningStartTime ∧
    nextPlanningStartTime domain iteration.test - iteration.now ≤ 60

/-- What an iteration does to the start time of the planning.  The other threads
of the process may change everything else between the calls.  The process goes on
after it, and `set_next_planning` succeeds. -/
def Iterates (iteration : Iteration) (before after : World) : Prop :=
  let entered := { iteration.entered with planningStartTime := before.planningStartTime }
  match pollPoint domain settings iteration.now
      { iteration.polled with planningStartTime := before.planningStartTime } with
  | .polled now =>
      if nextPlanningStartTime domain iteration.test - now ≤ 60 then
        switchPlanning domain entered = .ok true after
      else after = entered
  | .launching _ => after = entered
  | _ => False

/-- The poll of `Master.poll` leads there, with the reading of the same moment. -/
theorem point_poll {master : Master} (top : master.point = .top) :
    (master.poll domain settings).map Master.point =
      some (pollPoint domain settings master.world.clock master.world) := by
  rw [poll, top]
  dsimp only
  unfold pollPoint
  split
  · cases Domain.getReadyJobs domain (askedNode settings) master.world with
    | error raised world => rfl
    | ok found world =>
        obtain ⟨jobs, _ | raised⟩ := found <;> rfl
  · rfl

/-- The steps of the loop up to the switch are an iteration whose last two readings
of the clock are the same. -/
theorem iterates_of_steps {master polled switched : Master} {world : World}
    (top : master.point = .top) (polls : master.poll domain settings = some polled)
    (goesOn : polled.point = .polled master.world.clock)
    (switches : ({ polled with
      world := { world with planningStartTime := master.world.planningStartTime } } :
        Master).switch domain = some switched)
    (succeeds : nextPlanningStartTime domain world.clock - master.world.clock ≤ 60 →
      ∃ after, switchPlanning domain
        { world with planningStartTime := master.world.planningStartTime } = .ok true after) :
    Iterates domain settings ⟨master.world.clock, master.world, world.clock, world⟩
      master.world switched.world := by
  have reached := point_poll domain settings top
  rw [polls, Option.map_some, Option.some.injEq, goesOn] at reached
  unfold Iterates
  rw [← reached]
  dsimp only
  rw [switch, goesOn] at switches
  dsimp only at switches
  by_cases due : nextPlanningStartTime domain world.clock - master.world.clock ≤ 60
  · obtain ⟨after, ran⟩ := succeeds due
    rw [if_pos due, ran] at switches
    rw [if_pos due, ran]
    cases switches
    rfl
  · rw [if_neg due] at switches
    rw [if_neg due]
    cases switches
    rfl

variable {domain settings}

theorem pollPoint_cases (now : Int) (world : World) :
    pollPoint domain settings now world = .polled now ∨
      pollPoint domain settings now world = .launching now ∨
        pollPoint domain settings now world = .exited := by
  have handled : ∀ raised, caught now raised = .launching now ∨ caught now raised = .exited := by
    intro raised
    cases raised with
    | exJob message => exact Or.inl rfl
    | _ => exact Or.inr rfl
  unfold pollPoint
  split
  · cases Domain.getReadyJobs domain (askedNode settings) world with
    | error raised after => exact Or.inr (handled raised)
    | ok found after =>
        obtain ⟨jobs, _ | raised⟩ := found
        · exact Or.inl rfl
        · exact Or.inr (handled raised)
  · exact Or.inl rfl

theorem Iterates.cases {iteration : Iteration} {before after : World}
    (iterates : Iterates domain settings iteration before after) :
    (Due domain settings iteration before.planningStartTime ∧
        after.planningStartTime =
          nextPlanningStartTime domain iteration.entered.clock) ∨
      ¬ Due domain settings iteration before.planningStartTime ∧
        after.planningStartTime = before.planningStartTime := by
  unfold Iterates at iterates
  unfold Due Polls
  rcases @pollPoint_cases domain settings iteration.now
      { iteration.polled with planningStartTime := before.planningStartTime } with
    polled | launching | exited
  · rw [polled] at iterates ⊢
    dsimp only at iterates
    by_cases due : nextPlanningStartTime domain iteration.test - iteration.now ≤ 60
    · rw [if_pos due] at iterates
      exact Or.inl ⟨⟨rfl, due⟩, (planningStartTime_of_switchPlanning domain iterates).1⟩
    · rw [if_neg due] at iterates
      rw [iterates]
      exact Or.inr ⟨fun reached => due reached.2, rfl⟩
  · rw [launching] at iterates ⊢
    dsimp only at iterates
    rw [iterates]
    exact Or.inr ⟨fun due => by simp at due, rfl⟩
  · rw [exited] at iterates
    exact iterates.elim

/-- An iteration whose test comes too early for the next planning. -/
theorem iterates_of_early {iteration : Iteration} {before : World}
    (polls : Polls domain settings iteration before.planningStartTime)
    (early : ¬ nextPlanningStartTime domain iteration.test - iteration.now ≤ 60) :
    Iterates domain settings iteration before
      { iteration.entered with planningStartTime := before.planningStartTime } := by
  rw [Polls] at polls
  unfold Iterates
  rw [polls]
  dsimp only
  rw [if_neg early]

/-! ## Runs -/

variable (domain settings)

/-- The first iterations of the loop after the constructor, which has read the
clock at `start`.  The readings never go back, and the iterations start at least
the `sleep` and less than the duration of a planning apart. -/
structure Iterations (count : Nat) (start : Int) (iteration : Nat → Iteration)
    (world : Nat → World) : Prop where
  constructed : ∃ threadSafe entered, entered.clock = start ∧
    construct domain threadSafe entered = .ok () (world 0)
  first : 0 < count → start ≤ (iteration 0).now
  ordered : ∀ i < count, (iteration i).now ≤ (iteration i).test ∧
    (iteration i).test ≤ (iteration i).entered.clock
  follows : ∀ i, i + 1 < count → (iteration i).entered.clock ≤ (iteration (i + 1)).now
  spaced : ∀ i, i + 1 < count → (iteration i).now + 60 ≤ (iteration (i + 1)).now ∧
    (iteration (i + 1)).now < (iteration i).now + domain.planningDuration
  iterates : ∀ i < count, Iterates domain settings (iteration i) (world i) (world (i + 1))

/-- After the switch test of an iteration, the start time is the last boundary up
to the clock or the first one after it, and every boundary that has passed since
the start has been the start time of the planning. -/
structure OnTime (start : Int) (iteration : Nat → Iteration) (world : Nat → World) (i : Nat) :
    Prop where
  current :
    IsGreatest {boundary | IsBoundary domain boundary ∧
        boundary ≤ (iteration i).entered.clock} (world (i + 1)).planningStartTime ∨
      IsLeast {boundary | IsBoundary domain boundary ∧
        (iteration i).entered.clock < boundary} (world (i + 1)).planningStartTime
  complete : ∀ boundary, IsBoundary domain boundary → start < boundary →
    boundary ≤ (iteration i).entered.clock →
      ∃ j ≤ i + 1, (world j).planningStartTime = boundary

/-- The first iteration starts before the planning after the first one.  No
boundary beyond the start time of the planning lies between the first and the last
clock reading of an iteration, and the iteration before such a boundary reaches
the test and starts at most a minute before it. -/
structure Punctual (count : Nat) (iteration : Nat → Iteration) (world : Nat → World) :
    Prop where
  first : 0 < count →
    (iteration 0).now < (world 0).planningStartTime + domain.planningDuration
  uncrossed : ∀ i < count, ∀ boundary, IsBoundary domain boundary →
    (world i).planningStartTime < boundary → (iteration i).now < boundary →
      (iteration i).entered.clock < boundary
  early : ∀ i, i + 1 < count → ∀ boundary, IsBoundary domain boundary →
    (world i).planningStartTime < boundary → (iteration i).now < boundary →
      boundary ≤ (iteration (i + 1)).now →
        Polls domain settings (iteration i) (world i).planningStartTime ∧
          boundary ≤ (iteration i).now + 60

variable {domain settings}

section Loop

variable {count : Nat} {start : Int} {iteration : Nat → Iteration} {world : Nat → World}

/-- The start time before an iteration is that of an earlier clock reading. -/
theorem Iterations.scheduled (run : Iterations domain settings count start iteration world)
    {i : Nat} (within : i < count) :
    start ≤ (iteration i).now ∧
      ∃ reading, start ≤ reading ∧ reading ≤ (iteration i).now ∧
        (world i).planningStartTime = nextPlanningStartTime domain reading := by
  induction i with
  | zero =>
      obtain ⟨threadSafe, entered, sameClock, constructed⟩ := run.constructed
      have first := run.first within
      refine ⟨first, start, Int.le_refl start, first, ?_⟩
      rw [(planningStartTime_of_construct domain constructed).1, sameClock]
  | succ i inductionHypothesis =>
      obtain ⟨begun, reading, after, past, set⟩ := inductionHypothesis (by omega)
      have ordered := run.ordered i (by omega)
      have follows := run.follows i within
      refine ⟨by omega, ?_⟩
      rcases (run.iterates i (by omega)).cases with ⟨_, switched⟩ | ⟨_, same⟩
      · exact ⟨(iteration i).entered.clock, by omega, follows, switched⟩
      · exact ⟨reading, after, by omega, same.trans set⟩

section Bounds

variable (run : Iterations domain settings count start iteration world)
  (begun : domain.initialPlanningStartTime ≤ start)

include run begun

theorem Iterations.isBoundary {i : Nat} (within : i < count) :
    IsBoundary domain (world i).planningStartTime := by
  obtain ⟨_, reading, after, _, set⟩ := run.scheduled within
  rw [set]
  exact isBoundary_nextPlanningStartTime (by omega)

/-- Boundaries that lie after the start time of the planning lie a duration after it. -/
theorem Iterations.add_le {i : Nat} (within : i < count) {boundary : Int}
    (isBoundary : IsBoundary domain boundary)
    (later : (world i).planningStartTime < boundary) :
    (world i).planningStartTime + domain.planningDuration ≤ boundary :=
  (run.isBoundary begun within).add_le isBoundary later

variable (long : 60 < domain.planningDuration)

include long

/-- The start time lies after the reading of the constructor, and at most one
duration after that of the iteration. -/
theorem Iterations.near {i : Nat} (within : i < count) :
    start < (world i).planningStartTime ∧
      (world i).planningStartTime ≤ (iteration i).now + domain.planningDuration := by
  obtain ⟨_, reading, after, past, set⟩ := run.scheduled within
  have near := @nextPlanningStartTime_le domain (by omega) reading (by omega)
  have ahead := @lt_nextPlanningStartTime domain (by omega) reading (by omega)
  omega

theorem Iterations.moves {i : Nat} (within : i < count) :
    IsBoundary domain (world (i + 1)).planningStartTime ∧
      (world i).planningStartTime ≤ (world (i + 1)).planningStartTime ∧
      (world (i + 1)).planningStartTime ≤
        (iteration i).entered.clock + domain.planningDuration := by
  obtain ⟨started, reading, after, past, set⟩ := run.scheduled within
  have ordered := run.ordered i within
  have near := run.near begun long within
  have begunThen : domain.initialPlanningStartTime ≤ (iteration i).entered.clock := by omega
  rcases (run.iterates i within).cases with ⟨_, switched⟩ | ⟨_, same⟩
  · have grown := @nextPlanningStartTime_mono domain (by omega) reading
      (iteration i).entered.clock (by omega) (by omega)
    have bound := @nextPlanningStartTime_le domain (by omega) _ begunThen
    rw [switched]
    exact ⟨isBoundary_nextPlanningStartTime begunThen, by omega, bound⟩
  · rw [same]
    exact ⟨run.isBoundary begun within, Int.le_refl _, by omega⟩

end Bounds

/-! ## Punctual runs -/

/-- The boundaries up to the start time of the planning have been start times. -/
def CompleteUpTo (domain : Domain) (start : Int) (world : Nat → World) (i : Nat) : Prop :=
  ∀ boundary, IsBoundary domain boundary → start < boundary →
    boundary ≤ (world i).planningStartTime → ∃ j ≤ i, (world j).planningStartTime = boundary

section Sufficient

variable (run : Iterations domain settings count start iteration world)
  (begun : domain.initialPlanningStartTime ≤ start) (long : 60 < domain.planningDuration)
  (punctual : Punctual domain settings count iteration world)

include run begun long

theorem Iterations.completeUpTo_zero : CompleteUpTo domain start world 0 := by
  obtain ⟨threadSafe, entered, sameClock, constructed⟩ := run.constructed
  intro boundary isBoundary later reached
  have set := (planningStartTime_of_construct domain constructed).1
  rw [sameClock] at set
  have least := nextPlanningStartTime_le_of_isBoundary (by omega) begun isBoundary later
  exact ⟨0, Nat.le_refl 0, by omega⟩

include punctual

/-- An iteration that begins within a duration after the start time ends so. -/
theorem Iterations.completeUpTo_succ {i : Nat} (within : i < count)
    (complete : CompleteUpTo domain start world i)
    (recent : (iteration i).now < (world i).planningStartTime + domain.planningDuration) :
    CompleteUpTo domain start world (i + 1) ∧
      (iteration i).entered.clock <
        (world (i + 1)).planningStartTime + domain.planningDuration := by
  have started := (run.scheduled within).1
  have ordered := run.ordered i within
  have begunThen : domain.initialPlanningStartTime ≤ (iteration i).entered.clock := by omega
  -- no boundary beyond the start time has passed before the last reading
  have uncrossed : ∀ boundary, IsBoundary domain boundary →
      (world i).planningStartTime < boundary → (iteration i).entered.clock < boundary := by
    intro boundary isBoundary later
    have spaced := run.add_le begun within isBoundary later
    exact punctual.uncrossed i within boundary isBoundary later (by omega)
  have earlier : ∀ boundary, IsBoundary domain boundary → start < boundary →
      boundary ≤ (world i).planningStartTime →
        ∃ j ≤ i + 1, (world j).planningStartTime = boundary := by
    intro boundary isBoundary after reached
    obtain ⟨j, bound, same⟩ := complete boundary isBoundary after reached
    exact ⟨j, by omega, same⟩
  rcases (run.iterates i within).cases with ⟨_, switched⟩ | ⟨_, same⟩
  · have ahead := @lt_nextPlanningStartTime domain (by omega) _ begunThen
    refine ⟨fun boundary isBoundary after reached => ?_, by omega⟩
    by_cases old : boundary ≤ (world i).planningStartTime
    · exact earlier boundary isBoundary after old
    · have future := uncrossed boundary isBoundary (by omega)
      have least := nextPlanningStartTime_le_of_isBoundary (by omega) begunThen isBoundary future
      exact ⟨i + 1, Nat.le_refl _, by omega⟩
  · have next := (run.isBoundary begun within).add_period
    rw [CompleteUpTo, same]
    exact ⟨earlier, uncrossed _ next (by omega)⟩

/-- The iteration after it begins within a duration after the start time as well. -/
theorem Iterations.recent_succ {i : Nat} (within : i + 1 < count)
    (recent : (iteration i).entered.clock <
      (world (i + 1)).planningStartTime + domain.planningDuration) :
    (iteration (i + 1)).now < (world (i + 1)).planningStartTime + domain.planningDuration := by
  by_cases passed : (iteration (i + 1)).now <
      (world (i + 1)).planningStartTime + domain.planningDuration
  · exact passed
  · have current : i < count := by omega
    have started := (run.scheduled current).1
    have ordered := run.ordered i current
    have moves := run.moves begun long current
    have next := moves.1.add_period
    obtain ⟨polls, soon⟩ := punctual.early i within _ next (by omega) (by omega) (by omega)
    -- the test of that iteration has seen the boundary coming
    have least := nextPlanningStartTime_le_of_isBoundary (by omega)
      (show domain.initialPlanningStartTime ≤ (iteration i).test by omega) next (by omega)
    have due : Due domain settings (iteration i) (world i).planningStartTime :=
      ⟨polls, by omega⟩
    have ahead := @lt_nextPlanningStartTime domain (by omega) (iteration i).entered.clock
      (by omega)
    rcases (run.iterates i current).cases with ⟨_, switched⟩ | ⟨notDue, _⟩
    · omega
    · exact absurd due notDue

theorem Iterations.complete_of_punctual {i : Nat} (within : i < count) :
    CompleteUpTo domain start world i ∧
      (iteration i).now < (world i).planningStartTime + domain.planningDuration := by
  induction i with
  | zero => exact ⟨run.completeUpTo_zero begun long, punctual.first within⟩
  | succ i inductionHypothesis =>
      obtain ⟨complete, recent⟩ := inductionHypothesis (by omega)
      obtain ⟨later, left⟩ :=
        run.completeUpTo_succ begun long punctual (by omega) complete recent
      exact ⟨later, run.recent_succ begun long punctual within left⟩

theorem Iterations.onTime_of_punctual {i : Nat} (within : i < count) :
    OnTime domain start iteration world i := by
  obtain ⟨complete, recent⟩ := run.complete_of_punctual begun long punctual within
  obtain ⟨later, left⟩ := run.completeUpTo_succ begun long punctual within complete recent
  obtain ⟨isBoundary, _, near⟩ := run.moves begun long within
  constructor
  · by_cases reached : (world (i + 1)).planningStartTime ≤ (iteration i).entered.clock
    · exact Or.inl (isBoundary.isGreatest reached left)
    · exact Or.inr (isBoundary.isLeast (by omega) near)
  · intro boundary isBoundaryToo after passed
    by_cases old : boundary ≤ (world (i + 1)).planningStartTime
    · exact later boundary isBoundaryToo after old
    · have spaced := isBoundary.add_le isBoundaryToo (by omega)
      omega

end Sufficient

/-! ## Runs without a missed planning -/

section Necessary

variable (run : Iterations domain settings count start iteration world)
  (begun : domain.initialPlanningStartTime ≤ start) (long : 60 < domain.planningDuration)

include run begun long

theorem Iterations.monotone {j i : Nat} (ordered : j ≤ i) (within : i ≤ count) :
    (world j).planningStartTime ≤ (world i).planningStartTime := by
  induction ordered with
  | refl => exact Int.le_refl _
  | @step i _ inductionHypothesis =>
      have grown := (run.moves begun long within).2.1
      exact Int.le_trans (inductionHypothesis (by omega)) grown

/-- A boundary that has passed is not what the iteration has switched to. -/
theorem Iterations.same_of_passed {i : Nat} (within : i < count) {boundary : Int}
    (passed : boundary ≤ (iteration i).entered.clock)
    (set : (world (i + 1)).planningStartTime = boundary) :
    (world i).planningStartTime = boundary := by
  have started := (run.scheduled within).1
  have ordered := run.ordered i within
  have ahead := @lt_nextPlanningStartTime domain (by omega) (iteration i).entered.clock
    (by omega)
  rcases (run.iterates i within).cases with ⟨_, switched⟩ | ⟨_, same⟩ <;> omega

variable (onTime : ∀ i < count, OnTime domain start iteration world i)

include onTime

/-- A boundary beyond the start time that passes by the end of an iteration would
have to be set by it. -/
theorem Iterations.lt_of_onTime {i : Nat} (within : i < count) {boundary : Int}
    (isBoundary : IsBoundary domain boundary)
    (later : (world i).planningStartTime < boundary) :
    (iteration i).entered.clock < boundary := by
  by_cases passed : boundary ≤ (iteration i).entered.clock
  · have after := (run.near begun long within).1
    obtain ⟨j, bound, set⟩ :=
      (onTime i within).complete boundary isBoundary (by omega) passed
    rcases Nat.lt_or_ge i j with last | earlier
    · have same : j = i + 1 := by omega
      rw [same] at set
      have old := run.same_of_passed begun long within passed set
      omega
    · have grown := run.monotone begun long earlier (by omega)
      omega
  · omega

theorem Iterations.early_of_onTime {i : Nat} (within : i + 1 < count) {boundary : Int}
    (isBoundary : IsBoundary domain boundary)
    (later : (world i).planningStartTime < boundary)
    (reached : boundary ≤ (iteration (i + 1)).now) :
    Polls domain settings (iteration i) (world i).planningStartTime ∧
      boundary ≤ (iteration i).now + 60 := by
  have current : i < count := by omega
  have ordered := run.ordered (i + 1) within
  have readings := run.ordered i current
  have spaced := (run.spaced i within).2
  have started := (run.scheduled current).1
  -- the boundary passes in the next iteration, so it is the start time by then
  have known : boundary ≤ (world (i + 1)).planningStartTime := by
    by_cases unknown : (world (i + 1)).planningStartTime < boundary
    · have future := run.lt_of_onTime begun long onTime within isBoundary unknown
      omega
    · omega
  rcases (run.iterates i current).cases with ⟨due, switched⟩ | ⟨_, same⟩
  · refine ⟨due.1, ?_⟩
    have begunThen : domain.initialPlanningStartTime ≤ (iteration i).test := by omega
    have ahead := @lt_nextPlanningStartTime domain (by omega) _ begunThen
    have soon := due.2
    -- two boundaries cannot lie between two iterations
    by_cases far : nextPlanningStartTime domain (iteration i).test < boundary
    · have apart :=
        (isBoundary_nextPlanningStartTime begunThen).add_le isBoundary far
      omega
    · omega
  · omega

theorem Iterations.punctual_of_onTime : Punctual domain settings count iteration world := by
  constructor
  · intro started
    have next := (run.isBoundary begun started).add_period
    have future := run.lt_of_onTime begun long onTime started next (by omega)
    have ordered := run.ordered 0 started
    omega
  · intro i within boundary isBoundary later _
    exact run.lt_of_onTime begun long onTime within isBoundary later
  · intro i within boundary isBoundary later _ reached
    exact run.early_of_onTime begun long onTime within isBoundary later reached

end Necessary

/-- In a run of the loop, no planning is missed if and only if the run is punctual. -/
theorem loop_onTime_iff (begun : domain.initialPlanningStartTime ≤ start)
    (long : 60 < domain.planningDuration)
    (run : Iterations domain settings count start iteration world) :
    (∀ i < count, OnTime domain start iteration world i) ↔
      Punctual domain settings count iteration world :=
  ⟨run.punctual_of_onTime begun long,
    fun punctual _ within => run.onTime_of_punctual begun long punctual within⟩

end Loop

/-! ## Iterations of 62 seconds -/

def localSettings : Settings where
  runningMode := .active
  nodeName := "localhost"

/-- The planning of 3600 has no jobs, the next one does not exist. -/
def emptyPlanning (clock planningStartTime : Int) : World where
  server := ((⟨∅⟩ : Server).setSchema "demo" {}).setSchema "demo_3600"
    { views := ["get_ready_job"] }
  clock := clock
  planningStartTime := planningStartTime

/-- Every iteration does two seconds of work. -/
def slowIteration (i : Nat) : Iteration where
  now := 3605 + 62 * i
  polled := emptyPlanning (3605 + 62 * i) 3600
  test := 3605 + 62 * i
  entered := emptyPlanning (3605 + 62 * i) 3600

def slowWorld : Nat → World
  | 0 => emptyPlanning 3590 3600
  | i + 1 => emptyPlanning (3605 + 62 * i) 3600

/-- 61 seconds before the planning of 7200 starts it is too early for the test, and
one second after its start it is too late. -/
theorem iterations_slow {count : Nat} (bound : count ≤ 59) :
    Iterations hourlyDomain localSettings count 3590 slowIteration slowWorld where
  constructed := ⟨true, emptyPlanning 3590 0, rfl, rfl⟩
  first _ := by decide
  ordered i _ := ⟨Int.le_refl _, Int.le_refl _⟩
  follows i _ := by
    change (3605 + 62 * (i : Int)) ≤ 3605 + 62 * ((i + 1 : Nat) : Int)
    omega
  spaced i _ := by
    change (3605 + 62 * (i : Int)) + 60 ≤ 3605 + 62 * ((i + 1 : Nat) : Int) ∧
      3605 + 62 * ((i + 1 : Nat) : Int) < (3605 + 62 * (i : Int)) + 3600
    omega
  iterates i within := by
    have early : ¬ nextPlanningStartTime hourlyDomain (3605 + 62 * i) -
        (3605 + 62 * i) ≤ 60 := by
      rw [nextPlanningStartTime_eq hourlyDomain (by change (0 : Int) ≤ _; omega)]
      change ¬ (3605 + 62 * (i : Int)) + 3600 - (3605 + 62 * (i : Int) - 0) % 3600 -
        (3605 + 62 * (i : Int)) ≤ 60
      by_cases last : i = 58
      · rw [last]
        decide
      · have sameHour : (3605 + 62 * (i : Int) - 0) / 3600 = 1 := by omega
        omega
    have set : (slowWorld i).planningStartTime = 3600 := by
      cases i <;> rfl
    have polls : Polls hourlyDomain localSettings (slowIteration i)
        (slowWorld i).planningStartTime := by
      rw [set]
      change pollPoint hourlyDomain localSettings (3605 + 62 * i)
        (emptyPlanning (3605 + 62 * i) 3600) = .polled (3605 + 62 * i)
      rw [pollPoint, if_pos (by change (3600 : Int) ≤ _; omega)]
      rfl
    have left : slowWorld (i + 1) =
        { (slowIteration i).entered with
          planningStartTime := (slowWorld i).planningStartTime } := by
      rw [set]
      rfl
    rw [left]
    exact iterates_of_early polls early

/-- The planning of 7200 is missed. -/
theorem loop_misses_planning :
    ¬ ∀ (domain : Domain) (settings : Settings) (count : Nat) (start : Int)
      (iteration : Nat → Iteration) (world : Nat → World),
      domain.initialPlanningStartTime ≤ start → 60 < domain.planningDuration →
        Iterations domain settings count start iteration world →
          ∀ i < count, OnTime domain start iteration world i := by
  intro always
  have onTime := always hourlyDomain localSettings 59 3590 slowIteration slowWorld
    (by decide) (by decide) (iterations_slow (Nat.le_refl 59)) 58 (by decide)
  have last : IsBoundary hourlyDomain 7200 ∧
      (7200 : Int) ≤ (slowIteration 58).entered.clock := by decide
  rcases onTime.current with greatest | least
  · exact absurd (greatest.2 last) (by decide)
  · exact absurd least.1.2 (by decide)

theorem loop_onTime_iff_slow :
    (∀ i < 58, OnTime hourlyDomain 3590 slowIteration slowWorld i) ↔
      Punctual hourlyDomain localSettings 58 slowIteration slowWorld :=
  loop_onTime_iff (by decide) (by decide) (iterations_slow (by decide))

end Master

end OpenWorkloadScheduler
