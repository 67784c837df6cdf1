import OpenWorkloadScheduler.Domain.ReadyJobs
import OpenWorkloadScheduler.Scheduler.Launches

/-!
# The loop of the client

In the mode `ACTIVE` the client polls the ready jobs of its node as the master
does, and starts a thread for every job of its vector.  `get_ready_jobs` only
appends to the vector, which the client never clears; nor does it look at the state
of a job, at the start time of the planning, or at an exception.  A thread is given the
address of the variable of the inner loop, and not a job.
-/

namespace OpenWorkloadScheduler

open Rpc Store Foundations Domain

namespace Client

variable (domain : Domain) (nodeName : String)

/-- What `get_ready_jobs` pushes into the vector `jobs`. -/
def pushed (world : World) : List TJob :=
  match Domain.getReadyJobs domain (some nodeName) world with
  | .ok (jobs, _) _ => jobs
  | .error _ _ => []

/-- The call is not left by an exception, which would leave `main` as well. -/
def returns (world : World) : Bool :=
  match Domain.getReadyJobs domain (some nodeName) world with
  | .ok (_, none) _ => true
  | _ => false

/-- The polls of the loop in a history of states, each with the jobs that the loop
starts a thread for, one after the other.  The first argument is the vector `jobs`. -/
def launches : List TJob → List World → List (World × List TJob)
  | _, [] => []
  | jobs, world :: worlds =>
      if returns domain nodeName world then
        (world, jobs ++ pushed domain nodeName world) ::
          launches (jobs ++ pushed domain nodeName world) worlds
      else [(world, [])]

/-- What the threads of a poll find at the address of `j`, each at its own time: the job
that the thread has been started for, one that the loop has come to meanwhile, or the last
one, which the loop has left there.  That nothing else is written over it is assumed. -/
structure Finds (jobs found : List TJob) : Prop where
  length : found.length = jobs.length
  later : ∀ index job, found[index]? = some job → job ∈ jobs.drop index

/-! ## The loop of the master -/

/-- The master that polls for the same node. -/
def masterSettings : Settings where
  runningMode := .active
  nodeName := nodeName

/-- The jobs are those that the poll has returned as waiting, and those that the
master would launch from the same state. -/
structure AsMaster (world : World) (launched : List TJob) : Prop where
  waiting : launched = (pushed domain nodeName world).filter fun job => job.state = .waiting
  master : launched = Master.launchable domain (masterSettings nodeName) world

/-- The polls that the loop makes: all up to the first exception. -/
def polls : List World → List World
  | [] => []
  | world :: worlds =>
      if returns domain nodeName world then world :: polls worlds else [world]

/-- Whatever the threads find, they have the jobs that are meant. -/
def Follows (world : World) (jobs : List TJob) : Prop :=
  ∀ found, Finds jobs found → AsMaster domain nodeName world found

/-- No poll goes through after one that has returned a job; a poll returns no two different
jobs, and what it returns waits and belongs to a planning that has started; and a poll that
raises has pushed no job that waits. -/
structure LaunchesOnce (history : List World) : Prop where
  single : (polls domain nodeName history).Pairwise fun earlier later =>
    returns domain nodeName later = true → pushed domain nodeName earlier = []
  alike : ∀ world ∈ polls domain nodeName history, returns domain nodeName world = true →
    ∀ job ∈ pushed domain nodeName world, ∀ other ∈ pushed domain nodeName world, job = other
  waiting : ∀ world ∈ polls domain nodeName history, returns domain nodeName world = true →
    ∀ job ∈ pushed domain nodeName world, job.state = .waiting
  started : ∀ world ∈ polls domain nodeName history, returns domain nodeName world = true →
    pushed domain nodeName world ≠ [] → world.planningStartTime ≤ world.clock
  raised : ∀ world ∈ polls domain nodeName history, returns domain nodeName world = false →
    ∀ job ∈ pushed domain nodeName world, job.state ≠ .waiting

section Polls

variable {domain nodeName}

theorem nodeName_of_mem_pushed {world : World} {job : TJob}
    (member : job ∈ pushed domain nodeName world) : job.nodeName = nodeName := by
  unfold pushed at member
  split at member
  · rename_i jobs raised after ran
    rw [offer_of_getReadyJobs domain ran] at member
    obtain ⟨row, rowMember, rfl⟩ := List.mem_map.mp member
    have selected : decide (row.jobNodeName = nodeName) = true :=
      (List.mem_filter.mp ((List.takeWhile_sublist _).subset rowMember)).2
    exact of_decide_eq_true selected
  · cases member

theorem filter_isLaunched (world : World) :
    (pushed domain nodeName world).filter (Master.isLaunched (masterSettings nodeName)) =
      (pushed domain nodeName world).filter fun job => job.state = .waiting := by
  apply List.filter_congr
  intro job member
  simp [Master.isLaunched, masterSettings, nodeName_of_mem_pushed member]

/-- The master launches what waits, if the poll leaves it alive and the planning has
started. -/
theorem launchable_of_begun {world : World} (begun : world.planningStartTime ≤ world.clock)
    (returned : returns domain nodeName world = true) :
    Master.launchable domain (masterSettings nodeName) world =
      (pushed domain nodeName world).filter fun job => job.state = .waiting := by
  rw [← filter_isLaunched]
  unfold returns at returned
  split at returned
  · rename_i jobs after ran
    have asked : Domain.getReadyJobs domain (Master.askedNode (masterSettings nodeName)) world =
        .ok (jobs, none) after := ran
    simp only [Master.launchable, Master.pollPoint, Master.fetched, pushed, if_pos begun, asked,
      ran]
  · cases returned

theorem launchable_of_not_begun {world : World}
    (waits : ¬ world.planningStartTime ≤ world.clock) :
    Master.launchable domain (masterSettings nodeName) world = [] := by
  simp only [Master.launchable, Master.pollPoint, Master.fetched, if_neg waits]
  rfl

theorem launchable_subset (world : World) :
    Master.launchable domain (masterSettings nodeName) world ⊆
      (pushed domain nodeName world).filter fun job => job.state = .waiting := by
  intro job member
  rw [← filter_isLaunched]
  unfold Master.launchable at member
  split at member
  · cases member
  · by_cases begun : world.planningStartTime ≤ world.clock
    · have same : Master.fetched domain (masterSettings nodeName) world.clock world =
          pushed domain nodeName world := if_pos begun
      rwa [same] at member
    · simp [Master.fetched, if_neg begun] at member

theorem asMaster_iff_of_returns {world : World} {jobs : List TJob}
    (returned : returns domain nodeName world = true) :
    AsMaster domain nodeName world (jobs ++ pushed domain nodeName world) ↔
      jobs = [] ∧ (∀ job ∈ pushed domain nodeName world, job.state = .waiting) ∧
        (pushed domain nodeName world ≠ [] → world.planningStartTime ≤ world.clock) := by
  constructor
  · intro agrees
    have lengths := congrArg List.length agrees.waiting
    have filtered := List.length_filter_le (fun job : TJob => decide (job.state = .waiting))
      (pushed domain nodeName world)
    rw [List.length_append] at lengths
    have fresh : jobs = [] := List.length_eq_zero_iff.mp (by omega)
    have waiting := agrees.waiting
    rw [fresh, List.nil_append, eq_comm, List.filter_eq_self] at waiting
    refine ⟨fresh, by simpa using waiting, fun returnedAny => ?_⟩
    by_cases begun : world.planningStartTime ≤ world.clock
    · exact begun
    · have launched := agrees.master
      rw [launchable_of_not_begun begun, fresh] at launched
      exact absurd launched returnedAny
  · rintro ⟨rfl, waiting, begun⟩
    have all : (pushed domain nodeName world).filter (fun job => job.state = .waiting) =
        pushed domain nodeName world := List.filter_eq_self.mpr (by simpa using waiting)
    constructor
    · exact all.symm
    · by_cases nothing : pushed domain nodeName world = []
      · have none := @launchable_subset domain nodeName world
        rw [all, nothing] at none
        rw [nothing]
        exact (List.subset_nil.mp none).symm
      · rw [launchable_of_begun (begun nothing) returned]
        exact all.symm

/-! ### What the threads find -/

theorem Finds.refl (jobs : List TJob) : Finds jobs jobs := by
  refine ⟨rfl, fun index job found => ?_⟩
  rw [List.getElem?_eq_some_iff] at found
  obtain ⟨bound, rfl⟩ := found
  rw [List.drop_eq_getElem_cons bound]
  exact List.mem_cons_self

/-- The thread of an earlier job may come to the address when a later one is there. -/
theorem Finds.overtaken {jobs : List TJob} {earlier later : Nat} {job : TJob}
    (order : earlier ≤ later) (found : jobs[later]? = some job) :
    Finds jobs (jobs.set earlier job) := by
  refine ⟨List.length_set, fun index other atIndex => ?_⟩
  by_cases same : earlier = index
  · subst same
    have bound : earlier < jobs.length := by
      have := (List.getElem?_eq_some_iff.mp found).1
      omega
    rw [List.getElem?_set_self bound] at atIndex
    cases atIndex
    refine List.mem_of_getElem? (i := later - earlier) ?_
    rwa [List.getElem?_drop, Nat.add_sub_cancel' order]
  · rw [List.getElem?_set_ne same] at atIndex
    exact (Finds.refl jobs).later index other atIndex

theorem Finds.eq_of_alike {jobs found : List TJob} (finds : Finds jobs found)
    (alike : ∀ job ∈ jobs, ∀ other ∈ jobs, job = other) : found = jobs := by
  refine List.ext_getElem finds.length fun index bound jobsBound => ?_
  exact alike _ (List.mem_of_mem_drop (finds.later index _ (List.getElem?_eq_getElem bound))) _
    (List.getElem_mem jobsBound)

theorem follows_iff {world : World} {jobs : List TJob} :
    Follows domain nodeName world jobs ↔
      AsMaster domain nodeName world jobs ∧ ∀ job ∈ jobs, ∀ other ∈ jobs, job = other := by
  constructor
  · intro follows
    have straight := follows jobs (Finds.refl jobs)
    refine ⟨straight, fun job member other otherMember => ?_⟩
    have ordered : ∀ earlier later : Nat, earlier ≤ later → ∀ job other,
        jobs[earlier]? = some job → jobs[later]? = some other → job = other := by
      intro earlier later order job other first second
      have overtaken := follows _ (Finds.overtaken order second)
      have same : jobs.set earlier other = jobs :=
        overtaken.waiting.trans straight.waiting.symm
      have bound := (List.getElem?_eq_some_iff.mp first).1
      have written := List.getElem?_set_self (a := other) bound
      rw [same, first] at written
      exact Option.some.inj written
    obtain ⟨earlier, first⟩ := List.mem_iff_getElem?.mp member
    obtain ⟨later, second⟩ := List.mem_iff_getElem?.mp otherMember
    rcases Nat.le_total earlier later with order | order
    · exact ordered earlier later order job other first second
    · exact (ordered later earlier order other job second first).symm
  · rintro ⟨straight, alike⟩ found finds
    rw [finds.eq_of_alike alike]
    exact straight

theorem follows_iff_of_returns {world : World} {jobs : List TJob}
    (returned : returns domain nodeName world = true) :
    Follows domain nodeName world (jobs ++ pushed domain nodeName world) ↔
      jobs = [] ∧ (∀ job ∈ pushed domain nodeName world,
          ∀ other ∈ pushed domain nodeName world, job = other) ∧
        (∀ job ∈ pushed domain nodeName world, job.state = .waiting) ∧
        (pushed domain nodeName world ≠ [] → world.planningStartTime ≤ world.clock) := by
  rw [follows_iff, asMaster_iff_of_returns returned]
  constructor
  · rintro ⟨⟨rfl, waiting, begun⟩, alike⟩
    exact ⟨rfl, alike, waiting, begun⟩
  · rintro ⟨rfl, alike, waiting, begun⟩
    exact ⟨⟨rfl, waiting, begun⟩, alike⟩

/-- A poll that raises, after which the client is gone. -/
theorem asMaster_nil_iff {world : World} :
    AsMaster domain nodeName world [] ↔
      ∀ job ∈ pushed domain nodeName world, job.state ≠ .waiting := by
  have unlaunched : (pushed domain nodeName world).filter (fun job => job.state = .waiting) =
      [] ↔ ∀ job ∈ pushed domain nodeName world, job.state ≠ .waiting := by
    simp [List.filter_eq_nil_iff]
  rw [← unlaunched]
  constructor
  · intro agrees
    exact agrees.waiting.symm
  · intro nothing
    have none := @launchable_subset domain nodeName world
    rw [nothing] at none
    exact ⟨nothing.symm, (List.subset_nil.mp none).symm⟩

theorem follows_nil_iff {world : World} :
    Follows domain nodeName world [] ↔
      ∀ job ∈ pushed domain nodeName world, job.state ≠ .waiting := by
  rw [follows_iff, asMaster_nil_iff]
  simp

/-! ### Histories -/

theorem launchesOnce_cons_of_returns {world : World} {worlds : List World}
    (returned : returns domain nodeName world = true) :
    LaunchesOnce domain nodeName (world :: worlds) ↔
      ((∀ job ∈ pushed domain nodeName world,
          ∀ other ∈ pushed domain nodeName world, job = other) ∧
        (∀ job ∈ pushed domain nodeName world, job.state = .waiting) ∧
        (pushed domain nodeName world ≠ [] → world.planningStartTime ≤ world.clock) ∧
        ∀ later ∈ polls domain nodeName worlds, returns domain nodeName later = true →
          pushed domain nodeName world = []) ∧
      LaunchesOnce domain nodeName worlds := by
  have made : polls domain nodeName (world :: worlds) = world :: polls domain nodeName worlds :=
    if_pos returned
  constructor
  · rintro ⟨single, alike, waiting, started, raised⟩
    rw [made] at single alike waiting started raised
    simp only [List.pairwise_cons, List.forall_mem_cons] at single alike waiting started raised
    exact ⟨⟨alike.1 returned, waiting.1 returned, started.1 returned, single.1⟩,
      single.2, alike.2, waiting.2, started.2, raised.2⟩
  · rintro ⟨⟨same, waits, begun, last⟩, single, alike, waiting, started, raised⟩
    constructor <;> rw [made]
    · exact List.pairwise_cons.mpr ⟨last, single⟩
    · exact List.forall_mem_cons.mpr ⟨fun _ => same, alike⟩
    · exact List.forall_mem_cons.mpr ⟨fun _ => waits, waiting⟩
    · exact List.forall_mem_cons.mpr ⟨fun _ => begun, started⟩
    · exact List.forall_mem_cons.mpr ⟨fun impossible => by simp [returned] at impossible, raised⟩

theorem launchesOnce_cons_of_raises {world : World} {worlds : List World}
    (raised : returns domain nodeName world = false) :
    LaunchesOnce domain nodeName (world :: worlds) ↔
      ∀ job ∈ pushed domain nodeName world, job.state ≠ .waiting := by
  have made : polls domain nodeName (world :: worlds) = [world] := if_neg (by simp [raised])
  constructor
  · intro once
    exact once.raised world (by simp [made]) raised
  · intro unwaiting
    constructor <;> simp [made, raised]
    exact unwaiting

/-- From a vector that is not empty nothing may be polled any more. -/
theorem launches_follow_iff (jobs : List TJob) (history : List World) :
    (∀ poll ∈ launches domain nodeName jobs history, Follows domain nodeName poll.1 poll.2) ↔
      LaunchesOnce domain nodeName history ∧
        (jobs ≠ [] → ∀ world ∈ polls domain nodeName history,
          returns domain nodeName world = false) := by
  induction history generalizing jobs with
  | nil =>
      have once : LaunchesOnce domain nodeName [] := by
        constructor <;> simp [polls]
      simp [launches, polls, once]
  | cons world worlds inductionHypothesis =>
      cases returned : returns domain nodeName world with
      | true =>
          have made : polls domain nodeName (world :: worlds) =
            world :: polls domain nodeName worlds := if_pos returned
          rw [launches, if_pos returned, List.forall_mem_cons, inductionHypothesis,
            launchesOnce_cons_of_returns returned, follows_iff_of_returns returned, made]
          constructor
          · rintro ⟨⟨rfl, alike, waits, begun⟩, once, last⟩
            refine ⟨⟨⟨alike, waits, begun, fun later member goesOn => ?_⟩, once⟩,
              fun impossible => absurd rfl impossible⟩
            by_cases nothing : pushed domain nodeName world = []
            · exact nothing
            · have raised := last (by simpa using nothing) later member
              rw [goesOn] at raised
              cases raised
          · rintro ⟨⟨⟨alike, waits, begun, last⟩, once⟩, fresh⟩
            have empty : jobs = [] := by
              by_cases empty : jobs = []
              · exact empty
              · have raised := fresh empty world List.mem_cons_self
                rw [returned] at raised
                cases raised
            refine ⟨⟨empty, alike, waits, begun⟩, once, fun returnedAny later member => ?_⟩
            by_cases goesOn : returns domain nodeName later = true
            · exact absurd (by simp [empty, last later member goesOn]) returnedAny
            · simpa using goesOn
      | false =>
          have made : polls domain nodeName (world :: worlds) = [world] :=
            if_neg (by simp [returned])
          rw [launches, if_neg (by simp [returned]), launchesOnce_cons_of_raises returned, made]
          simp [follows_nil_iff, returned]

end Polls

end Client

end OpenWorkloadScheduler
