import OpenWorkloadScheduler.Scheduler.Moves
import OpenWorkloadScheduler.Store.Readiness

/-!
# Before a command is executed

The loop starts a thread for a job that a poll has found waiting, and the view that
is polled asks for a predecessor that has succeeded wherever a link leads to the
job.  The state `SUCCEDED` that it reads there is written by the end of a thread, and
only after the command of the predecessor has ended with the status 0.

In every run, whatever the other threads of the process, the clients and MySQL do in
between, a command that is executed stands at the end of such a chain.
-/

namespace OpenWorkloadScheduler.Master

open Rpc Store Foundations Domain

variable (domain : Domain) (settings : Settings) (world : World)

/-! ## Where a final state comes from -/

/-- The step ends the command of a job: `pclose` returns a status, or `popen` has given
NULL. -/
inductive EndsCommand (before : Master) : Event → TJob → Integer → Prop where
  | closed {index : Nat} {status : Int} {job : TJob} {startTime : Int}
      (found : before.threads[index]? = some ⟨job, .executing startTime⟩) :
      EndsCommand before (.pclose index status) job (Integer.narrow status)
  | notOpened {index : Nat} {job : TJob}
      (found : before.threads[index]? = some ⟨job, .running⟩) :
      EndsCommand before (.popen index false) job 1

/-- A command of the job has ended in the run, and its return code stands for the state. -/
def CommandEnded (events : List Event) (planning name : String) (state : EJobState) : Prop :=
  ∃ earlier event later between job returnCode, events = earlier ++ event :: later ∧
    Run (Step domain settings) { world } earlier between ∧
    EndsCommand between event job returnCode ∧ job.domain = planning ∧ job.name = name ∧
    finalJobState returnCode = state

/-- A row of the job has the state. -/
def HasState (world : World) (planning name : String) (state : EJobState) : Prop :=
  ∃ row ∈ (world.server.tables planning).job, row.jobName = name ∧ row.jobState = some state

/-- Somebody outside the loop and its threads has written the state. -/
def ReportedOutside (events : List Event) (planning name : String) (state : EJobState) :
    Prop :=
  ∃ earlier other later between, events = earlier ++ .outside other :: later ∧
    Run (Step domain settings) { world } earlier between ∧
    ¬ HasState between.world planning name state ∧ HasState other planning name state

/-- The job had the state at the start, or it has come to it in the run. -/
def ComesTo (events : List Event) (planning name : String) (state : EJobState) : Prop :=
  HasState world planning name state ∨
    CommandEnded domain settings world events planning name state ∨
    ReportedOutside domain settings world events planning name state

/-- The poll that pushed the job: the planning had started, the job of this node waited
in it, and no link led to the job or one led to it from a job that had succeeded. -/
def ReadyAt (events : List Event) (job : TJob) : Prop :=
  ∃ earlier later polled, events = earlier ++ .poll :: later ∧
    Run (Step domain settings) { world } earlier polled ∧
    polled.world.planningStartTime ≤ polled.world.clock ∧
    job.domain = planningName domain polled.world.planningStartTime ∧
    job.nodeName = settings.nodeName ∧ HasState polled.world job.domain job.name .waiting ∧
    ((∀ link ∈ (polled.world.server.tables job.domain).jobsLink,
        link.jobNameNxt ≠ job.name) ∨
      ∃ link ∈ (polled.world.server.tables job.domain).jobsLink,
        link.jobNameNxt = job.name ∧
          ComesTo domain settings world earlier job.domain link.jobNamePrv .succeded)

section Histories

variable {domain settings world} {events : List Event} {planning name : String}
  {state : EJobState}

theorem CommandEnded.append (others : List Event)
    (ended : CommandEnded domain settings world events planning name state) :
    CommandEnded domain settings world (events ++ others) planning name state := by
  obtain ⟨earlier, event, later, between, job, returnCode, split, rest⟩ := ended
  refine ⟨earlier, event, later ++ others, between, job, returnCode, ?_, rest⟩
  rw [split, List.append_assoc, List.cons_append]

theorem ReportedOutside.append (others : List Event)
    (reported : ReportedOutside domain settings world events planning name state) :
    ReportedOutside domain settings world (events ++ others) planning name state := by
  obtain ⟨earlier, other, later, between, split, rest⟩ := reported
  refine ⟨earlier, other, later ++ others, between, ?_, rest⟩
  rw [split, List.append_assoc, List.cons_append]

theorem ComesTo.append (others : List Event)
    (comes : ComesTo domain settings world events planning name state) :
    ComesTo domain settings world (events ++ others) planning name state :=
  comes.imp_right (Or.imp (.append others) (.append others))

theorem ReadyAt.append {job : TJob} (others : List Event)
    (ready : ReadyAt domain settings world events job) :
    ReadyAt domain settings world (events ++ others) job := by
  obtain ⟨earlier, later, polled, split, rest⟩ := ready
  refine ⟨earlier, later ++ others, polled, ?_, rest⟩
  rw [split, List.append_assoc, List.cons_append]

end Histories

/-! ## What the steps keep -/

/-- The events account for the final states in the database and for the jobs of the
process. -/
structure Accounts (events : List Event) (master : Master) : Prop where
  run : Run (Step domain settings) { world } events master
  ended : ∀ thread ∈ master.threads, ∀ startTime stopTime returnCode,
    thread.phase = .executed startTime stopTime returnCode →
      CommandEnded domain settings world events thread.job.domain thread.job.name
        (finalJobState returnCode)
  stated : ∀ planning name state, state ≠ .waiting → state ≠ .running →
    HasState master.world planning name state →
      ComesTo domain settings world events planning name state
  pushed : ∀ job ∈ master.jobs, isLaunched settings job = true →
    ReadyAt domain settings world events job
  launched : ∀ thread ∈ master.threads, ReadyAt domain settings world events thread.job

/-- No job has come to a final state. -/
def NoneEnds (before after : World) : Prop :=
  ∀ planning name state, state ≠ .waiting → state ≠ .running →
    HasState after planning name state → HasState before planning name state

theorem noneEnds_of_same {before after : World} (same : after.server = before.server) :
    NoneEnds before after := by
  intro planning name state _ _ has
  rwa [HasState, same] at has

section Steps

variable {domain settings world} {events : List Event} {before after : Master} {event : Event}

/-- Where a row has got its state: it was there, or the update has written it. -/
theorem hasState_of_updates {job : TJob} {update : JobRow → JobRow} {before after : World}
    (updates : Updates job update before after)
    (named : ∀ row, (update row).jobName = row.jobName) {planning name : String}
    {state : EJobState} (has : HasState after planning name state) :
    HasState before planning name state ∨
      planning = job.domain ∧ name = job.name ∧ ∃ row, (update row).jobState = some state := by
  obtain ⟨⟨schema, tables, found, changed, afterFound⟩, beside⟩ := updates
  by_cases same : planning = job.domain
  · subst same
    cases changed
    rw [HasState, Server.tables_of_schema? afterFound] at has
    rw [HasState, Server.tables_of_schema? found]
    obtain ⟨row, member, rfl, written⟩ := has
    obtain ⟨old, oldMember, oldName, equality⟩ := (Tables.mem_updateJob named).mp member
    split at equality
    · rename_i updated
      exact Or.inr ⟨rfl, updated, old, by rw [← equality, written]⟩
    · exact Or.inl ⟨row, equality ▸ oldMember, rfl, written⟩
  · rw [HasState, beside.tables same] at has
    exact Or.inl has

theorem Accounts.append (accounts : Accounts domain settings world events before)
    (stepped : Step domain settings before event after)
    (ended : ∀ thread ∈ after.threads, ∀ startTime stopTime returnCode,
      thread.phase = .executed startTime stopTime returnCode → thread ∈ before.threads ∨
        CommandEnded domain settings world (events ++ [event]) thread.job.domain thread.job.name
          (finalJobState returnCode))
    (stated : ∀ planning name state, state ≠ .waiting → state ≠ .running →
      HasState after.world planning name state → HasState before.world planning name state ∨
        ComesTo domain settings world (events ++ [event]) planning name state)
    (pushed : ∀ job ∈ after.jobs, isLaunched settings job = true → job ∈ before.jobs ∨
      ReadyAt domain settings world (events ++ [event]) job)
    (launched : ∀ thread ∈ after.threads,
      (∃ earlier ∈ before.threads, earlier.job = thread.job) ∨
        thread.job ∈ before.jobs ∧ isLaunched settings thread.job = true) :
    Accounts domain settings world (events ++ [event]) after where
  run := accounts.run.snoc stepped
  ended thread member startTime stopTime returnCode phase := by
    rcases ended thread member startTime stopTime returnCode phase with old | new
    · exact (accounts.ended thread old startTime stopTime returnCode phase).append [event]
    · exact new
  stated planning name state left ends has := by
    rcases stated planning name state left ends has with old | new
    · exact (accounts.stated planning name state left ends old).append [event]
    · exact new
  pushed job member starts := by
    rcases pushed job member starts with old | new
    · exact (accounts.pushed job old starts).append [event]
    · exact new
  launched thread member := by
    rcases launched thread member with ⟨earlier, old, same⟩ | ⟨jobMember, starts⟩
    · exact same ▸ (accounts.launched earlier old).append [event]
    · exact (accounts.pushed thread.job jobMember starts).append [event]

/-- The loop goes on, and no job ends. -/
theorem Accounts.loop (accounts : Accounts domain settings world events before) {other : World}
    {point : LoopPoint}
    (stepped : Step domain settings before event { before with world := other, point })
    (noneEnds : NoneEnds before.world other) :
    Accounts domain settings world (events ++ [event]) { before with world := other, point } :=
  accounts.append stepped (fun _ member _ _ _ _ => Or.inl member)
    (fun planning name state left ends has =>
      Or.inl (noneEnds planning name state left ends has))
    (fun _ member _ => Or.inl member) fun thread member => Or.inl ⟨thread, member, rfl⟩

/-- A thread moves on, and the loop is left alone. -/
theorem Accounts.move (accounts : Accounts domain settings world events before)
    {index : Nat} {job : TJob} {phase next : Phase} {other : World} {executions : List TJob}
    (stepped : Step domain settings before event { before with
      world := other, executions, threads := before.threads.set index ⟨job, next⟩ })
    (found : before.threads[index]? = some ⟨job, phase⟩)
    (ended : ∀ startTime stopTime returnCode, next = .executed startTime stopTime returnCode →
      EndsCommand before event job returnCode)
    (stated : ∀ planning name state, state ≠ .waiting → state ≠ .running →
      HasState other planning name state → HasState before.world planning name state ∨
        ComesTo domain settings world (events ++ [event]) planning name state) :
    Accounts domain settings world (events ++ [event]) { before with
      world := other, executions, threads := before.threads.set index ⟨job, next⟩ } := by
  refine accounts.append stepped ?_ stated (fun _ member _ => Or.inl member) ?_
  · intro thread member startTime stopTime returnCode phase
    rcases List.mem_or_eq_of_mem_set member with member | rfl
    · exact Or.inl member
    · exact Or.inr ⟨events, event, [], before, job, returnCode, rfl, accounts.run,
        ended _ _ _ phase, rfl, rfl, rfl⟩
  · intro thread member
    rcases List.mem_or_eq_of_mem_set member with member | rfl
    · exact Or.inl ⟨thread, member, rfl⟩
    · exact Or.inl ⟨_, List.mem_of_getElem? found, rfl⟩

/-- A job that the poll pushes to be launched is ready at this poll. -/
theorem readyAt_of_poll (accounts : Accounts domain settings world events before)
    (begun : before.world.planningStartTime ≤ before.world.clock) {job : TJob}
    (offered : job ∈ currentOffer domain (askedNode settings) before.world)
    (starts : isLaunched settings job = true) :
    ReadyAt domain settings world (events ++ [.poll]) job := by
  obtain ⟨row, ready, acceptable, rfl⟩ := mem_offeredJobs offered
  simp only [isLaunched, Bool.and_eq_true, decide_eq_true_eq] at starts
  refine ⟨events, [], before, rfl, accounts.run, begun, rfl, starts.2,
    ⟨row, (Tables.mem_getReadyJob.mp ready).1, rfl, waiting_of_basicJob acceptable starts.1⟩, ?_⟩
  rcases Tables.predecessor_of_ready ready with free | ⟨link, member, leads, succeeded⟩
  · exact Or.inl free
  · exact Or.inr ⟨link, member, leads,
      accounts.stated _ _ .succeded (by decide) (by decide) succeeded⟩

theorem accounts_of_step (accounts : Accounts domain settings world events before)
    (stepped : Step domain settings before event after) :
    Accounts domain settings world (events ++ [event]) after := by
  have moves := moves_of_step stepped
  cases moves with
  | polled top readOnly busy pushed =>
      refine accounts.append stepped (fun _ member _ _ _ _ => Or.inl member) ?_ ?_
        fun thread member => Or.inl ⟨thread, member, rfl⟩
      · intro planning name state left ends has
        exact Or.inl (noneEnds_of_same readOnly.server planning name state left ends has)
      · intro job member starts
        rcases pushed with rfl | ⟨begun, rfl⟩
        · exact Or.inl member
        · exact Or.inr (readyAt_of_poll accounts begun member starts)
  | switched busy extend clock start =>
      refine accounts.loop stepped fun planning name state left _ has => ?_
      obtain ⟨row, member, named, written⟩ := has
      have waitsNot : row.jobState ≠ some .waiting := by
        rw [written]
        exact fun same => left (Option.some.inj same)
      exact ⟨row, (extend.adds planning).old member waitsNot, named, written⟩
  | @launched launched sublist =>
      refine accounts.append stepped ?_ (fun _ _ _ _ _ => Or.inl) (fun _ member => by cases member)
        ?_
      · intro thread member startTime stopTime returnCode phase
        rcases List.mem_append.mp member with member | member
        · exact Or.inl member
        · obtain ⟨job, _, rfl⟩ := List.mem_map.mp member
          cases phase
      · intro thread member
        rcases List.mem_append.mp member with member | member
        · exact Or.inl ⟨thread, member, rfl⟩
        · obtain ⟨job, jobMember, rfl⟩ := List.mem_map.mp member
          exact Or.inr (List.mem_filter.mp (sublist.subset jobMember))
  | started found times updates =>
      refine accounts.move stepped found (by simp) fun planning name state _ ends has => ?_
      rcases hasState_of_updates updates (fun _ => rfl) has with old | ⟨_, _, row, written⟩
      · exact Or.inl old
      · exact absurd (Option.some.inj written).symm ends
  | refused found times same | unreported found times same =>
      exact accounts.move stepped found (by simp) fun planning name state left ends has =>
        Or.inl (noneEnds_of_same same planning name state left ends has)
  | aborted found times same => exact accounts.loop stepped (noneEnds_of_same same)
  | opened found => exact accounts.move stepped found (by simp) fun _ _ _ _ _ => Or.inl
  | notOpened found =>
      refine accounts.move stepped found ?_ fun _ _ _ _ _ => Or.inl
      rintro startTime stopTime returnCode ⟨⟩
      exact .notOpened found
  | closed found =>
      refine accounts.move stepped found ?_ fun _ _ _ _ _ => Or.inl
      rintro startTime stopTime returnCode ⟨⟩
      exact .closed found
  | @reported index job startTime stopTime returnCode other found times updates =>
      refine accounts.move stepped found (by simp) fun planning name state _ _ has => ?_
      rcases hasState_of_updates updates (fun _ => rfl) has with old | ⟨rfl, rfl, row, written⟩
      · exact Or.inl old
      · have ended := accounts.ended _ (List.mem_of_getElem? found) _ _ _ rfl
        cases written
        exact Or.inr (Or.inr (Or.inl (ended.append _)))
  | ticked seconds => exact accounts.loop stepped (noneEnds_of_same rfl)
  | interfered other =>
      refine accounts.append stepped (fun _ member _ _ _ _ => Or.inl member) ?_
        (fun _ member _ => Or.inl member) fun thread member => Or.inl ⟨thread, member, rfl⟩
      intro planning name state _ _ has
      by_cases earlier : HasState before.world planning name state
      · exact Or.inl earlier
      · exact Or.inr (Or.inr (Or.inr ⟨events, other, [], before, rfl, accounts.run, earlier,
          has⟩))

end Steps

/-! ## Runs -/

theorem accounts_of_run {last : Master} {events : List Event}
    (run : Run (Step domain settings) { world } events last) :
    Accounts domain settings world events last := by
  refine @Run.traces _ _ _ (Accounts domain settings world) _ _ _
    (fun _ _ _ _ accounts stepped => accounts_of_step accounts stepped) run ?_
  constructor
  · exact .stay _
  · exact fun thread member => absurd member List.not_mem_nil
  · exact fun _ _ _ _ _ => Or.inl
  · exact fun job member => absurd member List.not_mem_nil
  · exact fun thread member => absurd member List.not_mem_nil

/-- In every run on plain texts, a command that is executed is that of a job that a poll
of the run has found waiting in a planning that had started; and no link led to the job at
that poll, or one led to it from a job that had succeeded before: at the start already, by
a report from outside, or since its own command had ended with the status 0. -/
theorem command_follows_predecessor {last after : Master} {events : List Event} {index : Nat}
    (run : Run (PlainStep domain settings) { world } events last)
    (stepped : PlainStep domain settings last (.popen index true) after) :
    ∃ job, last.threads[index]? = some ⟨job, .running⟩ ∧
      after.executions = last.executions ++ [job] ∧
      ReadyAt domain settings world events job := by
  have accounts := accounts_of_run domain settings world (run_of_plainSteps run)
  cases moves_of_step (step_of_plainStep stepped) with
  | opened found => exact ⟨_, found, rfl, accounts.launched _ (List.mem_of_getElem? found)⟩

/-- The archive, to which no link leads. -/
theorem command_follows_predecessor_archive :
    ∃ events last after,
      Run (PlainStep dailyDomain thisNode) { world := oneJobWorld } events last ∧
      PlainStep dailyDomain thisNode last (.popen 0 true) after ∧
      ∃ job, last.threads[0]? = some ⟨job, .running⟩ ∧
        after.executions = last.executions ++ [job] ∧
        ReadyAt dailyDomain thisNode oneJobWorld events job := by
  have possible : ((performAll (performPlain dailyDomain thisNode) { world := oneJobWorld }
      [.poll, .switch, .launch, .start 0]).bind fun last =>
        last.performPlain dailyDomain thisNode (.popen 0 true)).isSome = true := by
    decide +kernel
  obtain ⟨after, performed⟩ := Option.isSome_iff_exists.mp possible
  obtain ⟨last, first, second⟩ := Option.bind_eq_some_iff.mp performed
  exact ⟨_, last, after, run_of_performAll first, second,
    command_follows_predecessor dailyDomain thisNode oneJobWorld (run_of_performAll first)
      second⟩

end OpenWorkloadScheduler.Master
