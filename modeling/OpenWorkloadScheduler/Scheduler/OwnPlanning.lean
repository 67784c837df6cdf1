import OpenWorkloadScheduler.Domain.Frames
import OpenWorkloadScheduler.Scheduler.SingleExecution

/-!
# The planning that a thread writes to

The name of the current planning changes whenever the loop switches, and the
threads of earlier plannings are still at work then.  Each of them has kept the
name that `get_ready_jobs` wrote into its job, and it is by this name that it
updates the state: in every run, whatever a thread writes goes to the row of its
job in the planning from which the job was polled.
-/

namespace OpenWorkloadScheduler

open Rpc Store Foundations Domain

/-- What the next step of a thread is to write into the row of its job. -/
def Phase.written : Phase → Option (JobRow → JobRow)
  | .created => some fun row => { row with jobState := some .running }
  | .executed startTime stopTime returnCode => some fun row =>
      { row with
        jobState := some (Master.finalJobState returnCode)
        jobStartTime := some startTime
        jobStopTime := some stopTime }
  | _ => none

namespace Master

variable (domain : Domain) (settings : Settings)

/-- The thread that makes the step. -/
def Event.thread? : Event → Option Nat
  | .start index | .popen index _ | .pclose index _ | .finish index => some index
  | _ => none

/-- Nothing has been written, or the row of the job in the planning that the job
names. -/
def Wrote (thread : JobThread) (before after : Server) : Prop :=
  after = before ∨
    ∃ update, thread.phase.written = some update ∧
      ChangesTables thread.job.domain
        (fun tables => .ok (tables.updateJob thread.job.name update)) before after

/-- The poll that pushed the job in the given run: the job was ready in the planning
that was current then, and it names this planning. -/
def PolledIn (world : World) (events : List Event) (last : Master) (job : TJob) : Prop :=
  ∃ earlier later polled next, events = earlier ++ .poll :: later ∧
    Run (Step domain settings) { world } earlier polled ∧
    Step domain settings polled .poll next ∧ Run (Step domain settings) next later last ∧
    job.domain = planningName domain polled.world.planningStartTime ∧
    ∃ row ∈ (polled.world.server.tables job.domain).getReadyJob polled.world.now,
      job = basicJob job.domain row

section Steps

variable {domain settings} {before after : Master} {event : Event} {index : Nat}

/-! ## The steps of a thread -/

theorem server_updatesState (name runningNode : String) (statement : Statement)
    {jobName : String} {update : JobRow → JobRow}
    (effect : statement.effect.changedRows = fun tables => .ok (tables.updateJob jobName update))
    (onRows : statement.onRows = true) (world : World) :
    (finalState ((if runningNode = "" then return false
        else lockedExecute [statement] (some name) : Action Bool) world)).server = world.server ∨
      ChangesTables name (fun tables => .ok (tables.updateJob jobName update)) world.server
        (finalState ((if runningNode = "" then return false
          else lockedExecute [statement] (some name) : Action Bool) world)).server := by
  split
  · exact Or.inl rfl
  · have single : ∀ other ∈ [statement], other.onRows = true := by
      intro other member
      cases List.mem_singleton.mp member
      exact onRows
    have rows : rowsAfter [statement] = fun tables => .ok (tables.updateJob jobName update) := by
      funext tables
      rw [rowsAfter_cons, effect]
      rfl
    rcases lockedExecute_cases name world single with ⟨later, ran, changes⟩ | ⟨_, same⟩
    · rw [rows] at changes
      rw [ran]
      exact Or.inr changes
    · exact Or.inl same

theorem wrote_of_updateStateOfJob (job : TJob) (world : World) :
    Wrote ⟨job, .created⟩ world.server
      (finalState (updateStateOfJob job.domain (some job) .running world)).server := by
  rcases server_updatesState job.domain job.nodeName (.updateJobState job.name .running) rfl rfl
    world with same | changes
  · exact Or.inl same
  · exact Or.inr ⟨_, rfl, changes⟩

theorem wrote_of_updateStateTimesOfJob (job : TJob) (startTime stopTime : Int)
    (returnCode : Integer) (world : World) :
    Wrote ⟨job, .executed startTime stopTime returnCode⟩ world.server
      (finalState (updateStateTimesOfJob job.domain job (finalJobState returnCode) startTime
        stopTime world)).server := by
  rcases server_updatesState job.domain job.nodeName
    (.updateJobStateTimes job.name (finalJobState returnCode) startTime stopTime) rfl rfl world
    with same | changes
  · exact Or.inl same
  · exact Or.inr ⟨_, rfl, changes⟩

theorem holds_of_moveThread {job other : TJob} {phase next : Phase} {world : World}
    (found : before.threads[index]? = some ⟨job, phase⟩)
    (holds : ({ before.moveThread index job next with world } : Master).Holds other) :
    before.Holds other := by
  rw [← moved_false] at holds
  exact holds_of_moved found holds

/-- The thread writes into the row of its job, and the step gives nobody a job. -/
structure Acts (thread : JobThread) (before after : Master) : Prop where
  wrote : Wrote thread before.world.server after.world.server
  holds : ∀ job, after.Holds job → before.Holds job

theorem acts_of_start (started : before.start index = some after) :
    ∃ thread, before.threads[index]? = some thread ∧ Acts thread before after := by
  rw [start, startWith] at started
  split at started
  · rename_i job found
    refine ⟨⟨job, .created⟩, found, ?_⟩
    split at started
    · cases started
      exact ⟨Or.inl rfl, fun other => @holds_of_moveThread before index job other .created _
        before.world found⟩
    · have wrote := wrote_of_updateStateOfJob job before.world
      cases ran : updateStateOfJob job.domain (some job) .running before.world with
      | ok accepted world =>
          rw [Option.bind_some, ran] at started
          rw [ran] at wrote
          cases accepted with
          | true =>
              cases started
              exact ⟨wrote, fun other => holds_of_moveThread found⟩
          | false =>
              cases started
              exact ⟨wrote, fun other => holds_of_moveThread found⟩
      | error raised world =>
          rw [Option.bind_some, ran] at started
          rw [ran] at wrote
          cases raised <;> cases started <;> exact ⟨wrote, fun other holds => holds⟩
  · cases started

theorem acts_of_popen {opened : Bool} (called : before.popen index opened = some after) :
    ∃ thread, before.threads[index]? = some thread ∧ Acts thread before after := by
  rw [popen] at called
  split at called
  · rename_i job found
    refine ⟨⟨job, .running⟩, found, ?_⟩
    dsimp only at called
    cases opened with
    | true =>
        cases called
        exact ⟨Or.inl rfl, fun other => @holds_of_moved before before.world index job .running
          (.executing before.world.clock) true other found⟩
    | false =>
        cases called
        exact ⟨Or.inl rfl, fun other => @holds_of_moveThread before index job other .running _
          before.world found⟩
  · cases called

theorem acts_of_pclose {status : Int} (called : before.pclose index status = some after) :
    ∃ thread, before.threads[index]? = some thread ∧ Acts thread before after := by
  rw [pclose] at called
  split at called
  · rename_i job startTime found
    refine ⟨⟨job, .executing startTime⟩, found, ?_⟩
    cases called
    exact ⟨Or.inl rfl, fun other => @holds_of_moveThread before index job other _ _
      before.world found⟩
  · cases called

theorem acts_of_finish (called : before.finish index = some after) :
    ∃ thread, before.threads[index]? = some thread ∧ Acts thread before after := by
  rw [finish, finishWith] at called
  split at called
  · rename_i job startTime stopTime returnCode found
    refine ⟨⟨job, .executed startTime stopTime returnCode⟩, found, ?_⟩
    have wrote := wrote_of_updateStateTimesOfJob job startTime stopTime returnCode before.world
    rw [Option.bind_some] at called
    split at called
    · rename_i accepted world ran
      cases called
      rw [ran] at wrote
      exact ⟨wrote, fun other => holds_of_moveThread found⟩
    · cases called
    · rename_i raised world _ ran
      cases called
      rw [ran] at wrote
      exact ⟨wrote, fun other => holds_of_moveThread found⟩
  · cases called

theorem acts_of_step (stepped : Step domain settings before event after)
    (acting : event.thread? = some index) :
    ∃ thread, before.threads[index]? = some thread ∧ Acts thread before after := by
  unfold Step perform at stepped
  split at stepped
  · cases stepped
  · cases event with
    | start number =>
        cases acting
        exact acts_of_start stepped
    | popen number opened =>
        cases acting
        exact acts_of_popen stepped
    | pclose number status =>
        cases acting
        exact acts_of_pclose stepped
    | finish number =>
        cases acting
        exact acts_of_finish stepped
    | _ => cases acting

/-! ## Where a job comes from -/

/-- Only a poll gives the loop a job that nobody has had. -/
theorem polled_of_step {job : TJob} (stepped : Step domain settings before event after)
    (unheld : ¬ before.Holds job) (held : after.Holds job) :
    event = .poll ∧ job ∈ currentOffer domain (askedNode settings) before.world := by
  by_cases acting : event.thread?.isSome = true
  · obtain ⟨index, acting⟩ := Option.isSome_iff_exists.mp acting
    obtain ⟨thread, _, acts⟩ := acts_of_step stepped acting
    exact absurd (acts.holds job held) unheld
  · unfold Step perform at stepped
    split at stepped
    · cases stepped
    · cases event with
      | poll =>
          obtain ⟨_, world, point, jobs, _, _, pushed, rfl⟩ := poll_cases domain stepped
          rcases held with member | others
          · rcases pushed with rfl | rfl
            · exact absurd (Or.inl member) unheld
            · exact ⟨rfl, member⟩
          · exact absurd (Or.inr others) unheld
      | switch =>
          obtain ⟨world, point, rfl, _, _⟩ := switch_cases domain stepped
          exact absurd held unheld
      | launch =>
          obtain ⟨launched, sublist, rfl⟩ := launch_cases stepped
          refine absurd ?_ unheld
          rcases held with member | ⟨thread, member, rfl⟩ | member
          · cases member
          · rcases List.mem_append.mp member with member | member
            · exact Or.inr (Or.inl ⟨thread, member, rfl⟩)
            · obtain ⟨job, jobMember, rfl⟩ := List.mem_map.mp member
              exact Or.inl (List.mem_of_mem_filter (sublist.subset jobMember))
          · exact Or.inr (Or.inr member)
      | tick seconds =>
          cases stepped
          exact absurd held unheld
      | outside world =>
          cases stepped
          exact absurd held unheld
      | _ => exact absurd rfl acting

end Steps

/-! ## Runs -/

theorem polledIn_of_run {world : World} {last : Master} {events : List Event} {job : TJob}
    (run : Run (Step domain settings) { world } events last) (held : last.Holds job) :
    PolledIn domain settings world events last job := by
  have initial : ¬ ({ world } : Master).Holds job := by
    rintro (member | ⟨thread, member, _⟩ | member)
    · exact absurd member List.not_mem_nil
    · exact absurd member List.not_mem_nil
    · exact absurd member List.not_mem_nil
  obtain ⟨earlier, event, later, polled, next, split, reached, unheld, stepped, pushed, rest⟩ :=
    @Run.origin _ _ _ (fun master => master.Holds job) _ _ _ run initial held
  obtain ⟨rfl, offered⟩ := polled_of_step stepped unheld pushed
  obtain ⟨row, ready, _, rfl⟩ := mem_offeredJobs offered
  exact ⟨earlier, later, polled, next, split, reached, stepped, rest, rfl, row, ready, rfl⟩

/-- Whenever a thread makes a step, in any run, its job has been polled from the
planning that it names, and what the thread writes goes to the row of the job in
that planning. -/
theorem thread_writes_where_polled {world : World} {last after : Master} {events : List Event}
    {event : Event} {index : Nat} (run : Run (Step domain settings) { world } events last)
    (stepped : Step domain settings last event after) (acting : event.thread? = some index) :
    ∃ thread, last.threads[index]? = some thread ∧
      PolledIn domain settings world events last thread.job ∧
      Wrote thread last.world.server after.world.server := by
  obtain ⟨thread, found, acts⟩ := acts_of_step stepped acting
  have held : last.Holds thread.job :=
    Or.inr (Or.inl ⟨thread, List.mem_of_getElem? found, rfl⟩)
  exact ⟨thread, found, polledIn_of_run domain settings run held, acts.wrote⟩

/-- The thread of the archive is about to write `RUNNING`. -/
theorem archive_writes_where_polled :
    ∃ last after : Master, last.threads = [⟨archive, .created⟩] ∧
      PolledIn dailyDomain thisNode oneJobWorld [.poll, .switch, .launch] last archive ∧
      Wrote ⟨archive, .created⟩ last.world.server after.world.server := by
  have run := run_of_performAll (@iterate_oneJob { world := oneJobWorld } rfl
    serving_oneJob (by decide) (by decide))
  have serving : Serving oneJobWorld archive.domain oneJob := serving_oneJob
  have started := @start_of_serving dailyDomain thisNode
    { world := oneJobWorld, threads := [⟨archive, .created⟩] } oneJob 0 archive (by simp) rfl
    (by decide) (by decide) serving
  obtain ⟨thread, found, polled, wrote⟩ :=
    thread_writes_where_polled dailyDomain thisNode run started rfl
  cases found
  exact ⟨_, _, rfl, polled, wrote⟩

end Master

end OpenWorkloadScheduler
