import OpenWorkloadScheduler.Domain.Completion
import OpenWorkloadScheduler.Scheduler.PlainTexts
import OpenWorkloadScheduler.Scheduler.Rounds

/-!
# Rounds on the texts that are sent

In a round on plain names the server reads the updates of the threads as they are meant,
and the jobs are completed.  The name of a job can say something else to the server,
though, and then a job that has succeeded takes others with it, whose commands are never
executed.
-/

namespace OpenWorkloadScheduler

open Rpc Store Foundations Domain

namespace Master

variable (domain : Domain) (settings : Settings)

section Plain

variable {domain settings} {schema : Schema} {startTime : Int} {before master : Master}

/-! ## The names of the planning -/

theorem names_withRows (tracks : Tracks domain schema startTime master) :
    (withRows schema (rowsOf domain startTime master)).tables.names = schema.tables.names := by
  have names : (rowsOf domain startTime master).map JobRow.names =
      schema.tables.job.map JobRow.names := by
    have based : ∀ row : JobRow, row.basis.names = row.names := fun _ => rfl
    have mapped := congrArg (List.map JobRow.names) tracks.basis
    simpa only [List.map_map, Function.comp_def, based] using mapped
  simp only [withRows, Tables.names, List.flatMap_def, names]

/-- The server tells the name of a thread's job from the others of the planning. -/
theorem Tracks.plain (tracks : Tracks domain schema startTime master)
    (plain : Plain (settings.nodeName :: schema.tables.names)) {thread : JobThread}
    (member : thread ∈ master.threads) :
    PlainIn master.world.server thread.job.domain thread.job.name := by
  obtain ⟨row, rowMember, same⟩ := List.mem_map.mp (tracks.jobs thread member)
  have tables : (master.world.server.tables thread.job.domain).names = schema.tables.names := by
    rw [← same]
    change (master.world.server.tables (planningName domain startTime)).names = _
    rw [Server.tables_of_schema? tracks.serving.found, names_withRows tracks]
  rw [PlainIn, tables]
  apply plain.mono
  apply List.cons_subset.mpr
  constructor
  · rw [← same]
    exact List.mem_cons_of_mem _ (Tables.mem_names_of_job rowMember)
  · exact List.subset_cons_self _ _

/-! ## Rounds -/

theorem stepAsRead_iff (tracks : Tracks domain schema startTime master)
    (plain : Plain (settings.nodeName :: schema.tables.names)) {event : Event}
    {after : Master} :
    StepAsRead domain settings master event after ↔ Step domain settings master event after := by
  rw [StepAsRead, Step, performAsRead_of_plain fun thread member => tracks.plain plain member]

/-- On plain names the rounds that are made are those that are meant. -/
theorem roundAsRead_iff (startable : Startable settings schema.tables)
    (plain : Plain (settings.nodeName :: schema.tables.names))
    (idle : Idle domain schema startTime before) {after : Master} :
    Round domain (StepAsRead domain settings) before after ↔
      Round domain (Step domain settings) before after := by
  obtain ⟨other, performed, _, _, begun⟩ := inRound_of_poll startable idle
  constructor
  · rintro ⟨⟨polled, events, poll, run⟩, returned, finished⟩
    have meant := (stepAsRead_iff idle.tracks plain).mp poll
    cases performed.symm.trans meant
    refine ⟨⟨other, events, meant, run.monoKeeping ?_ begun⟩, returned, finished⟩
    intro between event next inRound stepped
    have step := (stepAsRead_iff inRound.tracks plain).mp stepped.1
    exact ⟨⟨step, stepped.2⟩, inRound_of_step startable inRound step stepped.2⟩
  · rintro ⟨⟨polled, events, poll, run⟩, returned, finished⟩
    cases performed.symm.trans poll
    refine ⟨⟨other, events, (stepAsRead_iff idle.tracks plain).mpr poll,
      run.monoKeeping ?_ begun⟩, returned, finished⟩
    intro between event next inRound stepped
    exact ⟨⟨(stepAsRead_iff inRound.tracks plain).mpr stepped.1, stepped.2⟩,
      inRound_of_step startable inRound stepped.1 stepped.2⟩

end Plain

def soleNode : Settings where
  runningMode := .p2p
  nodeName := "localhost"

/-- The job `backup` has to wait for the job of the given name. -/
def chainTables (first : String) : Tables where
  node := [{ nodeName := "localhost", nodeWeight := 1 }]
  job :=
    [{ jobName := first, jobCmdLine := "tar", jobNodeName := "localhost" },
      { jobName := "backup", jobCmdLine := "rsync", jobNodeName := "localhost" }]
  jobsLink := [{ jobNamePrv := first, jobNameNxt := "backup" }]

def chain (first : String) : Schema :=
  { emptySkeleton with tables := chainTables first }

def chainWorld (first : String) : World where
  server := Server.setSchema ⟨∅⟩ (planningName dailyDomain 0) (chain first)
  clock := 100

theorem startable_chain {first : String} (named : first ≠ "") (apart : first ≠ "backup") :
    Startable soleNode (chain first).tables where
  key := by simp [chain, chainTables, apart]
  here := by simp [chain, chainTables, soleNode]
  waiting := by simp [chain, chainTables]
  acceptable := by
    have fits : Fits 32 1 := by decide
    simp [chain, chainTables, isAcceptable, named, fits]
  unconstrained := rfl
  acyclic := by
    have single : ∀ prv nxt, (chain first).tables.Links prv nxt →
        prv = first ∧ nxt = "backup" := by
      intro prv nxt link
      cases List.mem_singleton.mp link
      exact ⟨rfl, rfl⟩
    have ends : ∀ start last, Relation.TransGen (chain first).tables.Links start last →
        start = first ∧ last = "backup" := by
      intro start last path
      induction path with
      | single link => exact single _ _ link
      | tail _ link inductionHypothesis =>
          exact ⟨inductionHypothesis.1, (single _ _ link).2⟩
    intro name path
    have both := ends name name path
    exact apart (both.1.symm.trans both.2)
  existing := by simp [chain, chainTables, Tables.hasJob]

theorem serving_chain (first : String) :
    Serving (chainWorld first)
      (planningName dailyDomain (chainWorld first).planningStartTime) (chain first) where
  quiet := rfl
  found := Server.schema?_setSchema_self _ _ _
  complete := complete_emptySkeleton.withTables _
  free := rfl

/-- The loop has read the clock for its poll. -/
def polledAt (master : Master) : Option Int :=
  match master.point with
  | .polled now => some now
  | _ => none

instance (before : Master) (event : Event) : Decidable (Ordinary domain before event) :=
  match event with
  | .poll | .outside _ => isFalse id
  | .switch =>
      decidable_of_iff (∀ now ∈ before.polledAt,
          60 < nextPlanningStartTime domain before.world.clock - now) <| by
        unfold polledAt Ordinary
        cases before.point <;> simp
  | .popen _ opened => inferInstanceAs (Decidable (opened = true))
  | .pclose _ status => inferInstanceAs (Decidable (status = 0))
  | .launch | .start _ | .finish _ | .tick _ => isTrue trivial

instance (master : Master) : Decidable master.Finished :=
  inferInstanceAs (Decidable (∀ thread ∈ master.threads, thread.phase = .finished))

/-- The poll of a round and its steps, as the server reads them. -/
def performRound (master : Master) (events : List Event) : Option Master :=
  (master.performAsRead domain settings .poll).bind fun polled =>
    (performAll (fun between event =>
      if Ordinary domain between event then between.performAsRead domain settings event
      else none) polled events).bind fun after =>
        if after.point = .top ∧ after.Finished then some after else none

theorem round_of_performRound {before after : Master} {events : List Event}
    (performed : before.performRound domain settings events = some after) :
    Round domain (StepAsRead domain settings) before after := by
  obtain ⟨polled, poll, rest⟩ := Option.bind_eq_some_iff.mp performed
  obtain ⟨last, ran, ends⟩ := Option.bind_eq_some_iff.mp rest
  split at ends
  · rename_i ended
    cases ends
    refine ⟨⟨polled, events, poll, (run_of_performAll ran).mono ?_⟩, ended.1, ended.2⟩
    intro between event next made
    split at made
    · rename_i ordinary
      exact ⟨made, ordinary⟩
    · cases made
  · cases ends

/-- The second job succeeds with the first one, and its command is never executed. -/
theorem backup_succeeds_unexecuted :
    ∃ after, Repeated (Round dailyDomain (StepAsRead dailyDomain soleNode)) 2
        { world := chainWorld openingName } after ∧
      (rowsOf dailyDomain 0 after).map JobRow.jobState = [some .succeded, some .succeded] ∧
      after.executions.map TJob.name = [openingName] := by
  have computed : ((performRound dailyDomain soleNode { world := chainWorld openingName }
      [.switch, .launch, .start 0, .popen 0 true, .pclose 0 0, .finish 0]).bind fun between =>
        (between.performRound dailyDomain soleNode [.switch, .launch]).map fun after =>
          ((rowsOf dailyDomain 0 after).map JobRow.jobState, after.executions.map TJob.name)) =
      some ([some .succeded, some .succeded], [openingName]) := by
    decide +kernel
  obtain ⟨between, first, rest⟩ := Option.bind_eq_some_iff.mp computed
  obtain ⟨after, second, same⟩ := Option.map_eq_some_iff.mp rest
  obtain ⟨states, names⟩ := Prod.mk.inj same
  exact ⟨after, .more (.more (.none _) (round_of_performRound dailyDomain soleNode first))
    (round_of_performRound dailyDomain soleNode second), states, names⟩

end Master

end OpenWorkloadScheduler
