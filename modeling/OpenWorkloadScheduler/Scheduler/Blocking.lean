import OpenWorkloadScheduler.Scheduler.Moves
import OpenWorkloadScheduler.Store.Readiness

/-!
# Jobs that are never executed

A process starts with no threads, and the loop starts one for a job that a poll
finds waiting.  A job that no poll can find waiting is never executed, and since only
its own thread writes into its row, nothing that the process does changes that.

Two kinds of jobs are out of reach in this way.  A job in any other state than
`WAITING` stays as a process finds it: what was `RUNNING` when an earlier process
ended is not taken up again.  And a job that depends on such jobs, or on itself, has no
predecessor that could ever succeed.
-/

namespace OpenWorkloadScheduler

open Rpc Store Foundations Domain

/-! ## Out of reach -/

namespace Store.Tables

/-- A property of the tables under which the named jobs are not found waiting, and
which only updates of these jobs could end. -/
structure Shields (property : Tables → Prop) (named : String → Prop) : Prop where
  offered : ∀ tables now, property tables → ∀ row ∈ tables.getReadyJob now,
    named row.jobName → row.jobState ≠ some .waiting
  updated : ∀ tables name update, property tables → ¬ named name →
    (∀ row, (update row).jobName = row.jobName) → property (tables.updateJob name update)

/-- Whoever of the jobs waits has links to it, which come from the jobs only, and none of
the jobs has succeeded. -/
structure Blocked (named : String → Prop) (tables : Tables) : Prop where
  linked : ∀ row ∈ tables.job, named row.jobName → row.jobState = some .waiting →
    ∃ link ∈ tables.jobsLink, link.jobNameNxt = row.jobName
  inside : ∀ link ∈ tables.jobsLink, named link.jobNameNxt → tables.Waits link.jobNameNxt →
    named link.jobNamePrv
  unsucceeded : ∀ name, named name → ¬ tables.Succeeded name

/-- The row is in the table, and does not wait. -/
structure Settled (row : JobRow) (tables : Tables) : Prop where
  key : (tables.job.map JobRow.jobName).Nodup
  member : row ∈ tables.job
  left : row.jobState ≠ some .waiting

/-- The job can become ready: it waits, and it has no predecessors or one that has
succeeded or can become ready. -/
inductive Startable (tables : Tables) : String → Prop where
  | free {name : String} (waits : tables.Waits name)
      (linkless : ∀ link ∈ tables.jobsLink, link.jobNameNxt ≠ name) : Startable tables name
  | completed {link : JobsLinkRow} (member : link ∈ tables.jobsLink)
      (waits : tables.Waits link.jobNameNxt) (predecessor : tables.Succeeded link.jobNamePrv) :
      Startable tables link.jobNameNxt
  | linked {link : JobsLinkRow} (member : link ∈ tables.jobsLink)
      (waits : tables.Waits link.jobNameNxt) (predecessor : Startable tables link.jobNamePrv) :
      Startable tables link.jobNameNxt

theorem Startable.waits {tables : Tables} {name : String} (startable : tables.Startable name) :
    tables.Waits name := by
  cases startable with
  | free waits _ | completed _ waits _ | linked _ waits _ => exact waits

theorem Startable.predecessor {tables : Tables} {name : String}
    (startable : tables.Startable name) :
    (∀ link ∈ tables.jobsLink, link.jobNameNxt ≠ name) ∨
      ∃ link ∈ tables.jobsLink, link.jobNameNxt = name ∧
        (tables.Succeeded link.jobNamePrv ∨ tables.Startable link.jobNamePrv) := by
  cases startable with
  | free _ linkless => exact Or.inl linkless
  | completed member _ succeeded => exact Or.inr ⟨_, member, rfl, Or.inl succeeded⟩
  | linked member _ startable => exact Or.inr ⟨_, member, rfl, Or.inr startable⟩

/-- The jobs that neither have succeeded nor can become ready block each other. -/
theorem blocked_of_not_startable (tables : Tables) :
    Blocked (fun name => ¬ tables.Succeeded name ∧ ¬ tables.Startable name) tables where
  linked row member named waiting := by
    by_contra linkless
    exact named.2 (.free ⟨row, member, rfl, waiting⟩ fun link linkMember leads =>
      linkless ⟨link, linkMember, leads⟩)
  inside link member named waits := by
    exact ⟨fun succeeded => named.2 (.completed member waits succeeded),
      fun startable => named.2 (.linked member waits startable)⟩
  unsucceeded name named := named.1

section Updates

variable {tables : Tables} {name other : String} {update : JobRow → JobRow}

theorem waits_updateJob_of_ne (named : ∀ row, (update row).jobName = row.jobName)
    (different : other ≠ name) :
    (tables.updateJob name update).Waits other ↔ tables.Waits other := by
  constructor
  · rintro ⟨row, member, rfl, state⟩
    exact ⟨row, (mem_updateJob_of_ne named different).mp member, rfl, state⟩
  · rintro ⟨row, member, rfl, state⟩
    exact ⟨row, (mem_updateJob_of_ne named different).mpr member, rfl, state⟩

theorem succeeded_updateJob_of_ne (named : ∀ row, (update row).jobName = row.jobName)
    (different : other ≠ name) :
    (tables.updateJob name update).Succeeded other ↔ tables.Succeeded other := by
  constructor
  · rintro ⟨row, member, rfl, state⟩
    exact ⟨row, (mem_updateJob_of_ne named different).mp member, rfl, state⟩
  · rintro ⟨row, member, rfl, state⟩
    exact ⟨row, (mem_updateJob_of_ne named different).mpr member, rfl, state⟩

end Updates

theorem shields_blocked (named : String → Prop) : Shields (Blocked named) named where
  offered tables now blocked row ready isNamed waiting := by
    obtain ⟨member, _, _⟩ := mem_getReadyJob.mp ready
    rcases predecessor_of_ready ready with free | ⟨link, linkMember, leads, succeeded⟩
    · obtain ⟨link, linkMember, leads⟩ := blocked.linked row member isNamed waiting
      exact free link linkMember leads
    · refine blocked.unsucceeded _ (blocked.inside link linkMember ?_ ?_) succeeded
      · rwa [leads]
      · rw [leads]
        exact ⟨row, member, rfl, waiting⟩
  updated tables name update blocked other keepsName := by
    have apart : ∀ member, named member → member ≠ name := by
      rintro member isNamed rfl
      exact other isNamed
    constructor
    · intro row member isNamed waiting
      have old := (mem_updateJob_of_ne keepsName (apart _ isNamed)).mp member
      exact blocked.linked row old isNamed waiting
    · intro link member isNamed waits
      exact blocked.inside link member isNamed
        ((waits_updateJob_of_ne keepsName (apart _ isNamed)).mp waits)
    · intro member isNamed succeeded
      exact blocked.unsucceeded member isNamed
        ((succeeded_updateJob_of_ne keepsName (apart _ isNamed)).mp succeeded)

theorem shields_settled (row : JobRow) :
    Shields (Settled row) fun name => name = row.jobName where
  offered tables now settled other ready sameName := by
    have same : other = row := List.inj_on_of_nodup_map settled.key
      (mem_getReadyJob.mp ready).1 settled.member sameName
    rw [same]
    exact settled.left
  updated tables name update settled other keepsName :=
    { key := by
        rw [map_updateJob (f := JobRow.jobName) keepsName]
        exact settled.key
      member := (mem_updateJob_of_ne keepsName fun same => other same.symm).mpr settled.member
      left := settled.left }

end Store.Tables

namespace Master

variable (domain : Domain) (settings : Settings)

/-- Whatever else happens between the steps of the loop and of its threads keeps the
property of the planning. -/
def KeptOutside (planning : String) (property : Tables → Prop) (_ : Master) : Event → Prop
  | .outside world => world.server.Present planning ∧ property (world.server.tables planning)
  | _ => True

/-- The property holds of the planning, and the process has none of the named jobs to
execute. -/
structure Shielded (planning : String) (property : Tables → Prop) (named : String → Prop)
    (master : Master) : Prop where
  present : master.world.server.Present planning
  holds : property (master.world.server.tables planning)
  unlaunched : ∀ job ∈ master.jobs, job.domain = planning → named job.name →
    isLaunched settings job = false
  unstarted : ∀ thread ∈ master.threads, thread.job.domain = planning → ¬ named thread.job.name
  unexecuted : ∀ job ∈ master.executions, job.domain = planning → ¬ named job.name

section Steps

variable {domain settings} {planning : String} {property : Tables → Prop}
  {named : String → Prop} {before after : Master} {event : Event}

theorem Shielded.loop (shielded : Shielded settings planning property named before)
    {world : World} (present : world.server.Present planning)
    (holds : property (world.server.tables planning)) (point : LoopPoint) :
    Shielded settings planning property named { before with world, point } :=
  { shielded with present, holds }

theorem Shielded.same (shielded : Shielded settings planning property named before)
    {world : World} (same : world.server = before.world.server) (point : LoopPoint) :
    Shielded settings planning property named { before with world, point } := by
  refine shielded.loop ?_ ?_ point
  · rw [same]
    exact shielded.present
  · rw [same]
    exact shielded.holds

theorem Shielded.move (shielded : Shielded settings planning property named before)
    {index : Nat} {job : TJob} {phase : Phase} (next : Phase) {world : World}
    {executions : List TJob} (found : before.threads[index]? = some ⟨job, phase⟩)
    (present : world.server.Present planning) (holds : property (world.server.tables planning))
    (executed : ∀ other ∈ executions, other ∈ before.executions ∨ other = job) :
    Shielded settings planning property named { before with
      world, executions, threads := before.threads.set index ⟨job, next⟩ } := by
  have apart := shielded.unstarted _ (List.mem_of_getElem? found)
  refine ⟨present, holds, shielded.unlaunched, ?_, ?_⟩
  · intro thread member
    rcases List.mem_or_eq_of_mem_set member with member | rfl
    · exact shielded.unstarted thread member
    · exact apart
  · intro other member
    rcases executed other member with member | rfl
    · exact shielded.unexecuted other member
    · exact apart

theorem present_of_agreesBeside {before after : Server} {name other : String}
    (agrees : before.AgreesBeside name after) (there : (after.schema? name).isSome)
    (present : before.Present other) : after.Present other := by
  by_cases same : other = name
  · rw [same]
    exact there
  · rw [Server.Present, agrees other same]
    exact present

/-- A thread updates a job that is not one of the named. -/
theorem Shielded.update (shielded : Shielded settings planning property named before)
    (shields : Tables.Shields property named) {index : Nat} {job : TJob} {phase : Phase}
    (next : Phase) {world : World} (found : before.threads[index]? = some ⟨job, phase⟩)
    {update : JobRow → JobRow} (updates : Updates job update before.world world)
    (keepsName : ∀ row, (update row).jobName = row.jobName) :
    Shielded settings planning property named
      { before.moveThread index job next with world } := by
  obtain ⟨⟨schema, tables, old, changed, new⟩, beside⟩ := updates
  have present : world.server.Present planning :=
    present_of_agreesBeside beside (by rw [new]; rfl) shielded.present
  refine shielded.move next found present ?_ fun _ => Or.inl
  by_cases same : planning = job.domain
  · have other : ¬ named job.name :=
      shielded.unstarted _ (List.mem_of_getElem? found) same.symm
    have holds := shielded.holds
    cases changed
    rw [same, Server.tables_of_schema? old] at holds
    rw [same, Server.tables_of_schema? new]
    exact shields.updated _ _ _ holds other keepsName
  · rw [beside.tables same]
    exact shielded.holds

theorem shielded_of_step (shields : Tables.Shields property named)
    (shielded : Shielded settings planning property named before)
    (stepped : Step domain settings before event after)
    (kept : KeptOutside planning property before event) :
    Shielded settings planning property named after := by
  have moves := moves_of_step stepped
  cases moves with
  | @polled world point jobs top readOnly busy pushed =>
      have same := shielded.same readOnly.server point
      refine { same with unlaunched := fun job member sameDomain isNamed => ?_ }
      rcases pushed with rfl | ⟨_, rfl⟩
      · exact shielded.unlaunched job member sameDomain isNamed
      · obtain ⟨row, ready, acceptable, rfl⟩ := mem_offeredJobs member
        have holds := shielded.holds
        rw [← sameDomain] at holds
        have left := shields.offered _ _ holds row ready isNamed
        have state : (basicJob (planningName domain before.world.planningStartTime) row).state ≠
            .waiting := fun waiting => left (waiting_of_basicJob acceptable waiting)
        simp [isLaunched, state]
  | switched busy extend clock start =>
      refine shielded.loop (extend.stays _ shielded.present) ?_ _
      rw [extend.same _ shielded.present]
      exact shielded.holds
  | @launched launched sublist =>
      refine { shielded with
        unlaunched := fun job member => absurd member List.not_mem_nil, unstarted := ?_ }
      intro thread member sameDomain isNamed
      rcases List.mem_append.mp member with member | member
      · exact shielded.unstarted thread member sameDomain isNamed
      · obtain ⟨job, jobMember, rfl⟩ := List.mem_map.mp member
        obtain ⟨pushed, starts⟩ := List.mem_filter.mp (sublist.subset jobMember)
        rw [shielded.unlaunched job pushed sameDomain isNamed] at starts
        cases starts
  | started found times updates => exact shielded.update shields _ found updates fun _ => rfl
  | refused found times same | unreported found times same =>
      exact (shielded.move _ found shielded.present shielded.holds fun _ => Or.inl).same same _
  | aborted found times same => exact shielded.same same _
  | opened found =>
      refine shielded.move _ found shielded.present shielded.holds fun other member => ?_
      exact (List.mem_append.mp member).imp_right List.mem_singleton.mp
  | notOpened found | closed found =>
      exact shielded.move _ found shielded.present shielded.holds fun _ => Or.inl
  | reported found times updates => exact shielded.update shields _ found updates fun _ => rfl
  | ticked seconds =>
      refine shielded.loop ?_ ?_ _
      · exact shielded.present
      · exact shielded.holds
  | interfered world =>
      refine shielded.loop ?_ ?_ _
      · exact kept.1
      · exact kept.2

theorem shielded_of_run (shields : Tables.Shields property named) {world : World} {last : Master}
    {events : List Event} (present : world.server.Present planning)
    (holds : property (world.server.tables planning))
    (run : Run (Guarded (Step domain settings) (KeptOutside planning property)) { world } events
      last) : Shielded settings planning property named last := by
  have initial : Shielded settings planning property named { world } := by
    refine ⟨present, holds, ?_, ?_, ?_⟩
    · exact fun job member => absurd member List.not_mem_nil
    · exact fun thread member => absurd member List.not_mem_nil
    · exact fun job member => absurd member List.not_mem_nil
  exact run.keeps (fun _ _ _ shielded stepped =>
    shielded_of_step shields shielded stepped.1 stepped.2) initial

theorem executionsOf_eq_zero (shielded : Shielded settings planning property named before)
    {name : String} (isNamed : named name) : before.executionsOf planning name = 0 := by
  refine List.countP_eq_zero.mpr fun job member same => ?_
  simp only [isJob, Bool.and_eq_true, decide_eq_true_eq] at same
  exact shielded.unexecuted job member same.1 (same.2 ▸ isNamed)

end Steps

/-! ## Runs -/

/-- Jobs that block each other when a process starts are never executed by it, and they
block each other for ever, as long as all texts are plain and nobody else intervenes. -/
theorem blocked_never_executed {world : World} {planning : String} {named : String → Prop}
    {last : Master} {events : List Event} (present : world.server.Present planning)
    (blocked : (world.server.tables planning).Blocked named)
    (run : Run (Guarded (PlainStep domain settings)
      (KeptOutside planning (Tables.Blocked named))) { world } events last) :
    (last.world.server.tables planning).Blocked named ∧
      ∀ name, named name → last.executionsOf planning name = 0 := by
  have shielded := shielded_of_run (Tables.shields_blocked named) present blocked
    (run_of_plainGuarded run)
  exact ⟨shielded.holds, fun name isNamed => executionsOf_eq_zero shielded isNamed⟩

/-- A job that does not wait when a process starts, because it is running, has succeeded
or has failed, is not executed by this process, and its row stays as it is, as long as all
texts are plain and nobody else changes the row. -/
theorem settled_never_executed {world : World} {planning : String} {row : JobRow}
    {last : Master} {events : List Event} (present : world.server.Present planning)
    (settled : (world.server.tables planning).Settled row)
    (run : Run (Guarded (PlainStep domain settings)
      (KeptOutside planning (Tables.Settled row))) { world } events last) :
    row ∈ (last.world.server.tables planning).job ∧
      last.executionsOf planning row.jobName = 0 := by
  have shielded := shielded_of_run (Tables.shields_settled row) present settled
    (run_of_plainGuarded run)
  exact ⟨shielded.holds.member, executionsOf_eq_zero shielded rfl⟩

/-! ## A job that has failed -/

def failedExtract : JobRow where
  jobName := "extract"
  jobCmdLine := "tar"
  jobNodeName := "localhost"
  jobState := some .failed

/-- `extract` has failed, and `load` waits for it; `archive` waits for nothing. -/
def failedPair : Schema :=
  { emptySkeleton with
    tables := {
      node := [{ nodeName := "localhost", nodeWeight := 1 }]
      job := [failedExtract, { failedExtract with jobName := "load", jobState := some .waiting },
        archiveRow]
      jobsLink := [⟨"extract", "load"⟩] } }

def failedPairWorld : World where
  server := Server.setSchema ⟨∅⟩ (planningName dailyDomain 0) failedPair
  clock := 100

theorem schema_failedPairWorld :
    failedPairWorld.server.schema? (planningName dailyDomain 0) = some failedPair :=
  Server.schema?_setSchema_self _ _ _

theorem tables_failedPairWorld :
    failedPairWorld.server.tables (planningName dailyDomain 0) = failedPair.tables :=
  Server.tables_of_schema? schema_failedPairWorld

theorem present_failedPairWorld :
    failedPairWorld.server.Present (planningName dailyDomain 0) :=
  Option.isSome_iff_exists.mpr ⟨failedPair, schema_failedPairWorld⟩

/-- The loop polls the three jobs, and the archive is executed. -/
def archiveBeside : List Event :=
  [.poll, .switch, .launch, .start 0, .popen 0 true, .pclose 0 0, .finish 0, .tick 60, .poll]

theorem archive_executed_beside :
    ∃ last, Run (PlainStep dailyDomain thisNode) { world := failedPairWorld } archiveBeside last ∧
      last.executionsOf (planningName dailyDomain 0) "archive" = 1 := by
  have counted : (performAll (performPlain dailyDomain thisNode) { world := failedPairWorld }
      archiveBeside).map (fun last => last.executionsOf (planningName dailyDomain 0) "archive") =
        some 1 := by
    decide +kernel
  obtain ⟨last, performed, once⟩ := Option.map_eq_some_iff.mp counted
  exact ⟨last, run_of_performAll performed, once⟩

theorem archiveBeside_keptOutside (property : Tables → Prop) :
    ∀ event ∈ archiveBeside, ∀ master,
      KeptOutside (planningName dailyDomain 0) property master event := by
  intro event member master
  cases event with
  | outside world => simp [archiveBeside] at member
  | _ => trivial

theorem load_not_startable : ¬ failedPair.tables.Startable "load" := by
  intro startable
  rcases startable.predecessor with free | ⟨link, member, _, succeeded | extract⟩
  · exact free ⟨"extract", "load"⟩ List.mem_cons_self rfl
  · cases List.mem_singleton.mp member
    exact absurd succeeded (by decide)
  · cases List.mem_singleton.mp member
    exact absurd extract.waits (by decide)

/-- `load` is not executed. -/
theorem blocked_never_executed_load :
    ∃ last, Run (PlainStep dailyDomain thisNode) { world := failedPairWorld } archiveBeside last ∧
      last.executionsOf (planningName dailyDomain 0) "archive" = 1 ∧
      last.executionsOf (planningName dailyDomain 0) "load" = 0 := by
  obtain ⟨last, run, archived⟩ := archive_executed_beside
  have blocked := Tables.blocked_of_not_startable failedPair.tables
  rw [← tables_failedPairWorld] at blocked
  have held := blocked_never_executed dailyDomain thisNode present_failedPairWorld blocked
    (run.guarded (archiveBeside_keptOutside _))
  refine ⟨last, run, archived, held.2 "load" ?_⟩
  rw [tables_failedPairWorld]
  exact ⟨by decide, load_not_startable⟩

/-- `extract` is not executed again. -/
theorem settled_never_executed_extract :
    ∃ last, Run (PlainStep dailyDomain thisNode) { world := failedPairWorld } archiveBeside last ∧
      failedExtract ∈ (last.world.server.tables (planningName dailyDomain 0)).job ∧
      last.executionsOf (planningName dailyDomain 0) "extract" = 0 := by
  obtain ⟨last, run, _⟩ := archive_executed_beside
  have settled : failedPair.tables.Settled failedExtract :=
    ⟨by decide, by decide, by decide⟩
  rw [← tables_failedPairWorld] at settled
  exact ⟨last, run, settled_never_executed dailyDomain thisNode
    present_failedPairWorld settled
    (run.guarded (archiveBeside_keptOutside _))⟩

end Master

end OpenWorkloadScheduler
