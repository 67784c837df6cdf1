import OpenWorkloadScheduler.Scheduler.Cluster

/-!
# The keys of all databases

Whatever the loops, the threads and the callers do, and wherever MySQL fails, no database
of the system ever breaks a key.
-/

namespace OpenWorkloadScheduler

open Rpc Store Foundations Domain

/-! ## One step of a process -/

/-- A poll of the client reads the database, and appends the current offer or nothing. -/
theorem Client.poll_cases {domain : Domain} {settings : Settings} {before after : Master}
    (polled : poll domain settings before = some after) :
    ∃ world point jobs, ReadOnly before.world world ∧
      (jobs = [] ∨ jobs = currentOffer domain (some settings.nodeName) before.world) ∧
      after = { before with world, point, jobs := before.jobs ++ jobs } := by
  have reads := within_getReadyJobs domain (some settings.nodeName) before.world
  rw [poll] at polled
  split at polled
  · split at polled
    · rename_i jobs world ran
      cases polled
      rw [ran] at reads
      exact ⟨world, _, jobs, reads, Or.inr (offer_of_getReadyJobs domain ran), rfl⟩
    · rename_i jobs raised world ran
      cases polled
      rw [ran] at reads
      exact ⟨world, _, jobs, reads, Or.inr (offer_of_getReadyJobs domain ran), rfl⟩
    · rename_i raised world ran
      cases polled
      rw [ran] at reads
      exact ⟨world, .exited, [], reads, Or.inl rfl, by simp⟩
  · cases polled

/-- A step of a process leaves the database alone, or it is one of the master, who alone
switches the planning. -/
theorem Program.perform_cases {program : Program} {domain : Domain} {settings : Settings}
    {before after : Master} {event : Master.Event}
    (performed : program.perform domain settings before event = some after) :
    after.world.server = before.world.server ∨
      Master.Step domain settings before event after ∧
        (event = .switch → program = .master) := by
  cases program with
  | master => exact Or.inr ⟨performed, fun _ => rfl⟩
  | client =>
      simp only [perform] at performed
      cases event with
      | poll =>
          simp only [Client.perform] at performed
          split at performed
          · cases performed
          · obtain ⟨world, point, jobs, reads, _, same⟩ := Client.poll_cases performed
            rw [same]
            exact Or.inl reads.server
      | launch =>
          left
          simp only [Client.perform, Client.launch] at performed
          split at performed
          · split at performed <;> cases performed
            rfl
          · cases performed
      | switch => cases performed
      | _ => exact Or.inr ⟨performed, fun impossible => by cases impossible⟩

namespace Master

variable {domain : Domain} {settings : Settings} {before after : Master} {event : Event}

theorem world_of_switch (stepped : Step domain settings before .switch after) :
    after.world = before.world ∨
      after.world = finalState (switchPlanning domain before.world) := by
  unfold Step perform at stepped
  split at stepped
  · cases stepped
  · obtain ⟨world, point, same, _, left⟩ := switch_cases domain stepped
    rw [same]
    exact left

/-- A step of the process leaves the database alone, switches the planning, or sets the
state of the rows of a job and nothing that they have been inserted with. -/
theorem related_of_step {relation : World → World → Prop}
    (same : ∀ world : World, world.server = before.world.server → relation before.world world)
    (switches : relation before.world (finalState (switchPlanning domain before.world)))
    (updates : ∀ {job : TJob} {update : JobRow → JobRow} {world : World},
      Updates job update before.world world → (∀ row, (update row).basis = row.basis) →
        (∀ row, (update row).jobState ≠ none) → relation before.world world)
    (stepped : Step domain settings before event after) (isOwn : event.isOwn = true) :
    relation before.world after.world := by
  have moves := moves_of_step stepped
  cases moves with
  | polled top readOnly busy pushed => exact same _ readOnly.server
  | switched busy extend clock start =>
      cases world_of_switch stepped with
      | inl stays => exact same _ (congrArg World.server stays)
      | inr left =>
          rw [left]
          exact switches
  | started found times changes | reported found times changes =>
      exact updates changes (fun _ => rfl) fun _ => Option.some_ne_none _
  | refused found times unchanged | aborted found times unchanged
  | unreported found times unchanged => exact same _ unchanged
  | launched sublist => exact same _ rfl
  | opened found | notOpened found | closed found => exact same _ rfl
  | ticked seconds => exact same _ rfl
  | interfered world => cases isOwn

theorem keepsKeys_of_updates {job : TJob} {update : JobRow → JobRow} {before after : World}
    (updates : Updates job update before after)
    (kept : ∀ row, (update row).basis = row.basis) : KeepsKeys before after := by
  obtain ⟨⟨schema, tables, old, changed, new⟩, beside⟩ := updates
  cases changed
  intro planning
  by_cases same : planning = job.domain
  · rw [same, Server.tables_of_schema? old, Server.tables_of_schema? new]
    have field : ∀ {Value : Type} (of : JobRow → Value) (row : JobRow),
        of (update row).basis = of row.basis := fun of row => congrArg of (kept row)
    exact fun keys => Tables.keys_updateJob keys (field JobRow.jobName)
      (field JobRow.jobNodeName) (field JobRow.jobRectypeId)
  · rw [beside.tables same]
    exact refl _

theorem keepsKeys_of_same {before after : World} (same : after.server = before.server) :
    KeepsKeys before after := by
  rw [KeepsKeys, same]
  exact refl before.server

/-- No step of a process breaks a key. -/
theorem keepsKeys_of_step (stepped : Step domain settings before event after)
    (isOwn : event.isOwn = true) : KeepsKeys before.world after.world := by
  apply related_of_step _ _ _ stepped isOwn
  · exact fun _ => keepsKeys_of_same
  · exact keepsKeys_switchPlanning domain before.world
  · exact fun updates kept _ => keepsKeys_of_updates updates kept

end Master

theorem Program.keepsKeys_of_perform {program : Program} {domain : Domain} {settings : Settings}
    {before after : Master} {event : Master.Event} (isOwn : event.isOwn = true)
    (performed : program.perform domain settings before event = some after) :
    KeepsKeys before.world after.world := by
  cases perform_cases performed with
  | inl same => exact Master.keepsKeys_of_same same
  | inr stepped => exact Master.keepsKeys_of_step stepped.1 isOwn

/-! ## One step of the system -/

namespace Cluster

variable {deployment : Deployment}

theorem keepsKeys_of_executes {nodes : Nodes} {host : String} {call : ServiceCall}
    {execution : World → Except Raised ServiceAnswer × World}
    (executes : Executes nodes host call execution) (world : World) :
    KeepsKeys world (execution world).2 := by
  cases executes with
  | @operation node request operation _ configured decided left =>
      rw [left]
      exact operation.keepsKeys_run node.domain world
  | selection configured reads => exact Master.keepsKeys_of_same (reads world).server

theorem keepsKeys_of_happens {host : String} {before after : Master}
    (happens : Happens deployment host before after) : KeepsKeys before.world after.world := by
  cases happens with
  | nothing => exact refl before.world
  | own configured named isOwn performed =>
      exact Program.keepsKeys_of_perform isOwn performed
  | served executes alive => exact keepsKeys_of_executes executes before.world

/-! ## Runs -/

theorem keepsKeys_of_run {before after : Cluster} {events : List ClusterEvent}
    (run : Run (Step deployment) before events after) (host : String) :
    KeepsKeys (before.on host).world (after.on host).world := by
  induction run with
  | stay cluster => exact refl _
  | next stepped _ inductionHypothesis =>
      exact IsTrans.trans _ _ _ (keepsKeys_of_happens (happens_of_step stepped host))
        inductionHypothesis

end Cluster

end OpenWorkloadScheduler
