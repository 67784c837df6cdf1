import OpenWorkloadScheduler.Domain.JobRoundTrip
import OpenWorkloadScheduler.Domain.Removal
import OpenWorkloadScheduler.Foundations.Acyclicity
import OpenWorkloadScheduler.Store.Readiness

/-!
# Cycles of links

The links of a new job may lead to it and away from it, and no key of the skeleton
tells a cycle.  Since a job cannot be removed as long as it has links, only the
insertion of a job closes one: the results below say which insertions do.
-/

namespace OpenWorkloadScheduler.Domain

open Rpc Store Foundations

variable (domain : Domain)

/-! ## Calls and their runs -/

/-- The calls that insert and remove jobs. -/
inductive JobCall where
  | addJob (domainName : String) (job : TJob)
  | removeJob (domainName jobName : String)

def JobCall.run : JobCall → Action Bool
  | addJob domainName job => Domain.addJob domain domainName job
  | removeJob domainName jobName => removeNamedJob domainName jobName

/-- A call leads from one state of the server to the next one, whatever MySQL answers and
whoever holds the mutex. -/
def JobCall.Step (before : Server) (call : JobCall) (after : Server) : Prop :=
  ∃ world : World, world.server = before ∧ after = (finalState (call.run domain world)).server

theorem JobCall.step_cases {before after : Server} {call : JobCall}
    (step : JobCall.Step domain before call after) (name : String) :
    after.tables name = before.tables name ∨
      (∃ job, call = .addJob name job ∧ Insertable (before.tables name) job ∧
        after.tables name = withJob (before.tables name) job) ∨
      ∃ jobName, ¬ (before.tables name).jobReferenced jobName ∧
        after.tables name = { before.tables name with
          job := (before.tables name).job.filter fun row => row.jobName ≠ jobName } := by
  obtain ⟨world, rfl, rfl⟩ := step
  cases call with
  | addJob domainName job =>
      rw [JobCall.run]
      rcases addJob_cases domain domainName job world with ⟨after, ran, _, changes⟩ | ⟨_, same⟩
      · rw [ran, finalState_ok]
        by_cases here : name = domainName
        · subst here
          obtain ⟨schema, tables, found, changed, stored⟩ := changes.rows
          rw [Server.tables_of_schema? found, Server.tables_of_schema? stored]
          obtain ⟨insertable, rfl⟩ := rowsAfter_addJob_eq_ok_iff.mp changed
          exact Or.inr (Or.inl ⟨job, rfl, insertable, rfl⟩)
        · exact Or.inl (changes.beside.tables here)
      · rw [same]
        exact Or.inl rfl
  | removeJob domainName jobName =>
      rw [JobCall.run]
      rcases removeNamedJob_cases domainName jobName world with ⟨after, ran, _⟩ | ⟨_, same⟩
      · rw [ran, finalState_ok]
        obtain ⟨schema, found, _, free, stored, beside⟩ := removed_of_removeNamedJob ran
        by_cases here : name = domainName
        · subst here
          rw [Server.tables_of_schema? found, Server.tables_of_schema? stored]
          exact Or.inr (Or.inr ⟨jobName, free, rfl⟩)
        · exact Or.inl (beside.tables here)
      · rw [same]
        exact Or.inl rfl

/-! ## The links of a schema -/

/-- The links lead from jobs to jobs. -/
def LinksJobs (tables : Tables) : Prop :=
  ∀ prv nxt, tables.Links prv nxt → tables.hasJob prv ∧ tables.hasJob nxt

theorem linksJobs_of_keys {tables : Tables} (keys : tables.Keys) : LinksJobs tables :=
  fun prv nxt link => ⟨keys.jobsLinkPrv ⟨prv, nxt⟩ link, keys.jobsLinkNxt ⟨prv, nxt⟩ link⟩

theorem acyclic_of_no_job {tables : Tables} (links : LinksJobs tables) (none : tables.job = []) :
    Acyclic tables.Links := by
  refine acyclic_of_empty fun prv nxt link => ?_
  have there := (links prv nxt link).1
  rw [Tables.hasJob, none] at there
  exact List.not_mem_nil there

theorem links_withJob (tables : Tables) (job : TJob) :
    (withJob tables job).Links =
      withVertex tables.Links job.name (· ∈ job.prv) (· ∈ job.nxt) := by
  funext prv nxt
  rw [Tables.Links, withVertex, withJob, linksOfJob]
  simp only [List.mem_append, List.mem_map, JobsLinkRow.mk.injEq, eq_iff_iff]
  refine or_congr Iff.rfl (or_congr ⟨?_, ?_⟩ ⟨?_, ?_⟩)
  · rintro ⟨_, member, rfl, rfl⟩
    exact ⟨rfl, member⟩
  · rintro ⟨rfl, member⟩
    exact ⟨prv, member, rfl, rfl⟩
  · rintro ⟨_, member, rfl, rfl⟩
    exact ⟨rfl, member⟩
  · rintro ⟨rfl, member⟩
    exact ⟨nxt, member, rfl, rfl⟩

/-- The links of the job close a cycle: it is its own predecessor or successor, or the links
lead from one of its successors to one of its predecessors. -/
def ClosesLinkCycle (tables : Tables) (job : TJob) : Prop :=
  ClosesCycle tables.Links job.name (· ∈ job.prv) (· ∈ job.nxt)

/-- With a new job the links are acyclic if and only if they were and its own links close no
cycle. -/
theorem acyclic_withJob_iff {tables : Tables} {job : TJob} (links : LinksJobs tables)
    (new : ¬ tables.hasJob job.name) :
    Acyclic (withJob tables job).Links ↔
      Acyclic tables.Links ∧ ¬ ClosesLinkCycle tables job := by
  rw [links_withJob]
  exact acyclic_withVertex_iff (fun other link => new (links other job.name link).2)
    (fun other link => new (links job.name other link).1)

/-- A job without predecessors that is not its own successor closes no cycle. -/
theorem not_closesLinkCycle_of_first {tables : Tables} {job : TJob} (first : job.prv = [])
    (other : job.name ∉ job.nxt) : ¬ ClosesLinkCycle tables job := by
  rw [ClosesLinkCycle, ClosesCycle, first]
  rintro (source | target | ⟨_, _, source, member, _⟩)
  · exact List.not_mem_nil source
  · exact other target
  · exact List.not_mem_nil member

theorem linksJobs_withJob {tables : Tables} {job : TJob} (links : LinksJobs tables)
    (insertable : Insertable tables job) : LinksJobs (withJob tables job) := by
  have named : ∀ name, (withJob tables job).hasJob name ↔
      tables.hasJob name ∨ name = job.name := by
    intro name
    rw [withJob, Tables.hasJob, List.map_append, List.mem_append]
    exact or_congr Iff.rfl List.mem_singleton
  intro prv nxt link
  rw [named, named]
  rcases List.mem_append.mp link with old | new
  · exact ⟨Or.inl (links prv nxt old).1, Or.inl (links prv nxt old).2⟩
  · exact insertable.linked ⟨prv, nxt⟩ new

theorem linksJobs_without {tables : Tables} {jobName : String} (links : LinksJobs tables)
    (free : ¬ tables.jobReferenced jobName) :
    LinksJobs { tables with job := tables.job.filter fun row => row.jobName ≠ jobName } := by
  intro prv nxt link
  have ends := links prv nxt link
  refine ⟨hasJob_filter_job ?_ ends.1, hasJob_filter_job ?_ ends.2⟩
  · rintro rfl
    exact free (Or.inr ⟨⟨prv, nxt⟩, link, Or.inl rfl⟩)
  · rintro rfl
    exact free (Or.inr ⟨⟨prv, nxt⟩, link, Or.inr rfl⟩)

/-! ## Runs -/

/-- What the calls keep in a schema, as long as none closes a cycle. -/
structure Ordered (tables : Tables) : Prop where
  links : LinksJobs tables
  acyclic : Acyclic tables.Links

/-- A call inserts a job into the schema whose links close a cycle there. -/
def JobCall.Closes (name : String) (server : Server) : JobCall → Prop
  | addJob domainName job => domainName = name ∧ ClosesLinkCycle (server.tables name) job
  | removeJob _ _ => False

/-- The server reads the texts of a call for the schema as they are meant, tells its names from
those in the tables, and has room for what it adds. -/
def JobCall.PlainIn (name : String) (server : Server) : JobCall → Prop
  | addJob domainName job => domainName = name →
      Plain (job.names ++ (server.tables name).names) ∧ isClean job.cmdLine.toList = true ∧
        job.Fits
  | removeJob domainName jobName => domainName = name →
      Plain (jobName :: (server.tables name).names)

theorem ordered_step {name : String} {before after : Server} {call : JobCall}
    (ordered : Ordered (before.tables name)) (step : JobCall.Step domain before call after)
    (closesNone : ¬ call.Closes name before) : Ordered (after.tables name) := by
  rcases JobCall.step_cases domain step name with
    same | ⟨job, rfl, insertable, added⟩ | ⟨jobName, free, removed⟩
  · rw [same]
    exact ordered
  · rw [added]
    refine ⟨linksJobs_withJob ordered.links insertable, ?_⟩
    exact (acyclic_withJob_iff ordered.links insertable.name).mpr
      ⟨ordered.acyclic, fun closes => closesNone ⟨rfl, closes⟩⟩
  · rw [removed]
    exact ⟨linksJobs_without ordered.links free, ordered.acyclic⟩

/-- The other way round, a call that closes a cycle and is executed leaves one. -/
theorem not_acyclic_of_closes {name : String} {job : TJob} {before after : World}
    (links : LinksJobs (before.server.tables name))
    (closes : ClosesLinkCycle (before.server.tables name) job)
    (added : addJob domain name job before = .ok true after) :
    ¬ Acyclic (after.server.tables name).Links := by
  obtain ⟨_, changes⟩ := changes_of_addJob domain added
  obtain ⟨schema, tables, found, changed, stored⟩ := changes.rows
  rw [Server.tables_of_schema? found] at links closes
  rw [Server.tables_of_schema? stored]
  obtain ⟨insertable, rfl⟩ := rowsAfter_addJob_eq_ok_iff.mp changed
  rw [acyclic_withJob_iff links insertable.name]
  exact fun both => both.2 closes

/-- In every run of `add_job` and `remove_job` on plain texts from a schema without jobs, the
links stay acyclic as long as no job is to be inserted whose own links close a cycle. -/
theorem links_acyclic_of_no_cycle_closed {name : String} {before after : Server}
    {calls : List JobCall} (keys : (before.tables name).Keys)
    (none : (before.tables name).job = [])
    (run : Run (Guarded (JobCall.Step domain) fun server call =>
      call.PlainIn name server ∧ ¬ call.Closes name server) before calls after) :
    Acyclic (after.tables name).Links := by
  have links := linksJobs_of_keys keys
  let invariant : Server → Prop := fun server => Ordered (server.tables name)
  have kept : ∀ before call after, invariant before →
      Guarded (JobCall.Step domain) (fun server call =>
        call.PlainIn name server ∧ ¬ call.Closes name server) before call after →
          invariant after :=
    fun _ _ _ ordered step => ordered_step domain ordered step.1 step.2.2
  have initial : invariant before := ⟨links, acyclic_of_no_job links none⟩
  exact (run.keeps kept initial).acyclic

/-! ## A job that waits for itself -/

theorem tables_stagedWorld (tables : Tables) :
    (stagedWorld tables).server.tables "test_domain" = tables :=
  Server.tables_of_schema? (Server.schema?_setSchema_self _ _ _)

theorem keys_oneNode : oneNode.tables.Keys := by
  constructor <;> decide

/-- A job that has to wait for itself. -/
def selfJob : TJob where
  name := "load"
  nodeName := "localhost"
  domain := "test_domain"
  cmdLine := "/bin/load"
  weight := 1
  prv := ["load"]

/-- The same job, which waits for nothing. -/
def loadJob : TJob :=
  { selfJob with prv := [] }

theorem step_stagedWorld {tables : Tables} {job : TJob} (staged : job.domain = "test_domain")
    (one : nodesOf job tables = 1) (within : WithinDuration dailyDomain job)
    (insertable : Insertable tables job) :
    JobCall.Step dailyDomain (stagedWorld tables).server (.addJob "test_domain" job)
      (stagedWorld (withJob tables job)).server := by
  refine ⟨stagedWorld tables, rfl, ?_⟩
  rw [JobCall.run, addJob_stagedWorld staged one within insertable, finalState_ok]

theorem insertable_selfJob : Insertable oneNode.tables selfJob := by
  have links : linksOfJob selfJob = [⟨"load", "load"⟩] := rfl
  refine ⟨by decide, by decide, ?_, ?_, ?_, .nil, fun _ none => absurd none List.not_mem_nil⟩
  · rw [links]
    exact List.nodup_singleton _
  · exact fun _ _ => List.not_mem_nil
  · rw [links]
    intro row member
    cases List.mem_singleton.mp member
    exact ⟨Or.inr rfl, Or.inr rfl⟩

theorem insertable_loadJob : Insertable oneNode.tables loadJob :=
  ⟨by decide, by decide, List.nodup_nil, fun _ none => absurd none List.not_mem_nil,
    fun _ none => absurd none List.not_mem_nil, .nil,
    fun _ none => absurd none List.not_mem_nil⟩

/-- The links stay acyclic when `load` and then `archive` are added. -/
theorem links_acyclic_archiveJob :
    Acyclic ((stagedWorld (withJob stagedTables (archiveJob 18000))).server.tables
      "test_domain").Links := by
  have first := step_stagedWorld rfl rfl (fun _ none => absurd none List.not_mem_nil)
    insertable_loadJob
  have within : WithinDuration dailyDomain (archiveJob 18000) := by
    intro constraint member
    cases List.mem_singleton.mp member
    decide
  have second := step_stagedWorld rfl rfl within (insertable_archiveJob 18000)
  have keys : ((stagedWorld oneNode.tables).server.tables "test_domain").Keys := by
    rw [tables_stagedWorld]
    exact keys_oneNode
  have none : ((stagedWorld oneNode.tables).server.tables "test_domain").job = [] := by
    rw [tables_stagedWorld]
    rfl
  have plainFirst : (JobCall.addJob "test_domain" loadJob).PlainIn "test_domain"
      (stagedWorld oneNode.tables).server :=
    fun _ => ⟨by decide +kernel, by decide, by decide⟩
  have plainSecond : (JobCall.addJob "test_domain" (archiveJob 18000)).PlainIn "test_domain"
      (stagedWorld stagedTables).server :=
    fun _ => ⟨by decide +kernel, by decide, by decide⟩
  have opensFirst : ¬ (JobCall.addJob "test_domain" loadJob).Closes "test_domain"
      (stagedWorld oneNode.tables).server :=
    fun closes => not_closesLinkCycle_of_first rfl (by decide) closes.2
  have opensSecond : ¬ (JobCall.addJob "test_domain" (archiveJob 18000)).Closes "test_domain"
      (stagedWorld stagedTables).server :=
    fun closes => not_closesLinkCycle_of_first rfl (by decide) closes.2
  exact links_acyclic_of_no_cycle_closed dailyDomain keys none
    (.next ⟨first, plainFirst, opensFirst⟩ (.next ⟨second, plainSecond, opensSecond⟩ (.stay _)))

/-- A single call lets a job wait for itself. -/
theorem selfJob_waits_for_itself :
    ¬ ∀ (domain : Domain) (name : String) (before after : Server) (calls : List JobCall),
      (before.tables name).Keys → (before.tables name).job = [] →
        Run (JobCall.Step domain) before calls after → Acyclic (after.tables name).Links := by
  intro always
  have step := step_stagedWorld rfl rfl (fun _ none => absurd none List.not_mem_nil)
    insertable_selfJob
  have acyclic := always dailyDomain "test_domain" _ _ _
    (by rw [tables_stagedWorld]; exact keys_oneNode) (by rw [tables_stagedWorld]; rfl)
    (.next step (.stay _))
  rw [tables_stagedWorld] at acyclic
  have link : (withJob oneNode.tables selfJob).Links "load" "load" := List.mem_singleton.mpr rfl
  exact acyclic "load" (.single link)

end OpenWorkloadScheduler.Domain
