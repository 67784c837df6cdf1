import OpenWorkloadScheduler.Domain.JobChanges
import OpenWorkloadScheduler.Foundations.Grouping
import OpenWorkloadScheduler.Foundations.Replacing

/-!
# A job that is added and read again

`add_job` writes a job into three tables, `get_job` reads it from them.  The links
are written from both of their ends and read from the first one only, and the value
of a constraint goes through `SEC_TO_TIME`, `TIME_TO_SEC` and an `integer`.
-/

namespace OpenWorkloadScheduler.Domain

open Rpc Store Foundations

variable (domain : Domain)

/-! ## What is added -/

theorem schema_of_addJob {name : String} {job : TJob} {schema : Schema} {before after : World}
    (found : before.server.schema? name = some schema)
    (added : addJob domain name job before = .ok true after) :
    Insertable schema.tables job ∧
      after.server.schema? name =
        some { schema with tables := withJob schema.tables job } := by
  obtain ⟨_, changes⟩ := changes_of_addJob domain added
  obtain ⟨tables, changed, afterFound⟩ := changes.of_schema? found
  obtain ⟨insertable, rfl⟩ := rowsAfter_addJob_eq_ok_iff.mp changed
  exact ⟨insertable, afterFound⟩

section Reading

variable {tables : Tables} {job : TJob}

/-- A job without predecessors has links to its successors only. -/
theorem decodedNext_withJob (keys : tables.Keys) (new : ¬ tables.hasJob job.name)
    (first : job.prv = []) :
    decodedNext (withJob tables job) job.name = job.nxt := by
  have links : linksOfJob job = job.nxt.map fun nxt => ⟨job.name, nxt⟩ := by
    rw [linksOfJob, first]
    rfl
  have foreign : ∀ row ∈ tables.jobsLink, row.jobNamePrv ≠ job.name := by
    intro row member same
    apply new
    rw [← same]
    exact keys.jobsLinkPrv row member
  have own : ∀ row ∈ linksOfJob job, row.jobNamePrv = job.name := by
    intro row member
    rw [links] at member
    obtain ⟨nxt, _, rfl⟩ := List.mem_map.mp member
    rfl
  rw [decodedNext, withJob, filter_append_eq foreign own, links, List.map_map]
  exact List.map_id' job.nxt

theorem decodedConstraints_withJob (keys : tables.Keys) (new : ¬ tables.hasJob job.name) :
    decodedConstraints (withJob tables job) job.name =
      (constraintsOfJob job).map decodedConstraint := by
  have foreign : ∀ row ∈ tables.timeConstraint, row.timeCJobName ≠ job.name := by
    intro row member same
    apply new
    rw [← same]
    exact keys.timeConstraintJob row member
  have own : ∀ row ∈ constraintsOfJob job, row.timeCJobName = job.name := by
    intro row member
    obtain ⟨constraint, _, rfl⟩ := List.mem_map.mp member
    rfl
  rw [decodedConstraints, withJob, filter_append_eq foreign own]

theorem filter_job_withJob (new : ¬ tables.hasJob job.name) {runningNode : Option String}
    (located : ∀ nodeName ∈ runningNode, nodeName = job.nodeName) :
    ((withJob tables job).job.filter fun row =>
      row.jobName = job.name && Query.runsOn runningNode row) = [rowOfJob job] := by
  have named : ((withJob tables job).job.filter fun row => row.jobName = job.name) =
      [rowOfJob job] := by
    refine filter_append_eq (fun row member same => new ?_) fun row member => ?_
    · rw [← same]
      exact List.mem_map_of_mem member
    · cases List.mem_singleton.mp member
      rfl
  have runs : Query.runsOn runningNode (rowOfJob job) = true := by
    cases runningNode with
    | none => rfl
    | some nodeName => exact decide_eq_true (located nodeName rfl).symm
  have split : (withJob tables job).job.filter (fun row =>
      row.jobName = job.name && Query.runsOn runningNode row) =
        ((withJob tables job).job.filter fun row => row.jobName = job.name).filter
          (Query.runsOn runningNode) := by
    rw [List.filter_filter]
    exact List.filter_congr fun row _ => Bool.and_comm _ _
  rw [split, named, List.filter_cons_of_pos runs, List.filter_nil]

end Reading

/-- The job that `get_job` makes of a row. -/
def decodedNamedJob (tables : Tables) (row : JobRow) : TJob :=
  { basicJob domain.name row with
    nxt := decodedNext tables row.jobName
    timeConstraints := decodedConstraints tables row.jobName }

theorem getJob_of_readable {world : World} {name : String} {schema : Schema} {row : JobRow}
    (readable : Readable world name schema) {runningNode : Option String} {jobName : String}
    (selected : (schema.tables.job.filter fun other =>
      other.jobName = jobName && Query.runsOn runningNode other) = [row])
    (fits : Fits 32 row.jobWeight) (set : row.jobState ≠ none) :
    getJob domain name runningNode jobName world =
      .ok (decodedNamedJob domain schema.tables row) world := by
  obtain ⟨state, stateSet⟩ := Option.ne_none_iff_exists'.mp set
  have rows : (Query.job jobName runningNode).select schema.tables world.now =
      .ok [Query.jobRow row] := by
    rw [Query.select, selected]
    rfl
  have texts : ([Query.jobRow row].flatMap fun columns => columns.filterMap id) =
      row.jobName :: row.jobCmdLine :: row.jobNodeName :: toString row.jobWeight ::
        buildStringFromJobState state :: (row.jobRectypeId.map toString).toList := by
    rw [Query.jobRow, stateSet]
    cases row.jobRectypeId <;> rfl
  have queried := readable.queryOneRow (.job jobName runningNode) job_mem rows
  rw [texts] at queried
  have weighed := (yields_cast 32 row.jobWeight world).returns fits
  have stated : lift (buildJobStateFromString (buildStringFromJobState state)) world =
      .ok state world := by
    rw [buildJobStateFromString_build]
    rfl
  have decoded : decodedNamedJob domain schema.tables row =
      { basicJob domain.name row with
        state
        nxt := decodedNext schema.tables row.jobName
        timeConstraints := decodedConstraints schema.tables row.jobName } := by
    rw [decodedNamedJob, basicJob, stateSet]
    rfl
  rw [getJob, bind_of_ok queried, decoded]
  apply (bind_of_ok (rfl : lift (column _ 0) world = .ok row.jobName world)).trans
  apply (bind_of_ok (rfl : lift (column _ 2) world = .ok row.jobNodeName world)).trans
  apply (bind_of_ok (rfl : lift (column _ 1) world = .ok row.jobCmdLine world)).trans
  apply (bind_of_ok weighed).trans
  apply (bind_of_ok stated).trans
  apply (bind_of_ok (getJobsNext_of_readable readable row.jobName)).trans
  apply (bind_of_ok (getTimeConstraints_of_readable readable row.jobName)).trans
  rfl

/-! ## What is read -/

/-- What a constraint asks for. -/
def setting (constraint : TTimeConstraint) : ETimeConstraintType × Int :=
  (constraint.type, constraint.value)

/-- What was written of the first job is there in the second one. -/
structure SameJob (written read : TJob) : Prop where
  name : read.name = written.name
  nodeName : read.nodeName = written.nodeName
  cmdLine : read.cmdLine = written.cmdLine
  weight : read.weight = written.weight
  prv : ∀ name, name ∈ read.prv ↔ name ∈ written.prv
  nxt : ∀ name, name ∈ read.nxt ↔ name ∈ written.nxt
  timeConstraints : ∀ asked, asked ∈ read.timeConstraints.map setting ↔
    asked ∈ written.timeConstraints.map setting

/-- `get_job` of the name of the job returns the same job. -/
def ReadsBack (name : String) (runningNode : Option String) (job : TJob) (world : World) :
    Prop :=
  ∃ read, getJob domain name runningNode job.name world = .ok read world ∧ SameJob job read

/-- What is read of a constraint that was written. -/
def keptSetting (asked : ETimeConstraintType × Int) : ETimeConstraintType × Int :=
  (asked.1, if Fits 16 (secToTime asked.2) then secToTime asked.2 else 0)

theorem keptSetting_eq_self_iff {asked : ETimeConstraintType × Int} :
    keptSetting asked = asked ↔ Fits 16 asked.2 := by
  obtain ⟨type, value⟩ := asked
  rw [keptSetting, Prod.mk.injEq, and_iff_right rfl]
  by_cases fits : Fits 16 (secToTime value)
  · rw [if_pos fits]
    unfold Fits secToTime at *
    omega
  · rw [if_neg fits]
    unfold Fits secToTime at *
    omega

/-- The keys of the constraints let one of each type through. -/
theorem setting_of_constraintsOfJob (tables : Tables) {job : TJob}
    (insertable : Insertable tables job) :
    (∀ asked, asked ∈ ((constraintsOfJob job).map decodedConstraint).map setting ↔
      asked ∈ job.timeConstraints.map setting) ↔
      ∀ constraint ∈ job.timeConstraints, Fits 16 constraint.value := by
  have read : ((constraintsOfJob job).map decodedConstraint).map setting =
      (job.timeConstraints.map setting).map keptSetting := by
    rw [constraintsOfJob, List.map_map, List.map_map, List.map_map]
    rfl
  have distinct : ((job.timeConstraints.map setting).map Prod.fst).Nodup := by
    rw [List.map_map, List.Nodup, List.pairwise_map]
    have keyed := insertable.constraints
    rw [constraintsOfJob, List.pairwise_map] at keyed
    exact keyed.imp fun apart same => apart ⟨same, rfl⟩
  have kept : ∀ asked, (keptSetting asked).1 = asked.1 := fun _ => rfl
  rw [read, mem_map_iff_of_nodup distinct kept, List.forall_mem_map]
  exact forall₂_congr fun constraint _ => keptSetting_eq_self_iff

theorem fits_of_inRange {weight : Int} (typed : Integer.InRange weight) : Fits 32 weight := by
  unfold Integer.InRange at typed
  unfold Fits
  omega

theorem sameJob_iff {tables : Tables} {job : TJob} (keys : tables.Keys)
    (insertable : Insertable tables job) (typed : Integer.InRange job.weight) :
    SameJob job (decodedNamedJob domain (withJob tables job) (rowOfJob job)) ↔
      job.prv = [] ∧ ∀ constraint ∈ job.timeConstraints, Fits 16 constraint.value := by
  have constraints := setting_of_constraintsOfJob tables insertable
  rw [← decodedConstraints_withJob keys insertable.name] at constraints
  constructor
  · intro same
    refine ⟨List.eq_nil_iff_forall_not_mem.mpr fun prv member => ?_,
      constraints.mp same.timeConstraints⟩
    exact absurd ((same.prv prv).mpr member) List.not_mem_nil
  · rintro ⟨first, fit⟩
    have links := decodedNext_withJob keys insertable.name first
    exact {
      name := rfl
      nodeName := rfl
      cmdLine := rfl
      weight := narrow_of_fits typed
      prv := fun prv => by rw [first]; rfl
      nxt := fun nxt => iff_of_eq (congrArg (nxt ∈ ·) links)
      timeConstraints := constraints.mpr fit }

/-- What `get_job` returns of a job that `add_job` has added to a complete schema, when no
call of MySQL fails. -/
theorem getJob_of_addJob {name : String} {runningNode : Option String} {job : TJob}
    {schema : Schema} {before after : World} (found : before.server.schema? name = some schema)
    (complete : schema.Complete) (typed : Integer.InRange job.weight)
    (located : ∀ nodeName ∈ runningNode, nodeName = job.nodeName)
    (added : addJob domain name job before = .ok true after) :
    getJob domain name runningNode job.name after.calmed =
      .ok (decodedNamedJob domain (withJob schema.tables job) (rowOfJob job)) after.calmed := by
  obtain ⟨insertable, stored⟩ := schema_of_addJob domain found added
  have readable : Readable after.calmed name
      { schema with tables := withJob schema.tables job } :=
    ⟨after.quiet_calmed, stored, complete.withTables _⟩
  exact getJob_of_readable domain readable (filter_job_withJob insertable.name located)
    (fits_of_inRange typed) (Option.some_ne_none _)

/-- A job that `add_job` has added to a complete schema is read back by `get_job`, when no
call of MySQL fails, if and only if it has no predecessors and each value of its
constraints is an `integer`. -/
theorem readsBack_of_addJob_iff {name : String} {runningNode : Option String} {job : TJob}
    {schema : Schema} {before after : World} (found : before.server.schema? name = some schema)
    (complete : schema.Complete) (keys : schema.tables.Keys)
    (typed : Integer.InRange job.weight)
    (located : ∀ nodeName ∈ runningNode, nodeName = job.nodeName)
    (added : addJob domain name job before = .ok true after) :
    ReadsBack domain name runningNode job after.calmed ↔
      job.prv = [] ∧ ∀ constraint ∈ job.timeConstraints, Fits 16 constraint.value := by
  obtain ⟨insertable, _⟩ := schema_of_addJob domain found added
  have read := getJob_of_addJob domain found complete typed located added
  rw [← sameJob_iff domain keys insertable typed]
  constructor
  · rintro ⟨other, returned, same⟩
    rw [read] at returned
    cases returned
    exact same
  · intro same
    exact ⟨_, read, same⟩

/-! ## One schema -/

/-- The rows of a schema with one job. -/
def stagedTables : Tables where
  node := [⟨"localhost", 10⟩]
  job := [⟨"load", "/bin/load", "localhost", 1, none, none, some .waiting, none⟩]

def stagedWorld (tables : Tables) : World :=
  World.holding { server := ⟨∅⟩ } "test_domain" oneNode tables

/-- A job that is run before `load`, and not before the given second of the day. -/
def archiveJob (value : Int) : TJob where
  name := "archive"
  nodeName := "localhost"
  domain := "test_domain"
  cmdLine := "/bin/archive"
  weight := 1
  nxt := ["load"]
  timeConstraints := [⟨"archive", .after, value⟩]

theorem keys_stagedTables : stagedTables.Keys := by
  constructor <;> decide

theorem found_stagedWorld :
    (stagedWorld stagedTables).server.schema? "test_domain" =
      some { oneNode with tables := stagedTables } :=
  Server.schema?_setSchema_self _ _ _

theorem complete_staged (tables : Tables) : Schema.Complete { oneNode with tables } :=
  complete_emptySkeleton.withTables tables

theorem insertable_archiveJob (value : Int) : Insertable stagedTables (archiveJob value) := by
  have links : linksOfJob (archiveJob value) = [⟨"archive", "load"⟩] := rfl
  have new : ¬ stagedTables.hasJob "archive" := by decide
  have node : stagedTables.hasNode "localhost" := by decide
  refine ⟨new, node, ?_, ?_, ?_, List.pairwise_singleton _ _, ?_⟩
  · rw [links]
    exact List.nodup_singleton _
  · exact fun _ _ => List.not_mem_nil
  · rw [links]
    intro row member
    cases List.mem_singleton.mp member
    exact ⟨Or.inr rfl, Or.inl (by decide)⟩
  · exact fun _ _ _ other => absurd other List.not_mem_nil

theorem addJob_stagedWorld {tables : Tables} {job : TJob} (staged : job.domain = "test_domain")
    (one : nodesOf job tables = 1) (within : WithinDuration dailyDomain job)
    (insertable : Insertable tables job) :
    addJob dailyDomain "test_domain" job (stagedWorld tables) =
      .ok true (stagedWorld (withJob tables job)) := by
  have found : (stagedWorld tables).server.schema? job.domain =
      some { oneNode with tables } := by
    rw [staged]
    exact Server.schema?_setSchema_self _ _ _
  have finds : FindsNode job (stagedWorld tables) :=
    ⟨rfl, rfl, _, found, Or.inl node_mem, by rw [one]; decide, by rw [one]; decide⟩
  have quiet : Mysql.Quiet ({ server := ⟨∅⟩ } : World) := rfl
  exact (answers_addJob dailyDomain quiet rfl (complete_staged oneNode.tables) finds).1
    ⟨within, insertable⟩

theorem addJob_archiveJob {value : Int} (short : value ≤ 86400) :
    addJob dailyDomain "test_domain" (archiveJob value) (stagedWorld stagedTables) =
      .ok true (stagedWorld (withJob stagedTables (archiveJob value))) := by
  refine addJob_stagedWorld rfl rfl (fun constraint member => ?_) (insertable_archiveJob value)
  cases List.mem_singleton.mp member
  exact short

/-- A job that is to be run after five o'clock is read back. -/
theorem readsBack_archiveJob :
    ReadsBack dailyDomain "test_domain" (some "localhost") (archiveJob 18000)
      (stagedWorld (withJob stagedTables (archiveJob 18000))).calmed := by
  have located : ∀ nodeName ∈ some "localhost", nodeName = "localhost" :=
    fun nodeName same => (Option.mem_some.mp same).symm
  have added := addJob_archiveJob (by decide : (18000 : Int) ≤ 86400)
  exact (readsBack_of_addJob_iff dailyDomain found_stagedWorld (complete_staged stagedTables)
    keys_stagedTables (by decide) located added).mpr ⟨rfl, by decide⟩

/-- Ten o'clock is a value above the `integer`s: it is read as midnight. -/
theorem not_readsBack_archiveJob :
    ¬ ∀ (domain : Domain) (name : String) (job : TJob) (schema : Schema) (before after : World),
      before.server.schema? name = some schema → schema.Complete → schema.tables.Keys →
      schema.tables.hasNode job.nodeName →
      (∀ linked ∈ job.prv ++ job.nxt, schema.tables.hasJob linked) →
      (∀ constraint ∈ job.timeConstraints,
        0 ≤ constraint.value ∧ constraint.value ≤ domain.planningDuration) →
      Integer.InRange job.weight → addJob domain name job before = .ok true after →
      ReadsBack domain name none job after.calmed := by
  intro always
  have added := addJob_archiveJob (by decide : (36000 : Int) ≤ 86400)
  obtain ⟨read, returned, same⟩ := always dailyDomain "test_domain" (archiveJob 36000) _ _ _
    found_stagedWorld (complete_staged stagedTables) keys_stagedTables (by decide) (by decide)
    (by decide) (by decide) added
  have located : ∀ nodeName ∈ none, nodeName = (archiveJob 36000).nodeName :=
    fun nodeName impossible => absurd impossible (Option.not_mem_none nodeName)
  rw [getJob_of_addJob dailyDomain found_stagedWorld (complete_staged stagedTables) (by decide)
    located added] at returned
  cases returned
  obtain ⟨insertable, _⟩ := schema_of_addJob dailyDomain found_stagedWorld added
  have fit := ((sameJob_iff dailyDomain keys_stagedTables insertable (by decide)).mp same).2 _
    (List.mem_singleton.mpr rfl)
  exact absurd fit (by decide)

end OpenWorkloadScheduler.Domain
