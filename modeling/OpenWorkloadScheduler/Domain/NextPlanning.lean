import OpenWorkloadScheduler.Domain.PlanningCopy

/-!
# The next planning as a copy of the template

The purpose of `set_next_planning` is a planning whose nodes, resources, links,
constraints and job descriptions are those of the template and whose jobs all
wait.  The copy passes through the structures of the service, whose integers are
narrower than the columns, and adds the jobs one by one under the keys of the
skeleton.  Below is the exact condition under which it is faithful.
-/

namespace OpenWorkloadScheduler.Domain

open Rpc Store Foundations

variable (domain : Domain)

/-! ## Faithful copies -/

/-- The columns of `job` that describe a job. -/
def description (row : JobRow) : String × String × String × Int :=
  (row.jobName, row.jobCmdLine, row.jobNodeName, row.jobWeight)

/-- The rows of a planning that has just been made from the template. -/
structure FaithfulCopy (template copy : Tables) : Prop where
  node : copy.node.Perm template.node
  resource : copy.resource.Perm template.resource
  jobsLink : copy.jobsLink.Perm template.jobsLink
  timeConstraint : copy.timeConstraint.Perm template.timeConstraint
  job : (copy.job.map description).Perm (template.job.map description)
  waiting : ∀ row ∈ copy.job, row.jobState = some .waiting

/-- The rows that the copy leaves in the planning. -/
def copiedRows (tables : Tables) : Tables :=
  storedRows (copyNodes domain tables) (copyJobs domain tables)

/-- A constraint after it has been read and added again. -/
def copiedConstraint (row : TimeConstraintRow) : TimeConstraintRow :=
  { row with timeCValue := secToTime (decodedConstraint row).value }

section Rows

variable {tables : Tables}

theorem node_copiedRows : (copiedRows domain tables).node = tables.node := by
  rw [copiedRows, storedRows, copyNodes, List.map_map]
  exact List.map_id _

theorem job_copiedRows : (copiedRows domain tables).job =
    (copyRows tables).map fun row => rowOfJob (decodedJob domain tables row) := by
  rw [copiedRows, storedRows, copyJobs, List.map_map]
  rfl

theorem jobsLink_copiedRows_perm (keys : tables.Keys) :
    (copiedRows domain tables).jobsLink.Perm tables.jobsLink := by
  have covered : ∀ link ∈ tables.jobsLink, link.jobNamePrv ∈ copyOrder tables :=
    fun link member => (mem_copyOrder keys).mpr (keys.jobsLinkPrv link member)
  have grouped := flatMap_filter_perm JobsLinkRow.jobNamePrv (nodup_copyOrder keys) covered
  have same : (copiedRows domain tables).jobsLink =
      (copyOrder tables).flatMap fun name =>
        tables.jobsLink.filter fun link => link.jobNamePrv = name := by
    change (copyJobs domain tables).flatMap linksOfJob = _
    rw [copyJobs, copyOrder, List.flatMap_map, List.flatMap_map]
    refine List.flatMap_congr fun row _ => ?_
    rw [linksOfJob_of_wellFormed (wellFormed_decodedJob domain keys row)]
    change (decodedNext tables row.jobName).map _ = _
    rw [decodedNext, List.map_map]
    refine (List.map_congr_left fun link selected => ?_).trans (List.map_id _)
    have prv := of_decide_eq_true (List.mem_filter.mp selected).2
    cases link
    cases prv
    rfl
  rwa [same]

theorem timeConstraint_copiedRows_perm (keys : tables.Keys) :
    (copiedRows domain tables).timeConstraint.Perm
      (tables.timeConstraint.map copiedConstraint) := by
  have covered : ∀ row ∈ tables.timeConstraint, row.timeCJobName ∈ copyOrder tables :=
    fun row member => (mem_copyOrder keys).mpr (keys.timeConstraintJob row member)
  have grouped := flatMap_filter_perm TimeConstraintRow.timeCJobName
    (nodup_copyOrder keys) covered
  have same : (copiedRows domain tables).timeConstraint =
      ((copyOrder tables).flatMap fun name =>
        tables.timeConstraint.filter fun row => row.timeCJobName = name).map
          copiedConstraint := by
    change (copyJobs domain tables).flatMap constraintsOfJob = _
    rw [copyJobs, copyOrder, List.flatMap_map, List.map_flatMap, List.flatMap_map]
    refine List.flatMap_congr fun row _ => ?_
    change (decodedConstraints tables row.jobName).map _ = _
    rw [decodedConstraints, List.map_map]
    refine List.map_congr_left fun constraint selected => ?_
    have name := of_decide_eq_true (List.mem_filter.mp selected).2
    cases constraint
    cases name
    rfl
  rw [same]
  exact grouped.map copiedConstraint

theorem secToTime_of_fits {value : Int} (fits : Fits 16 value) : secToTime value = value := by
  unfold Fits at fits
  unfold secToTime
  omega

theorem copiedConstraint_of_fits {row : TimeConstraintRow} (fits : Fits 16 row.timeCValue) :
    copiedConstraint row = row := by
  unfold copiedConstraint decodedConstraint
  rw [if_pos fits, secToTime_of_fits fits]

/-- A constraint that is copied to itself has a value that an `integer` holds. -/
theorem fits_of_copiedConstraint {row : TimeConstraintRow}
    (same : (copiedConstraint row).timeCValue = row.timeCValue) : Fits 16 row.timeCValue := by
  by_contra wide
  have zero : (0 : Int) = row.timeCValue := by
    unfold copiedConstraint decodedConstraint at same
    rwa [if_neg wide] at same
  rw [← zero] at wide
  exact wide (by decide)

/-- The values that pass through an `integer` unchanged, and no resource. -/
structure Narrow (tables : Tables) : Prop where
  resource : tables.resource = []
  jobWeight : ∀ row ∈ tables.job, Fits 16 row.jobWeight
  timeConstraint : ∀ row ∈ tables.timeConstraint, Fits 16 row.timeCValue

theorem faithfulCopy_copiedRows_iff (keys : tables.Keys) :
    FaithfulCopy tables (copiedRows domain tables) ↔ Narrow tables := by
  constructor
  · intro faithful
    refine ⟨(List.nil_perm.mp faithful.resource), fun row member => ?_, fun row member => ?_⟩
    · have copied : description (rowOfJob (decodedJob domain tables row)) ∈
          (copiedRows domain tables).job.map description := by
        rw [job_copiedRows, List.map_map]
        exact List.mem_map_of_mem ((copyRows_perm keys).mem_iff.mpr member)
      obtain ⟨other, otherMember, same⟩ := List.mem_map.mp (faithful.job.mem_iff.mp copied)
      have sameRow : other = row :=
        List.inj_on_of_nodup_map keys.jobName otherMember member (congrArg Prod.fst same)
      rw [sameRow] at same
      have weight : row.jobWeight = Integer.narrow row.jobWeight :=
        congrArg (fun columns => columns.2.2.2) same
      exact (Integer.narrow_eq_self_iff _).mp weight.symm
    · have copied : copiedConstraint row ∈ (copiedRows domain tables).timeConstraint :=
        (timeConstraint_copiedRows_perm domain keys).mem_iff.mpr (List.mem_map_of_mem member)
      have there := faithful.timeConstraint.mem_iff.mp copied
      have sameRow : copiedConstraint row = row :=
        List.inj_on_of_nodup_map keys.timeConstraintKey there member rfl
      exact fits_of_copiedConstraint (congrArg TimeConstraintRow.timeCValue sameRow)
  · intro narrow
    refine ⟨?_, ?_, jobsLink_copiedRows_perm domain keys, ?_, ?_, ?_⟩
    · rw [node_copiedRows]
    · rw [narrow.resource]
      exact List.Perm.refl []
    · refine (timeConstraint_copiedRows_perm domain keys).trans (List.Perm.of_eq ?_)
      refine (List.map_congr_left fun row member => ?_).trans (List.map_id _)
      exact copiedConstraint_of_fits (narrow.timeConstraint row member)
    · rw [job_copiedRows, List.map_map]
      refine (List.Perm.of_eq (List.map_congr_left fun row member => ?_)).trans
        ((copyRows_perm keys).map description)
      have weight := narrow_of_fits
        (narrow.jobWeight row ((copyRows_perm keys).mem_iff.mp member))
      simp [description, rowOfJob, decodedJob, basicJob, weight]
    · intro row member
      rw [job_copiedRows] at member
      obtain ⟨_, _, rfl⟩ := List.mem_map.mp member
      rfl

end Rows

/-! ## The `try` block -/

theorem catchProcessing_of_ok {action : Action (Option Bool)} {before after : World}
    {result : Option Bool} (ran : action before = .ok result after) :
    catchProcessing action before = .ok result after :=
  tryCatch_of_ok ran

theorem catchProcessing_of_processing {action : Action (Option Bool)} {before after : World}
    {message : String} (left : action before = .error (.exProcessing message) after) :
    catchProcessing action before = .ok (some false) after := by
  change EStateM.tryCatch action _ before = _
  unfold EStateM.tryCatch
  rw [left]
  rfl

section Creation

variable {world : World} {planning : String}

theorem schemaExists_of_quiet (quiet : Mysql.Quiet world) :
    Mysql.queryOneRow (.schemaExists planning) none world =
      .ok (some [if (world.server.schema? planning).isSome then "1" else "0"]) world := by
  have rows : (Query.schemaExists planning).run none world.server world.now =
      .ok [[some (if (world.server.schema? planning).isSome then "1" else "0")]] :=
    rfl
  exact Mysql.queryOneRow_of_quiet quiet (Mysql.exists_none _) rows

theorem createPlanning_of_absent (quiet : Mysql.Quiet world)
    (absent : world.server.schema? planning = none) :
    createPlanning planning world =
      (do if ← Mysql.initDomainStructure planning then return none
          else return some true : Action (Option Bool)) world := by
  rw [createPlanning, bind_of_ok (schemaExists_of_quiet quiet), absent]
  rfl

end Creation

/-! ## The preparation when nothing fails -/

/-- A quoted text of SQL stands for itself: it has no quote and no backslash. -/
def isPlain (text : String) : Bool :=
  text.toList.all fun letter => letter ≠ '\'' && letter ≠ '\\' && letter ≠ Char.ofNat 0

/-- The template of the domain: complete, with its keys kept, and made of texts
that can be pasted into statements. -/
structure Template (world : World) (template : Schema) : Prop where
  found : world.server.schema? domain.name = some template
  complete : template.Complete
  keys : template.tables.Keys
  plainName : isPlain domain.name = true
  plainNodes : ∀ row ∈ template.tables.node, isPlain row.nodeName = true
  plainJobs : ∀ row ∈ template.tables.job,
    isPlain row.jobName = true ∧ isPlain row.jobCmdLine = true

/-- No call of MySQL fails, the skeleton file can be opened, and nobody holds
the mutex. -/
structure Unfailing (world : World) : Prop where
  quiet : Mysql.Quiet world
  opened : world.skeletonFile = true
  free : MutexFree world

/-- The name of a planning is longer than that of its domain. -/
theorem name_ne_planningName (startTime : Int) :
    domain.name ≠ planningName domain startTime := by
  intro same
  have lengths := congrArg String.length same
  rw [planningName, String.length_append, String.length_append] at lengths
  have separator : "_".length = 1 := rfl
  omega

/-- The texts of the template are all decoded, and its rows can be inserted in
the order of the copy. -/
structure Copyable (tables : Tables) : Prop where
  readable : ∀ row ∈ tables.node, NodeReadable tables row
  inserts : InsertsInOrder domain tables

section Preparation

variable {world : World} {template : Schema} {startTime : Int}

theorem finds_copyJobs {domain : Domain} {planning : String}
    (different : domain.name ≠ planning) (quiet : Mysql.Quiet world)
    (source : Template domain world template) {job : TJob}
    (member : job ∈ copyJobs domain template.tables) (tables : Tables) :
    FindsNode job (world.holding planning emptySkeleton tables) := by
  have later : Mysql.Quiet (world.holding planning emptySkeleton tables) := quiet
  obtain ⟨row, selected, rfl⟩ := List.mem_map.mp member
  have known := (copyRows_perm source.keys).mem_iff.mp selected
  obtain ⟨node, nodeMember, name⟩ := List.mem_map.mp (source.keys.jobNode row known)
  have single : nodesOf (decodedJob domain template.tables row) template.tables = 1 := by
    have same := filter_nodeName source.keys nodeMember
    rw [name] at same
    exact congrArg List.length same
  refine ⟨Mysql.answer_of_quiet later, ?_, template, ?_,
    Or.inl (source.complete.baseTables _ node_mem), ?_, ?_⟩
  · rw [Mysql.answered_of_quiet later]
    exact Mysql.answer_of_quiet later
  · exact (Server.schema?_setSchema_ne different).trans source.found
  · rw [single]
    decide
  · rw [single]
    decide

theorem answers_copy (source : Template domain world template) (quiet : Mysql.Quiet world)
    (free : MutexFree world) {planning : String} (different : domain.name ≠ planning) :
    Answers (do addNodes domain planning (← getNodes domain domain.name))
      (world.holding planning emptySkeleton {}) (Copyable domain template.tables)
      (world.holding planning emptySkeleton (copiedRows domain template.tables)) := by
  have readable : Readable (world.holding planning emptySkeleton {}) domain.name template :=
    ⟨quiet, (Server.schema?_setSchema_ne different).trans source.found, source.complete⟩
  have nodes := yields_getNodes domain readable source.keys
  have added := answers_addNodes domain quiet free complete_emptySkeleton
    (wellFormed_copyNodes domain source.keys) fun job member tables => by
      rw [flatMap_copyNodes] at member
      exact finds_copyJobs different quiet source member tables
  rw [flatMap_copyNodes, eachAfter_copyJobs_iff domain source.keys] at added
  constructor
  · intro copyable
    rw [bind_of_ok (nodes.returns copyable.readable)]
    exact added.returns copyable.inserts
  · intro fails
    by_cases decoded : ∀ row ∈ template.tables.node, NodeReadable template.tables row
    · rw [bind_of_ok (nodes.returns decoded)]
      exact added.refuses fun inserts => fails ⟨decoded, inserts⟩
    · exact raises_bind (nodes.refuses decoded)

/-- What `createPlanning` decides is the answer of the call. -/
theorem preparePlanning_of_decided {accepted : Bool} {after : World}
    (decided : createPlanning (planningName domain startTime) world = .ok (some accepted) after) :
    preparePlanning domain startTime world = .ok accepted after := by
  rw [preparePlanning, bind_of_ok (catchProcessing_of_ok decided)]
  rfl

theorem preparePlanning_of_created {after : World}
    (created : createPlanning (planningName domain startTime) world = .ok none after) :
    preparePlanning domain startTime world =
      (do addNodes domain (planningName domain startTime) (← getNodes domain domain.name))
        after := by
  rw [preparePlanning, bind_of_ok (catchProcessing_of_ok created)]

/-- An `EX_PROCESSING` of the creation is caught, and the call returns `false`. -/
theorem preparePlanning_of_raised {message : String} {after : World}
    (raised : createPlanning (planningName domain startTime) world =
      .error (.exProcessing message) after) :
    preparePlanning domain startTime world = .ok false after := by
  rw [preparePlanning, bind_of_ok (catchProcessing_of_processing raised)]
  rfl

theorem answers_preparePlanning (unfailing : Unfailing world)
    (source : Template domain world template)
    (absent : world.server.schema? (planningName domain startTime) = none)
    (clear : ¬ world.server.LikeClash (planningName domain startTime))
    (identifier : isIdentifier (planningName domain startTime) = true) :
    Answers (preparePlanning domain startTime) world (Copyable domain template.tables)
      (world.holding (planningName domain startTime) emptySkeleton
        (copiedRows domain template.tables)) := by
  have created : createPlanning (planningName domain startTime) world =
      .ok none (world.holding (planningName domain startTime) emptySkeleton {}) := by
    rw [createPlanning_of_absent unfailing.quiet absent,
      bind_of_ok (Mysql.initDomainStructure_of_quiet unfailing.quiet unfailing.opened absent
        clear identifier)]
    rfl
  have copied := answers_copy domain source unfailing.quiet unfailing.free
    (name_ne_planningName domain startTime)
  constructor
  · intro copyable
    rw [preparePlanning_of_created domain created]
    exact copied.returns copyable
  · intro fails
    rw [preparePlanning_of_created domain created]
    exact copied.refuses fails

/-- Without its schema a planning cannot take a node. -/
theorem raises_addWeightedNode_of_absent {planning : String} (free : MutexFree world)
    (absent : world.server.schema? planning = none) (name : String) (weight : Integer) :
    raises (addWeightedNode planning name weight world) = true := by
  have missing : ¬ Mysql.Begins (some planning) { world with updatesMutex := true } := by
    intro begins
    have present := begins.exist planning rfl
    change (world.server.schema? planning).isSome = true at present
    rw [absent] at present
    cases present
  obtain ⟨message, after, _, left⟩ := Mysql.standaloneExecute_of_not_begins missing
  rw [addWeightedNode, lockedExecute, bind_of_ok (lock_of_free free), executeAndUnlock,
    bind_of_error (left _)]
  rfl

/-- A name that clashes is taken for one that exists, and no schema is created. -/
theorem preparePlanning_of_clash (unfailing : Unfailing world)
    (absent : world.server.schema? (planningName domain startTime) = none)
    (clash : world.server.LikeClash (planningName domain startTime)) {after : World}
    (ran : preparePlanning domain startTime world = .ok true after) :
    after.server.schema? (planningName domain startTime) = none := by
  have skipped : createPlanning (planningName domain startTime) world = .ok none world := by
    rw [createPlanning_of_absent unfailing.quiet absent,
      bind_of_ok (Mysql.initDomainStructure_of_clash unfailing.quiet clash)]
    rfl
  rw [preparePlanning_of_created domain skipped] at ran
  obtain ⟨nodes, between, read, added⟩ := bind_eq_ok_iff.mp ran
  have same : between.server = world.server := by
    have readOnly := within_getNodes domain domain.name world
    rw [read] at readOnly
    exact readOnly.server
  have free : MutexFree between := by
    have readOnly := within_getNodes domain domain.name world
    rw [read] at readOnly
    exact readOnly.frame.updatesMutex.trans unfailing.free
  cases nodes with
  | nil =>
      cases added
      rw [same]
      exact absent
  | cons node nodes =>
      have raised : raises (addNodes domain (planningName domain startTime) (node :: nodes)
          between) = true :=
        raises_bind (raises_bind (raises_addWeightedNode_of_absent free (same ▸ absent)
          node.name node.weight))
      rw [added] at raised
      cases raised

/-- A name that is no identifier cannot be given to a schema. -/
theorem preparePlanning_of_refused (unfailing : Unfailing world)
    (absent : world.server.schema? (planningName domain startTime) = none)
    (clear : ¬ world.server.LikeClash (planningName domain startTime))
    (refused : isIdentifier (planningName domain startTime) = false) :
    ∃ after, preparePlanning domain startTime world = .ok false after := by
  obtain ⟨message, after, left⟩ :=
    Mysql.initDomainStructure_of_quiet_error unfailing.quiet clear refused
  have raised : createPlanning (planningName domain startTime) world =
      .error (.exProcessing message) after := by
    rw [createPlanning_of_absent unfailing.quiet absent, bind_of_error left]
  exact ⟨after, preparePlanning_of_raised domain raised⟩

end Preparation

/-! ## When the copy is faithful -/

/-- The state after the assignment of `set_next_planning`. -/
def Reference.assigned (reference : Reference) (startTime : Int) (world : World) : World :=
  match reference with
  | .planningStartTime => { world with planningStartTime := startTime }
  | .result => world

theorem setNextPlanning_eq (reference : Reference) (world : World) :
    setNextPlanning domain reference world =
      preparePlanning domain (nextPlanningStartTime domain world.clock)
        (reference.assigned (nextPlanningStartTime domain world.clock) world) := by
  cases reference <;> rfl

/-- The planning that the next call of `set_next_planning` prepares. -/
def nextPlanningName (world : World) : String :=
  planningName domain (nextPlanningStartTime domain world.clock)

/-- The call returns `true`, and the planning is a faithful copy. -/
def CopiesFaithfully (reference : Reference) (template : Tables) (world : World) : Prop :=
  ∃ after planning, setNextPlanning domain reference world = .ok true after ∧
    after.server.schema? (nextPlanningName domain world) = some planning ∧
    FaithfulCopy template planning.tables

/-- The condition on the schemas and on the rows of the template: no name of a
schema is matched by that of the planning, which MySQL accepts unquoted; the
values fit the integers that they pass through, there is no resource, every job
is readable, every constraint is within the duration, and no link leads to a job
that is copied later. -/
structure CopyCondition (world : World) (template : Tables) : Prop where
  clear : ¬ world.server.LikeClash (nextPlanningName domain world)
  identifier : isIdentifier (nextPlanningName domain world) = true
  nodeWeight : ∀ row ∈ template.node, Fits 16 row.nodeWeight
  resource : template.resource = []
  job : ∀ row ∈ template.job, JobReadable template row
  jobWeight : ∀ row ∈ template.job, Fits 16 row.jobWeight
  timeConstraint : ∀ row ∈ template.timeConstraint,
    Fits 16 row.timeCValue ∧ row.timeCValue ≤ domain.planningDuration
  order : ∀ link ∈ template.jobsLink,
    (copyOrder template).idxOf link.jobNameNxt ≤ (copyOrder template).idxOf link.jobNamePrv

theorem copyCondition_iff {world : World} {template : Tables} (keys : template.Keys) :
    CopyCondition domain world template ↔
      ¬ world.server.LikeClash (nextPlanningName domain world) ∧
        isIdentifier (nextPlanningName domain world) = true ∧
          Copyable domain template ∧ Narrow template := by
  constructor
  · intro condition
    refine ⟨condition.clear, condition.identifier, ⟨fun row member => ?_, ⟨fun row member => ?_,
      condition.order⟩⟩, condition.resource, condition.jobWeight,
      fun row member => (condition.timeConstraint row member).1⟩
    · exact ⟨condition.nodeWeight row member, condition.resource,
        fun job selected => condition.job job (List.mem_filter.mp selected).1⟩
    · obtain ⟨fits, bounded⟩ := condition.timeConstraint row member
      rwa [decodedConstraint, if_pos fits]
  · rintro ⟨clear, identifier, copyable, narrow⟩
    refine ⟨clear, identifier, fun row member => (copyable.readable row member).weight,
      narrow.resource, fun row member => ?_, narrow.jobWeight, fun row member => ?_,
      copyable.inserts.order⟩
    · obtain ⟨node, nodeMember, name⟩ := List.mem_map.mp (keys.jobNode row member)
      exact (copyable.readable node nodeMember).job row
        (List.mem_filter.mpr ⟨member, decide_eq_true name.symm⟩)
    · have fits := narrow.timeConstraint row member
      have bounded := copyable.inserts.constraints row member
      rw [decodedConstraint, if_pos fits] at bounded
      exact ⟨fits, bounded⟩

/-- When no database or file operation fails and the planning does not exist
yet, `set_next_planning` returns `true` with a faithful copy of the template if
and only if the condition holds. -/
theorem setNextPlanning_faithful_iff (reference : Reference) {world : World}
    {template : Schema} (unfailing : Unfailing world) (source : Template domain world template)
    (absent : world.server.schema? (nextPlanningName domain world) = none) :
    CopiesFaithfully domain reference template.tables world ↔
      CopyCondition domain world template.tables := by
  have entry : Unfailing (reference.assigned (nextPlanningStartTime domain world.clock) world) ∧
      (reference.assigned (nextPlanningStartTime domain world.clock) world).server =
        world.server := by
    cases reference <;> exact ⟨⟨unfailing.quiet, unfailing.opened, unfailing.free⟩, rfl⟩
  obtain ⟨ready, same⟩ := entry
  have assignedSource : Template domain
      (reference.assigned (nextPlanningStartTime domain world.clock) world) template :=
    { source with found := same ▸ source.found }
  rw [copyCondition_iff domain source.keys, CopiesFaithfully, setNextPlanning_eq]
  rw [nextPlanningName] at absent ⊢
  rw [← same] at absent ⊢
  generalize reference.assigned (nextPlanningStartTime domain world.clock) world = entered
    at absent ready assignedSource ⊢
  generalize nextPlanningStartTime domain world.clock = startTime at absent ⊢
  by_cases clear : ¬ entered.server.LikeClash (planningName domain startTime)
  · cases identifier : isIdentifier (planningName domain startTime) with
    | false =>
        obtain ⟨left, refused⟩ := preparePlanning_of_refused domain ready absent clear identifier
        rw [refused]
        exact ⟨nofun, fun condition => nomatch condition.2.1⟩
    | true =>
        have copied := answers_preparePlanning domain ready assignedSource absent clear identifier
        have there : (entered.holding (planningName domain startTime) emptySkeleton
            (copiedRows domain template.tables)).server.schema? (planningName domain startTime) =
              some { emptySkeleton with tables := copiedRows domain template.tables } :=
          Server.schema?_setSchema_self _ _ _
        constructor
        · rintro ⟨after, planning, ran, found, faithful⟩
          obtain ⟨copyable, _, rfl⟩ := copied.of_ok ran
          rw [there] at found
          cases found
          exact ⟨clear, rfl, copyable,
            (faithfulCopy_copiedRows_iff domain source.keys).mp faithful⟩
        · rintro ⟨_, _, copyable, narrow⟩
          exact ⟨_, _, copied.returns copyable, there,
            (faithfulCopy_copiedRows_iff domain source.keys).mpr narrow⟩
  · constructor
    · rintro ⟨after, planning, ran, found, _⟩
      rw [preparePlanning_of_clash domain ready absent (not_not.mp clear) ran]
        at found
      cases found
    · exact fun condition => absurd condition.1 clear

/-- A template of two jobs on one node, with a link between them. -/
def twoJobs (link : JobsLinkRow) : Schema where
  baseTables := skeletonBaseTables
  views := skeletonViews
  tables := {
    node := [⟨"localhost", 10⟩]
    job := [
      { jobName := "archive", jobCmdLine := "/bin/ls", jobNodeName := "localhost" },
      { jobName := "backup", jobCmdLine := "/bin/ls", jobNodeName := "localhost" }]
    jobsLink := [link] }

def twoJobsWorld (link : JobsLinkRow) : World where
  server := (⟨∅⟩ : Server).setSchema "test_domain" (twoJobs link)

theorem unfailing_twoJobs (link : JobsLinkRow) : Unfailing (twoJobsWorld link) :=
  ⟨rfl, rfl, rfl⟩

theorem template_twoJobs {link : JobsLinkRow}
    (member : link = ⟨"backup", "archive"⟩ ∨ link = ⟨"archive", "backup"⟩) :
    Template dailyDomain (twoJobsWorld link) (twoJobs link) := by
  have keys : (twoJobs link).tables.Keys := by
    rcases member with rfl | rfl <;>
      exact ⟨by decide, by decide, by decide, by decide, by decide, by decide, by decide,
        by decide, by decide, by decide, by decide, by decide⟩
  refine ⟨rfl, ⟨fun _ named => named, fun _ named => named⟩, keys, by decide, ?_, ?_⟩
  · change ∀ row ∈ [NodeRow.mk "localhost" 10], isPlain row.nodeName = true
    decide
  · change ∀ row ∈ (twoJobs ⟨"archive", "backup"⟩).tables.job,
      isPlain row.jobName = true ∧ isPlain row.jobCmdLine = true
    decide

/-- The job that comes first in the table follows the other one. -/
theorem copyCondition_twoJobs :
    CopyCondition dailyDomain (twoJobsWorld ⟨"backup", "archive"⟩)
      (twoJobs ⟨"backup", "archive"⟩).tables := by
  refine ⟨by decide, by decide, by decide, rfl, ?_, by decide, by decide, by decide⟩
  intro row member
  have readable : Fits 32 row.jobWeight ∧ row.jobState ≠ none ∧ row.jobStartTime = none ∧
      row.jobStopTime = none ∧ row.jobRectypeId = none := by
    revert row
    decide
  obtain ⟨weight, state, startTime, stopTime, rectypeId⟩ := readable
  exact ⟨weight, state, by simp [startTime], by simp [stopTime], by simp [rectypeId]⟩

theorem setNextPlanning_faithful_twoJobs :
    CopiesFaithfully dailyDomain .result (twoJobs ⟨"backup", "archive"⟩).tables
      (twoJobsWorld ⟨"backup", "archive"⟩) :=
  (setNextPlanning_faithful_iff dailyDomain .result (unfailing_twoJobs _)
    (template_twoJobs (Or.inl rfl)) (by decide)).mpr copyCondition_twoJobs

/-- A link to a job that comes later in the table breaks a foreign key. -/
theorem setNextPlanning_raises_twoJobs :
    ¬ ∀ (domain : Domain) (reference : Reference) (world : World) (template : Schema),
      Unfailing world → Template domain world template →
        world.server.schema? (nextPlanningName domain world) = none →
          CopiesFaithfully domain reference template.tables world := by
  intro always
  obtain ⟨after, planning, ran, _⟩ := always dailyDomain .result
    (twoJobsWorld ⟨"archive", "backup"⟩) (twoJobs ⟨"archive", "backup"⟩) (unfailing_twoJobs _)
    (template_twoJobs (Or.inr rfl)) (by decide)
  rw [setNextPlanning_eq, Reference.assigned] at ran
  have copyable : Copyable dailyDomain (twoJobs ⟨"archive", "backup"⟩).tables :=
    (Answers.of_ok (answers_preparePlanning dailyDomain (unfailing_twoJobs _)
      (template_twoJobs (Or.inr rfl)) (by decide) (by decide) (by decide)) ran).1
  exact absurd copyable.inserts.order (by decide)

end OpenWorkloadScheduler.Domain
