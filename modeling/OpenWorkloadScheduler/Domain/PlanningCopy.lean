import OpenWorkloadScheduler.Domain.Insertions
import OpenWorkloadScheduler.Domain.Template
import OpenWorkloadScheduler.Foundations.Grouping

/-!
# The copy of the template

`set_next_planning` reads all nodes of the template and adds them to the new
planning one after the other.  When no call of MySQL fails, the rows of the
planning are known after each job, and the copy gets to its end if every text is
decoded, every constraint is within the duration, and no job is inserted before
one that follows it.
-/

namespace OpenWorkloadScheduler.Domain

open Rpc Store Foundations

variable (domain : Domain)

/-! ## The rows of the copy, job after job -/

/-- The rows after the given nodes and jobs have been added to an empty schema. -/
def storedRows (nodes : List TNode) (jobs : List TJob) : Tables where
  node := nodes.map fun node => ⟨node.name, node.weight⟩
  job := jobs.map rowOfJob
  jobsLink := jobs.flatMap linksOfJob
  timeConstraint := jobs.flatMap constraintsOfJob

theorem withJob_storedRows (nodes : List TNode) (jobs : List TJob) (job : TJob) :
    withJob (storedRows nodes jobs) job = storedRows nodes (jobs ++ [job]) := by
  simp [withJob, storedRows]

theorem hasNode_storedRows {nodes : List TNode} {jobs : List TJob} {name : String} :
    (storedRows nodes jobs).hasNode name ↔ name ∈ nodes.map TNode.name := by
  simp [Tables.hasNode, storedRows]

theorem hasJob_storedRows {nodes : List TNode} {jobs : List TJob} {name : String} :
    (storedRows nodes jobs).hasJob name ↔ name ∈ jobs.map TJob.name := by
  simp [Tables.hasJob, storedRows, rowOfJob]

theorem insertIgnoreNode_storedRows {nodes : List TNode} {jobs : List TJob} {node : TNode}
    (new : node.name ∉ nodes.map TNode.name) :
    (storedRows nodes jobs).insertIgnoreNode ⟨node.name, node.weight⟩ =
      storedRows (nodes ++ [node]) jobs := by
  have absent : ¬ (storedRows nodes jobs).hasNode node.name :=
    fun member => new (hasNode_storedRows.mp member)
  rw [Tables.insertIgnoreNode, if_neg absent]
  simp [storedRows]

/-- The description of a job that names no predecessor, and neither a successor
nor a type of constraint twice. -/
structure WellFormedJob (job : TJob) : Prop where
  prv : job.prv = []
  nxt : job.nxt.Nodup
  constraints : (job.timeConstraints.map TTimeConstraint.type).Nodup

theorem linksOfJob_of_wellFormed {job : TJob} (wellFormed : WellFormedJob job) :
    linksOfJob job = job.nxt.map fun nxt => ⟨job.name, nxt⟩ := by
  rw [linksOfJob, wellFormed.prv]
  rfl

theorem jobNamePrv_of_mem_storedRows {nodes : List TNode} {jobs : List TJob}
    (wellFormed : ∀ job ∈ jobs, WellFormedJob job) {row : JobsLinkRow}
    (member : row ∈ (storedRows nodes jobs).jobsLink) :
    row.jobNamePrv ∈ jobs.map TJob.name := by
  obtain ⟨job, jobMember, linked⟩ := List.mem_flatMap.mp member
  rw [linksOfJob_of_wellFormed (wellFormed job jobMember)] at linked
  obtain ⟨nxt, _, rfl⟩ := List.mem_map.mp linked
  exact List.mem_map_of_mem jobMember

theorem timeCJobName_of_mem_storedRows {nodes : List TNode} {jobs : List TJob}
    {row : TimeConstraintRow} (member : row ∈ (storedRows nodes jobs).timeConstraint) :
    row.timeCJobName ∈ jobs.map TJob.name := by
  obtain ⟨job, jobMember, constrained⟩ := List.mem_flatMap.mp member
  obtain ⟨constraint, _, rfl⟩ := List.mem_map.mp constrained
  exact List.mem_map_of_mem jobMember

/-- A job can follow the jobs that are stored if those that it leads to are
stored, or are the job itself. -/
theorem insertable_storedRows_iff {nodes : List TNode} {jobs : List TJob} {job : TJob}
    (stored : ∀ other ∈ jobs, WellFormedJob other) (wellFormed : WellFormedJob job)
    (new : job.name ∉ jobs.map TJob.name) (placed : job.nodeName ∈ nodes.map TNode.name) :
    Insertable (storedRows nodes jobs) job ↔
      ∀ nxt ∈ job.nxt, nxt = job.name ∨ nxt ∈ jobs.map TJob.name := by
  have links := linksOfJob_of_wellFormed wellFormed
  constructor
  · intro insertable nxt member
    have row : ⟨job.name, nxt⟩ ∈ linksOfJob job := by
      rw [links]
      exact List.mem_map.mpr ⟨nxt, member, rfl⟩
    exact ((insertable.linked _ row).2.imp hasJob_storedRows.mp id).symm
  · intro known
    refine ⟨fun member => new (hasJob_storedRows.mp member),
      hasNode_storedRows.mpr placed, ?_, ?_, ?_, ?_, ?_⟩
    · rw [links]
      refine wellFormed.nxt.map fun first second same => ?_
      injection same
    · intro row member old
      rw [links] at member
      obtain ⟨nxt, _, rfl⟩ := List.mem_map.mp member
      exact new (jobNamePrv_of_mem_storedRows stored old)
    · intro row member
      rw [links] at member
      obtain ⟨nxt, nxtMember, rfl⟩ := List.mem_map.mp member
      exact ⟨Or.inr rfl, (known nxt nxtMember).symm.imp hasJob_storedRows.mpr id⟩
    · have types := wellFormed.constraints
      rw [List.Nodup, List.pairwise_map] at types
      exact List.pairwise_map.mpr (types.imp fun different same => different same.1)
    · intro row member other old same
      obtain ⟨constraint, _, rfl⟩ := List.mem_map.mp member
      have named : other.timeCJobName = job.name := same.2
      exact new (named ▸ timeCJobName_of_mem_storedRows old)

/-! ## Adding all nodes -/

/-- Nodes that `get_nodes` can return for a schema that keeps its keys, whose
jobs find their node. -/
structure WellFormedNodes (nodes : List TNode) : Prop where
  names : (nodes.map TNode.name).Nodup
  jobNames : ((nodes.flatMap TNode.jobs).map TJob.name).Nodup
  resources : ∀ node ∈ nodes, node.resources = []
  placed : ∀ node ∈ nodes, ∀ job ∈ node.jobs, job.nodeName = node.name
  jobs : ∀ job ∈ nodes.flatMap TNode.jobs, WellFormedJob job

/-- The condition under which a job is added after the jobs already done. -/
def AddedAfter (done : List TJob) (job : TJob) : Prop :=
  WithinDuration domain job ∧
    ∀ nxt ∈ job.nxt, nxt = job.name ∨ nxt ∈ done.map TJob.name

section Adding

variable {world : World} {schema : Schema} {name : String} {nodes : List TNode}

theorem answers_addNode (quiet : Mysql.Quiet world) (free : MutexFree world)
    (complete : schema.Complete) (wellFormed : WellFormedNodes nodes)
    (finds : ∀ job ∈ nodes.flatMap TNode.jobs, ∀ tables,
      FindsNode job (world.holding name schema tables))
    {before rest : List TNode} {node : TNode} (split : nodes = before ++ node :: rest) :
    Answers (addNode domain name node)
      (world.holding name schema (storedRows before (before.flatMap TNode.jobs)))
      (EachAfter (AddedAfter domain) (before.flatMap TNode.jobs) node.jobs)
      (world.holding name schema
        (storedRows (before ++ [node]) ((before ++ [node]).flatMap TNode.jobs))) := by
  have member : node ∈ nodes := by
    rw [split]
    exact List.mem_append_right _ List.mem_cons_self
  have newNode : node.name ∉ before.map TNode.name := by
    have distinct := wellFormed.names
    rw [split, List.map_append, List.map_cons] at distinct
    exact fun earlier => List.disjoint_of_nodup_append distinct earlier List.mem_cons_self
  have nodeAdded : Answers (addWeightedNode name node.name node.weight)
      (world.holding name schema (storedRows before (before.flatMap TNode.jobs))) True
      (world.holding name schema
        (storedRows (before ++ [node]) (before.flatMap TNode.jobs))) := by
    refine ⟨fun _ => ?_, fun fails => absurd trivial fails⟩
    rw [addWeightedNode_of_quiet quiet free complete, insertIgnoreNode_storedRows newNode]
  have jobsAdded := @answers_allTrue _ _ _ (addJob domain name)
    (fun done => world.holding name schema (storedRows (before ++ [node]) done))
    (AddedAfter domain) (before.flatMap TNode.jobs) node.jobs fun first job others parts => by
      have whole : nodes.flatMap TNode.jobs =
          (before.flatMap TNode.jobs ++ first) ++ job :: (others ++ rest.flatMap TNode.jobs) := by
        simp [split, parts]
      have jobMember : job ∈ node.jobs := by
        rw [parts]
        exact List.mem_append_right _ List.mem_cons_self
      have known : job ∈ nodes.flatMap TNode.jobs :=
        List.mem_flatMap.mpr ⟨node, member, jobMember⟩
      have stored : ∀ other ∈ before.flatMap TNode.jobs ++ first, WellFormedJob other := by
        intro other otherMember
        apply wellFormed.jobs other
        rw [whole]
        exact List.mem_append_left _ otherMember
      have newJob : job.name ∉ (before.flatMap TNode.jobs ++ first).map TJob.name := by
        have distinct := wellFormed.jobNames
        rw [whole, List.map_append, List.map_cons] at distinct
        exact fun earlier => List.disjoint_of_nodup_append distinct earlier List.mem_cons_self
      have placed : job.nodeName ∈ (before ++ [node]).map TNode.name := by
        rw [wellFormed.placed node member job jobMember]
        simp
      have inserted := insertable_storedRows_iff stored (wellFormed.jobs job known) newJob placed
      have added := answers_addJob domain quiet free complete (finds job known
        (storedRows (before ++ [node]) (before.flatMap TNode.jobs ++ first)))
      rw [withJob_storedRows] at added
      exact added.congr (and_congr_right fun _ => inserted)
  rw [addNode, wellFormed.resources node member]
  have resourcesAdded : Answers (allTrue (fun resource => addResource name resource node.name) [])
      (world.holding name schema (storedRows (before ++ [node]) (before.flatMap TNode.jobs))) True
      (world.holding name schema
        (storedRows (before ++ [node]) (before.flatMap TNode.jobs))) :=
    ⟨fun _ => rfl, fun fails => absurd trivial fails⟩
  have whole := answers_andThen nodeAdded fun _ => answers_andThen resourcesAdded fun _ => jobsAdded
  rw [List.flatMap_append, List.flatMap_singleton]
  exact whole.congr (by simp)

theorem answers_addNodes (quiet : Mysql.Quiet world) (free : MutexFree world)
    (complete : schema.Complete) (wellFormed : WellFormedNodes nodes)
    (finds : ∀ job ∈ nodes.flatMap TNode.jobs, ∀ tables,
      FindsNode job (world.holding name schema tables)) :
    Answers (addNodes domain name nodes) (world.holding name schema {})
      (EachAfter (AddedAfter domain) [] (nodes.flatMap TNode.jobs))
      (world.holding name schema (storedRows nodes (nodes.flatMap TNode.jobs))) := by
  have loop := @answers_allTrue _ _ _ (addNode domain name)
    (fun done => world.holding name schema (storedRows done (done.flatMap TNode.jobs)))
    (fun done node => EachAfter (AddedAfter domain) (done.flatMap TNode.jobs) node.jobs)
    [] nodes fun before node rest split =>
      answers_addNode domain quiet free complete wellFormed finds split
  exact loop.congr eachAfter_flatMap

end Adding

/-! ## The nodes of the template -/

/-- The rows of `job` in the order in which they are copied: node after node. -/
def copyRows (tables : Tables) : List JobRow :=
  tables.node.flatMap fun node => tables.job.filter (Query.runsOn (some node.nodeName))

def copyOrder (tables : Tables) : List String :=
  (copyRows tables).map JobRow.jobName

def copyNodes (tables : Tables) : List TNode :=
  tables.node.map (decodedNode domain tables)

def copyJobs (tables : Tables) : List TJob :=
  (copyRows tables).map (decodedJob domain tables)

section Template

variable {tables : Tables}

theorem copyRows_perm (keys : tables.Keys) : (copyRows tables).Perm tables.job := by
  have grouped := flatMap_filter_perm JobRow.jobNodeName keys.nodeName keys.jobNode
  rw [List.flatMap_map] at grouped
  exact grouped

theorem nodup_copyOrder (keys : tables.Keys) : (copyOrder tables).Nodup :=
  ((copyRows_perm keys).map JobRow.jobName).nodup_iff.mpr keys.jobName

theorem flatMap_copyNodes : (copyNodes domain tables).flatMap TNode.jobs =
    copyJobs domain tables := by
  rw [copyNodes, copyJobs, copyRows, List.flatMap_map, List.map_flatMap]
  rfl

theorem names_copyJobs : (copyJobs domain tables).map TJob.name = copyOrder tables := by
  rw [copyJobs, copyOrder, List.map_map]
  rfl

theorem wellFormed_decodedJob (keys : tables.Keys) (row : JobRow) :
    WellFormedJob (decodedJob domain tables row) := by
  refine ⟨rfl, ?_, ?_⟩
  · apply (keys.jobsLinkKey.filter _).map_on
    intro first firstSelected second secondSelected same
    have firstPrv := of_decide_eq_true (List.mem_filter.mp firstSelected).2
    have secondPrv := of_decide_eq_true (List.mem_filter.mp secondSelected).2
    cases first
    cases second
    simp_all
  · change ((decodedConstraints tables row.jobName).map TTimeConstraint.type).Nodup
    rw [decodedConstraints, List.map_map]
    apply ((keys.timeConstraintKey.of_map _).filter _).map_on
    intro first firstSelected second secondSelected same
    obtain ⟨firstMember, firstName⟩ := List.mem_filter.mp firstSelected
    obtain ⟨secondMember, secondName⟩ := List.mem_filter.mp secondSelected
    apply List.inj_on_of_nodup_map keys.timeConstraintKey firstMember secondMember
    exact Prod.ext same
      ((of_decide_eq_true firstName).trans (of_decide_eq_true secondName).symm)

theorem wellFormed_copyNodes (keys : tables.Keys) :
    WellFormedNodes (copyNodes domain tables) := by
  refine ⟨?_, ?_, ?_, ?_, ?_⟩
  · rw [copyNodes, List.map_map]
    exact keys.nodeName
  · rw [flatMap_copyNodes, names_copyJobs]
    exact nodup_copyOrder keys
  · intro node member
    obtain ⟨row, _, rfl⟩ := List.mem_map.mp member
    rfl
  · intro node member job jobMember
    obtain ⟨row, _, rfl⟩ := List.mem_map.mp member
    obtain ⟨jobRow, selected, rfl⟩ := List.mem_map.mp jobMember
    exact of_decide_eq_true (List.mem_filter.mp selected).2
  · intro job member
    rw [flatMap_copyNodes] at member
    obtain ⟨row, _, rfl⟩ := List.mem_map.mp member
    exact wellFormed_decodedJob domain keys row

/-- Every constraint that a job brings along is within the duration, and no link
leads to a job that is copied later. -/
structure InsertsInOrder (tables : Tables) : Prop where
  constraints : ∀ row ∈ tables.timeConstraint,
    (decodedConstraint row).value ≤ domain.planningDuration
  order : ∀ link ∈ tables.jobsLink,
    (copyOrder tables).idxOf link.jobNameNxt ≤ (copyOrder tables).idxOf link.jobNamePrv

theorem mem_decodedNext {name nxt : String} :
    nxt ∈ decodedNext tables name ↔ ⟨name, nxt⟩ ∈ tables.jobsLink := by
  simp only [decodedNext, List.mem_map, List.mem_filter, decide_eq_true_eq]
  constructor
  · rintro ⟨link, ⟨member, rfl⟩, rfl⟩
    exact member
  · intro member
    exact ⟨_, ⟨member, rfl⟩, rfl⟩

theorem mem_copyOrder (keys : tables.Keys) {name : String} :
    name ∈ copyOrder tables ↔ name ∈ tables.job.map JobRow.jobName :=
  ((copyRows_perm keys).map JobRow.jobName).mem_iff

/-- The condition on each job after those before it, as one on the rows. -/
theorem eachAfter_copyJobs_iff (keys : tables.Keys) :
    EachAfter (AddedAfter domain) [] (copyJobs domain tables) ↔
      InsertsInOrder domain tables := by
  have onRows : EachAfter (AddedAfter domain) [] (copyJobs domain tables) ↔
      ∀ before row rest, copyRows tables = before ++ row :: rest →
        AddedAfter domain (before.map (decodedJob domain tables))
          (decodedJob domain tables row) :=
    (@eachAfter_map _ _ _ (decodedJob domain tables) [] _).trans eachAfter_iff_split
  have atName : ∀ name ∈ tables.job.map JobRow.jobName,
      ∃ before row rest, copyRows tables = before ++ row :: rest ∧ row.jobName = name := by
    intro name known
    obtain ⟨row, member, rfl⟩ := List.mem_map.mp ((mem_copyOrder keys).mpr known)
    obtain ⟨before, rest, split⟩ := List.append_of_mem member
    exact ⟨before, row, rest, split, rfl⟩
  have inOrder : ∀ before row rest, copyRows tables = before ++ row :: rest → ∀ nxt,
      (nxt = row.jobName ∨ nxt ∈ before.map JobRow.jobName ↔
        (copyOrder tables).idxOf nxt ≤ (copyOrder tables).idxOf row.jobName) := by
    intro before row rest split nxt
    have distinct := nodup_copyOrder keys
    rw [copyOrder, split, List.map_append, List.map_cons] at distinct ⊢
    exact (idxOf_le_iff distinct).symm
  have namesBefore : ∀ before : List JobRow,
      (before.map (decodedJob domain tables)).map TJob.name = before.map JobRow.jobName := by
    intro before
    rw [List.map_map]
    rfl
  rw [onRows]
  constructor
  · intro each
    refine ⟨fun row member => ?_, fun link member => ?_⟩
    · obtain ⟨before, jobRow, rest, split, name⟩ := atName _ (keys.timeConstraintJob row member)
      apply (each before jobRow rest split).1 (decodedConstraint row)
      exact List.mem_map_of_mem (List.mem_filter.mpr ⟨member, decide_eq_true name.symm⟩)
    · obtain ⟨before, jobRow, rest, split, name⟩ := atName _ (keys.jobsLinkPrv link member)
      have following : link.jobNameNxt ∈ decodedNext tables jobRow.jobName := by
        rw [mem_decodedNext, name]
        exact member
      have done := (each before jobRow rest split).2 link.jobNameNxt following
      rw [namesBefore] at done
      rw [← name]
      exact (inOrder before jobRow rest split _).mp done
  · intro inserts before row rest split
    refine ⟨fun constraint member => ?_, fun nxt member => ?_⟩
    · obtain ⟨constraintRow, selected, rfl⟩ := List.mem_map.mp member
      exact inserts.constraints constraintRow (List.mem_filter.mp selected).1
    · rw [namesBefore]
      exact (inOrder before row rest split nxt).mpr
        (inserts.order _ (mem_decodedNext.mp member))

end Template

end OpenWorkloadScheduler.Domain
