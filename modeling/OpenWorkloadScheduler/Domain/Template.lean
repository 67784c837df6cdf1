import OpenWorkloadScheduler.Domain.Planning
import OpenWorkloadScheduler.Foundations.Decoding
import OpenWorkloadScheduler.Store.Loading

/-!
# Reading a whole schema

What `get_nodes` makes of the rows of a complete schema when no call of MySQL
fails: the condition under which every text is decoded, and the nodes that it
returns then.
-/

namespace OpenWorkloadScheduler.Domain

open Rpc Store Foundations

/-! ## Numbers as texts -/

/-- The value can be held by a signed type of `bits` bits. -/
def Fits (bits : Nat) (value : Int) : Prop :=
  -2 ^ (bits - 1) ≤ value ∧ value < 2 ^ (bits - 1)

instance (bits : Nat) (value : Int) : Decidable (Fits bits value) :=
  inferInstanceAs (Decidable (_ ∧ _))

theorem narrow_of_fits {value : Int} (fits : Fits 16 value) : Integer.narrow value = value :=
  (Integer.narrow_eq_self_iff value).mpr fits

theorem lexicalCast_toString_eq (bits : Nat) (value : Int) :
    lexicalCast bits (toString value) = if Fits bits value then some value else none :=
  lexicalCast_toString bits value

theorem yields_cast (bits : Nat) (value : Int) (world : World) :
    Yields (lift (cast bits (toString value))) world (Fits bits value) value := by
  unfold cast
  rw [lexicalCast_toString_eq]
  by_cases fits : Fits bits value
  · rw [if_pos fits]
    exact (yields_pure value).congr (by simp [fits])
  · rw [if_neg fits]
    exact (yields_throw badLexicalCast value).congr (by simp [fits])

/-- The text of a number is neither empty nor the text that stands for NULL. -/
theorem isSet_toString (value : Int) : isSet (toString value) := by
  have parsed := decimalValue_toString value
  constructor
  · rw [Nat.pos_iff_ne_zero]
    intro empty
    rw [String.length_eq_zero_iff.mp empty] at parsed
    cases parsed
  · intro null
    rw [null] at parsed
    cases parsed

theorem not_isSet_null : ¬ isSet "NULL" :=
  fun set => set.2 rfl

theorem isDigit_lt {letter : Char} (digit : letter.isDigit = true) : letter < 'N' := by
  have atMost : letter ≤ '9' := by
    simp only [Char.isDigit, Bool.and_eq_true, decide_eq_true_eq] at digit
    exact digit.2
  exact Char.not_le.mp fun above => absurd (Char.le_trans above atMost) (by decide)

/-- A decimal text begins with a digit or with the minus sign. -/
theorem head_of_decimalValue {text : List Char} {value : Int}
    (parsed : decimalValue text = some value) :
    ∃ letter letters, text = letter :: letters ∧ letter < 'N' := by
  cases text with
  | nil => cases parsed
  | cons letter letters =>
      refine ⟨letter, letters, rfl, ?_⟩
      by_cases minus : letter = '-'
      · rw [minus]
        decide
      · rw [decimalValue] at parsed
        · obtain ⟨number, digits, _⟩ := Option.map_eq_some_iff.mp parsed
          unfold digitsValue at digits
          split at digits
          · rename_i all
            exact isDigit_lt (List.all_eq_true.mp all.2 letter List.mem_cons_self)
          · cases digits
        · rintro _ ⟨⟩
          exact minus rfl

theorem not_null_lt_toString (value : Int) : ¬ "NULL" < toString value := by
  obtain ⟨letter, letters, text, before⟩ := head_of_decimalValue (decimalValue_toString value)
  change ¬ "NULL".toList < (toString value).toList
  rw [text]
  intro greater
  rcases List.cons_lt_cons_iff.mp greater with above | ⟨same, _⟩
  · exact Char.lt_asymm before above
  · exact Char.ne_of_lt before same.symm

/-! ## Selections from a complete schema -/

/-- The schema of the given name is complete, and no call of MySQL fails. -/
structure Readable (world : World) (name : String) (schema : Schema) : Prop where
  quiet : Mysql.Quiet world
  found : world.server.schema? name = some schema
  complete : schema.Complete

/-- Beyond this, the server reads the names as they are meant, and tells them from those in
the tables. -/
structure ReadableFor (names : List String) (world : World) (name : String)
    (schema : Schema) : Prop extends Readable world name schema where
  plain : Plain (names ++ schema.tables.names)

theorem jobsLink_mem : "jobs_link" ∈ skeletonBaseTables := by
  decide

theorem timeConstraint_mem : "time_constraint" ∈ skeletonBaseTables := by
  decide

theorem recoveryType_mem : "recovery_type" ∈ skeletonBaseTables := by
  decide

theorem job_mem : "job" ∈ skeletonBaseTables := by
  decide

theorem resource_mem : "resource" ∈ skeletonBaseTables := by
  decide

theorem node_mem : "node" ∈ skeletonBaseTables := by
  decide

section Reading

variable {world : World} {name : String} {schema : Schema}

theorem Readable.exist (readable : Readable world name schema) :
    Mysql.Exists (some name) world.server := by
  rintro _ ⟨⟩
  rw [readable.found]
  rfl

theorem Readable.run {query : Query} {rows : List Query.ResultRow}
    (readable : Readable world name schema) (relation : query.relation ∈ skeletonBaseTables)
    (selected : query.select schema.tables world.now = .ok rows) :
    query.run (some name) world.server world.now = .ok rows := by
  have selection : query.relation ≠ "" := by
    intro none
    rw [none] at relation
    exact absurd relation (by decide)
  rw [Query.run_eq_runOn selection]
  exact Query.runOn_eq_ok_iff.mpr ⟨schema, readable.found,
    Or.inl (readable.complete.baseTables _ relation), selected⟩

theorem Readable.queryFullResult {rows : List Query.ResultRow}
    (readable : Readable world name schema) (query : Query)
    (relation : query.relation ∈ skeletonBaseTables)
    (selected : query.select schema.tables world.now = .ok rows) :
    Mysql.queryFullResult query (some name) world =
      .ok (some (rows.map fun row => row.map fun column => column.getD "NULL")) world :=
  Mysql.queryFullResult_of_quiet readable.quiet readable.exist (readable.run relation selected)

theorem Readable.queryOneRow {rows : List Query.ResultRow}
    (readable : Readable world name schema) (query : Query)
    (relation : query.relation ∈ skeletonBaseTables)
    (selected : query.select schema.tables world.now = .ok rows) :
    Mysql.queryOneRow query (some name) world =
      .ok (some (rows.flatMap fun row => row.filterMap id)) world :=
  Mysql.queryOneRow_of_quiet readable.quiet readable.exist (readable.run relation selected)

end Reading

/-! ## Resources, links and constraints -/

theorem readResource_error (row : ResourceRow) :
    ∃ raised, readResource ((Query.resourceRow row).map fun column => column.getD "NULL") =
      .error raised := by
  have refused : resourceValue (toString row.resourceCurrentValue) =
      .error (.exProcessing
        ("cannot cast " ++ toString row.resourceCurrentValue ++ " to integer")) := by
    rw [resourceValue, if_neg fun ⟨_, greater⟩ => not_null_lt_toString _ greater]
    rfl
  change ∃ raised, (do
    let currentValue ← resourceValue (toString row.resourceCurrentValue)
    let initialValue ← resourceValue (toString row.resourceInitialValue)
    return { name := row.resourceNodeName, currentValue, initialValue :
      TResource} : Except Raised TResource) = .error raised
  rw [refused]
  exact ⟨_, rfl⟩

/-- `get_resources` returns only where there is no resource: no text of a number
is greater than `NULL`. -/
theorem yields_getResources {world : World} {name : String} {schema : Schema}
    (readable : Readable world name schema) :
    Yields (getResources name) world (schema.tables.resource = []) [] := by
  apply yields_bind_of_ok (readable.queryFullResult .resources resource_mem rfl)
  dsimp only
  cases resources : schema.tables.resource with
  | nil => exact (yields_pure []).congr (by simp)
  | cons row rows =>
      obtain ⟨raised, refused⟩ := readResource_error row
      obtain ⟨first, left⟩ := mapM_error List.mem_cons_self refused
      rw [List.map_cons, List.map_cons, left]
      exact (yields_throw first []).congr (by simp)

/-- The successors of a job, as `get_jobs_next` reads them. -/
def decodedNext (tables : Tables) (name : String) : List String :=
  (tables.jobsLink.filter fun row => row.jobNamePrv = name).map JobsLinkRow.jobNameNxt

theorem getJobsNext_of_readable {world : World} {name : String} {schema : Schema}
    (readable : Readable world name schema) (jobName : String) :
    getJobsNext name jobName world = .ok (decodedNext schema.tables jobName) world := by
  have decoded : ((schema.tables.jobsLink.filter fun row => row.jobNamePrv = jobName).map
      fun row => [row.jobNameNxt]).mapM (fun row => column row 0) =
        .ok (decodedNext schema.tables jobName) := by
    rw [decodedNext, List.mapM_map]
    exact mapM_ok fun row _ => rfl
  rw [getJobsNext, bind_of_ok (readable.queryFullResult (.jobsNext jobName) jobsLink_mem rfl)]
  dsimp only
  rw [List.map_map]
  exact congrArg (fun result => lift result world) decoded

/-- A constraint, as `get_time_constraints` reads it: a value that is no
`integer` becomes zero. -/
def decodedConstraint (row : TimeConstraintRow) : TTimeConstraint where
  jobName := row.timeCJobName
  type := row.timeCType
  value := if Fits 16 row.timeCValue then row.timeCValue else 0

def decodedConstraints (tables : Tables) (name : String) : List TTimeConstraint :=
  (tables.timeConstraint.filter fun row => row.timeCJobName = name).map decodedConstraint

theorem readTimeConstraint_ok (row : TimeConstraintRow) :
    readTimeConstraint ((Query.timeConstraintRow row).map fun column => column.getD "NULL") =
      .ok (decodedConstraint row) := by
  change (do
    let type ← buildTimeConstraintTypeFromString (buildStringFromTimeConstraintType row.timeCType)
    return {
      jobName := row.timeCJobName, type,
      value := (lexicalCast 16 (toString row.timeCValue)).getD 0 : TTimeConstraint } :
      Except Raised TTimeConstraint) = _
  rw [buildTimeConstraintTypeFromString_build, lexicalCast_toString_eq]
  unfold decodedConstraint
  split <;> rfl

theorem getTimeConstraints_of_readable {world : World} {name : String} {schema : Schema}
    (readable : Readable world name schema) (jobName : String) :
    getTimeConstraints name jobName world =
      .ok (decodedConstraints schema.tables jobName) world := by
  have decoded : (schema.tables.timeConstraint.filter fun row =>
      row.timeCJobName = jobName).mapM (fun row => readTimeConstraint
        ((Query.timeConstraintRow row).map fun column => column.getD "NULL")) =
          .ok (decodedConstraints schema.tables jobName) :=
    mapM_ok fun row _ => readTimeConstraint_ok row
  rw [getTimeConstraints,
    bind_of_ok (readable.queryFullResult (.timeConstraints jobName) timeConstraint_mem rfl)]
  dsimp only
  rw [List.map_map, List.mapM_map]
  exact congrArg (fun result => lift result world) decoded

/-! ## Recovery types -/

/-- The row that `get_recovery_type` finds with the one letter of its text. -/
def recoveryRow (tables : Tables) (id : Int) : Option RecoveryTypeRow :=
  (Query.literalNumber (characterOf id)).bind fun number =>
    tables.recoveryType.find? fun row => row.rectypeId = number

def decodedRecovery (row : RecoveryTypeRow) : TRecoveryType where
  id := Integer.narrow row.rectypeId
  shortLabel := row.rectypeShortLabel
  label := row.rectypeLabel
  action := row.rectypeAction

/-- The recovery type of a job is found and decoded. -/
def RecoveryReadable (tables : Tables) (id : Int) : Prop :=
  ∃ row, recoveryRow tables id = some row ∧ Fits 32 row.rectypeId

theorem yields_lift_bind {Alpha Beta : Type} {first : Except Raised Alpha}
    {next : Alpha → Except Raised Beta} {world : World} {condition nextCondition : Prop}
    {middle : Alpha} {value : Beta} (firstYields : Yields (lift first) world condition middle)
    (nextYields : Yields (lift (next middle)) world nextCondition value) :
    Yields (lift (first >>= next)) world (condition ∧ nextCondition) value := by
  rw [lift_bind]
  exact yields_bind firstYields nextYields

theorem yields_lift_bind_of_ok {Alpha Beta : Type} {first : Except Raised Alpha}
    {next : Alpha → Except Raised Beta} {world : World} {condition : Prop} {middle : Alpha}
    {value : Beta} (ran : first = .ok middle)
    (nextYields : Yields (lift (next middle)) world condition value) :
    Yields (lift (first >>= next)) world condition value := by
  rw [ran]
  exact nextYields

theorem yields_readRecoveryType (row : RecoveryTypeRow) (others : List String)
    (world : World) :
    Yields (lift (readRecoveryType ((Query.recoveryTypeRow row).filterMap id ++ others))) world
      (Fits 32 row.rectypeId) (decodedRecovery row) := by
  apply yields_lift_bind_of_ok (rfl : column _ 0 = .ok (toString row.rectypeId))
  rw [lexicalCast_toString_eq]
  by_cases fits : Fits 32 row.rectypeId
  · rw [if_pos fits]
    have action := buildRectypeActionFromString_build row.rectypeAction
    apply yields_lift_bind_of_ok (rfl : column _ 1 = .ok row.rectypeShortLabel)
    apply yields_lift_bind_of_ok (rfl : column _ 2 = .ok row.rectypeLabel)
    refine yields_lift_bind_of_ok
      (rfl : column _ 3 = .ok (buildStringFromRectypeAction row.rectypeAction)) ?_
    apply yields_lift_bind_of_ok action
    exact (yields_pure (decodedRecovery row)).congr (by simp [fits])
  · rw [if_neg fits]
    exact (yields_throw _ _).congr (by simp [fits])

theorem yields_getRecoveryType {world : World} {name : String} {schema : Schema}
    (readable : Readable world name schema) (id : Int) :
    Yields (getRecoveryType name id) world (RecoveryReadable schema.tables id)
      ((recoveryRow schema.tables id).elim {} decodedRecovery) := by
  unfold RecoveryReadable recoveryRow
  cases literal : Query.literalNumber (characterOf id) with
  | none =>
      have failure : ∀ rows, (Query.recoveryType (characterOf id)).run (some name)
          world.server world.now ≠ .ok rows := by
        intro rows
        rw [Query.run_eq_runOn (by simp [Query.relation]), Ne, Query.runOn_eq_ok_iff]
        rintro ⟨_, _, _, selected⟩
        simp [Query.select, literal] at selected
      rw [getRecoveryType]
      refine yields_bind_of_ok
        (Mysql.queryOneRow_of_quiet_failure readable.quiet readable.exist failure) ?_
      exact (yields_throw _ _).congr (by simp)
  | some number =>
      have selected : (Query.recoveryType (characterOf id)).select schema.tables world.now =
          .ok ((schema.tables.recoveryType.filter fun row => row.rectypeId = number).map
            Query.recoveryTypeRow) := by
        simp [Query.select, literal]
      refine yields_bind_of_ok
        (readable.queryOneRow (.recoveryType (characterOf id)) recoveryType_mem selected) ?_
      rw [Option.bind_some, ← List.head?_filter]
      dsimp only
      cases schema.tables.recoveryType.filter fun row => row.rectypeId = number with
      | nil => exact (yields_throw _ _).congr (by simp)
      | cons row rows => exact (yields_readRecoveryType row _ world).congr (by simp)

/-! ## Jobs -/

theorem yields_castWeight (query : String) (weight : Int) (world : World) :
    Yields (lift (castWeight (toString weight) query)) world (Fits 32 weight)
      (Integer.narrow weight) := by
  unfold castWeight
  rw [lexicalCast_toString_eq]
  by_cases fits : Fits 32 weight
  · rw [if_pos fits]
    exact (yields_pure _).congr (by simp [fits])
  · rw [if_neg fits]
    exact (yields_throw _ _).congr (by simp [fits])

theorem yields_jobState (state : Option EJobState) (world : World) :
    Yields (lift (buildJobStateFromString
      ((state.map buildStringFromJobState).getD "NULL"))) world (state ≠ none)
        (state.getD .waiting) := by
  cases state with
  | none =>
      rw [Option.map_none, Option.getD_none, buildJobStateFromString_null]
      exact (yields_throw _ _).congr (by simp)
  | some state =>
      rw [Option.map_some, Option.getD_some, buildJobStateFromString_build]
      exact (yields_pure _).congr (by simp)

/-- A job as the first five columns of a selection give it. -/
def basicJob (domainName : String) (row : JobRow) : TJob where
  domain := domainName
  name := row.jobName
  nodeName := row.jobNodeName
  cmdLine := row.jobCmdLine
  weight := Integer.narrow row.jobWeight
  state := row.jobState.getD .waiting

/-- The texts of a row of `job`. -/
def jobTexts (row : JobRow) : List String :=
  (Query.jobRow row).map fun column => column.getD "NULL"

theorem yields_readJob (domainName query : String) (row : JobRow) (others : List String)
    (world : World) :
    Yields (lift (readJob domainName query (jobTexts row ++ others))) world
      (Fits 32 row.jobWeight ∧ row.jobState ≠ none) (basicJob domainName row) := by
  refine yields_lift_bind_of_ok rfl (yields_lift_bind_of_ok rfl
    (yields_lift_bind_of_ok rfl (yields_lift_bind_of_ok rfl ?_)))
  apply yields_lift_bind (yields_castWeight query row.jobWeight world)
  apply yields_lift_bind_of_ok rfl
  refine (yields_lift_bind (yields_jobState row.jobState world) ?_).congr
    (iff_of_eq (and_true _))
  exact yields_pure (basicJob domainName row)

theorem yields_readTime (time : Option Int) (world : World) :
    Yields (lift (readTime ((time.map toString).getD "NULL"))) world
      (∀ value ∈ time, Fits 64 value) (time.getD 0) := by
  cases time with
  | none =>
      rw [Option.map_none, Option.getD_none, readTime, if_neg not_isSet_null]
      exact (yields_pure 0).congr (by simp)
  | some value =>
      rw [Option.map_some, Option.getD_some, readTime, if_pos (isSet_toString value)]
      exact (yields_cast 64 value world).congr (by simp)

/-- Every text of the row is decoded. -/
structure JobReadable (tables : Tables) (row : JobRow) : Prop where
  weight : Fits 32 row.jobWeight
  state : row.jobState ≠ none
  startTime : ∀ value ∈ row.jobStartTime, Fits 64 value
  stopTime : ∀ value ∈ row.jobStopTime, Fits 64 value
  recoveryType : ∀ id ∈ row.jobRectypeId, Fits 32 id ∧ RecoveryReadable tables id

variable (domain : Domain)

/-- A job as `get_jobs` returns it. -/
def decodedJob (tables : Tables) (row : JobRow) : TJob :=
  { basicJob domain.name row with
    startTime := row.jobStartTime.getD 0
    stopTime := row.jobStopTime.getD 0
    nxt := decodedNext tables row.jobName
    timeConstraints := decodedConstraints tables row.jobName
    recoveryType := row.jobRectypeId.elim {} fun id =>
      (recoveryRow tables id).elim {} decodedRecovery }

theorem yields_readJobTimes (query : String) (row : JobRow) (world : World) :
    Yields (lift (readJobTimes domain query
        ((Query.jobRowTimes row).map fun column => column.getD "NULL"))) world
      ((Fits 32 row.jobWeight ∧ row.jobState ≠ none) ∧
        (∀ value ∈ row.jobStartTime, Fits 64 value) ∧
          ∀ value ∈ row.jobStopTime, Fits 64 value)
      { basicJob domain.name row with
        startTime := row.jobStartTime.getD 0, stopTime := row.jobStopTime.getD 0 } := by
  apply yields_lift_bind (yields_readJob domain.name query row _ world)
  apply yields_lift_bind_of_ok rfl
  apply yields_lift_bind (yields_readTime row.jobStartTime world)
  apply yields_lift_bind_of_ok rfl
  refine (yields_lift_bind (yields_readTime row.jobStopTime world) ?_).congr
    (iff_of_eq (and_true _))
  exact yields_pure { basicJob domain.name row with
    startTime := row.jobStartTime.getD 0, stopTime := row.jobStopTime.getD 0 }

theorem yields_recoveryOf {world : World} {name : String} {schema : Schema}
    (readable : Readable world name schema) (rectypeId : Option Int)
    {next : TRecoveryType → Action TJob} {job : TJob}
    (nextYields : Yields (next (rectypeId.elim {} fun id =>
      (recoveryRow schema.tables id).elim {} decodedRecovery)) world True job) :
    Yields (if isSet ((rectypeId.map toString).getD "NULL") then
        lift (cast 32 ((rectypeId.map toString).getD "NULL")) >>= fun id =>
          getRecoveryType name id >>= next
      else next {}) world
      (∀ id ∈ rectypeId, Fits 32 id ∧ RecoveryReadable schema.tables id) job := by
  cases rectypeId with
  | none =>
      rw [Option.map_none, Option.getD_none, if_neg not_isSet_null]
      exact nextYields.congr (by simp)
  | some id =>
      rw [Option.map_some, Option.getD_some, if_pos (isSet_toString id)]
      refine (yields_bind (yields_cast 32 id world)
        (yields_bind (yields_getRecoveryType readable id) nextYields)).congr ?_
      simp

theorem yields_completeJob {world : World} {name : String} {schema : Schema}
    (readable : Readable world name schema) (query : String) (row : JobRow) :
    Yields (completeJob domain name query
        ((Query.jobRowTimes row).map fun column => column.getD "NULL")) world
      (JobReadable schema.tables row) (decodedJob domain schema.tables row) := by
  have decoded : Yields (completeJob domain name query
      ((Query.jobRowTimes row).map fun column => column.getD "NULL")) world
      (((Fits 32 row.jobWeight ∧ row.jobState ≠ none) ∧
        (∀ value ∈ row.jobStartTime, Fits 64 value) ∧
          ∀ value ∈ row.jobStopTime, Fits 64 value) ∧
        ∀ id ∈ row.jobRectypeId, Fits 32 id ∧ RecoveryReadable schema.tables id)
      (decodedJob domain schema.tables row) := by
    apply yields_bind (yields_readJobTimes domain query row world)
    apply yields_bind_of_ok (getJobsNext_of_readable readable row.jobName)
    apply yields_bind_of_ok (getTimeConstraints_of_readable readable row.jobName)
    apply yields_bind_of_ok rfl
    exact yields_recoveryOf readable row.jobRectypeId
      (yields_pure (decodedJob domain schema.tables row))
  refine decoded.congr ⟨?_, ?_⟩
  · rintro ⟨⟨⟨weight, state⟩, startTime, stopTime⟩, recoveryType⟩
    exact ⟨weight, state, startTime, stopTime, recoveryType⟩
  · rintro ⟨weight, state, startTime, stopTime, recoveryType⟩
    exact ⟨⟨⟨weight, state⟩, startTime, stopTime⟩, recoveryType⟩

theorem yields_getJobs {world : World} {name : String} {schema : Schema}
    (readable : Readable world name schema) (runningNode : Option String) :
    Yields (getJobs domain name runningNode) world
      (∀ row ∈ schema.tables.job.filter (Query.runsOn runningNode),
        JobReadable schema.tables row)
      ((schema.tables.job.filter (Query.runsOn runningNode)).map
        (decodedJob domain schema.tables)) := by
  apply yields_bind_of_ok (readable.queryFullResult (.jobs runningNode) job_mem rfl)
  dsimp only
  rw [List.map_map, List.mapM_map]
  exact yields_mapM fun row _ => yields_completeJob domain readable _ row

/-! ## Nodes -/

/-- Every text that `get_node` reads for the row is decoded. -/
structure NodeReadable (tables : Tables) (row : NodeRow) : Prop where
  weight : Fits 16 row.nodeWeight
  resource : tables.resource = []
  job : ∀ job ∈ tables.job.filter (Query.runsOn (some row.nodeName)), JobReadable tables job

/-- A node as `get_nodes` returns it. -/
def decodedNode (tables : Tables) (row : NodeRow) : TNode where
  name := row.nodeName
  weight := row.nodeWeight
  domainName := domain.name
  jobs := (tables.job.filter (Query.runsOn (some row.nodeName))).map (decodedJob domain tables)

theorem filter_nodeName {tables : Tables} (keys : tables.Keys) {row : NodeRow}
    (member : row ∈ tables.node) :
    (tables.node.filter fun other => other.nodeName = row.nodeName) = [row] := by
  have unique : ∀ other ∈ tables.node.filter fun other => other.nodeName = row.nodeName,
      other = row := by
    intro other selected
    obtain ⟨otherMember, sameName⟩ := List.mem_filter.mp selected
    exact List.inj_on_of_nodup_map keys.nodeName otherMember member (of_decide_eq_true sameName)
  have found : row ∈ tables.node.filter fun other => other.nodeName = row.nodeName :=
    List.mem_filter.mpr ⟨member, decide_eq_true rfl⟩
  have distinct := (keys.nodeName.of_map _).filter
    fun other => decide (other.nodeName = row.nodeName)
  generalize tables.node.filter (fun other => other.nodeName = row.nodeName) = selection
    at unique found distinct
  cases selection with
  | nil => cases found
  | cons first others =>
      have head := unique first List.mem_cons_self
      cases others with
      | nil => rw [head]
      | cons second others =>
          have next := unique second (List.mem_cons_of_mem first List.mem_cons_self)
          rw [head, next] at distinct
          exact absurd List.mem_cons_self (List.nodup_cons.mp distinct).1

theorem yields_getNode {world : World} {name : String} {schema : Schema}
    (readable : Readable world name schema) (keys : schema.tables.Keys) {row : NodeRow}
    (member : row ∈ schema.tables.node) :
    Yields (getNode domain name row.nodeName) world (NodeReadable schema.tables row)
      (decodedNode domain schema.tables row) := by
  have selected := filter_nodeName keys member
  have decoded : Yields (getNode domain name row.nodeName) world
      (Fits 16 row.nodeWeight ∧ schema.tables.resource = [] ∧
        (∀ job ∈ schema.tables.job.filter (Query.runsOn (some row.nodeName)),
          JobReadable schema.tables job) ∧ True)
      (decodedNode domain schema.tables row) := by
    refine yields_bind_of_ok
      (readable.queryOneRow (.node row.nodeName) node_mem (by rw [Query.select, selected])) ?_
    apply yields_bind_of_ok rfl
    apply yields_bind (yields_cast 16 row.nodeWeight world)
    apply yields_bind (yields_getResources readable)
    apply yields_bind (yields_getJobs domain readable (some row.nodeName))
    exact yields_pure (decodedNode domain schema.tables row)
  refine decoded.congr ⟨?_, ?_⟩
  · rintro ⟨weight, resource, job, _⟩
    exact ⟨weight, resource, job⟩
  · rintro ⟨weight, resource, job⟩
    exact ⟨weight, resource, job, trivial⟩

theorem yields_completeNode {world : World} {name : String} {schema : Schema}
    (readable : Readable world name schema) (keys : schema.tables.Keys) {row : NodeRow}
    (member : row ∈ schema.tables.node) :
    Yields (completeNode domain name
        ((Query.nodeRow row).map fun column => column.getD "NULL")) world
      (NodeReadable schema.tables row) (decodedNode domain schema.tables row) := by
  have yields := yields_getNode domain readable keys member
  refine yields_bind_of_ok rfl (yields_bind_of_ok rfl ⟨?_, ?_⟩)
  · intro nodeReadable
    have text : (lexicalCast 16 (toString row.nodeWeight)).getD 0 = row.nodeWeight := by
      rw [lexicalCast_toString_eq, if_pos nodeReadable.weight]
      rfl
    apply (bind_of_ok (yields.returns nodeReadable)).trans
    change (if row.nodeName = "" then
        pure { decodedNode domain schema.tables row with
          name := row.nodeName, weight := (lexicalCast 16 (toString row.nodeWeight)).getD 0 }
      else pure (decodedNode domain schema.tables row) : Action TNode) world = _
    rw [text]
    split <;> rfl
  · intro fails
    exact raises_bind (yields.refuses fails)

theorem yields_getNodes {world : World} {name : String} {schema : Schema}
    (readable : Readable world name schema) (keys : schema.tables.Keys) :
    Yields (getNodes domain name) world
      (∀ row ∈ schema.tables.node, NodeReadable schema.tables row)
      (schema.tables.node.map (decodedNode domain schema.tables)) := by
  apply yields_bind_of_ok (readable.queryFullResult .nodes node_mem rfl)
  dsimp only
  rw [List.map_map, List.mapM_map]
  exact yields_mapM fun row member => yields_completeNode domain readable keys member

end OpenWorkloadScheduler.Domain
