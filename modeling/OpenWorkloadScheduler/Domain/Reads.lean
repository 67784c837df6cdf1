import OpenWorkloadScheduler.Store.Transactions

/-!
# The methods of `Domain` that read

Each method decodes the texts of a result into the structures of the service.
`vector::operator[]` past the end is undefined behaviour; the conversions raise
`bad_lexical_cast` where the source does not catch it.
-/

namespace OpenWorkloadScheduler

open Rpc Store Foundations

/-- The attributes of the class `Domain` that its constructor sets once. -/
structure Domain where
  name : String
  initialPlanningStartTime : Int
  planningDuration : Int
  deriving DecidableEq, Repr

namespace Domain

variable (domain : Domain)

/-- Leave a method as a conversion does. -/
def lift {Alpha : Type} : Except Raised Alpha → Action Alpha
  | .ok value => pure value
  | .error raised => throw raised

theorem lift_bind {Alpha Beta : Type} (first : Except Raised Alpha)
    (next : Alpha → Except Raised Beta) :
    lift (first >>= next) = lift first >>= fun value => lift (next value) := by
  cases first <;> rfl

/-- The text of `what()`: the exceptions of the service do not override it. -/
def what : Raised → String
  | .standard what => what
  | _ => "Default TException."

/-- `row[index]`. -/
def column (row : List String) (index : Nat) : Except Raised String :=
  match row[index]? with
  | some text => .ok text
  | none => .error (.undefinedBehaviour "vector::operator[]")

/-- `row.at(index)`. -/
def columnAt (row : List String) (index : Nat) : Except Raised String :=
  match row[index]? with
  | some text => .ok text
  | none => .error (.standard "vector::_M_range_check")

/-- `boost::lexical_cast` to a signed type of `bits` bits. -/
def cast (bits : Nat) (text : String) : Except Raised Int :=
  match lexicalCast bits text with
  | some value => .ok value
  | none => .error badLexicalCast

def castMessage (text query what : String) : String :=
  "cannot cast value " ++ text ++ " to integer. Query is " ++ query ++ ". Exception is " ++
    what

/-- A weight column: it is read as an `int` and stored as an `integer`. -/
def castWeight (text query : String) : Except Raised Integer :=
  match lexicalCast 32 text with
  | some value => .ok (Integer.narrow value)
  | none => .error (.exProcessing (castMessage text query (what badLexicalCast)))

/-- What `+=` of a number on a string appends: one character. -/
def characterOf (value : Int) : Char :=
  Char.ofNat (value % 256).toNat

/-- The text of a nullable column is a value. -/
def isSet (text : String) : Prop :=
  0 < text.length ∧ text ≠ "NULL"

instance (text : String) : Decidable (isSet text) :=
  inferInstanceAs (Decidable (_ ∧ _))

/-! ## Resources, links and constraints -/

/-- The value columns of `get_resources`, which asks for a text that is greater
than `NULL`. -/
def resourceValue (text : String) : Except Raised Integer := do
  if 0 < text.length ∧ "NULL" < text then
    return Integer.narrow (← cast 32 text)
  else
    throw (.exProcessing ("cannot cast " ++ text ++ " to integer"))

def readResource (row : List String) : Except Raised TResource := do
  let name ← column row 1
  let currentValue ← resourceValue (← column row 2)
  let initialValue ← resourceValue (← column row 3)
  return { name, currentValue, initialValue }

def getResources (domainName : String) : Action (List TResource) := do
  match ← Mysql.queryFullResult .resources (some domainName) with
  | none => throw (.exJob "The query failed")
  | some rows => lift (rows.mapM readResource)

def getJobsNext (domainName name : String) : Action (List String) := do
  match ← Mysql.queryFullResult (.jobsNext name) (some domainName) with
  | none => throw (.exJob "The query failed")
  | some rows => lift (rows.mapM fun row => column row 0)

/-- A value that is no `integer` is left at its default: the exception is built
and not thrown. -/
def readTimeConstraint (row : List String) : Except Raised TTimeConstraint := do
  let jobName ← column row 0
  let type ← buildTimeConstraintTypeFromString (← column row 1)
  let text ← column row 2
  return { jobName, type, value := (lexicalCast 16 text).getD 0 }

def getTimeConstraints (domainName jobName : String) : Action (List TTimeConstraint) := do
  match ← Mysql.queryFullResult (.timeConstraints jobName) (some domainName) with
  | none => throw (.exJob "The query failed")
  | some rows => lift (rows.mapM readTimeConstraint)

/-! ## Recovery types -/

def readRecoveryType (row : List String) : Except Raised TRecoveryType := do
  let text ← column row 0
  match lexicalCast 32 text with
  | none =>
      throw (.exProcessing ("cannot cast " ++ text ++ " to integer - " ++
        what (.exProcessing "")))
  | some id =>
      let shortLabel ← column row 1
      let label ← column row 2
      let action ← buildRectypeActionFromString (← column row 3)
      return { id := Integer.narrow id, shortLabel, label, action }

def getRecoveryType (domainName : String) (recId : Int) : Action TRecoveryType := do
  match ← Mysql.queryOneRow (.recoveryType (characterOf recId)) (some domainName) with
  | none => throw (.exJob "The query failed")
  | some row => lift (readRecoveryType row)

/-! ## Jobs -/

/-- The columns that every selection of jobs decodes alike. -/
def readJob (domainName query : String) (row : List String) : Except Raised TJob := do
  let name ← column row 0
  let nodeName ← column row 2
  let cmdLine ← column row 1
  let weight ← castWeight (← column row 3) query
  let state ← buildJobStateFromString (← column row 4)
  return { domain := domainName, name, nodeName, cmdLine, weight, state }

/-- The time columns of `get_jobs`. -/
def readTime (text : String) : Except Raised Int :=
  if isSet text then cast 64 text else .ok 0

def readJobTimes (query : String) (row : List String) : Except Raised TJob := do
  let job ← readJob domain.name query row
  let startTime ← readTime (← column row 6)
  let stopTime ← readTime (← column row 7)
  return { job with startTime, stopTime }

/-- The body of the loop of `get_jobs`. -/
def completeJob (domainName query : String) (row : List String) : Action TJob := do
  let job ← lift (readJobTimes domain query row)
  let nxt ← getJobsNext domainName job.name
  let timeConstraints ← getTimeConstraints domainName job.name
  let text ← lift (column row 5)
  let recoveryType ←
    if isSet text then do
      getRecoveryType domainName (← lift (cast 32 text))
    else
      pure {}
  return { job with nxt, timeConstraints, recoveryType }

def getJobs (domainName : String) (runningNode : Option String) : Action (List TJob) := do
  let query := Query.jobs runningNode
  match ← Mysql.queryFullResult query (some domainName) with
  | none => throw (.exJob "The query failed")
  | some rows => rows.mapM (completeJob domain domainName query.text)

def getJob (domainName : String) (runningNode : Option String) (jobName : String) :
    Action TJob := do
  match ← Mysql.queryOneRow (.job jobName runningNode) (some domainName) with
  | none => throw (.exJob "The query failed")
  | some row =>
      let name ← lift (column row 0)
      let nodeName ← lift (column row 2)
      let cmdLine ← lift (column row 1)
      let weight ← lift (do cast 32 (← column row 3))
      let state ← lift (do buildJobStateFromString (← column row 4))
      let nxt ← getJobsNext domainName name
      let timeConstraints ← getTimeConstraints domainName name
      return {
        domain := domain.name, name, nodeName, cmdLine, weight := Integer.narrow weight,
        state, nxt, timeConstraints }

/-! ## Ready jobs -/

/-- `Domain::get_current_planning_name`. -/
def planningName (startTime : Int) : String :=
  domain.name ++ "_" ++ toString startTime

def getCurrentPlanningName : Action String := do
  return planningName domain (← get).planningStartTime

/-- The checks of the constructor `Job::Job`. -/
def checkJob (job : TJob) : Except Raised TJob :=
  if job.name = "" then .error (.exJob "Empty name")
  else if job.nodeName = "" then .error (.exJob "Empty node_name")
  else if job.cmdLine = "" then .error (.exJob "Empty command line")
  else if job.domain = "" then .error (.exJob "Empty domain name")
  else .ok job

/-- The loop of `get_ready_jobs`: the jobs pushed so far stay in the output when
a row raises. -/
def readyJobs (planning query : String) : List (List String) → List TJob × Option Raised
  | [] => ([], none)
  | row :: rows =>
      match (do checkJob (← readJob planning query row) : Except Raised TJob) with
      | .error raised => ([], some raised)
      | .ok job =>
          let (jobs, raised) := readyJobs planning query rows
          (job :: jobs, raised)

/-- `Domain::get_ready_jobs` on the `Job` objects: what it has pushed, and the
exception that its loop was left by. -/
def getReadyJobs (runningNode : Option String) : Action (List TJob × Option Raised) := do
  let planning ← getCurrentPlanningName domain
  let query := Query.readyJobs runningNode
  match ← Mysql.queryFullResult query (some planning) with
  | none => throw (.exJob "The database query failed")
  | some rows => return readyJobs planning query.text rows

/-- Catch what derives from `std::exception`, which the exceptions of the
service do. -/
def catchStandard {Alpha : Type} (action : Action Alpha) (handler : Raised → Action Alpha) :
    Action Alpha :=
  tryCatch action fun raised =>
    match raised with
    | .undefinedBehaviour _ => throw raised
    | .blocked => throw raised
    | _ => handler raised

/-- The body of the loop of `get_ready_jobs` on the structures of the service. -/
def completeReadyJob (query : String) (row : List String) : Action TJob := do
  let planning ← getCurrentPlanningName domain
  let job ← lift (readJob planning query row)
  let text ← lift (column row 5)
  let recoveryType ←
    catchStandard
      (do getRecoveryType planning (← lift (cast 32 text)))
      fun raised => throw (.exProcessing (castMessage text query (what raised)))
  return { job with recoveryType }

/-- The selection of `get_ready_jobs` on the structures of the service.  Without
a node name its text ends with a quote that nothing opened. -/
def readyJobsQuery : Option String → Query
  | some runningNode => .readyJobs (some runningNode)
  | none =>
      .malformed
        ("SELECT job_name,job_cmd_line,job_node_name,job_weight,job_state,job_rectype_id " ++
          "FROM get_ready_job';")

/-- `Domain::get_ready_jobs` on the structures of the service. -/
def getReadyRpcJobs (runningNode : Option String) : Action (List TJob) := do
  let world ← get
  if world.planningStartTime < world.clock then
    return []
  let planning ← getCurrentPlanningName domain
  let query := readyJobsQuery runningNode
  match ← Mysql.queryFullResult query (some planning) with
  | none => throw (.exJob "The query failed")
  | some rows =>
      if rows.isEmpty then throw (.exJob "The database returned an empty result")
      else rows.mapM (completeReadyJob domain query.text)

/-! ## Nodes -/

def getNode (domainName nodeName : String) : Action TNode := do
  match ← Mysql.queryOneRow (.node nodeName) (some domainName) with
  | none => throw (.exJob "The query failed")
  | some row =>
      if 0 < row.length then do
        let name ← lift (column row 0)
        let weight ← lift (do cast 16 (← column row 1))
        let resources ← getResources domainName
        let jobs ← getJobs domain domainName (some name)
        return { name, weight, domainName := domain.name, resources, jobs }
      else
        return {}

/-- The body of the loop of `get_nodes`.  A name that `get_node` does not find
keeps what the loop has read itself. -/
def completeNode (domainName : String) (row : List String) : Action TNode := do
  let name ← lift (column row 0)
  let text ← lift (column row 1)
  let node ← getNode domain domainName name
  if node.name = "" then
    return { node with name, weight := (lexicalCast 16 text).getD 0 }
  return node

def getNodes (domainName : String) : Action (List TNode) := do
  match ← Mysql.queryFullResult .nodes (some domainName) with
  | none => throw (.exJob "The query failed")
  | some rows => rows.mapM (completeNode domain domainName)

/-! ## Plannings -/

/-- `Domain::get_planning`, which always returns true. -/
def getPlanning (domainName nodeName : String) : Action TPlanning := do
  let node ← getNode domain domainName nodeName
  let world ← get
  return {
    day := {
      beginTime := world.planningStartTime
      duration := Integer.narrow domain.planningDuration }
    nodes := [node] }

/-- The expression `^\w+(_\d+){0,1}$` on a whole name: its second part has only
letters that its first part takes as well. -/
def isPlanningDatabase (name : String) : Bool :=
  name ≠ "" && name.toList.all fun letter => letter.isAlphanum || letter = '_'

/-- `Domain::get_available_planning_names`, which does not look whether the query
has succeeded. -/
def getAvailablePlanningNames : Action (List String) := do
  let rows ← Mysql.queryFullResult .showDatabases none
  let names ← lift ((rows.getD []).mapM fun row => columnAt row 0)
  return names.filter fun name => isPlanningDatabase name && name ≠ "information_schema"

/-! ## Reading changes nothing -/

theorem within_lift {Alpha : Type} (result : Except Raised Alpha) :
    Within ReadOnly (lift result) := by
  cases result with
  | error raised => exact within_throw raised
  | ok value => exact within_pure value

/-- A method that decodes the rows of one selection, or raises without them. -/
private theorem within_decoded {Alpha : Type} {query : Query} {database : Option String}
    {decode : List (List String) → Action Alpha} {raised : Raised}
    (decodeWithin : ∀ rows, Within ReadOnly (decode rows)) :
    Within ReadOnly (do
      match ← Mysql.queryFullResult query database with
      | none => throw raised
      | some rows => decode rows) := by
  refine within_bind (Mysql.within_queryFullResult query database) fun rows => ?_
  cases rows with
  | none => exact within_throw raised
  | some rows => exact decodeWithin rows

theorem within_getResources (domainName : String) :
    Within ReadOnly (getResources domainName) :=
  within_decoded fun _ => within_lift _

theorem within_getJobsNext (domainName name : String) :
    Within ReadOnly (getJobsNext domainName name) :=
  within_decoded fun _ => within_lift _

theorem within_getTimeConstraints (domainName jobName : String) :
    Within ReadOnly (getTimeConstraints domainName jobName) :=
  within_decoded fun _ => within_lift _

theorem within_getRecoveryType (domainName : String) (recId : Int) :
    Within ReadOnly (getRecoveryType domainName recId) := by
  refine within_bind (Mysql.within_queryOneRow _ _) fun row => ?_
  cases row with
  | none => exact within_throw _
  | some row => exact within_lift _

theorem within_completeJob (domainName query : String) (row : List String) :
    Within ReadOnly (completeJob domain domainName query row) := by
  refine within_bind (within_lift _) fun job => ?_
  refine within_bind (within_getJobsNext _ _) fun nxt => ?_
  refine within_bind (within_getTimeConstraints _ _) fun constraints => ?_
  refine within_bind (within_lift _) fun text => ?_
  dsimp only
  split
  · refine within_bind (within_lift _) fun recId => ?_
    exact within_bind (within_getRecoveryType _ _) fun _ => within_pure _
  · exact within_pure _

theorem within_getJobs (domainName : String) (runningNode : Option String) :
    Within ReadOnly (getJobs domain domainName runningNode) :=
  within_decoded fun rows => within_mapM (within_completeJob domain domainName _) rows

theorem within_getNode (domainName nodeName : String) :
    Within ReadOnly (getNode domain domainName nodeName) := by
  refine within_bind (Mysql.within_queryOneRow _ _) fun row => ?_
  cases row with
  | none => exact within_throw _
  | some row =>
      dsimp only
      split
      · refine within_bind (within_lift _) fun name => ?_
        refine within_bind (within_lift _) fun weight => ?_
        refine within_bind (within_getResources _) fun resources => ?_
        exact within_bind (within_getJobs domain _ _) fun _ => within_pure _
      · exact within_pure _

theorem within_completeNode (domainName : String) (row : List String) :
    Within ReadOnly (completeNode domain domainName row) := by
  refine within_bind (within_lift _) fun name => ?_
  refine within_bind (within_lift _) fun text => ?_
  refine within_bind (within_getNode domain _ _) fun node => ?_
  split <;> exact within_pure _

theorem within_getNodes (domainName : String) :
    Within ReadOnly (getNodes domain domainName) :=
  within_decoded fun rows => within_mapM (within_completeNode domain domainName) rows

theorem within_getReadyJobs (runningNode : Option String) :
    Within ReadOnly (getReadyJobs domain runningNode) := by
  refine within_bind (within_bind within_get fun _ => within_pure _) fun planning => ?_
  exact within_decoded fun _ => within_pure _

/-! ## Monitoring -/

def countJobs (domainName : String) (state : EJobState) : Action Integer := do
  let result ← Mysql.queryOneRow (.countJobs state) (some domainName)
  lift (do cast 16 (← columnAt (result.getD []) 0))

def monitorFailedJobs (domainName : String) : Action Integer :=
  countJobs domainName .failed

def monitorWaitingJobs (domainName : String) : Action Integer :=
  countJobs domainName .waiting

end Domain

end OpenWorkloadScheduler
