import OpenWorkloadScheduler.Domain.Reads

/-!
# The methods of `Domain` that write

Each method takes `updates_mutex` by hand, builds its statements, hands them to
`standalone_execute`, and releases the mutex on its two return paths.  Nothing
releases it when an exception passes through.
-/

namespace OpenWorkloadScheduler.Domain

open Rpc Store Foundations

variable (domain : Domain)

/-! ## The mutex -/

/-- `updates_mutex.lock()`: a mutex that nobody will release blocks for ever. -/
def lock : Action Unit := do
  let world ← get
  if world.updatesMutex then throw .blocked
  else set { world with updatesMutex := true }

/-- `updates_mutex.unlock()`. -/
def unlock : Action Unit :=
  modify fun world => { world with updatesMutex := false }

/-- The end of every mutator: execute, release, return what was executed. -/
def executeAndUnlock (statements : List Statement) (database : Option String) :
    Action Bool := do
  let executed ← Mysql.standaloneExecute statements database
  unlock
  return executed

def lockedExecute (statements : List Statement) (database : Option String) :
    Action Bool := do
  lock
  executeAndUnlock statements database

/-! ## Resources, nodes and jobs -/

/-- `Domain::add_resource`. -/
def addResource (domainName : String) (resource : TResource) (nodeName : String) :
    Action Bool :=
  lockedExecute
    [.insertResource resource.name nodeName resource.currentValue resource.initialValue]
    (some domainName)

/-- `Domain::add_node (const char*, const char*)`. -/
def addNamedNode (domainName nodeName : String) : Action Bool :=
  lockedExecute [.insertIgnoreNode nodeName] (some domainName)

/-- `Domain::add_node (const char*, const std::string&, const rpc::integer&)`. -/
def addWeightedNode (domainName nodeName : String) (weight : Integer) : Action Bool :=
  lockedExecute [.insertIgnoreWeightedNode nodeName weight] (some domainName)

/-- The message on a value above the duration: `+=` of a number on a string
appends one character. -/
def durationMessage (value : Int) : String :=
  "the given value of the time_constraint is higher than the planning's duration (" ++
    String.singleton (characterOf value) ++ " > " ++
    String.singleton (characterOf domain.planningDuration) ++ ")"

def timeConstraintStatement (jobName : String) (constraint : TTimeConstraint) :
    Except Raised Statement :=
  if domain.planningDuration < constraint.value then
    .error (.exProcessing (durationMessage domain constraint.value))
  else .ok (.insertTimeConstraint jobName constraint.type constraint.value)

/-- The statements of `add_job` that no check stands before. -/
def jobStatements (job : TJob) : List Statement :=
  .insertJob job.name job.cmdLine job.nodeName job.weight ::
    (job.prv.map fun prv => .insertPrvLink prv job.name) ++
    (job.nxt.map fun nxt => .insertNxtLink nxt job.name)

/-- The check of `add_job` on the node, which is counted in the schema that the
job names. -/
def checkNode (job : TJob) : Action Unit := do
  match ← Mysql.queryOneRow (.countNode job.nodeName) (some job.domain) with
  | none => throw (.exProcessing "Cannot query the node table")
  | some row => do
      let count ← lift (do cast 32 (← columnAt row 0))
      if count = 0 then
        throw (.exNode ("The node " ++ job.nodeName ++ " does not exist"))
      else pure ()

/-- `Domain::add_job`.  The job is inserted into the schema of the first argument. -/
def addJob (domainName : String) (job : TJob) : Action Bool := do
  lock
  checkNode job
  let constraints ← lift (job.timeConstraints.mapM (timeConstraintStatement domain job.name))
  executeAndUnlock (jobStatements job ++ constraints) (some domainName)

/-- `Domain::add_node (const char*, const rpc::t_node&)`. -/
def addNode (domainName : String) (node : TNode) : Action Bool :=
  andThen (addWeightedNode domainName node.name node.weight)
    (andThen
      (allTrue (fun resource => addResource domainName resource node.name) node.resources)
      (allTrue (addJob domain domainName) node.jobs))

/-- The statements of `update_job`.  The text of three deletions ends with a
parenthesis that nothing opened, that of the links to the predecessors lacks a
blank, and the last statement stands there twice. -/
def updateJobStatements (job : TJob) : List Statement :=
  let statements :=
    [.replaceJob job.name job.cmdLine job.nodeName job.weight,
      .malformed ("DELETE FROM jobs_link WHERE job_name_nxt ='" ++ job.name ++ "');")] ++
    (job.prv.map fun prv =>
      .malformed ("REPLACE INTOjobs_link (job_name_prv,job_name_nxt) VALUES ('" ++ prv ++
        "','" ++ job.name ++ "');")) ++
    [.malformed ("DELETE FROM jobs_link WHERE job_name_prv ='" ++ job.name ++ "');")] ++
    (job.nxt.map fun nxt => .replaceNxtLink nxt job.name) ++
    [.malformed ("DELETE FROM time_constraint WHERE time_c_job_name = '" ++ job.name ++
      "');")] ++
    (job.timeConstraints.map fun constraint =>
      .replaceTimeConstraint job.name constraint.type constraint.value)
  statements ++ statements.getLast?.toList

/-- `Domain::update_job`, which uses the name of the node as the schema. -/
def updateJob (job : TJob) : Action Bool :=
  lockedExecute (updateJobStatements job) (some job.nodeName)

/-- `Domain::remove_job (const char*, const std::string&)`. -/
def removeNamedJob (domainName jobName : String) : Action Bool :=
  lockedExecute [.deleteJob jobName, .deleteLinks jobName, .deleteTimeConstraints jobName]
    (some domainName)

/-- `Domain::remove_job (const rpc::t_job&)`. -/
def removeJob (job : TJob) : Action Bool :=
  removeNamedJob job.domain job.name

/-- `Domain::remove_node`. -/
def removeNode (domainName nodeName : String) : Action Bool := do
  let node ← getNode domain domainName nodeName
  andThen (allTrue removeJob node.jobs)
    (lockedExecute [.deleteNode nodeName] (some domainName))

/-! ## The state of a job -/

/-- `Domain::update_job_state` on the names.  The regular expression beside the
test of `running_node` is matched with a string that is still empty. -/
def updateJobState (domainName runningNode jobName : String) (state : EJobState) :
    Action Bool :=
  if runningNode = "" then return false
  else lockedExecute [.updateJobState jobName state] (some domainName)

/-- `Domain::update_job_state` on the names, with the times of the run. -/
def updateJobStateTimes (domainName runningNode jobName : String) (state : EJobState)
    (startTime stopTime : Int) : Action Bool :=
  if runningNode = "" then return false
  else
    lockedExecute [.updateJobStateTimes jobName state startTime stopTime] (some domainName)

/-- `Domain::update_job_state (const char*, const rpc::t_job&)`. -/
def updateRpcJobState (domainName : String) (job : TJob) : Action Bool :=
  updateJobState domainName job.nodeName job.name job.state

/-- `Domain::update_job_state (const char*, const Job*, …)`; NULL is `none`. -/
def updateStateOfJob (domainName : String) (job : Option TJob) (state : EJobState) :
    Action Bool :=
  match job with
  | none => return false
  | some job => updateJobState domainName job.nodeName job.name state

/-- `Domain::update_job_state (const char*, const Job*, …)` with the times. -/
def updateStateTimesOfJob (domainName : String) (job : TJob) (state : EJobState)
    (startTime stopTime : Int) : Action Bool :=
  updateJobStateTimes domainName job.nodeName job.name state startTime stopTime

end OpenWorkloadScheduler.Domain
