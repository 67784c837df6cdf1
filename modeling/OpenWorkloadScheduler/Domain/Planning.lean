import OpenWorkloadScheduler.Domain.Writes

/-!
# The next planning

`set_next_planning` creates the schema of a planning from the skeleton file and
copies the nodes of the template into it, one node after the other.  The master
switches to a planning that has been prepared in this way.
-/

namespace OpenWorkloadScheduler.Domain

open Rpc Store Foundations

variable (domain : Domain)

/-- The start time that follows the clock time `now`; `%` truncates. -/
def nextPlanningStartTime (now : Int) : Int :=
  now + domain.planningDuration -
    (now - domain.initialPlanningStartTime).tmod domain.planningDuration

/-- `Domain::get_next_planning_start_time`. -/
def getNextPlanningStartTime : Action Int := do
  return nextPlanningStartTime domain (← get).clock

/-- What the parameter `_return` of `set_next_planning` refers to: the attribute
in the constructor, a local variable in `switch_planning`. -/
inductive Reference where
  | planningStartTime
  | result
  deriving DecidableEq, Repr

/-- The assignment of a start time.  The value of the local variable is of no
use to anybody once its function has been left. -/
def Reference.assign : Reference → Int → Action Unit
  | .planningStartTime, startTime =>
      modify fun world => { world with planningStartTime := startTime }
  | .result, _ => pure ()

/-- The `try` block of `set_next_planning`: a result, or `none` to go on. -/
def createPlanning (planning : String) : Action (Option Bool) := do
  match ← Mysql.queryOneRow (.schemaExists planning) none with
  | none => return some false
  | some result =>
      if (← lift (columnAt result 0)) = "1" then return some true
      else if ← Mysql.initDomainStructure planning then return none
      else return some true

/-- Its handler, which catches one type of exception. -/
def catchProcessing (action : Action (Option Bool)) : Action (Option Bool) :=
  tryCatch action fun raised =>
    match raised with
    | .exProcessing _ => return some false
    | _ => throw raised

/-- The loop of `set_next_planning`. -/
def addNodes (planning : String) (nodes : List TNode) : Action Bool :=
  allTrue (addNode domain planning) nodes

/-- `Domain::set_next_planning` after the assignment. -/
def preparePlanning (startTime : Int) : Action Bool := do
  let planning := planningName domain startTime
  match ← catchProcessing (createPlanning planning) with
  | some result => return result
  | none => do
      let nodes ← getNodes domain domain.name
      addNodes domain planning nodes

/-- `Domain::set_next_planning`. -/
def setNextPlanning (reference : Reference) : Action Bool := do
  let startTime ← getNextPlanningStartTime domain
  reference.assign startTime
  preparePlanning domain startTime

/-- `Domain::switch_planning`.  The start time that `set_next_planning` assigns
to the local variable is the one of the same clock reading. -/
def switchPlanning : Action Bool := do
  let result ← getNextPlanningStartTime domain
  if ← setNextPlanning domain .result then
    modify fun world => { world with planningStartTime := result }
    return true
  else
    return false

end OpenWorkloadScheduler.Domain
