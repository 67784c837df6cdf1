import OpenWorkloadScheduler.Domain.Mutex
import OpenWorkloadScheduler.Store.Readings

/-!
# The updates of job states as the server reads them

`update_job_state` on the texts that it sends: the server executes what it reads.  On
plain names this is the update that is meant.
-/

namespace OpenWorkloadScheduler.Domain

open Rpc Store Foundations

/-- The transaction of an update; `none` where the text is of no form that is modelled. -/
def executeAsRead (domainName runningNode : String) (statement : Statement) :
    Option (Action Bool) :=
  if runningNode = "" then some (pure false)
  else statement.asRead.map fun read => lockedExecute [read] (some domainName)

/-- `Domain::update_job_state` on the names. -/
def updateJobStateAsRead (domainName runningNode jobName : String) (state : EJobState) :
    Option (Action Bool) :=
  executeAsRead domainName runningNode (.updateJobState jobName state)

/-- `Domain::update_job_state` on the names, with the times of the run. -/
def updateJobStateTimesAsRead (domainName runningNode jobName : String) (state : EJobState)
    (startTime stopTime : Int) : Option (Action Bool) :=
  executeAsRead domainName runningNode (.updateJobStateTimes jobName state startTime stopTime)

section Plain

variable {domainName jobName : String} {world : World}

theorem lockedExecute_congr {statement other : Statement} (text : statement.text = other.text)
    (commits : statement.commits = other.commits)
    (run : statement.run ⟨some domainName, world.server⟩ =
      other.run ⟨some domainName, world.server⟩) :
    lockedExecute [statement] (some domainName) world =
      lockedExecute [other] (some domainName) world := by
  by_cases free : MutexFree world
  · rw [lockedExecute, lockedExecute, bind_of_ok (lock_of_free free),
      bind_of_ok (lock_of_free free), executeAndUnlock, executeAndUnlock]
    exact bind_of_eq (Mysql.standaloneExecute_congr text commits run)
  · rw [lockedExecute, lockedExecute, bind_of_error (lock_of_locked free),
      bind_of_error (lock_of_locked free)]

theorem lockedExecute_updateJobsWhere (plain : PlainIn world.server domainName jobName)
    {statement : Statement} {state : EJobState} {times : Option (Int × Int)}
    (text : (Statement.updateJobsWhere jobName state times (.named jobName)).text =
      statement.text)
    (commits : statement.commits = false)
    (meant : statement.effect = .rows "job" fun tables =>
      .ok (tables.updateJob jobName fun row => row.withState state times)) :
    lockedExecute [.updateJobsWhere jobName state times (.named jobName)] (some domainName) world =
      lockedExecute [statement] (some domainName) world := by
  apply lockedExecute_congr text
  · rw [commits]
    rfl
  · exact @Statement.run_updateJobsWhere ⟨some domainName, world.server⟩ domainName jobName rfl
      plain statement state times meant

/-- For a plain name the server executes what is meant. -/
theorem updateJobStateAsRead_of_plain (plain : PlainIn world.server domainName jobName)
    (runningNode : String) (state : EJobState) :
    ∃ action, updateJobStateAsRead domainName runningNode jobName state = some action ∧
      action world = updateJobState domainName runningNode jobName state world := by
  rw [updateJobStateAsRead, executeAsRead, updateJobState]
  split
  · exact ⟨_, rfl, rfl⟩
  · rw [Statement.asRead_updateJobState (plain.legible _ List.mem_cons_self)]
    refine ⟨_, rfl, ?_⟩
    apply lockedExecute_updateJobsWhere plain <;> rfl

theorem updateJobStateTimesAsRead_of_plain (plain : PlainIn world.server domainName jobName)
    (runningNode : String) (state : EJobState) (startTime stopTime : Int) :
    ∃ action, updateJobStateTimesAsRead domainName runningNode jobName state startTime stopTime =
        some action ∧
      action world =
        updateJobStateTimes domainName runningNode jobName state startTime stopTime world := by
  rw [updateJobStateTimesAsRead, executeAsRead, updateJobStateTimes]
  split
  · exact ⟨_, rfl, rfl⟩
  · rw [Statement.asRead_updateJobStateTimes (plain.legible _ List.mem_cons_self)]
    refine ⟨_, rfl, ?_⟩
    apply lockedExecute_updateJobsWhere plain <;> rfl

end Plain

end OpenWorkloadScheduler.Domain
