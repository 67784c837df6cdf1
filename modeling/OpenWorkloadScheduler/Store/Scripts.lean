import OpenWorkloadScheduler.Foundations.Scripts
import OpenWorkloadScheduler.Store.Transactions

/-!
# The scripts that the methods of `Mysql` take

Where no call of the MySQL library fails, a method takes one answer for each of its
calls.  It does the same with a script that fails later on.
-/

namespace OpenWorkloadScheduler.Store

open Rpc Foundations

/-- What the coming calls of the MySQL library answer. -/
def World.script : Supply Answer World where
  give answers world := { world with answers }
  give_give _ _ _ := rfl

/-- The computation takes its answers from the script. -/
def Scripted {Alpha : Type} (computation : Action Alpha) : Prop :=
  Consumes World.script .done computation

theorem scripted_nextAnswer : Scripted nextAnswer := by
  rintro before _ after ⟨⟩
  exact ⟨rfl, 1, fun rest => rfl⟩

theorem scripted_setServer (server : Server) :
    Scripted (modify fun world => { world with server } : Action Unit) := by
  rintro before _ after ⟨⟩
  exact ⟨rfl, 0, fun rest => rfl⟩

namespace Mysql

theorem scripted_init (database : Option String) : Scripted (init database) := by
  refine consumes_bind scripted_nextAnswer fun answer => ?_
  cases answer with
  | refused => exact consumes_throw _
  | failed error => exact consumes_throw _
  | done =>
      refine consumes_get_bind (fun _ _ => rfl) fun world => ?_
      cases database with
      | none => exact consumes_pure ()
      | some name => exact consumes_ite (consumes_pure ()) (consumes_throw _)

theorem scripted_fetch (query : Query) (database : Option String) :
    Scripted (fetch query database) := by
  refine consumes_bind scripted_nextAnswer fun answer => ?_
  cases answer with
  | refused => exact consumes_pure none
  | failed error => exact consumes_pure none
  | done =>
      refine consumes_get_bind (fun _ _ => rfl) fun world => ?_
      cases query.run database world.server world.now <;> exact consumes_pure _

theorem scripted_queryOneRow (query : Query) (database : Option String) :
    Scripted (queryOneRow query database) := by
  refine consumes_bind (scripted_init database) fun _ => ?_
  refine consumes_bind (scripted_fetch query database) fun rows => ?_
  cases rows <;> exact consumes_pure _

theorem scripted_atomicExecute (statement : Statement) (session : Session) :
    Scripted (atomicExecute statement session) := by
  refine consumes_ite (consumes_pure none) ?_
  refine consumes_bind scripted_nextAnswer fun answer => ?_
  cases answer with
  | refused => exact consumes_pure none
  | failed error => exact consumes_throw _
  | done =>
      dsimp only
      cases statement.run session with
      | error error => exact consumes_throw _
      | ok session =>
          dsimp only
          split
          · exact consumes_bind (scripted_setServer _) fun _ => consumes_pure _
          · exact consumes_pure _

theorem scripted_executeAll (statements : List Statement) (session : Session) :
    Scripted (executeAll statements session) := by
  induction statements generalizing session with
  | nil => exact consumes_pure _
  | cons statement statements inductionHypothesis =>
      refine consumes_bind (scripted_atomicExecute statement session) fun executed => ?_
      cases executed with
      | none => exact consumes_bind (scripted_atomicExecute _ _) fun _ => consumes_pure none
      | some session => exact inductionHypothesis session

theorem scripted_commitWork (executed : Option Session) : Scripted (commitWork executed) := by
  cases executed with
  | none => exact consumes_pure false
  | some session =>
      refine consumes_bind (scripted_atomicExecute .commit session) fun committed => ?_
      cases committed with
      | none => exact consumes_throw _
      | some session => exact consumes_bind (scripted_setServer _) fun _ => consumes_pure true

theorem scripted_standaloneExecute (statements : List Statement) (database : Option String) :
    Scripted (standaloneExecute statements database) := by
  refine consumes_bind (scripted_init database) fun _ => ?_
  refine consumes_get_bind (fun _ _ => rfl) fun world => ?_
  refine consumes_bind (scripted_atomicExecute _ _) fun started => ?_
  cases started with
  | none => exact consumes_throw _
  | some session =>
      exact consumes_bind (scripted_executeAll statements session) scripted_commitWork

end Mysql

end OpenWorkloadScheduler.Store
