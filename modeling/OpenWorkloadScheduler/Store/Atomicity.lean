import OpenWorkloadScheduler.Store.Transactions

/-!
# Transactions as a whole

`standalone_execute` has three ends beside the commit: a statement is refused and
rolled back, a statement raises and the connection is closed, or one of the
statements around the transaction fails.  As long as the statements themselves
leave the transaction open, each of these ends restores the schemas.
-/

namespace OpenWorkloadScheduler.Store

open Rpc Foundations

namespace Statement

/-- The statement leaves the transaction it stands in open: it is neither DDL nor
one of the statements that begin or end a transaction, and it does not set
`autocommit`.  After a `ROLLBACK` each statement would be committed on its own. -/
def staysOpen : Statement → Bool
  | startTransaction | rollback | commit => false
  | setVariable assignment =>
      !assignment.toLower.toList.tails.any "autocommit".toList.isPrefixOf
  | statement => !statement.commits

theorem commits_of_staysOpen {statement : Statement} (stays : statement.staysOpen = true) :
    statement.commits = false := by
  cases statement with
  | createSchema name | createTable name | dropView name | dropTable name => cases stays
  | createView name selected => cases stays
  | _ => rfl

end Statement

namespace Mysql

/-- The result is `true` and the server holds what all the statements lead to, one
after the other, or the server is as it was. -/
def AllOrNothing (statements : List Statement) (database : Option String) (world : World) :
    Prop :=
  match standaloneExecute statements database world with
  | .ok true after =>
      ∃ session, runAll statements ⟨database, world.server⟩ = .ok session ∧
        after.server = session.work
  | .ok false after => after.server = world.server
  | .error _ after => after.server = world.server

/-- The statements of an open transaction do not reach the server. -/
theorem server_executeAll_of_staysOpen {statements : List Statement} (session : Session)
    (world : World) (stay : ∀ statement ∈ statements, statement.staysOpen = true) :
    (finalState (executeAll statements session world)).server = world.server := by
  induction statements generalizing session world with
  | nil => rfl
  | cons statement statements inductionHypothesis =>
      rcases executeAll_cons_cases statement statements session world with
        stops | ⟨after, _, rest⟩
      · exact stops.1
      · have uncommitted := Statement.commits_of_staysOpen (stay statement List.mem_cons_self)
        have later := inductionHypothesis after world.answered fun other member =>
          stay other (List.mem_cons_of_mem statement member)
        rw [rest, settle, if_neg (by simp [uncommitted])]
        exact later

theorem server_commitWork_of_not_true {executed : Option Session} {world : World}
    (failure : ∀ after, commitWork executed world ≠ .ok true after) :
    (finalState (commitWork executed world)).server = world.server := by
  cases executed with
  | none => rfl
  | some session =>
      by_cases done : world.answer = .done
      · exact absurd (commitWork_of_done done) (failure _)
      · obtain ⟨message, left⟩ := commitWork_of_not_done session done
        rw [left]
        rfl

theorem server_standaloneExecute_of_not_true {statements : List Statement}
    {database : Option String} {world : World}
    (stay : ∀ statement ∈ statements, statement.staysOpen = true)
    (failure : ∀ after, standaloneExecute statements database world ≠ .ok true after) :
    (finalState (standaloneExecute statements database world)).server = world.server := by
  by_cases begins : Begins database world
  · rw [standaloneExecute_of_begins begins] at failure ⊢
    have executed := server_executeAll_of_staysOpen ⟨database, world.server⟩
      world.answered.answered stay
    cases ran : executeAll statements ⟨database, world.server⟩ world.answered.answered with
    | error raised between =>
        rw [ran] at executed
        rw [bind_of_error ran]
        exact executed
    | ok value between =>
        rw [ran] at executed
        rw [bind_of_ok ran] at failure ⊢
        rw [server_commitWork_of_not_true failure]
        exact executed
  · obtain ⟨message, after, readOnly, left⟩ := standaloneExecute_of_not_begins begins
    rw [left]
    exact readOnly.server

/-- Whatever the answers of MySQL are, and wherever one of them is a refusal or a
failure, the transaction is executed as a whole or not at all. -/
theorem standaloneExecute_all_or_nothing (statements : List Statement)
    (database : Option String) (world : World)
    (stay : ∀ statement ∈ statements, statement.staysOpen = true) :
    AllOrNothing statements database world := by
  unfold AllOrNothing
  have restored := @server_standaloneExecute_of_not_true statements database world stay
  cases ran : standaloneExecute statements database world with
  | error raised after =>
      rw [ran] at restored
      exact restored fun _ impossible => by cases impossible
  | ok value after =>
      cases value with
      | true => exact runAll_of_standaloneExecute ran
      | false =>
          rw [ran] at restored
          exact restored fun _ impossible => by cases impossible

/-- The second of two insertions is refused: the first one is undone. -/
def refusedInsertion : World where
  server := ⟨AList.singleton "planning" { baseTables := ["node"] }⟩
  answers := [.done, .done, .done, .refused]

theorem standaloneExecute_all_or_nothing_refused :
    (∀ statement ∈ [Statement.insertIgnoreNode "first", .insertIgnoreNode "second"],
      statement.staysOpen = true) ∧
    AllOrNothing [.insertIgnoreNode "first", .insertIgnoreNode "second"] (some "planning")
      refusedInsertion :=
  ⟨by decide, standaloneExecute_all_or_nothing _ _ _ (by decide)⟩

end Mysql

end OpenWorkloadScheduler.Store
