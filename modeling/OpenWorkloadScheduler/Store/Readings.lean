import OpenWorkloadScheduler.Store.JobStates
import OpenWorkloadScheduler.Store.Texts

/-!
# The updates of job states as the server reads them

The name of the job is pasted into the clause `WHERE` as it is.  The server reads the
clause from the text: a plain name selects the rows of that name, a name with a
backslash may select no row, and a name with a quote may select any rows or make the
text no SQL.
-/

namespace OpenWorkloadScheduler.Store

open Rpc Foundations Template

/-! ## The clause of a clean name -/

namespace Condition

theorem afterWhere_of_ne {letter : Char} (visible : letter ≠ ' ') (tokens : List Token) :
    afterWhere (.symbol letter :: tokens) = afterWhere tokens := by
  have start : symbols " WHERE " = .symbol ' ' :: symbols "WHERE " := by decide +kernel
  have differs : skip " WHERE " (.symbol letter :: tokens) = none := by
    rw [skip, start]
    simp [List.dropPrefix?, visible]
  rw [afterWhere, differs]

theorem afterWhere_of_blank {letter : Char} (other : letter ≠ 'W') (tokens : List Token) :
    afterWhere (.symbol ' ' :: .symbol letter :: tokens) =
      afterWhere (.symbol letter :: tokens) := by
  have start : symbols " WHERE " = .symbol ' ' :: .symbol 'W' :: symbols "HERE " := by
    decide +kernel
  have differs : skip " WHERE " (.symbol ' ' :: .symbol letter :: tokens) = none := by
    rw [skip, start]
    simp [List.dropPrefix?, other]
  rw [afterWhere, differs]

/-- No `WHERE` begins in the text. -/
def isFree : List Char → Bool
  | [] => true
  | [letter] => letter ≠ ' '
  | letter :: next :: rest => (letter ≠ ' ' || next ≠ 'W') && isFree (next :: rest)

theorem afterWhere_of_isFree {text : List Char} (free : isFree text = true)
    (tokens : List Token) : afterWhere (text.map .symbol ++ tokens) = afterWhere tokens := by
  induction text with
  | nil => rfl
  | cons letter text inductionHypothesis =>
      cases text with
      | nil => exact afterWhere_of_ne (by simpa [isFree] using free) tokens
      | cons next rest =>
          rw [isFree, Bool.and_eq_true] at free
          have later := inductionHypothesis free.2
          by_cases blank : letter = ' '
          · rw [blank] at free ⊢
            exact (afterWhere_of_blank (by simpa using free.1) _).trans later
          · exact (afterWhere_of_ne blank _).trans later

theorem isFree_of_visible {text : List Char} (visible : ∀ letter ∈ text, letter ≠ ' ') :
    isFree text = true := by
  induction text with
  | nil => rfl
  | cons letter text inductionHypothesis =>
      obtain ⟨first, later⟩ := List.forall_mem_cons.mp visible
      cases text with
      | nil => simpa [isFree] using first
      | cons next rest => simp [isFree, first, inductionHypothesis later]

theorem isFree_toString (value : Int) : isFree (toString value).toList = true := by
  apply isFree_of_visible
  intro letter member
  rcases letter_of_toString member with rfl | digit
  · decide
  · rintro rfl
    exact absurd digit (by decide)

/-- The clause that is meant is read as the condition on the name. -/
theorem readComparisons_named (value : List Char) :
    readComparisons 13 (symbols "job_name = " ++ [.literal value, .symbol ';']) =
      some (named (String.ofList value)) := by
  rfl

theorem afterWhere_opening (state : List Char) (tokens : List Token) :
    afterWhere (symbols "UPDATE job SET job_state = " ++ .literal state :: tokens) =
      afterWhere tokens := by
  rfl

theorem afterWhere_clause (tokens : List Token) :
    afterWhere (symbols " WHERE job_name = " ++ tokens) =
      some (symbols "job_name = " ++ tokens) := by
  rfl

theorem read_of_afterWhere {tokens : List Token} {name : String}
    (clause : afterWhere tokens =
      some (symbols "job_name = " ++ [.literal name.toList, .symbol ';'])) :
    read tokens = some (named name) := by
  rw [read, clause]
  exact (readComparisons_named name.toList).trans (by rw [String.ofList_toList])

theorem read_updateJobState (name : String) (state : EJobState) :
    read (Statement.updateJobState name state).template.tokens = some (named name) := by
  apply read_of_afterWhere
  exact (afterWhere_opening _ _).trans (afterWhere_clause _)

theorem read_updateJobStateTimes (name : String) (state : EJobState) (startTime stopTime : Int) :
    read (Statement.updateJobStateTimes name state startTime stopTime).template.tokens =
      some (named name) := by
  apply read_of_afterWhere
  apply (afterWhere_opening _ _).trans
  simp only [fieldTokens, String.toList_append, List.map_append, List.append_assoc]
  rw [afterWhere_of_isFree (by decide +kernel), afterWhere_of_isFree (isFree_toString startTime),
    afterWhere_of_isFree (by decide +kernel), afterWhere_of_isFree (isFree_toString stopTime)]
  rfl

end Condition

/-! ## The update that is executed -/

namespace Statement

/-- An update of a state by the text that the server gets: its rows are those of the
condition that the server reads, and a text with an open quote is no SQL. -/
def readUpdate (name : String) (state : EJobState) (times : Option (Int × Int)) (text : String) :
    Option Statement :=
  match Template.read text with
  | none => some (.malformed text)
  | some tokens => (Condition.read tokens).map (updateJobsWhere name state times)

/-- What the server executes for an update of a state; `none` where the clause is of no form
that is modelled.  The other statements are taken as they are meant. -/
def asRead : Statement → Option Statement
  | updateJobState name state => readUpdate name state none (updateJobState name state).text
  | updateJobStateTimes name state startTime stopTime =>
      readUpdate name state (some (startTime, stopTime))
        (updateJobStateTimes name state startTime stopTime).text
  | statement => some statement

theorem readUpdate_of_isClean {statement : Statement} {name : String}
    (names : statement.names = [name])
    (clean : isClean name.toList = true)
    (clause : Condition.read statement.template.tokens = some (.named name))
    (state : EJobState) (times : Option (Int × Int)) :
    readUpdate name state times statement.text =
      some (updateJobsWhere name state times (.named name)) := by
  have meant : Template.read statement.text = some statement.template.tokens := by
    apply (read_text_iff (names ▸ List.cons_ne_nil _ _)).mpr
    rw [names]
    exact List.forall_mem_singleton.mpr clean
  rw [readUpdate, meant]
  exact congrArg (Option.map _) clause

theorem asRead_updateJobState {name : String} (clean : isClean name.toList = true)
    (state : EJobState) :
    (updateJobState name state).asRead = some (updateJobsWhere name state none (.named name)) :=
  readUpdate_of_isClean rfl clean (Condition.read_updateJobState name state) state none

theorem asRead_updateJobStateTimes {name : String} (clean : isClean name.toList = true)
    (state : EJobState) (startTime stopTime : Int) :
    (updateJobStateTimes name state startTime stopTime).asRead =
      some (updateJobsWhere name state (some (startTime, stopTime)) (.named name)) :=
  readUpdate_of_isClean rfl clean
    (Condition.read_updateJobStateTimes name state startTime stopTime) state _

end Statement

/-! ## Plain names -/

/-- The server tells the name from every other name in a schema. -/
def PlainIn (server : Server) (schemaName name : String) : Prop :=
  Plain (name :: (server.tables schemaName).names)

theorem Session.changeTables_congr {session : Session} {table name : String}
    {change other : Tables → Except String Tables} (database : session.database = some name)
    (same : change (session.work.tables name) = other (session.work.tables name)) :
    session.changeTables table change = session.changeTables table other := by
  cases found : session.work.schema? name with
  | none => simp only [changeTables, database, found]
  | some schema =>
      rw [Server.tables_of_schema? found] at same
      simp only [changeTables, database, found, same]

namespace Statement

/-- On plain names the update that is read does what the one that is meant does. -/
theorem run_updateJobsWhere {session : Session} {schemaName name : String}
    (database : session.database = some schemaName)
    (plain : PlainIn session.work schemaName name) {statement : Statement} {state : EJobState}
    {times : Option (Int × Int)}
    (meant : statement.effect = .rows "job" fun tables =>
      .ok (tables.updateJob name fun row => row.withState state times)) :
    (updateJobsWhere name state times (.named name)).run session = statement.run session := by
  have rows : ∀ row ∈ (session.work.tables schemaName).job,
      row.jobName ∈ name :: (session.work.tables schemaName).names :=
    fun row member => List.mem_cons_of_mem _ (Tables.mem_names_of_job member)
  rw [run, run, meant]
  change session.changeTables "job" (fun tables =>
      .ok (tables.updateJobsWhere (.named name) fun row => row.withState state times)) =
    session.changeTables "job" fun tables =>
      .ok (tables.updateJob name fun row => row.withState state times)
  apply Session.changeTables_congr database
  rw [Tables.updateJobsWhere_named plain List.mem_cons_self rows]

end Statement

namespace Mysql

/-- What a statement is executed to depends on its text and on what it does. -/
theorem atomicExecute_congr {statement other : Statement} {session : Session}
    (text : statement.text = other.text) (commits : statement.commits = other.commits)
    (run : statement.run session = other.run session) :
    atomicExecute statement session = atomicExecute other session := by
  unfold atomicExecute Statement.isBlank queryError
  rw [text, commits, run]

theorem standaloneExecute_congr {statement other : Statement} {database : Option String}
    {world : World} (text : statement.text = other.text)
    (commits : statement.commits = other.commits)
    (run : statement.run ⟨database, world.server⟩ = other.run ⟨database, world.server⟩) :
    standaloneExecute [statement] database world = standaloneExecute [other] database world := by
  by_cases begins : Begins database world
  · rw [standaloneExecute_of_begins begins, standaloneExecute_of_begins begins]
    apply bind_of_eq
    rw [executeAll, executeAll, atomicExecute_congr text commits run]
  · obtain ⟨message, after, _, left⟩ := standaloneExecute_of_not_begins begins
    rw [left, left]

end Mysql

end OpenWorkloadScheduler.Store
