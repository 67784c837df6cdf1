import OpenWorkloadScheduler.Foundations.Effects
import OpenWorkloadScheduler.Store.Statements

/-!
# The class `Mysql`

The connection to the embedded server, as `database.cpp` uses it, and the state
on which the methods of `Domain` work.

Each call of the MySQL library takes the next answer of a script, so that a
failure can stand at every call.  A script that is used up answers `done` from
then on; hence the empty script is the run in which no call fails.
-/

namespace OpenWorkloadScheduler.Store

open Rpc Foundations

/-- The outcome of a call of the MySQL library: it succeeds, it gives no result
where one is expected, or it fails with the text of `mysql_error`. -/
inductive Answer where
  | done
  | refused
  | failed (error : String)
  deriving DecidableEq, Repr

/-- The state of a node: the schemas, what the coming calls of MySQL answer,
whether the skeleton file can be opened, the attributes of `Domain` that change,
the clock, and the offset of the server's local time. -/
structure World where
  server : Server
  answers : List Answer := []
  skeletonFile : Bool := true
  updatesMutex : Bool := false
  planningStartTime : Int := 0
  clock : Int := 0
  utcOffset : Int := 0

/-- A method that may change the state and may raise. -/
abbrev Action := EStateM Raised World

namespace World

/-- The local time of the server. -/
def now (world : World) : Int :=
  world.clock + world.utcOffset

/-- What the next call of the MySQL library answers. -/
def answer (world : World) : Answer :=
  world.answers.headD .done

/-- The state after that call. -/
def answered (world : World) : World :=
  { world with answers := world.answers.tail }

end World

def nextAnswer : Action Answer := fun world =>
  .ok world.answer world.answered

namespace Mysql

/-- `Mysql::init`.  A NULL database name is `none`. -/
def init (database : Option String) : Action Unit := do
  match ← nextAnswer with
  | .refused => throw (.exProcessing "Error: cannot init a MySQL connector")
  | .failed error => throw (.exProcessing ("Error: cannot connect: " ++ error))
  | .done =>
      let world ← get
      match database with
      | none => pure ()
      | some name =>
          if (world.server.schema? name).isSome then pure ()
          else
            throw (.exProcessing ("Error: cannot connect: Unknown database '" ++ name ++ "'"))

def queryError (statement : Statement) (error : String) : Raised :=
  .exProcessing ("query: " ++ statement.text ++ " error: " ++ error)

/-- `Mysql::atomic_execute`; `none` stands for its result `false`. -/
def atomicExecute (statement : Statement) (session : Session) : Action (Option Session) :=
  if statement.isBlank then pure none
  else do
    match ← nextAnswer with
    | .refused => pure none
    | .failed error => throw (queryError statement error)
    | .done =>
        match statement.run session with
        | .error error => throw (queryError statement error)
        | .ok session =>
            if statement.commits then
              modify fun world => { world with server := session.work }
            pure (some session)

def rollbackWork (session : Session) : Action (Option Session) := do
  let _ ← atomicExecute .rollback session
  pure none

/-- The loop of `Mysql::standalone_execute`: it stops at the first statement
that is refused, after a rollback. -/
def executeAll : List Statement → Session → Action (Option Session)
  | [], session => pure (some session)
  | statement :: statements, session => do
      match ← atomicExecute statement session with
      | none => rollbackWork session
      | some session => executeAll statements session

/-- The end of `Mysql::standalone_execute`: the work of the session reaches the
server at the commit. -/
def commitWork : Option Session → Action Bool
  | none => pure false
  | some session => do
      match ← atomicExecute .commit session with
      | none => throw (.exProcessing "standalone_execute:: commit failed - ")
      | some session =>
          modify fun world => { world with server := session.work }
          pure true

/-- `Mysql::standalone_execute`.  An exit before the commit leaves the server as
the last DDL statement did. -/
def standaloneExecute (statements : List Statement) (database : Option String) :
    Action Bool := do
  init database
  let world ← get
  match ← atomicExecute .startTransaction ⟨database, world.server⟩ with
  | none => throw (.exProcessing "standalone_execute:: start transaction failed - ")
  | some session => do
      let executed ← executeAll statements session
      commitWork executed

/-- The call of `mysql_query` and of `mysql_store_result` for a selection. -/
def fetch (query : Query) (database : Option String) :
    Action (Option (List Query.ResultRow)) := do
  match ← nextAnswer with
  | .done =>
      let world ← get
      match query.run database world.server world.now with
      | .error _ => pure none
      | .ok rows => pure (some rows)
  | _ => pure none

/-- `Mysql::query_one_row`: the columns that are not NULL of all the rows, one
after the other; `none` stands for its result `false`. -/
def queryOneRow (query : Query) (database : Option String) :
    Action (Option (List String)) := do
  init database
  match ← fetch query database with
  | none => pure none
  | some rows => pure (some (rows.flatMap fun row => row.filterMap id))

/-- `Mysql::query_full_result`: the rows, with the text `NULL` for NULL. -/
def queryFullResult (query : Query) (database : Option String) :
    Action (Option (List (List String))) := do
  init database
  match ← fetch query database with
  | none => pure none
  | some rows => pure (some (rows.map fun row => row.map fun column => column.getD "NULL"))

/-- `Mysql::load_file` on the skeleton. -/
def loadFile (name : String) : Action Bool := do
  let world ← get
  if world.skeletonFile then
    standaloneExecute (.use name :: skeletonStatements) none
  else
    pure false

/-- `Mysql::init_domain_structure`. -/
def initDomainStructure (domainName : String) : Action Bool := do
  match ← queryOneRow (.showDatabasesLike domainName) none with
  | none => throw (.exProcessing "Cannot get the available databases")
  | some result =>
      if result.length ≠ 0 then pure true
      else do
        if ← standaloneExecute [.createSchema domainName] none then
          loadFile domainName
        else
          throw (.exProcessing "Cannot execute the queries")

end Mysql

end OpenWorkloadScheduler.Store
