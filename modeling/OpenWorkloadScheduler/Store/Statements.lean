import OpenWorkloadScheduler.Store.Conditions

/-!
# The SQL that the program sends

`Statement` lists the statements that `Domain` and `Mysql` build, `Query` the
selections that they read.  Each has the text that the source concatenates and
the effect that MySQL gives to it.

The effect of a statement and the rows of a selection are those that are meant: they are
what the text means when the names pasted into it are plain.  An update of job states that
the server reads in another way is `updateJobsWhere`, and a text that is no SQL whatever the
names are is `malformed`.  Of the statements of the skeleton file only the head is kept.
-/

namespace OpenWorkloadScheduler.Store

open Rpc

inductive Statement where
  | startTransaction
  | rollback
  | commit
  | use (name : String)
  | createSchema (name : String)
  | setVariable (assignment : String)
  | createTable (name : String)
  | dropView (name : String)
  | dropTable (name : String)
  | createView (name : String) (selected : List String)
  | insertIgnoreNode (name : String)
  | insertIgnoreWeightedNode (name : String) (weight : Integer)
  | deleteNode (name : String)
  | insertJob (name cmdLine nodeName : String) (weight : Integer)
  | insertPrvLink (prv name : String)
  | insertNxtLink (nxt name : String)
  | insertTimeConstraint (name : String) (type : ETimeConstraintType) (value : Int)
  | insertResource (name nodeName : String) (currentValue initialValue : Integer)
  | replaceJob (name cmdLine nodeName : String) (weight : Integer)
  | replaceNxtLink (nxt name : String)
  | replaceTimeConstraint (name : String) (type : ETimeConstraintType) (value : Int)
  | deleteJob (name : String)
  | deleteLinks (name : String)
  | deleteTimeConstraints (name : String)
  | updateJobState (name : String) (state : EJobState)
  | updateJobStateTimes (name : String) (state : EJobState) (startTime stopTime : Int)
  | updateJobsWhere (name : String) (state : EJobState) (times : Option (Int × Int))
      (condition : Condition)
  | malformed (text : String)
  deriving DecidableEq, Repr

namespace Statement

/-- The text handed to `mysql_query`. -/
def text : Statement → String
  | startTransaction => "START TRANSACTION;"
  | rollback => "ROLLBACK;"
  | commit => "COMMIT;"
  | use name => "USE " ++ name ++ ";"
  | createSchema name =>
      "CREATE SCHEMA IF NOT EXISTS " ++ name ++ " DEFAULT CHARACTER SET latin1;"
  | setVariable assignment => " SET " ++ assignment ++ ";"
  | createTable name => " CREATE TABLE IF NOT EXISTS `" ++ name ++ "`"
  | dropView name => " DROP VIEW IF EXISTS `" ++ name ++ "` ;"
  | dropTable name => " DROP TABLE IF EXISTS `" ++ name ++ "`;"
  | createView name _ => " CREATE OR REPLACE ALGORITHM=UNDEFINED VIEW `" ++ name ++ "`"
  | insertIgnoreNode name => "INSERT IGNORE INTO node (node_name) VALUES ('" ++ name ++ "');"
  | insertIgnoreWeightedNode name weight =>
      "INSERT IGNORE INTO node (node_name,node_weight) VALUES ('" ++ name ++ "','" ++
        toString weight ++ "');"
  | deleteNode name => "DELETE FROM node WHERE node_name='" ++ name ++ "';"
  | insertJob name cmdLine nodeName weight =>
      "INSERT INTO job (job_name,job_cmd_line,job_node_name,job_weight) VALUES ('" ++ name ++
        "','" ++ cmdLine ++ "','" ++ nodeName ++ "','" ++ toString weight ++ "');"
  | insertPrvLink prv name =>
      "INSERT INTO jobs_link (job_name_prv,job_name_nxt) VALUES ('" ++ prv ++ "','" ++ name ++
        "');"
  | insertNxtLink nxt name =>
      "INSERT INTO jobs_link (job_name_nxt,job_name_prv) VALUES ('" ++ nxt ++ "','" ++ name ++
        "');"
  | insertTimeConstraint name type value =>
      "INSERT INTO time_constraint (time_c_job_name, time_c_type, time_c_value) VALUES ('" ++
        name ++ "','" ++ buildStringFromTimeConstraintType type ++ "',SEC_TO_TIME(" ++
        toString value ++ "));"
  | insertResource name nodeName currentValue initialValue =>
      "INSERT INTO resource (resource_name,resource_node_name,resource_current_value," ++
        "resource_initial_value) VALUES ('" ++ name ++ "','" ++ nodeName ++ "','" ++
        toString currentValue ++ "','" ++ toString initialValue ++ "');"
  | replaceJob name cmdLine nodeName weight =>
      "REPLACE INTO job (job_name,job_cmd_line,job_node_name,job_weight) VALUES ('" ++ name ++
        "','" ++ cmdLine ++ "','" ++ nodeName ++ "','" ++ toString weight ++ "');"
  | replaceNxtLink nxt name =>
      "REPLACE INTO jobs_link (job_name_nxt,job_name_prv) VALUES ('" ++ nxt ++ "','" ++ name ++
        "');"
  | replaceTimeConstraint name type value =>
      "REPLACE INTO time_constraint (time_c_job_name, time_c_type, time_c_value) VALUES ('" ++
        name ++ "','" ++ buildStringFromTimeConstraintType type ++ "','" ++ toString value ++
        "');"
  | deleteJob name => "DELETE FROM job WHERE job_name = '" ++ name ++ "';"
  | deleteLinks name =>
      "DELETE FROM jobs_link WHERE job_name_nxt = '" ++ name ++ "' OR job_name_prv = '" ++
        name ++ "';"
  | deleteTimeConstraints name =>
      "DELETE FROM time_constraint WHERE time_c_job_name = '" ++ name ++ "';"
  | updateJobState name state =>
      "UPDATE job SET job_state = '" ++ buildStringFromJobState state ++
        "' WHERE job_name = '" ++ name ++ "';"
  | updateJobStateTimes name state startTime stopTime =>
      "UPDATE job SET job_state = '" ++ buildStringFromJobState state ++
        "', job_start_time = FROM_UNIXTIME(" ++ toString startTime ++
        "), job_stop_time = FROM_UNIXTIME(" ++ toString stopTime ++
        ") WHERE job_name = '" ++ name ++ "';"
  | updateJobsWhere name state none _ =>
      "UPDATE job SET job_state = '" ++ buildStringFromJobState state ++
        "' WHERE job_name = '" ++ name ++ "';"
  | updateJobsWhere name state (some (startTime, stopTime)) _ =>
      "UPDATE job SET job_state = '" ++ buildStringFromJobState state ++
        "', job_start_time = FROM_UNIXTIME(" ++ toString startTime ++
        "), job_stop_time = FROM_UNIXTIME(" ++ toString stopTime ++
        ") WHERE job_name = '" ++ name ++ "';"
  | malformed text => text

/-- `atomic_execute` refuses an empty text and one made of white space. -/
def isBlank (statement : Statement) : Bool :=
  statement.text.toList.all Char.isWhitespace

/-- A text that starts with one that is not white space is not white space. -/
private theorem visible_append {first second : String}
    (visible : first.toList.all Char.isWhitespace = false) :
    (first ++ second).toList.all Char.isWhitespace = false := by
  rw [String.toList_append, List.all_append, visible, Bool.false_and]

private theorem visible_of_head {letter : Char} {letters : List Char}
    (visible : letter.isWhitespace = false) :
    (String.ofList (letter :: letters)).toList.all Char.isWhitespace = false := by
  rw [String.toList_ofList, List.all_cons, visible, Bool.false_and]

private theorem visible_of_second {blank letter : Char} {letters : List Char}
    (visible : letter.isWhitespace = false) :
    (String.ofList (blank :: letter :: letters)).toList.all Char.isWhitespace = false := by
  rw [String.toList_ofList, List.all_cons, List.all_cons, visible, Bool.false_and,
    Bool.and_false]

/-- Every statement that the program builds is some text. -/
theorem isBlank_eq_false {statement : Statement}
    (known : ∀ text, statement ≠ .malformed text) : statement.isBlank = false := by
  unfold isBlank
  cases statement with
  | malformed text => exact absurd rfl (known text)
  | startTransaction | rollback | commit => exact visible_of_head (by decide)
  | updateJobsWhere name state times condition =>
      cases times with
      | none =>
          unfold text
          dsimp only
          repeat with_reducible apply visible_append
          exact visible_of_head (by decide)
      | some times =>
          unfold text
          dsimp only
          repeat with_reducible apply visible_append
          exact visible_of_head (by decide)
  | _ =>
      unfold text
      dsimp only
      repeat with_reducible apply visible_append
      first
        | exact visible_of_head (by decide)
        | exact visible_of_second (by decide)
/-- The statement is DDL: it commits the transaction it stands in. -/
def commits : Statement → Bool
  | createSchema _ | createTable _ | dropView _ | dropTable _ | createView _ _ => true
  | _ => false

end Statement

/-- A connection inside a transaction: the schema in use and the work so far. -/
structure Session where
  database : Option String
  work : Server

namespace Session

/-- Apply a change of the rows of the schema in use, whose table has to exist. -/
def changeTables (session : Session) (table : String)
    (change : Tables → Except String Tables) : Except String Session :=
  match session.database with
  | none => .error "No database selected"
  | some name =>
      match session.work.schema? name with
      | none => .error ("Unknown database '" ++ name ++ "'")
      | some schema =>
          if table ∈ schema.baseTables then
            (change schema.tables).map fun tables =>
              { session with work := session.work.setSchema name { schema with tables } }
          else .error ("Table '" ++ name ++ "." ++ table ++ "' doesn't exist")

/-- Apply a change of the tables and views of the schema in use. -/
def changeSchema (session : Session)
    (change : Schema → Except String Schema) : Except String Session :=
  match session.database with
  | none => .error "No database selected"
  | some name =>
      match session.work.schema? name with
      | none => .error ("Unknown database '" ++ name ++ "'")
      | some schema =>
          (change schema).map fun schema =>
            { session with work := session.work.setSchema name schema }

end Session

def syntaxError : String :=
  "You have an error in your SQL syntax"

/-- What a statement acts on: the rows of one table of the schema in use, the
tables and views of that schema, or the connection and the schemas as a whole. -/
inductive Effect where
  | rows (table : String) (change : Tables → Except String Tables)
  | relations (change : Schema → Except String Schema)
  | connection (change : Session → Except String Session)

def Effect.run : Effect → Session → Except String Session
  | rows table change, session => session.changeTables table change
  | relations change, session => session.changeSchema change
  | connection change, session => change session

/-- The effect for the names that are meant; `Store.Readings` has what the server does with
the text of an update. -/
def Statement.effect : Statement → Effect
  | startTransaction => .connection .ok
  | rollback => .connection .ok
  | commit => .connection .ok
  | setVariable _ => .connection .ok
  | use name => .connection fun session =>
      if ¬ isIdentifier name then .error syntaxError
      else if (session.work.schema? name).isNone then
        .error ("Unknown database '" ++ name ++ "'")
      else .ok { session with database := some name }
  | createSchema name => .connection fun session =>
      if ¬ isIdentifier name then .error syntaxError
      else .ok { session with work := session.work.createSchemaIfNotExists name }
  | createTable name => .relations fun schema => .ok (schema.createTableIfNotExists name)
  | dropView name => .relations fun schema => .ok (schema.dropViewIfExists name)
  | dropTable name => .relations fun schema => .ok (schema.dropTableIfExists name)
  | createView name selected => .relations fun schema =>
      schema.createOrReplaceView name selected
  | insertIgnoreNode name => .rows "node" fun tables =>
      .ok (tables.insertIgnoreNode ⟨name, 0⟩)
  | insertIgnoreWeightedNode name weight => .rows "node" fun tables =>
      .ok (tables.insertIgnoreNode ⟨name, weight⟩)
  | deleteNode name => .rows "node" fun tables => tables.deleteNode name
  | insertJob name cmdLine nodeName weight => .rows "job" fun tables =>
      tables.insertJob
        { jobName := name, jobCmdLine := cmdLine, jobNodeName := nodeName,
          jobWeight := weight }
  | insertPrvLink prv name => .rows "jobs_link" fun tables =>
      tables.insertJobsLink ⟨prv, name⟩
  | insertNxtLink nxt name => .rows "jobs_link" fun tables =>
      tables.insertJobsLink ⟨name, nxt⟩
  | insertTimeConstraint name type value => .rows "time_constraint" fun tables =>
      tables.insertTimeConstraint ⟨type, secToTime value, name⟩
  | insertResource name nodeName currentValue initialValue => .rows "resource" fun tables =>
      tables.insertResource ⟨name, nodeName, currentValue, initialValue⟩
  | replaceJob name cmdLine nodeName weight => .rows "job" fun tables =>
      tables.replaceJob
        { jobName := name, jobCmdLine := cmdLine, jobNodeName := nodeName,
          jobWeight := weight }
  | replaceNxtLink nxt name => .rows "jobs_link" fun tables =>
      tables.replaceJobsLink ⟨name, nxt⟩
  | replaceTimeConstraint name type value => .rows "time_constraint" fun tables =>
      tables.replaceTimeConstraint ⟨type, timeOfDigits value, name⟩
  | deleteJob name => .rows "job" fun tables => tables.deleteJob name
  | deleteLinks name => .rows "jobs_link" fun tables =>
      .ok (tables.deleteJobsLinks fun row => row.jobNameNxt = name ∨ row.jobNamePrv = name)
  | deleteTimeConstraints name => .rows "time_constraint" fun tables =>
      .ok (tables.deleteTimeConstraints name)
  | updateJobState name state => .rows "job" fun tables =>
      .ok (tables.updateJob name fun row => { row with jobState := some state })
  | updateJobStateTimes name state startTime stopTime => .rows "job" fun tables =>
      .ok (tables.updateJob name fun row =>
        { row with
          jobState := some state, jobStartTime := some startTime,
          jobStopTime := some stopTime })
  | updateJobsWhere _ state times condition => .rows "job" fun tables =>
      .ok (tables.updateJobsWhere condition fun row => row.withState state times)
  | malformed _ => .connection fun _ => .error syntaxError

/-- The session after a statement, or the text of `mysql_error`. -/
def Statement.run (statement : Statement) (session : Session) : Except String Session :=
  statement.effect.run session

/-! ## The statements of the skeleton file -/

/-- The placeholder table and the view of one name, as the skeleton drops and
creates them. -/
def viewStatements (name : String) (selected : List String) : List Statement :=
  [.dropView name, .dropTable name, .createView name selected]

def skeletonBaseTables : List String :=
  ["node", "recovery_type", "macro_job", "job", "resource", "time_constraint", "jobs_link"]

def skeletonViews : List String :=
  ["get_ready_job", "get_ready_time", "get_ready_links", "get_ready_linkless",
    "get_available_resource"]

/-- `etc/mysql/skeleton.sql`, statement by statement. -/
def skeletonStatements : List Statement :=
  [.setVariable "@OLD_UNIQUE_CHECKS=@@UNIQUE_CHECKS, UNIQUE_CHECKS=0",
    .setVariable "@OLD_FOREIGN_KEY_CHECKS=@@FOREIGN_KEY_CHECKS, FOREIGN_KEY_CHECKS=0",
    .setVariable "@OLD_SQL_MODE=@@SQL_MODE, SQL_MODE='TRADITIONAL'",
    .setVariable "sql_notes = 0"] ++
  skeletonBaseTables.map .createTable ++
  skeletonViews.map .createTable ++
  viewStatements "get_ready_job"
    ["job", "get_ready_links", "get_ready_linkless", "get_ready_time"] ++
  viewStatements "get_ready_time" ["job", "time_constraint"] ++
  viewStatements "get_ready_links" ["jobs_link", "job"] ++
  viewStatements "get_ready_linkless" ["job", "jobs_link"] ++
  viewStatements "get_available_resource" ["resource"] ++
  [.setVariable "sql_notes = 1",
    .setVariable "SQL_MODE=@OLD_SQL_MODE",
    .setVariable "FOREIGN_KEY_CHECKS=@OLD_FOREIGN_KEY_CHECKS",
    .setVariable "UNIQUE_CHECKS=@OLD_UNIQUE_CHECKS"]

/-! ## Selections -/

inductive Query where
  | schemaExists (name : String)
  | showDatabasesLike (pattern : String)
  | showDatabases
  | countNode (name : String)
  | node (name : String)
  | nodes
  | readyJobs (nodeName : Option String)
  | jobs (nodeName : Option String)
  | job (name : String) (nodeName : Option String)
  | jobsNext (name : String)
  | resources
  | timeConstraints (name : String)
  | recoveryType (letter : Char)
  | countJobs (state : EJobState)
  | malformed (text : String)
  deriving DecidableEq, Repr

namespace Query

def onNode (nodeName : Option String) : String :=
  match nodeName with
  | none => ";"
  | some nodeName => " WHERE job_node_name = '" ++ nodeName ++ "';"

def text : Query → String
  | schemaExists name =>
      "SELECT IF('" ++ name ++
        "' IN(SELECT SCHEMA_NAME FROM INFORMATION_SCHEMA.SCHEMATA), 1, 0) AS found;"
  | showDatabasesLike pattern => "SHOW DATABASES LIKE '" ++ pattern ++ "';"
  | showDatabases => "SHOW DATABASES"
  | countNode name => "SELECT COUNT(*) FROM node WHERE node_name = '" ++ name ++ "';"
  | node name => "SELECT node_name,node_weight FROM node WHERE node_name = '" ++ name ++ "';"
  | nodes => "SELECT node_name,node_weight FROM node;"
  | readyJobs nodeName =>
      "SELECT job_name,job_cmd_line,job_node_name,job_weight,job_state,job_rectype_id " ++
        "FROM get_ready_job" ++ onNode nodeName
  | jobs nodeName =>
      "SELECT job_name,job_cmd_line,job_node_name,job_weight,job_state,job_rectype_id, " ++
        "unix_timestamp(job_start_time), unix_timestamp(job_stop_time) FROM job" ++
        onNode nodeName
  | job name nodeName =>
      "SELECT job_name,job_cmd_line,job_node_name,job_weight,job_state,job_rectype_id " ++
        "FROM job WHERE job_name = '" ++ name ++ "'" ++
        match nodeName with
        | none => ";"
        | some nodeName => " AND job_node_name = '" ++ nodeName ++ "';"
  | jobsNext name => "SELECT job_name_nxt FROM jobs_link WHERE job_name_prv = '" ++ name ++ "';"
  | resources =>
      "SELECT resource_name,resource_node_name,resource_current_value," ++
        "resource_initial_value FROM resource;"
  | timeConstraints name =>
      "SELECT time_c_job_name,time_c_type,TIME_TO_SEC(time_c_value) FROM time_constraint " ++
        "WHERE time_c_job_name = '" ++ name ++ "';"
  | recoveryType letter =>
      "SELECT rectype_id,rectype_short_label,rectype_label,rectype_action FROM recovery_type " ++
        "WHERE rectype_id = '" ++ String.singleton letter ++ "';"
  | countJobs state =>
      "SELECT COUNT(*) FROM job WHERE job_state = '" ++ buildStringFromJobState state ++ "';"
  | malformed text => text

/-- A row of a result, column by column; `none` is NULL. -/
abbrev ResultRow := List (Option String)

def nodeRow (row : NodeRow) : ResultRow :=
  [some row.nodeName, some (toString row.nodeWeight)]

/-- The first six columns that every selection of jobs has. -/
def jobRow (row : JobRow) : ResultRow :=
  [some row.jobName, some row.jobCmdLine, some row.jobNodeName,
    some (toString row.jobWeight), row.jobState.map buildStringFromJobState,
    row.jobRectypeId.map toString]

def jobRowTimes (row : JobRow) : ResultRow :=
  jobRow row ++ [row.jobStartTime.map toString, row.jobStopTime.map toString]

def resourceRow (row : ResourceRow) : ResultRow :=
  [some row.resourceName, some row.resourceNodeName,
    some (toString row.resourceCurrentValue), some (toString row.resourceInitialValue)]

def timeConstraintRow (row : TimeConstraintRow) : ResultRow :=
  [some row.timeCJobName, some (buildStringFromTimeConstraintType row.timeCType),
    some (toString row.timeCValue)]

def recoveryTypeRow (row : RecoveryTypeRow) : ResultRow :=
  [some (toString row.rectypeId), some row.rectypeShortLabel, some row.rectypeLabel,
    some (buildStringFromRectypeAction row.rectypeAction)]

/-- The number that MySQL compares an integer column with, given a literal of
one letter; no literal at all for a letter that ends it or the text. -/
def literalNumber (letter : Char) : Option Int :=
  if letter = '\'' ∨ letter = '\\' ∨ letter = Char.ofNat 0 then none
  else if letter.isDigit then some (letter.toNat - '0'.toNat : Nat)
  else some 0

/-- The node filter of a selection of jobs. -/
def runsOn (nodeName : Option String) (row : JobRow) : Bool :=
  match nodeName with
  | none => true
  | some nodeName => row.jobNodeName = nodeName

/-- The rows that a selection from one schema returns at the local time `now`, for the names
that are meant.  A quote in a name would break the text, which the server then refuses or
answers with other rows. -/
def select (tables : Tables) (now : Int) : Query → Except String (List ResultRow)
  | countNode name =>
      .ok [[some (toString (tables.node.filter fun row => row.nodeName = name).length)]]
  | node name => .ok ((tables.node.filter fun row => row.nodeName = name).map nodeRow)
  | nodes => .ok (tables.node.map nodeRow)
  | readyJobs nodeName =>
      .ok (((tables.getReadyJob now).filter (runsOn nodeName)).map jobRow)
  | jobs nodeName => .ok ((tables.job.filter (runsOn nodeName)).map jobRowTimes)
  | job name nodeName =>
      .ok ((tables.job.filter fun row => row.jobName = name && runsOn nodeName row).map jobRow)
  | jobsNext name =>
      .ok ((tables.jobsLink.filter fun row => row.jobNamePrv = name).map
        fun row => [some row.jobNameNxt])
  | resources => .ok (tables.resource.map resourceRow)
  | timeConstraints name =>
      .ok ((tables.timeConstraint.filter fun row => row.timeCJobName = name).map
        timeConstraintRow)
  | recoveryType letter =>
      match literalNumber letter with
      | none => .error syntaxError
      | some number =>
          .ok ((tables.recoveryType.filter fun row => row.rectypeId = number).map
            recoveryTypeRow)
  | countJobs state =>
      .ok [[some (toString (tables.job.filter fun row => row.jobState = some state).length)]]
  | _ => .error syntaxError

/-- The table or view that a selection reads. -/
def relation : Query → String
  | countNode _ | node _ | nodes => "node"
  | readyJobs _ => "get_ready_job"
  | jobs _ | job _ _ | countJobs _ => "job"
  | jobsNext _ => "jobs_link"
  | resources => "resource"
  | timeConstraints _ => "time_constraint"
  | recoveryType _ => "recovery_type"
  | _ => ""

/-- The result of a selection from the tables and views of a schema. -/
def runOn (query : Query) (database : Option String) (server : Server) (now : Int) :
    Except String (List ResultRow) :=
  match database.bind server.schema? with
  | none => .error "No database selected"
  | some schema =>
      if query.relation ∈ schema.baseTables ∨ query.relation ∈ schema.views then
        query.select schema.tables now
      else .error "Table doesn't exist"

/-- The result of a selection on a connection that uses `database`. -/
def run (query : Query) (database : Option String) (server : Server) (now : Int) :
    Except String (List ResultRow) :=
  match query with
  | schemaExists name =>
      .ok [[some (if (server.schema? name).isSome then "1" else "0")]]
  | showDatabasesLike pattern =>
      .ok ((server.schemas.keys.filter fun name => likeMatch pattern.toList name.toList).map
        fun name => [some name])
  | showDatabases => .ok (server.schemas.keys.map fun name => [some name])
  | malformed _ => .error syntaxError
  | _ => query.runOn database server now

theorem run_eq_runOn {query : Query} (selection : query.relation ≠ "")
    (database : Option String) (server : Server) (now : Int) :
    query.run database server now = query.runOn database server now := by
  cases query <;> first | rfl | exact absurd rfl selection

theorem runOn_eq_ok_iff {query : Query} {name : String} {server : Server} {now : Int}
    {rows : List ResultRow} :
    query.runOn (some name) server now = .ok rows ↔
      ∃ schema, server.schema? name = some schema ∧
        (query.relation ∈ schema.baseTables ∨ query.relation ∈ schema.views) ∧
        query.select schema.tables now = .ok rows := by
  rw [runOn, Option.bind_some]
  cases server.schema? name with
  | none => simp
  | some schema =>
      by_cases present : query.relation ∈ schema.baseTables ∨ query.relation ∈ schema.views
      · simp [present]
      · simp [present]

end Query

end OpenWorkloadScheduler.Store
