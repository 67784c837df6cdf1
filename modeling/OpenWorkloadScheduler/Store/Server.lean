import Mathlib.Data.List.AList
import OpenWorkloadScheduler.Store.Skeleton

/-!
# The schemas of the MySQL server

A schema has the names of its tables and views, and the rows of its tables.
This module gives the effect of the statements of the program on the rows of
one schema.  InnoDB checks the keys at each statement: a statement that breaks
one of them is an error and changes nothing.

The texts are those of rows that fit: the server cuts a longer text with `INSERT IGNORE`
and refuses it elsewhere, which `TNode.Fits` and `TJob.Fits` of `Store.Names` exclude.
-/

namespace OpenWorkloadScheduler.Store

open Rpc

/-! ## Rows -/

namespace Tables

def duplicateEntry (key : String) : String :=
  "Duplicate entry for key '" ++ key ++ "'"

def missingParent (constraint : String) : String :=
  "Cannot add or update a child row: a foreign key constraint fails (" ++ constraint ++ ")"

def referencedRow (constraint : String) : String :=
  "Cannot delete or update a parent row: a foreign key constraint fails (" ++ constraint ++ ")"

def hasNode (tables : Tables) (name : String) : Prop :=
  name ∈ tables.node.map NodeRow.nodeName

def hasJob (tables : Tables) (name : String) : Prop :=
  name ∈ tables.job.map JobRow.jobName

instance (tables : Tables) (name : String) : Decidable (tables.hasNode name) :=
  inferInstanceAs (Decidable (_ ∈ _))

instance (tables : Tables) (name : String) : Decidable (tables.hasJob name) :=
  inferInstanceAs (Decidable (_ ∈ _))

/-- `INSERT IGNORE`: a node that exists is left as it is.  Of a name of more than 45
letters the server would store the first 45. -/
def insertIgnoreNode (tables : Tables) (row : NodeRow) : Tables :=
  if tables.hasNode row.nodeName then tables
  else { tables with node := tables.node ++ [row] }

def deleteNode (tables : Tables) (name : String) : Except String Tables :=
  if ∃ row ∈ tables.job, row.jobNodeName = name then .error (referencedRow "fk_job_node")
  else if ∃ row ∈ tables.resource, row.resourceNodeName = name then
    .error (referencedRow "fk_resource_node")
  else .ok { tables with node := tables.node.filter fun row => row.nodeName ≠ name }

def insertJob (tables : Tables) (row : JobRow) : Except String Tables :=
  if tables.hasJob row.jobName then .error (duplicateEntry "PRIMARY")
  else if ¬ tables.hasNode row.jobNodeName then .error (missingParent "fk_job_node")
  else .ok { tables with job := tables.job ++ [row] }

/-- The row is referenced by `time_constraint` or by `jobs_link`. -/
def jobReferenced (tables : Tables) (name : String) : Prop :=
  (∃ row ∈ tables.timeConstraint, row.timeCJobName = name) ∨
    ∃ row ∈ tables.jobsLink, row.jobNamePrv = name ∨ row.jobNameNxt = name

instance (tables : Tables) (name : String) : Decidable (tables.jobReferenced name) :=
  inferInstanceAs (Decidable (_ ∨ _))

def deleteJob (tables : Tables) (name : String) : Except String Tables :=
  if tables.jobReferenced name then .error (referencedRow "fk_job_has_job_job")
  else .ok { tables with job := tables.job.filter fun row => row.jobName ≠ name }

def replaceJob (tables : Tables) (row : JobRow) : Except String Tables :=
  if tables.hasJob row.jobName ∧ tables.jobReferenced row.jobName then
    .error (referencedRow "fk_job_has_job_job")
  else
    insertJob
      { tables with job := tables.job.filter fun other => other.jobName ≠ row.jobName } row

/-- `UPDATE job SET … WHERE job_name = name`. -/
def updateJob (tables : Tables) (name : String) (update : JobRow → JobRow) : Tables :=
  { tables with
    job := tables.job.map fun row => if row.jobName = name then update row else row }

def insertJobsLink (tables : Tables) (row : JobsLinkRow) : Except String Tables :=
  if row ∈ tables.jobsLink then .error (duplicateEntry "PRIMARY")
  else if ¬ tables.hasJob row.jobNamePrv then .error (missingParent "fk_job_has_job_job1")
  else if ¬ tables.hasJob row.jobNameNxt then .error (missingParent "fk_job_has_job_job2")
  else .ok { tables with jobsLink := tables.jobsLink ++ [row] }

def replaceJobsLink (tables : Tables) (row : JobsLinkRow) : Except String Tables :=
  insertJobsLink
    { tables with jobsLink := tables.jobsLink.filter fun other => other ≠ row } row

def deleteJobsLinks (tables : Tables) (test : JobsLinkRow → Bool) : Tables :=
  { tables with jobsLink := tables.jobsLink.filter fun row => !test row }

def insertTimeConstraint (tables : Tables) (row : TimeConstraintRow) :
    Except String Tables :=
  if ∃ other ∈ tables.timeConstraint,
      other.timeCType = row.timeCType ∧ other.timeCJobName = row.timeCJobName then
    .error (duplicateEntry "PRIMARY")
  else if ¬ tables.hasJob row.timeCJobName then
    .error (missingParent "fk_time_constraint_job1")
  else .ok { tables with timeConstraint := tables.timeConstraint ++ [row] }

def replaceTimeConstraint (tables : Tables) (row : TimeConstraintRow) :
    Except String Tables :=
  insertTimeConstraint
    { tables with
      timeConstraint := tables.timeConstraint.filter fun other =>
        ¬ (other.timeCType = row.timeCType ∧ other.timeCJobName = row.timeCJobName) } row

def deleteTimeConstraints (tables : Tables) (name : String) : Tables :=
  { tables with
    timeConstraint := tables.timeConstraint.filter fun row => row.timeCJobName ≠ name }

/-- The server takes the name of a node up to 11 letters here, and refuses a longer one. -/
def insertResource (tables : Tables) (row : ResourceRow) : Except String Tables :=
  if ∃ other ∈ tables.resource,
      other.resourceName = row.resourceName ∧
        other.resourceNodeName = row.resourceNodeName then
    .error (duplicateEntry "PRIMARY")
  else if ¬ tables.hasNode row.resourceNodeName then
    .error (missingParent "fk_resource_node")
  else .ok { tables with resource := tables.resource ++ [row] }

end Tables

/-- `SEC_TO_TIME`, which stays within the range of `TIME`. -/
def secToTime (seconds : Int) : Int :=
  max (-3020399) (min seconds 3020399)

/-- A `TIME` column set from the text of a number, read as `HHMMSS`. -/
def timeOfDigits (value : Int) : Int :=
  value / 10000 * 3600 + value / 100 % 100 * 60 + value % 100

/-! ## Schemas -/

structure Schema where
  baseTables : List String := []
  views : List String := []
  tables : Tables := {}

namespace Schema

def createTableIfNotExists (schema : Schema) (name : String) : Schema :=
  if name ∈ schema.baseTables ∨ name ∈ schema.views then schema
  else { schema with baseTables := schema.baseTables ++ [name] }

def dropViewIfExists (schema : Schema) (name : String) : Schema :=
  { schema with views := schema.views.filter fun view => view ≠ name }

def dropTableIfExists (schema : Schema) (name : String) : Schema :=
  { schema with baseTables := schema.baseTables.filter fun table => table ≠ name }

def createOrReplaceView (schema : Schema) (name : String) (selected : List String) :
    Except String Schema :=
  if ∃ relation ∈ selected, relation ∉ schema.baseTables ∧ relation ∉ schema.views then
    .error "Table doesn't exist"
  else if name ∈ schema.baseTables then .error "is not VIEW"
  else if name ∈ schema.views then .ok schema
  else .ok { schema with views := schema.views ++ [name] }

end Schema

/-- The schemas that exist, by name. -/
structure Server where
  schemas : AList fun _ : String => Schema

namespace Server

def schema? (server : Server) (name : String) : Option Schema :=
  server.schemas.lookup name

def setSchema (server : Server) (name : String) (schema : Schema) : Server :=
  ⟨server.schemas.insert name schema⟩

/-- The rows of a schema, none if it does not exist. -/
def tables (server : Server) (name : String) : Tables :=
  ((server.schema? name).map Schema.tables).getD {}

@[simp]
theorem schema?_setSchema_self (server : Server) (name : String) (schema : Schema) :
    (server.setSchema name schema).schema? name = some schema :=
  AList.lookup_insert server.schemas

@[simp]
theorem schema?_setSchema_ne {server : Server} {name other : String} {schema : Schema}
    (different : other ≠ name) :
    (server.setSchema name schema).schema? other = server.schema? other :=
  AList.lookup_insert_ne different

theorem mem_keys {server : Server} {name : String} :
    name ∈ server.schemas.keys ↔ server.schema? name ≠ none := by
  rw [schema?, ← AList.mem_keys, ← AList.lookup_isSome, Option.isSome_iff_ne_none]

/-- `CREATE SCHEMA IF NOT EXISTS`. -/
def createSchemaIfNotExists (server : Server) (name : String) : Server :=
  if (server.schema? name).isSome then server else server.setSchema name {}

end Server

/-- The match of a text with a `LIKE` pattern. -/
def likeMatch : List Char → List Char → Bool
  | [], text => text.isEmpty
  | '%' :: pattern, text => text.tails.any fun rest => likeMatch pattern rest
  | '_' :: pattern, text =>
      match text with
      | [] => false
      | _ :: rest => likeMatch pattern rest
  | '\\' :: quoted :: pattern, text =>
      match text with
      | [] => false
      | letter :: rest => letter = quoted && likeMatch pattern rest
  | expected :: pattern, text =>
      match text with
      | [] => false
      | letter :: rest => letter = expected && likeMatch pattern rest

/-- A name that SQL accepts without quotes. -/
def isIdentifier (name : String) : Bool :=
  name ≠ "" && name.length ≤ 64 &&
    name.toList.all fun letter =>
      letter.isAlphanum || letter = '_' || letter = '$' ||
        (128 ≤ letter.toNat && letter.toNat < 2 ^ 16)

end OpenWorkloadScheduler.Store
