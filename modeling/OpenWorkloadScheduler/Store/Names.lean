import OpenWorkloadScheduler.Foundations.Quoting
import OpenWorkloadScheduler.Store.Server

/-!
# Names as the server takes them

The program pastes names into its texts as they are, and the effects of the
statements and selections are given for the names that are meant.  The server reads
the names from the text, cuts or refuses them at the width of their column, and
compares them by the collation of the tables, which is `latin1_swedish_ci` for the
character set of the skeleton.  A letter of a name is a byte of the `std::string`, which
`latin1` has for a letter.  For plain names that fit their columns the two come to the
same.
-/

namespace OpenWorkloadScheduler.Store

open Rpc Foundations

/-! ## The collation -/

/-- The letters beside `a` to `z` that `latin1_swedish_ci` sorts as another letter. -/
def accented : List (String × Char) :=
  [("ÀÁÂÃàáâã", 'A'), ("Åå", '['), ("ÄÆäæ", '\\'), ("Çç", 'C'), ("ÈÉÊËèéêë", 'E'),
    ("ÌÍÎÏìíîï", 'I'), ("Ðð", 'D'), ("Ññ", 'N'), ("ÒÓÔÕòóôõ", 'O'), ("Öö", ']'),
    ("ø", 'Ø'), ("ÙÚÛùúû", 'U'), ("ÜÝüý", 'Y'), ("þ", 'Þ')]

def weight (letter : Char) : Char :=
  if 'a' ≤ letter ∧ letter ≤ 'z' then letter.toUpper
  else
    match accented.find? fun group => letter ∈ group.1.toList with
    | none => letter
    | some group => group.2

/-- What the comparison of two names depends on: blanks at the end do not count. -/
def collationKey (name : String) : List Char :=
  (name.toList.reverse.dropWhile fun letter => letter = ' ').reverse.map weight

/-! ## Plain names -/

/-- The server reads each of the names as it is meant, and tells them apart. -/
structure Plain (names : List String) : Prop where
  legible : ∀ name ∈ names, isClean name.toList = true
  apart : ∀ first ∈ names, ∀ second ∈ names,
    collationKey first = collationKey second → first = second

instance (names : List String) : Decidable (Plain names) :=
  decidable_of_iff
    ((∀ name ∈ names, isClean name.toList = true) ∧ ∀ first ∈ names, ∀ second ∈ names,
      collationKey first = collationKey second → first = second)
    ⟨fun both => ⟨both.1, both.2⟩, fun plain => ⟨plain.legible, plain.apart⟩⟩

theorem Plain.mono {names others : List String} (plain : Plain names) (subset : others ⊆ names) :
    Plain others where
  legible name member := plain.legible name (subset member)
  apart first firstMember second secondMember :=
    plain.apart first (subset firstMember) second (subset secondMember)

/-! ## The names in the tables and in the data -/

def JobRow.names (row : JobRow) : List String :=
  [row.jobName, row.jobNodeName]

/-- The names in the rows of a schema. -/
def Tables.names (tables : Tables) : List String :=
  tables.node.map NodeRow.nodeName ++ tables.job.flatMap JobRow.names ++
    (tables.resource.flatMap fun row => [row.resourceName, row.resourceNodeName]) ++
    tables.timeConstraint.map TimeConstraintRow.timeCJobName ++
    tables.jobsLink.flatMap fun row => [row.jobNamePrv, row.jobNameNxt]

theorem Tables.mem_names_of_job {tables : Tables} {row : JobRow} (member : row ∈ tables.job) :
    row.jobName ∈ tables.names := by
  have here : row.jobName ∈ tables.job.flatMap JobRow.names :=
    List.mem_flatMap.mpr ⟨row, member, List.mem_cons_self⟩
  simp only [names, List.mem_append]
  tauto

end OpenWorkloadScheduler.Store

namespace OpenWorkloadScheduler.Rpc

open Foundations

/-- The names that a job carries. -/
def TJob.names (job : TJob) : List String :=
  job.name :: job.nodeName :: (job.prv ++ job.nxt)

/-- Each text fits its column in `job` and `jobs_link`. -/
def TJob.Fits (job : TJob) : Prop :=
  job.cmdLine.length ≤ 45 ∧ ∀ name ∈ job.names, name.length ≤ 45

instance (job : TJob) : Decidable job.Fits :=
  inferInstanceAs (Decidable (_ ∧ _))

/-- The names that a node carries, those of its jobs and resources included. -/
def TNode.names (node : TNode) : List String :=
  node.name :: (node.resources.map TResource.name ++ node.jobs.flatMap TJob.names)

/-- Each text fits its column; the name of the node has 45 letters in `node`, and 11 in
`resource`. -/
structure TNode.Fits (node : TNode) : Prop where
  name : node.name.length ≤ 45
  resourceNode : node.resources ≠ [] → node.name.length ≤ 11
  resources : ∀ resource ∈ node.resources, resource.name.length ≤ 45
  jobs : ∀ job ∈ node.jobs, job.Fits

end OpenWorkloadScheduler.Rpc
