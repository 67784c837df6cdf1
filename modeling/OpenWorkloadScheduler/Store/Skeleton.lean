import Mathlib.Data.List.Dedup
import OpenWorkloadScheduler.Rpc.Convertions

/-!
# The tables and views of the MySQL skeleton

Every schema of the server, the template as well as the plannings, is created
from `etc/mysql/skeleton.sql`.  This module gives the rows of its tables, the
keys that InnoDB keeps, and the readiness views as the file selects them.

A table is the list of its rows in the order in which MySQL returns them.
`NULL` is `none`, `TIME` values are seconds, and the clock of the views is the local
time of the server in seconds.  Names are compared by equality, as the collation of the
tables compares plain names (`Store.Names`).
-/

namespace OpenWorkloadScheduler.Store

open Rpc

structure NodeRow where
  nodeName : String
  nodeWeight : Int
  deriving DecidableEq, Repr

structure RecoveryTypeRow where
  rectypeId : Int
  rectypeShortLabel : String
  rectypeLabel : String
  rectypeAction : ERectypeAction
  deriving DecidableEq, Repr

structure JobRow where
  jobName : String
  jobCmdLine : String
  jobNodeName : String
  jobWeight : Int := 1
  jobStartTime : Option Int := none
  jobStopTime : Option Int := none
  jobState : Option EJobState := some .waiting
  jobRectypeId : Option Int := none
  deriving DecidableEq, Repr

structure ResourceRow where
  resourceName : String
  resourceNodeName : String
  resourceCurrentValue : Int
  resourceInitialValue : Int
  deriving DecidableEq, Repr

structure TimeConstraintRow where
  timeCType : ETimeConstraintType
  timeCValue : Int
  timeCJobName : String
  deriving DecidableEq, Repr

structure JobsLinkRow where
  jobNamePrv : String
  jobNameNxt : String
  deriving DecidableEq, Repr

/-- The rows of one schema. -/
structure Tables where
  node : List NodeRow := []
  recoveryType : List RecoveryTypeRow := []
  job : List JobRow := []
  resource : List ResourceRow := []
  timeConstraint : List TimeConstraintRow := []
  jobsLink : List JobsLinkRow := []
  deriving DecidableEq, Repr

namespace Tables

/-- The primary keys and the foreign keys of the skeleton. -/
structure Keys (tables : Tables) : Prop where
  nodeName : (tables.node.map NodeRow.nodeName).Nodup
  rectypeId : (tables.recoveryType.map RecoveryTypeRow.rectypeId).Nodup
  jobName : (tables.job.map JobRow.jobName).Nodup
  resourceKey :
    (tables.resource.map fun row => (row.resourceName, row.resourceNodeName)).Nodup
  timeConstraintKey :
    (tables.timeConstraint.map fun row => (row.timeCType, row.timeCJobName)).Nodup
  jobsLinkKey : tables.jobsLink.Nodup
  jobNode : ∀ row ∈ tables.job,
    row.jobNodeName ∈ tables.node.map NodeRow.nodeName
  jobRectype : ∀ row ∈ tables.job, ∀ id ∈ row.jobRectypeId,
    id ∈ tables.recoveryType.map RecoveryTypeRow.rectypeId
  resourceNode : ∀ row ∈ tables.resource,
    row.resourceNodeName ∈ tables.node.map NodeRow.nodeName
  timeConstraintJob : ∀ row ∈ tables.timeConstraint,
    row.timeCJobName ∈ tables.job.map JobRow.jobName
  jobsLinkPrv : ∀ row ∈ tables.jobsLink,
    row.jobNamePrv ∈ tables.job.map JobRow.jobName
  jobsLinkNxt : ∀ row ∈ tables.jobsLink,
    row.jobNameNxt ∈ tables.job.map JobRow.jobName

/-! ## The readiness views -/

def twoDigits (value : Nat) : String :=
  if value < 10 then "0" ++ toString value else toString value

/-- `TIME_FORMAT(value, '%H %i')`. -/
def timeFormat (value : Int) : String :=
  (if value < 0 then "-" else "") ++ twoDigits (value.natAbs / 3600) ++ " " ++
    twoDigits (value.natAbs / 60 % 60)

/-- `TIME_FORMAT(now(), '%H %i')` at the local time `now`. -/
def timeFormatNow (now : Int) : String :=
  timeFormat (now % 86400)

/-- The names selected from `time_constraint` by a type and a test of the value. -/
def constrained (tables : Tables) (type : ETimeConstraintType) (test : Int → Bool) :
    List String :=
  (tables.timeConstraint.filter fun row =>
    row.timeCType = type ∧ test row.timeCValue).map TimeConstraintRow.timeCJobName

/-- The condition of `get_ready_time` on one row of `job`. -/
def passesTime (tables : Tables) (now : Int) (row : JobRow) : Bool :=
  decide (row.jobName ∉ tables.timeConstraint.map TimeConstraintRow.timeCJobName) ^^
    (decide (row.jobName ∈ tables.constrained .at
        fun value => timeFormat value = timeFormatNow now) ||
      decide (row.jobName ∈ tables.constrained .before
        fun value => timeFormatNow now ≤ timeFormat value) ||
      decide (row.jobName ∈ tables.constrained .after
        fun value => timeFormat value ≤ timeFormatNow now))

def getReadyTime (tables : Tables) (now : Int) : List String :=
  (tables.job.filter (tables.passesTime now)).map JobRow.jobName

def getReadyLinks (tables : Tables) : List String :=
  (tables.jobsLink.flatMap fun link =>
    (tables.job.filter fun row =>
      link.jobNamePrv = row.jobName ∧ row.jobState = some .succeded).map
        fun _ => link.jobNameNxt).dedup

def getReadyLinkless (tables : Tables) : List String :=
  (tables.job.filter fun row =>
    row.jobState = some .waiting ∧
      row.jobName ∉ tables.jobsLink.map JobsLinkRow.jobNameNxt).map JobRow.jobName

/-- The first operand of the condition of `get_ready_job`. -/
def passesLinks (tables : Tables) (row : JobRow) : Bool :=
  decide (row.jobName ∈ tables.getReadyLinks) ^^
    decide (row.jobName ∈ tables.getReadyLinkless)

/-- The view `get_ready_job`.  In its last subquery `j` is the alias of the
outer query, since `get_ready_time` has no alias: the subquery yields the name
of the tested row once for every row of `get_ready_time`. -/
def getReadyJob (tables : Tables) (now : Int) : List JobRow :=
  tables.job.filter fun row =>
    tables.passesLinks row &&
      decide (row.jobName ∈ (tables.getReadyTime now).map fun _ => row.jobName)

/-! ## What the views contain -/

/-- A job of the given name is in state `succeded`. -/
def Succeeded (tables : Tables) (name : String) : Prop :=
  ∃ row ∈ tables.job, row.jobName = name ∧ row.jobState = some .succeded

instance (tables : Tables) (name : String) : Decidable (tables.Succeeded name) :=
  inferInstanceAs (Decidable (∃ row ∈ tables.job, _))

theorem mem_getReadyLinks {tables : Tables} {name : String} :
    name ∈ tables.getReadyLinks ↔
      ∃ link ∈ tables.jobsLink,
        link.jobNameNxt = name ∧ tables.Succeeded link.jobNamePrv := by
  simp only [getReadyLinks, List.mem_dedup, List.mem_flatMap, List.mem_map,
    List.mem_filter, decide_eq_true_eq, Succeeded]
  constructor
  · rintro ⟨link, member, row, ⟨rowMember, sameName, succeeded⟩, rfl⟩
    exact ⟨link, member, rfl, row, rowMember, sameName.symm, succeeded⟩
  · rintro ⟨link, member, rfl, row, rowMember, sameName, succeeded⟩
    exact ⟨link, member, row, ⟨rowMember, sameName.symm, succeeded⟩, rfl⟩

theorem mem_getReadyLinkless {tables : Tables} {name : String} :
    name ∈ tables.getReadyLinkless ↔
      (∃ row ∈ tables.job, row.jobName = name ∧ row.jobState = some .waiting) ∧
        name ∉ tables.jobsLink.map JobsLinkRow.jobNameNxt := by
  simp only [getReadyLinkless, List.mem_map, List.mem_filter, decide_eq_true_eq]
  constructor
  · rintro ⟨row, ⟨member, waiting, linkless⟩, rfl⟩
    exact ⟨⟨row, member, rfl, waiting⟩, linkless⟩
  · rintro ⟨⟨row, member, rfl, waiting⟩, linkless⟩
    exact ⟨row, ⟨member, waiting, linkless⟩, rfl⟩

/-- A job that some link leads to is not in `get_ready_linkless`. -/
theorem not_mem_getReadyLinkless_of_link {tables : Tables} {link : JobsLinkRow}
    (member : link ∈ tables.jobsLink) :
    link.jobNameNxt ∉ tables.getReadyLinkless := by
  intro linkless
  exact (mem_getReadyLinkless.mp linkless).2 (List.mem_map_of_mem member)

/-- The operands of the exclusive or of `get_ready_job` exclude each other. -/
theorem not_mem_getReadyLinkless_of_linked {tables : Tables} {name : String}
    (linked : name ∈ tables.getReadyLinks) : name ∉ tables.getReadyLinkless := by
  obtain ⟨link, member, rfl, _⟩ := mem_getReadyLinks.mp linked
  exact not_mem_getReadyLinkless_of_link member

theorem passesLinks_iff {tables : Tables} {row : JobRow} :
    tables.passesLinks row = true ↔
      row.jobName ∈ tables.getReadyLinks ∨ row.jobName ∈ tables.getReadyLinkless := by
  unfold passesLinks
  by_cases linked : row.jobName ∈ tables.getReadyLinks
  · simp [linked, not_mem_getReadyLinkless_of_linked linked]
  · simp [linked]

/-- The time gate that the subquery of `get_ready_job` really is. -/
theorem mem_getReadyJob {tables : Tables} {now : Int} {row : JobRow} :
    row ∈ tables.getReadyJob now ↔
      row ∈ tables.job ∧ tables.passesLinks row = true ∧
        tables.getReadyTime now ≠ [] := by
  simp only [getReadyJob, List.mem_filter, Bool.and_eq_true, decide_eq_true_eq,
    List.mem_map, and_true]
  have nonempty : (∃ name, name ∈ tables.getReadyTime now) ↔ tables.getReadyTime now ≠ [] :=
    ⟨fun ⟨_, member⟩ => List.ne_nil_of_mem member, List.exists_mem_of_ne_nil _⟩
  rw [nonempty]

end Tables

end OpenWorkloadScheduler.Store
