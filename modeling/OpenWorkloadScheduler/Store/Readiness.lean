import OpenWorkloadScheduler.Foundations.Progress
import OpenWorkloadScheduler.Store.Skeleton

/-!
# Readiness of a job

The purpose of `get_ready_job` is to offer the jobs all of whose predecessors
have succeeded and whose own time constraints are met.  The view does less on
both sides: one succeeded predecessor is enough for `get_ready_links`, and the
time gate is open to every job as soon as it is open to one of them.

The results below give, for every state of a schema and every clock time, the
exact condition under which the view agrees with its purpose.
-/

namespace OpenWorkloadScheduler.Store.Tables

open Rpc

/-! ## Predecessors -/

/-- Every job that the view returns has all of its predecessors succeeded. -/
def OffersOnlyCompleted (tables : Tables) (now : Int) : Prop :=
  ∀ row ∈ tables.getReadyJob now, ∀ link ∈ tables.jobsLink,
    link.jobNameNxt = row.jobName → tables.Succeeded link.jobNamePrv

/-- No job has both a succeeded predecessor and one that has not succeeded. -/
def NoMixedFanIn (tables : Tables) : Prop :=
  ∀ row ∈ tables.job, ∀ first ∈ tables.jobsLink, ∀ second ∈ tables.jobsLink,
    first.jobNameNxt = row.jobName → second.jobNameNxt = row.jobName →
      tables.Succeeded first.jobNamePrv → tables.Succeeded second.jobNamePrv

instance (tables : Tables) (now : Int) : Decidable (tables.OffersOnlyCompleted now) :=
  inferInstanceAs (Decidable (∀ row ∈ tables.getReadyJob now, ∀ link ∈ tables.jobsLink, _))

/-- A returned job that some link leads to is there by a succeeded predecessor. -/
theorem mem_getReadyLinks_of_linked {tables : Tables} {row : JobRow} {link : JobsLinkRow}
    (passes : tables.passesLinks row = true)
    (member : link ∈ tables.jobsLink) (leads : link.jobNameNxt = row.jobName) :
    row.jobName ∈ tables.getReadyLinks := by
  rcases passesLinks_iff.mp passes with linked | linkless
  · exact linked
  · rw [← leads] at linkless
    exact absurd linkless (not_mem_getReadyLinkless_of_link member)

/-- Every job that the view returns has no predecessors or one that has succeeded. -/
theorem predecessor_of_ready {tables : Tables} {now : Int} {row : JobRow}
    (ready : row ∈ tables.getReadyJob now) :
    (∀ link ∈ tables.jobsLink, link.jobNameNxt ≠ row.jobName) ∨
      ∃ link ∈ tables.jobsLink, link.jobNameNxt = row.jobName ∧
        tables.Succeeded link.jobNamePrv := by
  obtain ⟨_, passes, _⟩ := mem_getReadyJob.mp ready
  rcases passesLinks_iff.mp passes with linked | linkless
  · exact Or.inr (mem_getReadyLinks.mp linked)
  · left
    intro link member leads
    exact (mem_getReadyLinkless.mp linkless).2 (leads ▸ List.mem_map_of_mem member)

/-- In every state and at every time, the jobs that `get_ready_job` returns have
all of their predecessors succeeded if and only if the time gate is closed or
no job has a succeeded predecessor next to one that has not succeeded. -/
theorem getReadyJob_predecessors_succeeded_iff (tables : Tables) (now : Int) :
    tables.OffersOnlyCompleted now ↔
      tables.getReadyTime now = [] ∨ tables.NoMixedFanIn := by
  constructor
  · intro completed
    by_cases closed : tables.getReadyTime now = []
    · exact Or.inl closed
    · apply Or.inr
      intro row rowMember first firstMember second secondMember firstLeads secondLeads succeeded
      have linked : row.jobName ∈ tables.getReadyLinks :=
        mem_getReadyLinks.mpr ⟨first, firstMember, firstLeads, succeeded⟩
      have offered : row ∈ tables.getReadyJob now :=
        mem_getReadyJob.mpr ⟨rowMember, passesLinks_iff.mpr (Or.inl linked), closed⟩
      exact completed row offered second secondMember secondLeads
  · rintro (closed | unmixed) row offered link member leads
    · exact absurd closed (mem_getReadyJob.mp offered).2.2
    · obtain ⟨rowMember, passes, _⟩ := mem_getReadyJob.mp offered
      have linked := mem_getReadyLinks_of_linked passes member leads
      obtain ⟨first, firstMember, firstLeads, succeeded⟩ := mem_getReadyLinks.mp linked
      exact unmixed row rowMember first firstMember link member firstLeads leads succeeded

/-- Two predecessors, only one of which has succeeded. -/
def joinOfTwo : Tables where
  node := [⟨"localhost", 10⟩]
  job := [
    { jobName := "extract", jobCmdLine := "/bin/ls", jobNodeName := "localhost",
      jobState := some .succeded },
    { jobName := "transform", jobCmdLine := "/bin/ls", jobNodeName := "localhost" },
    { jobName := "load", jobCmdLine := "/bin/ls", jobNodeName := "localhost" }]
  jobsLink := [⟨"extract", "load"⟩, ⟨"transform", "load"⟩]

/-- `load` is offered while `transform` is still waiting. -/
theorem getReadyJob_offers_before_predecessor :
    ¬ ∀ (tables : Tables) (now : Int), tables.OffersOnlyCompleted now := by
  intro always
  have refuted : ¬ joinOfTwo.OffersOnlyCompleted 0 := by decide
  exact refuted (always joinOfTwo 0)

/-! ## States -/

/-- Every job that the view returns waits. -/
def OffersOnlyWaiting (tables : Tables) (now : Int) : Prop :=
  ∀ row ∈ tables.getReadyJob now, row.jobState = some .waiting

/-- Every job that a link leads to from a succeeded one waits. -/
def SuccessorsWait (tables : Tables) : Prop :=
  ∀ link ∈ tables.jobsLink, tables.Succeeded link.jobNamePrv →
    ∀ row ∈ tables.job, row.jobName = link.jobNameNxt → row.jobState = some .waiting

instance (tables : Tables) (now : Int) : Decidable (tables.OffersOnlyWaiting now) :=
  inferInstanceAs (Decidable (∀ row ∈ tables.getReadyJob now, _))

/-- The view of the jobs without predecessors tests the state of the job itself. -/
theorem waiting_of_mem_getReadyLinkless {tables : Tables} {row : JobRow}
    (key : (tables.job.map JobRow.jobName).Nodup) (member : row ∈ tables.job)
    (linkless : row.jobName ∈ tables.getReadyLinkless) :
    row.jobState = some .waiting := by
  obtain ⟨⟨other, otherMember, sameName, waits⟩, _⟩ := mem_getReadyLinkless.mp linkless
  have same : other = row := List.inj_on_of_nodup_map key otherMember member sameName
  rw [← same]
  exact waits

/-- In every state and at every time, the jobs that `get_ready_job` returns all
wait if and only if the time gate is closed or the links from succeeded jobs
lead to waiting ones only. -/
theorem getReadyJob_waiting_iff (tables : Tables) (now : Int)
    (key : (tables.job.map JobRow.jobName).Nodup) :
    tables.OffersOnlyWaiting now ↔
      tables.getReadyTime now = [] ∨ tables.SuccessorsWait := by
  constructor
  · intro waiting
    by_cases closed : tables.getReadyTime now = []
    · exact Or.inl closed
    · apply Or.inr
      intro link linkMember succeeded row member leads
      have linked : row.jobName ∈ tables.getReadyLinks :=
        mem_getReadyLinks.mpr ⟨link, linkMember, leads.symm, succeeded⟩
      have offered : row ∈ tables.getReadyJob now :=
        mem_getReadyJob.mpr ⟨member, passesLinks_iff.mpr (Or.inl linked), closed⟩
      exact waiting row offered
  · intro condition row offered
    obtain ⟨member, passes, opened⟩ := mem_getReadyJob.mp offered
    rcases passesLinks_iff.mp passes with linked | linkless
    · obtain ⟨link, linkMember, leads, succeeded⟩ := mem_getReadyLinks.mp linked
      rcases condition with closed | successorsWait
      · exact absurd closed opened
      · exact successorsWait link linkMember succeeded row member leads.symm
    · exact waiting_of_mem_getReadyLinkless key member linkless

/-- Two jobs in a row that have both succeeded. -/
def finishedPair : Tables where
  node := [⟨"localhost", 10⟩]
  job := [
    { jobName := "extract", jobCmdLine := "/bin/ls", jobNodeName := "localhost",
      jobState := some .succeded },
    { jobName := "load", jobCmdLine := "/bin/ls", jobNodeName := "localhost",
      jobState := some .succeded }]
  jobsLink := [⟨"extract", "load"⟩]

theorem getReadyJob_waiting_iff_finishedPair :
    (finishedPair.job.map JobRow.jobName).Nodup ∧
      (finishedPair.OffersOnlyWaiting 0 ↔
        finishedPair.getReadyTime 0 = [] ∨ finishedPair.SuccessorsWait) := by
  have key : (finishedPair.job.map JobRow.jobName).Nodup := by decide
  exact ⟨key, getReadyJob_waiting_iff finishedPair 0 key⟩

/-- `load` is offered again after it has succeeded. -/
theorem getReadyJob_offers_finished :
    ¬ ∀ (tables : Tables) (now : Int), tables.Keys → tables.OffersOnlyWaiting now := by
  intro always
  have keys : finishedPair.Keys := by
    constructor <;> decide
  have refuted : ¬ finishedPair.OffersOnlyWaiting 0 := by decide
  exact refuted (always finishedPair 0 keys)

/-! ## The time gate -/

/-- Membership in `get_ready_time` of a row depends on its own constraints only. -/
theorem mem_getReadyTime {tables : Tables} {now : Int} {row : JobRow}
    (member : row ∈ tables.job) :
    row.jobName ∈ tables.getReadyTime now ↔ tables.passesTime now row = true := by
  simp only [getReadyTime, List.mem_map, List.mem_filter]
  constructor
  · rintro ⟨other, ⟨_, passes⟩, sameName⟩
    unfold passesTime at passes ⊢
    rwa [sameName] at passes
  · intro passes
    exact ⟨row, ⟨member, passes⟩, rfl⟩

/-- Every returned job is itself in `get_ready_time`, and whether a row is
returned depends, beside the link views, on the test of its own constraints. -/
structure GatesEachJob (tables : Tables) (now : Int) : Prop where
  own : ∀ row ∈ tables.getReadyJob now, row.jobName ∈ tables.getReadyTime now
  only : ∀ row ∈ tables.job,
    row ∈ tables.getReadyJob now ↔
      tables.passesLinks row = true ∧ tables.passesTime now row = true

/-- No row passes its own constraints, or every row that the link views let
through does. -/
def UniformGate (tables : Tables) (now : Int) : Prop :=
  (∀ row ∈ tables.job, tables.passesTime now row = false) ∨
    ∀ row ∈ tables.job, tables.passesLinks row = true → tables.passesTime now row = true

theorem getReadyTime_eq_nil_iff {tables : Tables} {now : Int} :
    tables.getReadyTime now = [] ↔
      ∀ row ∈ tables.job, tables.passesTime now row = false := by
  simp [getReadyTime, List.filter_eq_nil_iff]

/-- In every state and at every time, each returned job has passed its own time
gate, and only that, if and only if the gate is uniform. -/
theorem getReadyJob_gates_each_iff (tables : Tables) (now : Int) :
    tables.GatesEachJob now ↔ tables.UniformGate now := by
  constructor
  · intro gated
    by_cases closed : tables.getReadyTime now = []
    · exact Or.inl (getReadyTime_eq_nil_iff.mp closed)
    · apply Or.inr
      intro row member passes
      have offered : row ∈ tables.getReadyJob now :=
        mem_getReadyJob.mpr ⟨member, passes, closed⟩
      exact (mem_getReadyTime member).mp (gated.own row offered)
  · intro uniform
    have own : ∀ row ∈ tables.getReadyJob now, row.jobName ∈ tables.getReadyTime now := by
      intro row offered
      obtain ⟨member, passes, opened⟩ := mem_getReadyJob.mp offered
      rcases uniform with none | all
      · exact absurd (getReadyTime_eq_nil_iff.mpr none) opened
      · exact (mem_getReadyTime member).mpr (all row member passes)
    refine ⟨own, fun row member => ⟨fun offered => ?_, fun ⟨passes, ready⟩ => ?_⟩⟩
    · exact ⟨(mem_getReadyJob.mp offered).2.1,
        (mem_getReadyTime member).mp (own row offered)⟩
    · exact mem_getReadyJob.mpr
        ⟨member, passes, List.ne_nil_of_mem ((mem_getReadyTime member).mpr ready)⟩

/-- One job without constraints beside one that may not start before 23:00. -/
def lateJob : Tables where
  node := [⟨"localhost", 10⟩]
  job := [
    { jobName := "listing", jobCmdLine := "/bin/ls", jobNodeName := "localhost" },
    { jobName := "backup", jobCmdLine := "/bin/ls", jobNodeName := "localhost" }]
  timeConstraint := [⟨.after, 82800, "backup"⟩]

/-- At midnight `backup` is offered because `listing` may run. -/
theorem getReadyJob_opens_gate_for_others :
    ¬ ∀ (tables : Tables) (now : Int), tables.GatesEachJob now := by
  intro always
  have refuted :
      ¬ ∀ row ∈ lateJob.getReadyJob 0, row.jobName ∈ lateJob.getReadyTime 0 := by
    decide
  exact refuted (always lateJob 0).own

/-! ## The exclusive or -/

/-- The row has no constraint: the first operand in `get_ready_time`. -/
def unconstrained (tables : Tables) (row : JobRow) : Bool :=
  decide (row.jobName ∉ tables.timeConstraint.map TimeConstraintRow.timeCJobName)

/-- A constraint of the row is met: the second operand in `get_ready_time`. -/
def meetsConstraint (tables : Tables) (now : Int) (row : JobRow) : Bool :=
  decide (row.jobName ∈ tables.constrained .at
      fun value => timeFormat value = timeFormatNow now) ||
    decide (row.jobName ∈ tables.constrained .before
      fun value => timeFormatNow now ≤ timeFormat value) ||
    decide (row.jobName ∈ tables.constrained .after
      fun value => timeFormat value ≤ timeFormatNow now)

section Connectives

-- what stands for `xor` in the views
variable (connective : Bool → Bool → Bool)

/-- The view `get_ready_time` with the given connective. -/
def getReadyTimeWith (tables : Tables) (now : Int) : List String :=
  (tables.job.filter fun row =>
    connective (tables.unconstrained row) (tables.meetsConstraint now row)).map JobRow.jobName

/-- The view `get_ready_job` with the given connective, also in `get_ready_time`. -/
def getReadyJobWith (tables : Tables) (now : Int) : List JobRow :=
  tables.job.filter fun row =>
    connective (decide (row.jobName ∈ tables.getReadyLinks))
        (decide (row.jobName ∈ tables.getReadyLinkless)) &&
      decide (row.jobName ∈ (getReadyTimeWith connective tables now).map fun _ => row.jobName)

end Connectives

theorem getReadyTimeWith_xor (tables : Tables) (now : Int) :
    getReadyTimeWith xor tables now = tables.getReadyTime now :=
  rfl

theorem getReadyJobWith_xor (tables : Tables) (now : Int) :
    getReadyJobWith xor tables now = tables.getReadyJob now :=
  rfl

/-- A row that a branch of `get_ready_time` selects has a constraint. -/
theorem mem_timeConstraint_of_constrained {tables : Tables} {type : ETimeConstraintType}
    {test : Int → Bool} {name : String} (selected : name ∈ tables.constrained type test) :
    name ∈ tables.timeConstraint.map TimeConstraintRow.timeCJobName := by
  obtain ⟨constraint, member, rfl⟩ := List.mem_map.mp selected
  exact List.mem_map_of_mem (List.mem_of_mem_filter member)

theorem meetsConstraint_of_unconstrained {tables : Tables} (now : Int) {row : JobRow}
    (free : tables.unconstrained row = true) : tables.meetsConstraint now row = false := by
  have absent : ∀ type test, row.jobName ∉ tables.constrained type test :=
    fun type test selected => of_decide_eq_true free (mem_timeConstraint_of_constrained selected)
  simp only [meetsConstraint, absent, decide_false, Bool.or_false]

/-- Operands that exclude each other may as well be joined by `or`. -/
theorem or_eq_xor_of_exclusive {first second : Bool}
    (exclusive : first = true → second = false) : (first || second) = (first ^^ second) := by
  cases first with
  | false => rw [Bool.false_or, Bool.false_xor]
  | true => rw [exclusive rfl, Bool.or_false, Bool.xor_false]

theorem getReadyTimeWith_or (tables : Tables) (now : Int) :
    getReadyTimeWith or tables now = tables.getReadyTime now := by
  rw [← getReadyTimeWith_xor, getReadyTimeWith, getReadyTimeWith]
  congr 1
  refine List.filter_congr fun row _ => ?_
  exact or_eq_xor_of_exclusive (meetsConstraint_of_unconstrained now)

theorem getReadyJobWith_or (tables : Tables) (now : Int) :
    getReadyJobWith or tables now = tables.getReadyJob now := by
  rw [← getReadyJobWith_xor, getReadyJobWith, getReadyJobWith, getReadyTimeWith_or,
    getReadyTimeWith_xor]
  refine List.filter_congr fun row _ => ?_
  congr 1
  refine or_eq_xor_of_exclusive fun linked => decide_eq_false ?_
  exact not_mem_getReadyLinkless_of_linked (of_decide_eq_true linked)

/-- In every state and at every time, no job is in both link views and none without
constraints meets one, so that the views return the same rows with `or` for `xor`. -/
theorem readiness_operands_exclusive (tables : Tables) (now : Int) :
    (∀ name, ¬ (name ∈ tables.getReadyLinks ∧ name ∈ tables.getReadyLinkless)) ∧
      (∀ row, tables.unconstrained row = true → tables.meetsConstraint now row = false) ∧
      getReadyTimeWith or tables now = tables.getReadyTime now ∧
      getReadyJobWith or tables now = tables.getReadyJob now := by
  refine ⟨?_, ?_, getReadyTimeWith_or tables now, getReadyJobWith_or tables now⟩
  · rintro name ⟨linked, linkless⟩
    exact not_mem_getReadyLinkless_of_linked linked linkless
  · intro row free
    exact meetsConstraint_of_unconstrained now free

/-! ## Acyclic links -/

/-- The first job has to succeed before the second one. -/
def Links (tables : Tables) (prv nxt : String) : Prop :=
  ⟨prv, nxt⟩ ∈ tables.jobsLink

/-- Without constraints the time gate is open as soon as there is a job. -/
theorem getReadyTime_ne_nil_of_unconstrained {tables : Tables} {now : Int} {row : JobRow}
    (unconstrained : tables.timeConstraint = []) (member : row ∈ tables.job) :
    tables.getReadyTime now ≠ [] := by
  refine List.ne_nil_of_mem (a := row.jobName) ((mem_getReadyTime member).mpr ?_)
  simp [passesTime, constrained, unconstrained]

/-- Where the jobs have either succeeded or wait, and some wait, the view returns
one that waits. -/
theorem exists_ready_of_acyclic {tables : Tables} (now : Int)
    (unconstrained : tables.timeConstraint = [])
    (acyclic : ∀ name, ¬ Relation.TransGen tables.Links name name)
    (existing : ∀ link ∈ tables.jobsLink, link.jobNamePrv ∈ tables.job.map JobRow.jobName)
    (settled : ∀ row ∈ tables.job,
      row.jobState = some .waiting ∨ row.jobState = some .succeded)
    (waiting : ∃ row ∈ tables.job, row.jobState = some .waiting) :
    ∃ row ∈ tables.getReadyJob now, row.jobState = some .waiting := by
  have finite : {name | ∃ row ∈ tables.job, row.jobName = name ∧
      row.jobState = some .waiting}.Finite := by
    apply (List.finite_toSet (tables.job.map JobRow.jobName)).subset
    rintro name ⟨row, member, rfl, _⟩
    exact List.mem_map_of_mem member
  obtain ⟨other, otherMember, otherWaits⟩ := waiting
  obtain ⟨name, ⟨row, member, rfl, waits⟩, first⟩ := Foundations.exists_minimal_of_acyclic
    acyclic finite ⟨other.jobName, other, otherMember, rfl, otherWaits⟩
  refine ⟨row, mem_getReadyJob.mpr ⟨member, passesLinks_iff.mpr ?_,
    getReadyTime_ne_nil_of_unconstrained unconstrained member⟩, waits⟩
  by_cases linked : row.jobName ∈ tables.jobsLink.map JobsLinkRow.jobNameNxt
  · obtain ⟨link, linkMember, leads⟩ := List.mem_map.mp linked
    obtain ⟨prv, prvMember, prvName⟩ := List.mem_map.mp (existing link linkMember)
    rcases settled prv prvMember with prvWaits | succeeded
    · refine absurd ?_ (first prv.jobName ⟨prv, prvMember, rfl, prvWaits⟩)
      rw [prvName, ← leads]
      exact linkMember
    · exact Or.inl (mem_getReadyLinks.mpr
        ⟨link, linkMember, leads, prv, prvMember, prvName, succeeded⟩)
  · exact Or.inr (mem_getReadyLinkless.mpr ⟨⟨row, member, rfl, waits⟩, linked⟩)

end OpenWorkloadScheduler.Store.Tables
