import OpenWorkloadScheduler.Domain.Frames
import OpenWorkloadScheduler.Domain.Serving
import OpenWorkloadScheduler.Domain.StateReadings
import OpenWorkloadScheduler.Store.Loading
import OpenWorkloadScheduler.Store.Readiness

/-!
# The completion of a job

When a job has succeeded, the links from it become ready and its own row leaves
the jobs without predecessors.  No other job loses anything by it: the two
operands of the exclusive or of `get_ready_job` cannot both hold of one row, and
neither of them shrinks beside the job itself.

What the update completes is up to the text that the server reads, though: a quote in
the name of the job can let other jobs in.
-/

namespace OpenWorkloadScheduler

open Rpc Store Foundations

/-! ## The views -/

namespace Store.Tables

/-- The update sets the state `succeded` and leaves the name. -/
structure Completes (update : JobRow → JobRow) : Prop where
  named : ∀ row, (update row).jobName = row.jobName
  succeeds : ∀ row, (update row).jobState = some .succeded

section Completion

variable {tables : Tables} {condition : Condition} {update : JobRow → JobRow} {other : String}

theorem Succeeded.updateJobsWhere (completes : Completes update)
    (succeeded : tables.Succeeded other) :
    (tables.updateJobsWhere condition update).Succeeded other := by
  obtain ⟨row, member, rowName, state⟩ := succeeded
  refine ⟨_, List.mem_map_of_mem member, ?_⟩
  split
  · exact ⟨(completes.named row).trans rowName, completes.succeeds row⟩
  · exact ⟨rowName, state⟩

theorem getReadyLinks_subset_updateJobsWhere (completes : Completes update) :
    tables.getReadyLinks ⊆ (tables.updateJobsWhere condition update).getReadyLinks := by
  intro name linked
  obtain ⟨link, member, leads, succeeded⟩ := mem_getReadyLinks.mp linked
  exact mem_getReadyLinks.mpr ⟨link, member, leads, succeeded.updateJobsWhere completes⟩

/-- A row that the condition does not hold of stays as it is. -/
theorem mem_updateJobsWhere_of_spared {row : JobRow} (member : row ∈ tables.job)
    (spared : condition.holds row = false) :
    row ∈ (tables.updateJobsWhere condition update).job := by
  refine List.mem_map.mpr ⟨row, member, ?_⟩
  rw [spared]
  rfl

theorem mem_getReadyLinkless_updateJobsWhere
    (spared : ∀ row ∈ tables.job, row.jobName = other → condition.holds row = false)
    (linkless : other ∈ tables.getReadyLinkless) :
    other ∈ (tables.updateJobsWhere condition update).getReadyLinkless := by
  obtain ⟨⟨row, member, rowName, waits⟩, unlinked⟩ := mem_getReadyLinkless.mp linkless
  have kept : row ∈ (tables.updateJobsWhere condition update).job :=
    mem_updateJobsWhere_of_spared member (spared row member rowName)
  exact mem_getReadyLinkless.mpr ⟨⟨row, kept, rowName, waits⟩, unlinked⟩

/-- The gate reads the names of the jobs, which the update leaves. -/
theorem getReadyTime_updateJobsWhere_ne_nil {now : Int} (completes : Completes update)
    (opened : tables.getReadyTime now ≠ []) :
    (tables.updateJobsWhere condition update).getReadyTime now ≠ [] := by
  intro closed
  apply opened
  rw [getReadyTime_eq_nil_iff] at closed ⊢
  intro row member
  have sameName : (if condition.holds row then update row else row).jobName = row.jobName := by
    split
    · exact completes.named row
    · rfl
  have updated := closed _ (List.mem_map_of_mem member)
  rw [passesTime, sameName] at updated
  exact updated

/-- A job that was offered and that the condition does not hold of is offered with the
same row. -/
theorem mem_getReadyJob_updateJobsWhere {now : Int} {row : JobRow} (completes : Completes update)
    (spared : ∀ other ∈ tables.job, other.jobName = row.jobName → condition.holds other = false)
    (offered : row ∈ tables.getReadyJob now) :
    row ∈ (tables.updateJobsWhere condition update).getReadyJob now := by
  obtain ⟨member, passes, opened⟩ := mem_getReadyJob.mp offered
  have passesAfter : (tables.updateJobsWhere condition update).passesLinks row = true := by
    apply passesLinks_iff.mpr
    rcases passesLinks_iff.mp passes with linked | linkless
    · exact Or.inl (getReadyLinks_subset_updateJobsWhere completes linked)
    · exact Or.inr (mem_getReadyLinkless_updateJobsWhere spared linkless)
  exact mem_getReadyJob.mpr ⟨mem_updateJobsWhere_of_spared member (spared row member rfl),
    passesAfter, getReadyTime_updateJobsWhere_ne_nil completes opened⟩

/-- A job without links that has succeeded is not offered. -/
theorem not_offered_of_succeeded {now : Int} {name : String} (unlinked : tables.jobsLink = [])
    (succeeded : ∀ row ∈ tables.job, row.jobName = name → row.jobState = some .succeded) :
    ∀ row ∈ tables.getReadyJob now, row.jobName ≠ name := by
  intro row offered sameName
  rcases passesLinks_iff.mp (mem_getReadyJob.mp offered).2.1 with linked | linkless
  · obtain ⟨link, member, _⟩ := mem_getReadyLinks.mp linked
    rw [unlinked] at member
    cases member
  · obtain ⟨⟨waiting, member, waitingName, state⟩, _⟩ := mem_getReadyLinkless.mp linkless
    rw [succeeded waiting member (waitingName.trans sameName)] at state
    cases state

end Completion

end Store.Tables

/-! ## The mutator -/

namespace Domain

theorem completes_succeded : Tables.Completes fun row => row.withState .succeded none where
  named _ := rfl
  succeeds _ := rfl

/-- What the server may execute for the call: what it reads in the text, or an update of any
rows where the clause `WHERE` is of no form that is modelled. -/
def MayExecute (domainName runningNode jobName : String) (action : Action Bool) : Prop :=
  updateJobStateAsRead domainName runningNode jobName .succeded = some action ∨
    updateJobStateAsRead domainName runningNode jobName .succeded = none ∧
      ∃ condition, action =
        lockedExecute [.updateJobsWhere jobName .succeded none condition] (some domainName)

/-- No state is `NULL`.  Whatever the server executes for the call on a job of that name, each
job that it tells from this one and that a view offers before is still offered after it, in
every schema and at every time. -/
def KeepsOthers (jobName : String) : Prop :=
  ∀ (domainName runningNode : String) (world : World) (action : Action Bool),
    (∀ name, ∀ row ∈ (world.server.tables name).job, row.jobState ≠ none) →
    (world.server.tables domainName).hasJob jobName →
    MayExecute domainName runningNode jobName action →
      ∀ (name : String) (now : Int), ∀ row ∈ (world.server.tables name).getReadyJob now,
        collationKey row.jobName ≠ collationKey jobName →
          ∃ kept ∈ ((finalState (action world)).server.tables name).getReadyJob now,
            kept.jobName = row.jobName

/-- A condition that the server may read in the text. -/
def MayRead (jobName : String) (condition : Condition) : Prop :=
  (Statement.updateJobState jobName .succeded).asRead =
      some (.updateJobsWhere jobName .succeded none condition) ∨
    (Statement.updateJobState jobName .succeded).asRead = none

instance (jobName : String) (condition : Condition) : Decidable (MayRead jobName condition) :=
  inferInstanceAs (Decidable (_ ∨ _))

/-- If the server reads an update, then one whose condition holds of no other job. -/
def NamesOnly (jobName : String) : Prop :=
  ∀ condition, MayRead jobName condition → ∀ row : JobRow, condition.holds row = true →
    collationKey row.jobName = collationKey jobName

section KeepsOthers

variable {jobName domainName runningNode : String} {condition : Condition} {action : Action Bool}

/-- The server reads an update or no SQL at all. -/
theorem asRead_cases {statement : Statement}
    (read : (Statement.updateJobState jobName .succeded).asRead = some statement) :
    (∃ text, statement = .malformed text) ∨ ∃ condition, MayRead jobName condition ∧
      statement = .updateJobsWhere jobName .succeded none condition := by
  have same := read
  rw [Statement.asRead, Statement.readUpdate] at same
  split at same
  · cases same
    exact Or.inl ⟨_, rfl⟩
  · obtain ⟨condition, _, rfl⟩ := Option.map_eq_some_iff.mp same
    exact Or.inr ⟨condition, Or.inl read, rfl⟩

theorem mayExecute_cases (may : MayExecute domainName runningNode jobName action) :
    action = pure false ∨
      (∃ text, action = lockedExecute [.malformed text] (some domainName)) ∨
        ∃ condition, MayRead jobName condition ∧ action =
          lockedExecute [.updateJobsWhere jobName .succeded none condition] (some domainName) := by
  rw [MayExecute, updateJobStateAsRead, executeAsRead] at may
  split at may
  · cases may with
    | inl executed =>
        cases executed
        exact Or.inl rfl
    | inr unknown => cases unknown.1
  · right
    cases may with
    | inl executed =>
        obtain ⟨statement, read, rfl⟩ := Option.map_eq_some_iff.mp executed
        rcases asRead_cases read with ⟨text, rfl⟩ | ⟨condition, mayRead, rfl⟩
        · exact Or.inl ⟨text, rfl⟩
        · exact Or.inr ⟨condition, mayRead, rfl⟩
    | inr unread =>
        obtain ⟨unread, condition, same⟩ := unread
        exact Or.inr ⟨condition, Or.inr (Option.map_eq_none_iff.mp unread), same⟩

/-- On a node that is named the server may execute what it may read. -/
theorem mayExecute_of_mayRead (named : runningNode ≠ "") (mayRead : MayRead jobName condition) :
    MayExecute domainName runningNode jobName
      (lockedExecute [.updateJobsWhere jobName .succeded none condition] (some domainName)) := by
  rw [MayExecute, updateJobStateAsRead, executeAsRead, if_neg named]
  cases mayRead with
  | inl read =>
      rw [read]
      exact Or.inl rfl
  | inr unread =>
      rw [unread]
      exact Or.inr ⟨rfl, condition, rfl⟩

/-- The rows of every schema after the call: those of the schema of the call are updated,
or nothing has changed. -/
theorem tables_updateJobsWhere (domainName name : String) (world : World) :
    let after := (finalState (lockedExecute [.updateJobsWhere jobName .succeded none condition]
      (some domainName) world)).server
    after.tables name = world.server.tables name ∨
      after.tables name = (world.server.tables name).updateJobsWhere condition fun row =>
        row.withState .succeded none := by
  dsimp only
  have all : ∀ other ∈ [Statement.updateJobsWhere jobName .succeded none condition],
      other.onRows = true := by simp [Statement.onRows]
  rcases lockedExecute_cases domainName world all with ⟨after, ran, changes⟩ | ⟨_, same⟩
  · rw [ran]
    by_cases written : name = domainName
    · rw [written]
      obtain ⟨schema, tables, found, changed, afterFound⟩ := changes.rows
      cases changed
      apply Or.inr
      rw [finalState, Server.tables_of_schema? found, Server.tables_of_schema? afterFound]
    · exact Or.inl (changes.beside.tables written)
  · exact Or.inl (by rw [same])

theorem tables_malformed (domainName text name : String) (world : World) :
    (finalState (lockedExecute [.malformed text] (some domainName) world)).server.tables name =
      world.server.tables name := by
  have all : ∀ other ∈ [Statement.malformed text], other.onRows = true := by
    simp [Statement.onRows]
  rcases lockedExecute_cases domainName world all with ⟨after, ran, changes⟩ | ⟨_, same⟩
  · rw [ran]
    by_cases written : name = domainName
    · rw [written]
      obtain ⟨schema, tables, found, changed, afterFound⟩ := changes.rows
      cases changed
      rw [finalState, Server.tables_of_schema? found, Server.tables_of_schema? afterFound]
    · exact changes.beside.tables written
  · rw [same]

theorem keepsOthers_of_namesOnly (only : NamesOnly jobName) : KeepsOthers jobName := by
  intro domainName runningNode world action _ _ executed name now row offered different
  rcases mayExecute_cases executed with rfl | ⟨text, rfl⟩ | ⟨condition, mayRead, rfl⟩
  · exact ⟨row, offered, rfl⟩
  · rw [tables_malformed]
    exact ⟨row, offered, rfl⟩
  · rcases @tables_updateJobsWhere jobName condition domainName name world with same | updated
    · rw [same]
      exact ⟨row, offered, rfl⟩
    · rw [updated]
      refine ⟨row, ?_, rfl⟩
      apply Tables.mem_getReadyJob_updateJobsWhere completes_succeded _ offered
      intro other _ sameName
      by_contra holds
      rw [Bool.not_eq_false] at holds
      exact different (sameName ▸ only condition mayRead other holds)

theorem lockedExecute_where_of_serving {world : World} {planning : String} {schema : Schema}
    (serving : Serving world planning schema) (state : EJobState) (times : Option (Int × Int)) :
    lockedExecute [.updateJobsWhere jobName state times condition] (some planning) world =
      .ok true (world.holding planning schema
        (schema.tables.updateJobsWhere condition fun row => row.withState state times)) :=
  @lockedExecute_of_serving world planning schema serving _ "job" (fun tables =>
    .ok (tables.updateJobsWhere condition fun row => row.withState state times)) _ rfl job_mem rfl

/-- The row as it is inserted. -/
def insertedRow (row : JobRow) : JobRow where
  jobName := row.jobName
  jobCmdLine := row.jobCmdLine
  jobNodeName := row.jobNodeName

theorem holds_insertedRow (row : JobRow) :
    condition.holds (insertedRow row) = condition.holds row := by
  have same : ∀ operand : Operand, operand.ofRow (insertedRow row) = operand.ofRow row := by
    intro operand
    cases operand <;> rfl
  simp only [Condition.holds, Comparison.holds, same]

/-- A planning with the job of a row and one of another name. -/
def besideTables (jobName : String) (row : JobRow) : Tables where
  node := [⟨row.jobNodeName, 0⟩]
  job := [insertedRow row, { insertedRow row with jobName }]

def besideWorld (jobName : String) (row : JobRow) : World where
  server := (⟨∅⟩ : Server).setSchema "demo_0"
    { emptySkeleton with tables := besideTables jobName row }

theorem serving_besideWorld (jobName : String) (row : JobRow) :
    Serving (besideWorld jobName row) "demo_0"
      { emptySkeleton with tables := besideTables jobName row } where
  quiet := rfl
  found := Server.schema?_setSchema_self _ _ _
  complete := complete_emptySkeleton.withTables _
  free := rfl

theorem tables_besideWorld (jobName : String) (row : JobRow) :
    (besideWorld jobName row).server.tables "demo_0" = besideTables jobName row :=
  Server.tables_setSchema_self _ _ _

theorem states_besideWorld (jobName : String) (row : JobRow) :
    ∀ name, ∀ other ∈ ((besideWorld jobName row).server.tables name).job,
      other.jobState ≠ none := by
  intro name other member
  by_cases same : name = "demo_0"
  · rw [same, tables_besideWorld] at member
    rcases List.mem_pair.mp member with rfl | rfl <;> exact nofun
  · rw [besideWorld, Server.tables_setSchema_ne same] at member
    cases member

theorem offered_besideTables (jobName : String) (row : JobRow) :
    insertedRow row ∈ (besideTables jobName row).getReadyJob 0 := by
  have member : insertedRow row ∈ (besideTables jobName row).job := List.mem_cons_self
  refine Tables.mem_getReadyJob.mpr ⟨member, Tables.passesLinks_iff.mpr (Or.inr ?_),
    Tables.getReadyTime_ne_nil_of_unconstrained rfl member⟩
  exact Tables.mem_getReadyLinkless.mpr ⟨⟨_, member, rfl, rfl⟩, List.not_mem_nil⟩

/-- Where the condition holds of a row of another name, the job of that name is lost. -/
theorem not_keepsOthers_of_holds (mayRead : MayRead jobName condition) {row : JobRow}
    (holds : condition.holds row = true)
    (different : collationKey row.jobName ≠ collationKey jobName) : ¬ KeepsOthers jobName := by
  intro keeps
  have executed : MayExecute "demo_0" "localhost" jobName
      (lockedExecute [.updateJobsWhere jobName .succeded none condition] (some "demo_0")) :=
    mayExecute_of_mayRead (by decide) mayRead
  have present : ((besideWorld jobName row).server.tables "demo_0").hasJob jobName := by
    rw [tables_besideWorld]
    exact List.mem_cons_of_mem _ List.mem_cons_self
  have offeredBefore : insertedRow row ∈
      ((besideWorld jobName row).server.tables "demo_0").getReadyJob 0 := by
    rw [tables_besideWorld]
    exact offered_besideTables jobName row
  obtain ⟨kept, offered, sameName⟩ := keeps "demo_0" "localhost" (besideWorld jobName row) _
    (states_besideWorld jobName row) present executed "demo_0" 0 (insertedRow row) offeredBefore
    different
  have rows : ((finalState (lockedExecute [.updateJobsWhere jobName .succeded none condition]
      (some "demo_0") (besideWorld jobName row))).server.tables "demo_0") =
        (besideTables jobName row).updateJobsWhere condition fun row =>
          row.withState .succeded none := by
    rw [lockedExecute_where_of_serving (serving_besideWorld jobName row)]
    exact Server.tables_setSchema_self _ _ _
  rw [rows] at offered
  refine Tables.not_offered_of_succeeded rfl ?_ kept offered sameName
  intro other member otherName
  obtain ⟨old, oldMember, rfl⟩ := List.mem_map.mp member
  rcases List.mem_pair.mp oldMember with rfl | rfl
  · rw [holds_insertedRow, holds]
    rfl
  · refine absurd (congrArg collationKey ?_) different
    revert otherName
    split <;> exact Eq.symm

/-- A name that reads as it is meant names its job only. -/
theorem namesOnly_of_isClean (clean : isClean jobName.toList = true) : NamesOnly jobName := by
  intro condition mayRead row holds
  rw [MayRead, Statement.asRead_updateJobState clean] at mayRead
  cases mayRead with
  | inl read =>
      rw [Option.some.injEq, Statement.updateJobsWhere.injEq] at read
      obtain ⟨_, _, _, rfl⟩ := read
      exact Condition.holds_named.mp holds
  | inr unread => cases unread

/-- The name of a job whose update sets every row. -/
def openingName : String := "x' OR 'a'='a"

end KeepsOthers

end Domain

end OpenWorkloadScheduler