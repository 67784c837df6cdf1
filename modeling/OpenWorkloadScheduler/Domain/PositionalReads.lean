import OpenWorkloadScheduler.Domain.Reads
import OpenWorkloadScheduler.Foundations.Positions

/-!
# The rows that are read by position

`query_one_row` is meant for results of one row.  It appends the texts of all the
rows to one vector and leaves NULL out, and its callers read that vector by the
numbers of the columns.  Some of them look at the size first or at the success
of the query, others at neither.
-/

namespace OpenWorkloadScheduler

open Rpc Store Foundations

namespace Domain

variable (domain : Domain)

/-- `Domain::contains_data`.  The table `job` has no column `job_name_name`. -/
def containsData (nodeName : Option String) : Action Bool := do
  match nodeName with
  | none => throw (.exProcessing "the given node_name is NULL")
  | some nodeName =>
      let result ← Mysql.queryOneRow
        (.malformed ("SELECT COUNT(*) FROM job WHERE job_name_name LIKE '" ++ nodeName ++ "';"))
        (some domain.name)
      let count ← lift (do cast 32 (← column (result.getD []) 0))
      return 0 < count

/-! ## The reads of the callers -/

/-- `row[index]`, as a read of the vector. -/
def readColumn {Alpha : Type} (index : Nat) (next : String → Reads Raised String Alpha) :
    Reads Raised String Alpha :=
  .read index (.undefinedBehaviour "vector::operator[]") next

/-- `row.at(index)`, as a read of the vector. -/
def readColumnAt {Alpha : Type} (index : Nat) (next : String → Reads Raised String Alpha) :
    Reads Raised String Alpha :=
  .read index (.standard "vector::_M_range_check") next

theorem run_readColumn {Alpha : Type} (index : Nat)
    (next : String → Reads Raised String Alpha) (row : List String) :
    (readColumn index next).run row =
      column row index >>= fun text => (next text).run row := by
  rw [readColumn, Reads.run, column]
  cases row[index]? <;> rfl

theorem run_readColumnAt {Alpha : Type} (index : Nat)
    (next : String → Reads Raised String Alpha) (row : List String) :
    (readColumnAt index next).run row =
      columnAt row index >>= fun text => (next text).run row := by
  rw [readColumnAt, Reads.run, columnAt]
  cases row[index]? <;> rfl

/-- What `get_job` takes from the row. -/
structure JobColumns where
  name : String
  nodeName : String
  cmdLine : String
  weight : Int
  state : EJobState

def jobReads : Reads Raised String JobColumns :=
  readColumn 0 fun name =>
    readColumn 2 fun nodeName =>
      readColumn 1 fun cmdLine =>
        readColumn 3 fun text =>
          .convert (cast 32 text) fun weight =>
            readColumn 4 fun text =>
              .convert (buildJobStateFromString text) fun state =>
                .done (.ok { name, nodeName, cmdLine, weight, state })

def nodeReads : Reads Raised String (Option (String × Int)) :=
  readColumn 0 fun name =>
    readColumn 1 fun text =>
      .convert (cast 16 text) fun weight => .done (.ok (some (name, weight)))

def recoveryTypeReads : Reads Raised String TRecoveryType :=
  readColumn 0 fun text =>
    match lexicalCast 32 text with
    | none =>
        .done (.error (.exProcessing ("cannot cast " ++ text ++ " to integer - " ++
          what (.exProcessing ""))))
    | some id =>
        readColumn 1 fun shortLabel =>
          readColumn 2 fun label =>
            readColumn 3 fun text =>
              .convert (buildRectypeActionFromString text) fun action =>
                .done (.ok { id := Integer.narrow id, shortLabel, label, action })

/-- The callers of `query_one_row` that read its vector by position. -/
inductive RowReader where
  | getJob
  | getNode
  | getRecoveryType
  | containsData (nodeName : Option String)
  | monitorFailedJobs
  | monitorWaitingJobs

namespace RowReader

def Result : RowReader → Type
  | getJob => JobColumns
  | getNode => Option (String × Int)
  | getRecoveryType => TRecoveryType
  | containsData _ => Int
  | monitorFailedJobs => Integer
  | monitorWaitingJobs => Integer

/-- What a caller does with the vector that the query filled; `none` is the result
`false`, which leaves the vector empty. -/
def reads : (reader : RowReader) → Option (List String) → Reads Raised String reader.Result
  | getJob, none => .done (.error (.exJob "The query failed"))
  | getJob, some _ => jobReads
  | getNode, none => .done (.error (.exJob "The query failed"))
  | getNode, some row => if 0 < row.length then nodeReads else .done (.ok none)
  | getRecoveryType, none => .done (.error (.exJob "The query failed"))
  | getRecoveryType, some _ => recoveryTypeReads
  | containsData none, _ => .done (.error (.exProcessing "the given node_name is NULL"))
  | containsData (some _), _ => readColumn 0 fun text => .done (cast 32 text)
  | monitorFailedJobs, _ => readColumnAt 0 fun text => .done (cast 16 text)
  | monitorWaitingJobs, _ => readColumnAt 0 fun text => .done (cast 16 text)

/-- What a caller has found, or the exception that it leaves by. -/
def outcome (reader : RowReader) (row : Option (List String)) : Except Raised reader.Result :=
  (reader.reads row).run (row.getD [])

end RowReader

theorem getJob_eq_outcome (domainName : String) (runningNode : Option String)
    (jobName : String) :
    getJob domain domainName runningNode jobName = (do
      let row ← Mysql.queryOneRow (.job jobName runningNode) (some domainName)
      let columns : JobColumns ← lift (RowReader.getJob.outcome row)
      let nxt ← getJobsNext domainName columns.name
      let timeConstraints ← getTimeConstraints domainName columns.name
      return {
        domain := domain.name, name := columns.name, nodeName := columns.nodeName,
        cmdLine := columns.cmdLine, weight := Integer.narrow columns.weight,
        state := columns.state, nxt, timeConstraints }) := by
  refine bind_congr fun row => ?_
  cases row with
  | none => rfl
  | some row =>
      change _ = lift (jobReads.run row) >>= _
      rw [jobReads]
      simp only [run_readColumn, Reads.run_convert, lift_bind, bind_assoc]
      rfl

theorem getNode_eq_outcome (domainName nodeName : String) :
    getNode domain domainName nodeName = (do
      let row ← Mysql.queryOneRow (.node nodeName) (some domainName)
      let columns : Option (String × Int) ← lift (RowReader.getNode.outcome row)
      match columns with
      | none => return {}
      | some (name, weight) => do
          let resources ← getResources domainName
          let jobs ← getJobs domain domainName (some name)
          return { name, weight, domainName := domain.name, resources, jobs }) := by
  refine bind_congr fun row => ?_
  cases row with
  | none => rfl
  | some row =>
      by_cases filled : 0 < row.length
      · have chosen : RowReader.getNode.reads (some row) = nodeReads := if_pos filled
        rw [RowReader.outcome, chosen]
        change (if 0 < row.length then _ else _) = lift (nodeReads.run row) >>= _
        rw [if_pos filled, nodeReads]
        simp only [run_readColumn, Reads.run_convert, lift_bind, bind_assoc]
        rfl
      · have chosen : RowReader.getNode.reads (some row) = .done (.ok none) := if_neg filled
        rw [RowReader.outcome, chosen]
        change (if 0 < row.length then _ else _) = _
        rw [if_neg filled]
        rfl

theorem getRecoveryType_eq_outcome (domainName : String) (recId : Int) :
    getRecoveryType domainName recId = (do
      let row ← Mysql.queryOneRow (.recoveryType (characterOf recId)) (some domainName)
      lift (RowReader.getRecoveryType.outcome row)) := by
  refine bind_congr fun row => ?_
  cases row with
  | none => rfl
  | some row =>
      change lift (readRecoveryType row) = lift (recoveryTypeReads.run row)
      rw [readRecoveryType, recoveryTypeReads, run_readColumn]
      refine congrArg lift (bind_congr fun text => ?_)
      cases lexicalCast 32 text with
      | none => rfl
      | some id =>
          simp only [run_readColumn, Reads.run_convert]
          rfl

theorem containsData_eq_outcome (nodeName : String) :
    containsData domain (some nodeName) = (do
      let row ← Mysql.queryOneRow
        (.malformed ("SELECT COUNT(*) FROM job WHERE job_name_name LIKE '" ++ nodeName ++ "';"))
        (some domain.name)
      let count : Int ← lift ((RowReader.containsData (some nodeName)).outcome row)
      return 0 < count) := by
  refine bind_congr fun row => ?_
  change lift (column _ 0 >>= cast 32) >>= _ =
    lift ((readColumn 0 fun text => .done (cast 32 text)).run (row.getD [])) >>= _
  rw [run_readColumn]
  rfl

theorem countJobs_eq_reads (domainName : String) (state : EJobState) :
    countJobs domainName state = (do
      let row ← Mysql.queryOneRow (.countJobs state) (some domainName)
      lift ((readColumnAt 0 fun text => .done (cast 16 text)).run (row.getD []))) := by
  refine bind_congr fun row => ?_
  rw [run_readColumnAt]
  rfl

theorem monitorFailedJobs_eq_outcome (domainName : String) :
    monitorFailedJobs domainName = (do
      let row ← Mysql.queryOneRow (.countJobs .failed) (some domainName)
      lift (RowReader.monitorFailedJobs.outcome row)) :=
  countJobs_eq_reads domainName .failed

theorem monitorWaitingJobs_eq_outcome (domainName : String) :
    monitorWaitingJobs domainName = (do
      let row ← Mysql.queryOneRow (.countJobs .waiting) (some domainName)
      lift (RowReader.monitorWaitingJobs.outcome row)) :=
  countJobs_eq_reads domainName .waiting

/-! ## The first row -/

/-- The vector that `query_one_row` fills; `none` is a query that fails. -/
def flattened (result : Option (List Query.ResultRow)) : Option (List String) :=
  result.map fun rows => rows.flatMap fun row => row.filterMap id

/-- One of the exceptions of the service. -/
def IsServiceException : Raised → Prop
  | .exRouting _ | .exJob _ | .exNode _ | .exPlanning _ | .exProcessing _ => True
  | .standard _ | .undefinedBehaviour _ | .blocked => False

namespace RowReader

/-- Every positional read is within the vector and finds the column of the first row;
without a first row the caller raises an exception of the service. -/
def ReadsFirstRow (reader : RowReader) (result : Option (List Query.ResultRow)) : Prop :=
  match result with
  | some (row :: _) =>
      (reader.reads (flattened result)).Agrees ((flattened result).getD []) row
  | _ =>
      ∃ raised, reader.outcome (flattened result) = .error raised ∧ IsServiceException raised

/-- What a caller needs of the result: `get_node` a text in both columns, unless no row has
any text, and `get_job` and `get_recovery_type` a text in every column up to the last that
they read, which is an earlier one where a number cannot be converted.  The others need a
row even from a query that fails. -/
def Suffices : RowReader → Option (List Query.ResultRow) → Prop
  | getJob, none => True
  | getJob, some [] => False
  | getJob, some (row :: _) =>
      Filled row 0 ∧ Filled row 1 ∧ Filled row 2 ∧
        ∃ text, row[3]? = some (some text) ∧ (lexicalCast 32 text = none ∨ Filled row 4)
  | getNode, none => True
  | getNode, some [] => False
  | getNode, some (row :: rows) =>
      (flattened (some (row :: rows)) = some []) ∨ Filled row 0 ∧ Filled row 1
  | getRecoveryType, none => True
  | getRecoveryType, some [] => False
  | getRecoveryType, some (row :: _) =>
      ∃ text, row[0]? = some (some text) ∧
        (lexicalCast 32 text = none ∨ Filled row 1 ∧ Filled row 2 ∧ Filled row 3)
  | containsData none, _ => True
  | containsData (some _), some (row :: _) => Filled row 0
  | containsData (some _), _ => False
  | monitorFailedJobs, some (row :: _) => Filled row 0
  | monitorFailedJobs, _ => False
  | monitorWaitingJobs, some (row :: _) => Filled row 0
  | monitorWaitingJobs, _ => False

section Rows

variable {row : Query.ResultRow} {rows : List Query.ResultRow}

/-- A text of the first row is at the number of its column as long as no column before
it is NULL. -/
theorem getElem?_flattened {bound index : Nat} {text : String}
    (filled : ∀ earlier < bound, Filled row earlier) (within : index ≤ bound)
    (selected : row[index]? = some (some text)) :
    ((flattened (some (row :: rows))).getD [])[index]? = some text :=
  getElem?_filterMap_append _ (fun earlier less => filled earlier (by omega)) selected

/-- The first text of the first row is the first one of the vector. -/
theorem getElem?_flattened_zero {text : String} (selected : row[0]? = some (some text)) :
    ((flattened (some (row :: rows))).getD [])[0]? = some text :=
  getElem?_filterMap_append _ nofun selected

theorem agrees_jobReads :
    jobReads.Agrees ((flattened (some (row :: rows))).getD []) row ↔
      Suffices getJob (some (row :: rows)) := by
  constructor
  · intro agrees
    obtain ⟨_, _, name, agrees⟩ := Reads.agrees_read.mp agrees
    obtain ⟨_, _, nodeName, agrees⟩ := Reads.agrees_read.mp agrees
    obtain ⟨_, _, cmdLine, agrees⟩ := Reads.agrees_read.mp agrees
    obtain ⟨text, _, weight, agrees⟩ := Reads.agrees_read.mp agrees
    refine ⟨⟨_, name⟩, ⟨_, cmdLine⟩, ⟨_, nodeName⟩, text, weight, ?_⟩
    cases converted : lexicalCast 32 text with
    | none => exact Or.inl rfl
    | some value =>
        have cast : Domain.cast 32 text = .ok value := by rw [Domain.cast, converted]
        obtain ⟨_, _, state, _⟩ := Reads.agrees_read.mp (Reads.agrees_convert.mp agrees value cast)
        exact Or.inr ⟨_, state⟩
  · rintro ⟨⟨_, name⟩, ⟨_, cmdLine⟩, ⟨_, nodeName⟩, text, weight, last⟩
    have filled : ∀ earlier < 4, Filled row earlier
      | 0, _ => ⟨_, name⟩
      | 1, _ => ⟨_, cmdLine⟩
      | 2, _ => ⟨_, nodeName⟩
      | 3, _ => ⟨_, weight⟩
    refine Reads.agrees_read.mpr ⟨_, getElem?_flattened_zero name, name, ?_⟩
    refine Reads.agrees_read.mpr
      ⟨_, getElem?_flattened filled (by decide) nodeName, nodeName, ?_⟩
    refine Reads.agrees_read.mpr
      ⟨_, getElem?_flattened filled (by decide) cmdLine, cmdLine, ?_⟩
    refine Reads.agrees_read.mpr ⟨_, getElem?_flattened filled (by decide) weight, weight, ?_⟩
    refine Reads.agrees_convert.mpr fun value converted => ?_
    rcases last with unconverted | ⟨_, state⟩
    · rw [Domain.cast, unconverted] at converted
      cases converted
    · refine Reads.agrees_read.mpr ⟨_, getElem?_flattened filled (by decide) state, state, ?_⟩
      exact Reads.agrees_convert.mpr fun _ _ => Reads.agrees_done _ _ _

theorem agrees_recoveryTypeReads :
    recoveryTypeReads.Agrees ((flattened (some (row :: rows))).getD []) row ↔
      Suffices getRecoveryType (some (row :: rows)) := by
  constructor
  · intro agrees
    obtain ⟨text, _, id, agrees⟩ := Reads.agrees_read.mp agrees
    refine ⟨text, id, ?_⟩
    cases converted : lexicalCast 32 text with
    | none => exact Or.inl rfl
    | some value =>
        rw [converted] at agrees
        obtain ⟨_, _, shortLabel, agrees⟩ := Reads.agrees_read.mp agrees
        obtain ⟨_, _, label, agrees⟩ := Reads.agrees_read.mp agrees
        obtain ⟨_, _, action, _⟩ := Reads.agrees_read.mp agrees
        exact Or.inr ⟨⟨_, shortLabel⟩, ⟨_, label⟩, ⟨_, action⟩⟩
  · rintro ⟨text, id, last⟩
    refine Reads.agrees_read.mpr ⟨_, getElem?_flattened_zero id, id, ?_⟩
    cases converted : lexicalCast 32 text with
    | none => exact Reads.agrees_done _ _ _
    | some value =>
        obtain unconverted | ⟨⟨_, shortLabel⟩, ⟨_, label⟩, ⟨_, action⟩⟩ := last
        · rw [converted] at unconverted
          cases unconverted
        · have filled : ∀ earlier < 3, Filled row earlier
            | 0, _ => ⟨_, id⟩
            | 1, _ => ⟨_, shortLabel⟩
            | 2, _ => ⟨_, label⟩
          refine Reads.agrees_read.mpr
            ⟨_, getElem?_flattened filled (by decide) shortLabel, shortLabel, ?_⟩
          refine Reads.agrees_read.mpr
            ⟨_, getElem?_flattened filled (by decide) label, label, ?_⟩
          refine Reads.agrees_read.mpr
            ⟨_, getElem?_flattened filled (by decide) action, action, ?_⟩
          exact Reads.agrees_convert.mpr fun _ _ => Reads.agrees_done _ _ _

theorem agrees_nodeReads :
    nodeReads.Agrees ((flattened (some (row :: rows))).getD []) row ↔
      Filled row 0 ∧ Filled row 1 := by
  constructor
  · intro agrees
    obtain ⟨_, _, name, agrees⟩ := Reads.agrees_read.mp agrees
    obtain ⟨_, _, weight, _⟩ := Reads.agrees_read.mp agrees
    exact ⟨⟨_, name⟩, ⟨_, weight⟩⟩
  · rintro ⟨⟨_, name⟩, ⟨_, weight⟩⟩
    have filled : ∀ earlier < 1, Filled row earlier
      | 0, _ => ⟨_, name⟩
    refine Reads.agrees_read.mpr ⟨_, getElem?_flattened_zero name, name, ?_⟩
    refine Reads.agrees_read.mpr ⟨_, getElem?_flattened filled (by decide) weight, weight, ?_⟩
    exact Reads.agrees_convert.mpr fun _ _ => Reads.agrees_done _ _ _

/-- `get_node` reads nothing from a vector without texts. -/
theorem agrees_getNode :
    (reads getNode (flattened (some (row :: rows)))).Agrees
        ((flattened (some (row :: rows))).getD []) row ↔
      Suffices getNode (some (row :: rows)) := by
  rw [Suffices, ← @agrees_nodeReads row rows]
  by_cases empty : flattened (some (row :: rows)) = some []
  · rw [empty]
    exact iff_of_true (Reads.agrees_done _ _ _) (Or.inl rfl)
  · have filled : 0 < ((flattened (some (row :: rows))).getD []).length := by
      refine List.length_pos_iff.mpr fun none => empty ?_
      rw [← none]
      rfl
    have chosen : reads getNode (flattened (some (row :: rows))) = nodeReads := if_pos filled
    rw [chosen]
    exact (or_iff_right empty).symm

/-- A caller that reads the first column only. -/
theorem agrees_first {Alpha : Type} {outside : Raised} {next : String → Except Raised Alpha} :
    (Reads.read 0 outside fun text => .done (next text)).Agrees
        ((flattened (some (row :: rows))).getD []) row ↔
      Filled row 0 := by
  rw [Reads.agrees_read]
  constructor
  · rintro ⟨text, _, selected, _⟩
    exact ⟨text, selected⟩
  · rintro ⟨text, selected⟩
    exact ⟨text, getElem?_flattened_zero selected, selected, Reads.agrees_done _ _ _⟩

end Rows

theorem raises_iff {Alpha : Type} {outcome : Except Raised Alpha} {raised : Raised}
    (left : outcome = .error raised) :
    (∃ other, outcome = .error other ∧ IsServiceException other) ↔
      IsServiceException raised := by
  constructor
  · rintro ⟨other, same, service⟩
    rw [left] at same
    cases same
    exact service
  · exact fun service => ⟨raised, left, service⟩

/-- For every result, a caller reads the columns of the first row, or raises an exception
of the service without one, if and only if the result has what the caller needs. -/
theorem readsFirstRow_iff (reader : RowReader) (result : Option (List Query.ResultRow)) :
    reader.ReadsFirstRow result ↔ reader.Suffices result := by
  match reader, result with
  | getJob, none => exact raises_iff rfl
  | getJob, some [] => exact raises_iff rfl
  | getJob, some (row :: rows) => exact agrees_jobReads
  | getNode, none => exact raises_iff rfl
  | getNode, some [] => exact iff_of_false nofun id
  | getNode, some (row :: rows) => exact agrees_getNode
  | getRecoveryType, none => exact raises_iff rfl
  | getRecoveryType, some [] => exact raises_iff rfl
  | getRecoveryType, some (row :: rows) => exact agrees_recoveryTypeReads
  | containsData none, none => exact raises_iff rfl
  | containsData none, some [] => exact raises_iff rfl
  | containsData none, some (row :: rows) =>
      exact iff_of_true (Reads.agrees_done _ _ _) trivial
  | containsData (some _), none => exact raises_iff rfl
  | containsData (some _), some [] => exact raises_iff rfl
  | containsData (some _), some (row :: rows) => exact agrees_first
  | monitorFailedJobs, none => exact raises_iff rfl
  | monitorFailedJobs, some [] => exact raises_iff rfl
  | monitorFailedJobs, some (row :: rows) => exact agrees_first
  | monitorWaitingJobs, none => exact raises_iff rfl
  | monitorWaitingJobs, some [] => exact raises_iff rfl
  | monitorWaitingJobs, some (row :: rows) => exact agrees_first

/-- A name that no row has selects no row. -/
example : Query.select {} 0 (.job "absent" none) = .ok [] := by
  decide

/-- `get_job` reads the first text of a vector without any. -/
theorem getJob_reads_outside :
    ¬ ∀ (reader : RowReader) (result : Option (List Query.ResultRow)),
      reader.ReadsFirstRow result := by
  intro always
  exact (raises_iff rfl).mp (always getJob (some []))

end RowReader

end Domain

end OpenWorkloadScheduler
