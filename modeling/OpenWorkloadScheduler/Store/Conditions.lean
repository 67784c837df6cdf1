import OpenWorkloadScheduler.Store.Names

/-!
# The conditions of the updates

A quote in a name closes the literal that the name stands in, and what follows it is
read as SQL.  This module reads the clause `WHERE` of an update of `job` where it
consists of comparisons of the columns of text and of literals, joined by `OR`, and
says of which rows it holds.
-/

namespace OpenWorkloadScheduler.Store

open Rpc Foundations

/-- One side of a comparison: a column of text, or a literal. -/
inductive Operand where
  | jobName
  | jobCmdLine
  | jobNodeName
  | literal (value : String)
  deriving DecidableEq, Repr

namespace Operand

def ofRow (row : JobRow) : Operand → String
  | jobName => row.jobName
  | jobCmdLine => row.jobCmdLine
  | jobNodeName => row.jobNodeName
  | literal value => value

end Operand

structure Comparison where
  left : Operand
  right : Operand
  deriving DecidableEq, Repr

/-- Texts are compared by the collation. -/
def Comparison.holds (comparison : Comparison) (row : JobRow) : Bool :=
  collationKey (comparison.left.ofRow row) = collationKey (comparison.right.ofRow row)

/-- A condition is the list of the comparisons that `OR` joins. -/
abbrev Condition := List Comparison

def Condition.holds (condition : Condition) (row : JobRow) : Bool :=
  condition.any fun comparison => comparison.holds row

/-- The clause that is meant for the job of a name. -/
def Condition.named (name : String) : Condition :=
  [⟨.jobName, .literal name⟩]

theorem Condition.holds_named {name : String} {row : JobRow} :
    (named name).holds row = true ↔ collationKey row.jobName = collationKey name := by
  rw [named, holds, List.any_cons, List.any_nil, Bool.or_false]
  exact decide_eq_true_iff

/-- Among plain names the condition holds of the rows of that name. -/
theorem Condition.holds_named_of_plain {name : String} {row : JobRow} {names : List String}
    (plain : Plain names) (member : name ∈ names) (rowMember : row.jobName ∈ names) :
    (named name).holds row = true ↔ row.jobName = name := by
  rw [holds_named]
  constructor
  · exact plain.apart _ rowMember _ member
  · exact congrArg collationKey

/-! ## Updating rows -/

def JobRow.withState (row : JobRow) (state : EJobState) : Option (Int × Int) → JobRow
  | none => { row with jobState := some state }
  | some (startTime, stopTime) =>
      { row with
        jobState := some state, jobStartTime := some startTime, jobStopTime := some stopTime }

/-- `UPDATE job SET … WHERE condition`. -/
def Tables.updateJobsWhere (tables : Tables) (condition : Condition) (update : JobRow → JobRow) :
    Tables :=
  { tables with
    job := tables.job.map fun row => if condition.holds row then update row else row }

/-- On a table whose names are plain the condition on a name changes the rows of that name. -/
theorem Tables.updateJobsWhere_named {tables : Tables} {name : String} {update : JobRow → JobRow}
    {names : List String} (plain : Plain names) (member : name ∈ names)
    (rows : ∀ row ∈ tables.job, row.jobName ∈ names) :
    tables.updateJobsWhere (.named name) update = tables.updateJob name update := by
  rw [updateJobsWhere, updateJob]
  congr 1
  apply List.map_congr_left
  intro row rowMember
  simp only [Condition.holds_named_of_plain plain member (rows row rowMember)]

/-! ## Reading a condition -/

namespace Condition

/-- The tokens of a text without quotes. -/
def symbols (text : String) : List Token :=
  text.toList.map Token.symbol

def skipBlanks (tokens : List Token) : List Token :=
  tokens.dropWhile fun token => token = .symbol ' '

/-- The rest of the tokens after those of a text. -/
def skip (text : String) (tokens : List Token) : Option (List Token) :=
  tokens.dropPrefix? (symbols text)

/-- No letter of a name comes next. -/
def atWordEnd : List Token → Bool
  | .symbol letter :: _ =>
      letter.toNat < 128 && !letter.isAlphanum && letter ≠ '_' && letter ≠ '$'
  | _ => true

def skipWord (word : String) (tokens : List Token) : Option (List Token) :=
  (skip word tokens).filter atWordEnd

/-- A column or a literal, and what follows it. -/
def readOperand (tokens : List Token) : Option (Operand × List Token) :=
  match skipBlanks tokens with
  | .literal value :: rest => some (.literal (String.ofList value), rest)
  | rest =>
      ((skipWord "job_name" rest).map (Operand.jobName, ·)).or
        (((skipWord "job_cmd_line" rest).map (Operand.jobCmdLine, ·)).or
          ((skipWord "job_node_name" rest).map (Operand.jobNodeName, ·)))

def readComparison (tokens : List Token) : Option (Comparison × List Token) := do
  let (left, rest) ← readOperand tokens
  let (right, rest) ← readOperand (← skip "=" (skipBlanks rest))
  return (⟨left, right⟩, skipBlanks rest)

/-- Comparisons joined by `OR` up to the semicolon, which is the last token.  The bound
is one for each comparison. -/
def readComparisons : Nat → List Token → Option Condition
  | 0, _ => none
  | bound + 1, tokens => do
      let (comparison, rest) ← readComparison tokens
      if rest = [.symbol ';'] then return [comparison]
      else return comparison :: (← readComparisons bound (← skipWord "OR" rest))

/-- The tokens behind the first `WHERE`. -/
def afterWhere : List Token → Option (List Token)
  | [] => none
  | token :: tokens =>
      match skip " WHERE " (token :: tokens) with
      | some rest => some rest
      | none => afterWhere tokens

/-- The condition of an update, if its clause `WHERE` is of this form. -/
def read (tokens : List Token) : Option Condition := do
  let clause ← afterWhere tokens
  readComparisons clause.length clause

end Condition

end OpenWorkloadScheduler.Store
