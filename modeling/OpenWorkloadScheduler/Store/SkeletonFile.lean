import OpenWorkloadScheduler.ConfigFile
import OpenWorkloadScheduler.Foundations.Segments
import OpenWorkloadScheduler.Store.Statements

/-!
# The skeleton file

`Mysql::load_file` cuts the file into statements.  It reads line by line, and carries
the text that has no end yet from one line to the next.
-/

namespace OpenWorkloadScheduler.Store.Mysql

open Foundations

/-- `^--.*?$`. -/
def commentString : List Char → Bool
  | '-' :: '-' :: _ => true
  | _ => false

/-- `^.*?;$`. -/
def endOfQuery (line : List Char) : Bool :=
  line.getLast? = some ';'

/-- `^\s+$`. -/
def emptyString (query : List Char) : Bool :=
  query ≠ [] && query.all Config.isSpace

/-- The local variables of `load_file`. -/
structure Loading where
  queries : List (List Char) := []
  query : List Char := []
  deriving DecidableEq, Repr

/-- The body of the loop of `load_file`. -/
def Loading.readLine (loading : Loading) (line : List Char) : Loading :=
  let query := loading.query ++ [' ']
  if commentString line = false then
    if endOfQuery line = true then
      { queries := loading.queries ++ [query ++ line], query := [] }
    else { loading with query := query ++ line }
  else { loading with query }

/-- What `load_file` does after the loop. -/
def Loading.finish (loading : Loading) : List (List Char) :=
  if loading.query ≠ [] ∧ emptyString loading.query = false then
    loading.queries ++ [loading.query]
  else loading.queries

/-- The statements of a file.  What follows the last end of a line is a line too. -/
def fileQueries (text : String) : List (List Char) :=
  ((text.toList.splitOn '\n').foldl Loading.readLine {}).finish

/-- What `load_file` passes to `standalone_execute`; `none` stands for its result
`false` on a file that cannot be opened. -/
def loadedQueries (nodeName : String) : Option String → Option (List String)
  | none => none
  | some text =>
      some ((Statement.use nodeName).text :: (fileQueries text).map String.ofList)

/-! ## The statements are the segments of the file -/

/-- What a line adds to a statement. -/
def linePiece (line : List Char) : List Char :=
  ' ' :: if commentString line then [] else line

/-- The line is the last one of a statement. -/
def endsStatement (line : List Char) : Bool :=
  !commentString line && endOfQuery line

/-- The loop has read the lines of the segmentation. -/
structure Loading.Holds (loading : Loading) {lines : List (List Char)}
    (segmentation : Segmentation endsStatement lines) : Prop where
  queries : loading.queries =
    segmentation.segments.map fun segment => segment.flatMap linePiece
  query : loading.query = segmentation.rest.flatMap linePiece

section Lines

variable {loading : Loading} {line : List Char}

theorem Loading.readLine_of_ends (closes : endsStatement line = true) :
    loading.readLine line =
      { queries := loading.queries ++ [loading.query ++ linePiece line], query := [] } := by
  obtain ⟨spoken, ended⟩ : commentString line = false ∧ endOfQuery line = true := by
    simpa [endsStatement] using closes
  simp [Loading.readLine, linePiece, spoken, ended]

theorem Loading.readLine_of_goesOn (goesOn : endsStatement line = false) :
    loading.readLine line = { loading with query := loading.query ++ linePiece line } := by
  cases spoken : commentString line with
  | true => simp [Loading.readLine, linePiece, spoken]
  | false =>
      have unended : endOfQuery line = false := by simpa [endsStatement, spoken] using goesOn
      simp [Loading.readLine, linePiece, spoken, unended]

/-- One line more goes into the statements as it goes into the segments. -/
theorem Loading.Holds.readLine {lines : List (List Char)}
    {segmentation : Segmentation endsStatement lines} (holds : loading.Holds segmentation)
    (line : List Char) :
    ∃ extended : Segmentation endsStatement (lines ++ [line]),
      (loading.readLine line).Holds extended := by
  cases ended : endsStatement line with
  | true =>
      refine ⟨segmentation.close line ended, ?_⟩
      rw [Loading.readLine_of_ends ended]
      constructor
      · simp [Segmentation.close, holds.queries, holds.query]
      · simp [Segmentation.close]
  | false =>
      refine ⟨segmentation.extend line ended, ?_⟩
      rw [Loading.readLine_of_goesOn ended]
      constructor
      · exact holds.queries
      · simp [Segmentation.extend, holds.query]

end Lines

theorem Loading.exists_holds (lines : List (List Char)) :
    ∃ segmentation : Segmentation endsStatement lines,
      (lines.foldl Loading.readLine {}).Holds segmentation := by
  induction lines using List.reverseRecOn with
  | nil => exact ⟨Segmentation.empty endsStatement, rfl, rfl⟩
  | append_singleton lines line inductionHypothesis =>
      obtain ⟨segmentation, holds⟩ := inductionHypothesis
      rw [List.foldl_append, List.foldl_cons, List.foldl_nil]
      exact holds.readLine line

theorem Loading.finish_eq (loading : Loading) :
    loading.finish = loading.queries ++
      if loading.query.all Config.isSpace then [] else [loading.query] := by
  cases blank : loading.query.all Config.isSpace with
  | true => simp [Loading.finish, emptyString, blank]
  | false =>
      have filled : loading.query ≠ [] := by
        intro nothing
        rw [nothing] at blank
        cases blank
      simp [Loading.finish, emptyString, blank, filled]

/-- Of every file, the statements after `USE` are the segments that the last lines of
statements cut it into, and the remainder if it is more than white space.  Nothing but
such a remainder is lost, and nothing comes twice. -/
theorem loadedQueries_segmentation (nodeName text : String) :
    ∃ segmentation : Segmentation endsStatement (text.toList.splitOn '\n'),
    ∃ queries : List (List Char), ∃ dropped : List Char,
      loadedQueries nodeName (some text) =
          some (("USE " ++ nodeName ++ ";") :: queries.map String.ofList) ∧
        queries = (segmentation.segments.map fun segment => segment.flatMap linePiece) ++
          (if (segmentation.rest.flatMap linePiece).all Config.isSpace then []
            else [segmentation.rest.flatMap linePiece]) ∧
        queries.flatten ++ dropped = (text.toList.splitOn '\n').flatMap linePiece ∧
        dropped.all Config.isSpace = true := by
  obtain ⟨segmentation, holds⟩ := Loading.exists_holds (text.toList.splitOn '\n')
  have statements := Loading.finish_eq ((text.toList.splitOn '\n').foldl Loading.readLine {})
  rw [holds.queries, holds.query] at statements
  have joined := segmentation.flatMap_join linePiece
  cases blank : (segmentation.rest.flatMap linePiece).all Config.isSpace with
  | true =>
      refine ⟨segmentation, fileQueries text, segmentation.rest.flatMap linePiece, rfl, ?_, ?_,
        blank⟩
      · rw [fileQueries, statements, blank]
      · rw [fileQueries, statements, blank, if_pos rfl, List.append_nil, joined]
  | false =>
      refine ⟨segmentation, fileQueries text, [], rfl, ?_, ?_, rfl⟩
      · rw [fileQueries, statements, blank]
      · rw [fileQueries, statements, blank, if_neg Bool.false_ne_true, List.append_nil,
          List.flatten_append, List.flatten_singleton, joined]

example : fileQueries "-- views\nDROP VIEW v ;\nSELECT\n-- one\n1;\n" =
    ["  DROP VIEW v ;".toList, " SELECT  1;".toList] := by
  decide

end OpenWorkloadScheduler.Store.Mysql
