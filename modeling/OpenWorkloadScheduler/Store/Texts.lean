import OpenWorkloadScheduler.Foundations.Quoting
import OpenWorkloadScheduler.Store.Statements

/-!
# The texts of the statements

The statements that write rows paste their values between single quotes, as they
are.  The results below say when the server reads such a text as the statement
that it is meant to be, and so when the effects given to the statements are those
of their texts.
-/

namespace OpenWorkloadScheduler.Store

open Rpc Foundations Template

/-! ## Texts as templates -/

/-- The text of a statement with its values apart. -/
def Statement.template : Statement → Template
  | insertIgnoreNode name => ⟨"INSERT IGNORE INTO node (node_name) VALUES (", [(name, ");")]⟩
  | insertIgnoreWeightedNode name weight =>
      ⟨"INSERT IGNORE INTO node (node_name,node_weight) VALUES (",
        [(name, ","), (toString weight, ");")]⟩
  | deleteNode name => ⟨"DELETE FROM node WHERE node_name=", [(name, ";")]⟩
  | insertJob name cmdLine nodeName weight =>
      ⟨"INSERT INTO job (job_name,job_cmd_line,job_node_name,job_weight) VALUES (",
        [(name, ","), (cmdLine, ","), (nodeName, ","), (toString weight, ");")]⟩
  | insertPrvLink prv name =>
      ⟨"INSERT INTO jobs_link (job_name_prv,job_name_nxt) VALUES (",
        [(prv, ","), (name, ");")]⟩
  | insertNxtLink nxt name =>
      ⟨"INSERT INTO jobs_link (job_name_nxt,job_name_prv) VALUES (",
        [(nxt, ","), (name, ");")]⟩
  | insertTimeConstraint name type value =>
      ⟨"INSERT INTO time_constraint (time_c_job_name, time_c_type, time_c_value) VALUES (",
        [(name, ","), (buildStringFromTimeConstraintType type,
          ",SEC_TO_TIME(" ++ toString value ++ "));")]⟩
  | insertResource name nodeName currentValue initialValue =>
      ⟨"INSERT INTO resource (resource_name,resource_node_name,resource_current_value," ++
          "resource_initial_value) VALUES (",
        [(name, ","), (nodeName, ","), (toString currentValue, ","),
          (toString initialValue, ");")]⟩
  | replaceJob name cmdLine nodeName weight =>
      ⟨"REPLACE INTO job (job_name,job_cmd_line,job_node_name,job_weight) VALUES (",
        [(name, ","), (cmdLine, ","), (nodeName, ","), (toString weight, ");")]⟩
  | replaceNxtLink nxt name =>
      ⟨"REPLACE INTO jobs_link (job_name_nxt,job_name_prv) VALUES (",
        [(nxt, ","), (name, ");")]⟩
  | replaceTimeConstraint name type value =>
      ⟨"REPLACE INTO time_constraint (time_c_job_name, time_c_type, time_c_value) VALUES (",
        [(name, ","), (buildStringFromTimeConstraintType type, ","), (toString value, ");")]⟩
  | deleteJob name => ⟨"DELETE FROM job WHERE job_name = ", [(name, ";")]⟩
  | deleteLinks name =>
      ⟨"DELETE FROM jobs_link WHERE job_name_nxt = ",
        [(name, " OR job_name_prv = "), (name, ";")]⟩
  | deleteTimeConstraints name =>
      ⟨"DELETE FROM time_constraint WHERE time_c_job_name = ", [(name, ";")]⟩
  | updateJobState name state =>
      ⟨"UPDATE job SET job_state = ",
        [(buildStringFromJobState state, " WHERE job_name = "), (name, ";")]⟩
  | updateJobStateTimes name state startTime stopTime =>
      ⟨"UPDATE job SET job_state = ",
        [(buildStringFromJobState state, ", job_start_time = FROM_UNIXTIME(" ++
            toString startTime ++ "), job_stop_time = FROM_UNIXTIME(" ++ toString stopTime ++
            ") WHERE job_name = "), (name, ";")]⟩
  | statement => ⟨statement.text, []⟩

/-- A number is pasted without quotes, between the texts beside it. -/
theorem append_number (text opened value closed : String) :
    text ++ ("'" ++ (opened ++ value ++ closed)) = text ++ ("'" ++ opened) ++ value ++ closed := by
  simp only [String.append_assoc]

theorem append_numbers (text opened first between second closed : String) :
    text ++ ("'" ++ (opened ++ first ++ between ++ second ++ closed) ++ "'") =
      text ++ ("'" ++ opened) ++ first ++ between ++ second ++ (closed ++ "'") := by
  simp only [String.append_assoc]

theorem Statement.paste_template (statement : Statement) :
    statement.template.paste = statement.text := by
  cases statement with
  | insertTimeConstraint name type value =>
      apply (Template.paste_eq_concatenate _ _ _).trans
      exact (append_number _ ",SEC_TO_TIME(" (toString value) "));").trans rfl
  | updateJobStateTimes name state startTime stopTime =>
      apply (Template.paste_eq_concatenate _ _ _).trans
      have numbers := append_numbers
        ("UPDATE job SET job_state = '" ++ buildStringFromJobState state)
        ", job_start_time = FROM_UNIXTIME(" (toString startTime)
        "), job_stop_time = FROM_UNIXTIME(" (toString stopTime) ") WHERE job_name = "
      exact congrArg (fun text => text ++ name ++ "';") numbers
  | startTransaction | rollback | commit => exact String.append_empty
  | «use» name | createSchema name | setVariable name | createTable name | dropView name
  | dropTable name | createView name selected | malformed name
  | updateJobsWhere name state times condition => exact String.append_empty
  | _ => exact (Template.paste_eq_concatenate _ _ _).trans rfl

/-! ## What is always clean -/

theorem letter_of_toString {value : Int} {letter : Char}
    (member : letter ∈ (toString value).toList) : letter = '-' ∨ letter.isDigit = true := by
  cases value with
  | ofNat value =>
      rw [toList_toString_ofNat] at member
      exact Or.inr (Nat.isDigit_of_mem_toDigits (by decide) (by decide) member)
  | negSucc value =>
      rw [toList_toString_negSucc] at member
      rcases List.mem_cons.mp member with minus | digit
      · exact Or.inl minus
      · exact Or.inr (Nat.isDigit_of_mem_toDigits (by decide) (by decide) digit)

theorem plain_toString {value : Int} {letter : Char} (member : letter ∈ (toString value).toList) :
    letter ≠ '\'' ∧ letter ≠ '\\' ∧ letter ≠ Char.ofNat 0 := by
  rcases letter_of_toString member with rfl | digit
  · decide
  · refine ⟨?_, ?_, ?_⟩
    · rintro rfl
      exact absurd digit (by decide)
    · rintro rfl
      exact absurd digit (by decide)
    · rintro rfl
      exact absurd digit (by decide)

theorem isClean_toString (value : Int) : isClean (toString value).toList = true :=
  isClean_of_plain fun _ => plain_toString

theorem unquoted_toString (value : Int) : Template.Unquoted (toString value) :=
  fun _ member => ⟨(plain_toString member).1, (plain_toString member).2.2⟩

theorem isClean_timeConstraintType (type : ETimeConstraintType) :
    isClean (buildStringFromTimeConstraintType type).toList = true := by
  cases type <;> decide

theorem isClean_jobState (state : EJobState) :
    isClean (buildStringFromJobState state).toList = true := by
  cases state <;> decide

/-! ## The statements that write rows -/

namespace Statement

/-- The values that a statement takes over from its caller as they are. -/
def names : Statement → List String
  | insertIgnoreNode name | insertIgnoreWeightedNode name _ | deleteNode name | deleteJob name
  | deleteLinks name | deleteTimeConstraints name | insertTimeConstraint name _ _
  | replaceTimeConstraint name _ _ | updateJobState name _ | updateJobStateTimes name _ _ _ =>
      [name]
  | insertJob name cmdLine nodeName _ | replaceJob name cmdLine nodeName _ =>
      [name, cmdLine, nodeName]
  | insertPrvLink prv name => [prv, name]
  | insertNxtLink nxt name | replaceNxtLink nxt name => [nxt, name]
  | insertResource name nodeName _ _ => [name, nodeName]
  | _ => []

theorem follows_comma : Follows "," := by
  decide

theorem follows_semicolon : Follows ";" := by
  decide

theorem follows_end : Follows ");" := by
  decide

theorem wellFormed_template {statement : Statement} (writes : statement.names ≠ []) :
    statement.template.WellFormed := by
  cases statement with
  | insertIgnoreNode name =>
      exact wellFormed_mk (by decide +kernel) (follows_singleton follows_end)
  | deleteNode name | deleteJob name | deleteTimeConstraints name =>
      exact wellFormed_mk (by decide +kernel) (follows_singleton follows_semicolon)
  | insertIgnoreWeightedNode name weight | insertPrvLink prv name | insertNxtLink nxt name
  | replaceNxtLink nxt name =>
      apply wellFormed_mk (by decide +kernel)
      exact follows_cons follows_comma (follows_singleton follows_end)
  | replaceTimeConstraint name type value =>
      refine wellFormed_mk (by decide +kernel) (follows_cons follows_comma ?_)
      exact follows_cons follows_comma (follows_singleton follows_end)
  | insertJob name cmdLine nodeName weight | replaceJob name cmdLine nodeName weight
  | insertResource name nodeName currentValue initialValue =>
      refine wellFormed_mk (by decide +kernel) (follows_cons follows_comma ?_)
      exact follows_cons follows_comma (follows_cons follows_comma (follows_singleton follows_end))
  | insertTimeConstraint name type value =>
      refine wellFormed_mk (by decide +kernel) (follows_cons follows_comma (follows_singleton ?_))
      exact follows_append (follows_append (by decide) (unquoted_toString value)) (by decide)
  | deleteLinks name | updateJobState name state =>
      apply wellFormed_mk (by decide +kernel)
      refine follows_cons ?_ (follows_singleton follows_semicolon)
      decide +kernel
  | updateJobStateTimes name state startTime stopTime =>
      apply wellFormed_mk (by decide +kernel)
      refine follows_cons ?_ (follows_singleton follows_semicolon)
      have start := follows_append
        (by decide +kernel : Follows ", job_start_time = FROM_UNIXTIME(")
        (unquoted_toString startTime)
      have stop := follows_append (follows_append start
        (by decide +kernel : Unquoted "), job_stop_time = FROM_UNIXTIME("))
        (unquoted_toString stopTime)
      exact follows_append stop (by decide +kernel)
  | _ => exact absurd rfl writes

/-- The values of the fields are clean if and only if the names are. -/
def CleanIff (fields : List (String × String)) (names : List String) : Prop :=
  (∀ field ∈ fields, isClean field.1.toList = true) ↔ ∀ name ∈ names, isClean name.toList = true

theorem cleanIff_nil : CleanIff [] [] := by
  simp [CleanIff]

theorem cleanIff_name {name text : String} {fields : List (String × String)}
    {names : List String} (rest : CleanIff fields names) :
    CleanIff ((name, text) :: fields) (name :: names) := by
  rw [CleanIff] at rest
  rw [CleanIff, List.forall_mem_cons, List.forall_mem_cons, rest]

/-- A field whose value is clean whatever the names are. -/
theorem cleanIff_clean {value text : String} {fields : List (String × String)}
    {names : List String} (clean : isClean value.toList = true)
    (rest : CleanIff fields names) : CleanIff ((value, text) :: fields) names := by
  rw [CleanIff] at rest
  rw [CleanIff, List.forall_mem_cons, and_iff_right clean, rest]

theorem cleanIff_template (statement : Statement) :
    CleanIff statement.template.fields statement.names := by
  cases statement with
  | insertIgnoreNode name | deleteNode name | deleteJob name | deleteTimeConstraints name =>
      exact cleanIff_name cleanIff_nil
  | insertIgnoreWeightedNode name weight =>
      exact cleanIff_name (cleanIff_clean (isClean_toString weight) cleanIff_nil)
  | insertPrvLink prv name | insertNxtLink nxt name | replaceNxtLink nxt name =>
      exact cleanIff_name (cleanIff_name cleanIff_nil)
  | replaceTimeConstraint name type value =>
      exact cleanIff_name (cleanIff_clean (isClean_timeConstraintType type)
        (cleanIff_clean (isClean_toString value) cleanIff_nil))
  | insertJob name cmdLine nodeName weight | replaceJob name cmdLine nodeName weight =>
      exact cleanIff_name (cleanIff_name (cleanIff_name
        (cleanIff_clean (isClean_toString weight) cleanIff_nil)))
  | insertResource name nodeName currentValue initialValue =>
      exact cleanIff_name (cleanIff_name (cleanIff_clean (isClean_toString currentValue)
        (cleanIff_clean (isClean_toString initialValue) cleanIff_nil)))
  | insertTimeConstraint name type value =>
      exact cleanIff_name (cleanIff_clean (isClean_timeConstraintType type) cleanIff_nil)
  | deleteLinks name =>
      -- the name stands there twice
      have twice : CleanIff (deleteLinks name).template.fields [name, name] :=
        cleanIff_name (cleanIff_name cleanIff_nil)
      exact Iff.trans twice (by simp [names])
  | updateJobState name state | updateJobStateTimes name state startTime stopTime =>
      exact cleanIff_clean (isClean_jobState state) (cleanIff_name cleanIff_nil)
  | _ => exact cleanIff_nil

/-- The server reads the text of a statement as the statement that it is meant to be if and
only if its names are clean. -/
theorem read_text_iff {statement : Statement} (writes : statement.names ≠ []) :
    read statement.text = some statement.template.tokens ↔
      ∀ name ∈ statement.names, isClean name.toList = true := by
  rw [← paste_template, read_paste_iff (wellFormed_template writes)]
  exact cleanIff_template statement

end Statement

/-! ## The selection of `add_job` -/

namespace Query

/-- The text of a selection of the node table, with its value apart. -/
def countNodeTemplate (name : String) : Template :=
  ⟨"SELECT COUNT(*) FROM node WHERE node_name = ", [(name, ";")]⟩

theorem read_countNode_iff (name : String) :
    read (countNode name).text = some (countNodeTemplate name).tokens ↔
      isClean name.toList = true := by
  have pasted : (countNodeTemplate name).paste = (countNode name).text :=
    (paste_eq_concatenate _ _ _).trans rfl
  have wellFormed : (countNodeTemplate name).WellFormed :=
    wellFormed_mk (by decide +kernel) (follows_singleton Statement.follows_semicolon)
  rw [← pasted, read_paste_iff wellFormed]
  exact List.forall_mem_singleton

end Query

end OpenWorkloadScheduler.Store
