import OpenWorkloadScheduler.Config
import OpenWorkloadScheduler.Foundations.Effects
import OpenWorkloadScheduler.Foundations.Quoting

/-!
# The configuration file

`Config::parse_file` reads one `key=value` per line.  The white space of a line and
what follows a `#` are deleted first.  The last thing that it does is to set the
typed attributes, of which there is only the running mode.
-/

namespace OpenWorkloadScheduler.Config

open Rpc Foundations

/-- The constructor `Config::Config`.  The running mode has no value before
`set_private_attributes`, and nothing reads it before. -/
def initial : Config where
  configOptions := ∅

/-- `[[:space:]]`. -/
def isSpace (letter : Char) : Bool :=
  letter = ' ' || ('\t' ≤ letter && letter ≤ '\r')

/-- `Config::syntax_regex`: the one regular expression of it is `^[0-9]{2,}$`. -/
def syntaxRegex (key : List Char) : Option (List Char → Bool) :=
  if key = "bind_port".toList then
    some fun value => 2 ≤ value.length && value.all Char.isDigit
  else none

/-- `Config::check_syntax`, which is handed C strings. -/
def checkSyntax (key value : List Char) : Bool :=
  match syntaxRegex (cString key) with
  | none => true
  | some regex => regex (cString value)

/-- The line without its white space and without its comment. -/
def stripLine (line : List Char) : List Char :=
  (line.filter fun letter => !isSpace letter).takeWhile (· ≠ '#')

/-- What `parse_file` reads in one line of the file. -/
inductive ConfigLine where
  | skipped
  | malformed
  | option (key value : String)
  deriving DecidableEq, Repr

/-- A key is what stands before the first equals sign. -/
def readLine (line : List Char) : ConfigLine :=
  match stripLine line with
  | [] => .skipped
  | '#' :: _ => .skipped
  | letters =>
      match letters.dropWhile (· ≠ '=') with
      | [] => .malformed
      | _ :: value =>
          let key := letters.takeWhile (· ≠ '=')
          if key = [] ∨ value = [] then .malformed
          else if checkSyntax key value then .option (String.ofList key) (String.ofList value)
          else .malformed

/-- `m_config::insert`: a key that is there keeps its value. -/
def insertOption (config : Config) (key value : String) : Config :=
  if key ∈ config.configOptions then config
  else { config with configOptions := config.configOptions.insert key value }

/-- The loop of `parse_file` over the lines of the file. -/
def parseLines (config : Config) : List (List Char) → Config × Bool
  | [] => (config, true)
  | line :: lines =>
      match readLine line with
      | .skipped => parseLines config lines
      | .malformed => (config, false)
      | .option key value => parseLines (config.insertOption key value) lines

/-- `Config::set_private_attributes`, which reads the mode through a pointer that may
be NULL. -/
def setPrivateAttributes (config : Config) : Except Raised (Config × Bool) := do
  let mode ← config.param "running_mode"
  if mode = "active" then return ({ config with runningMode := .active }, true)
  else if mode = "passive" then return ({ config with runningMode := .passive }, true)
  else if mode = "p2p" then return ({ config with runningMode := .p2p }, true)
  else return (config, false)

/-- `Config::parse_file`; a file that cannot be opened is `none`.  What follows the
last end of a line is a line too. -/
def parseFile (config : Config) : Option String → Except Raised (Config × Bool)
  | none => return (config, false)
  | some text =>
      let (parsed, accepted) := config.parseLines (text.toList.splitOn '\n')
      if accepted then parsed.setPrivateAttributes else return (parsed, false)

/-! ## What the file cannot set -/

section Parsing

variable {config : Config}

@[simp]
theorem masterNode_insertOption (key value : String) :
    (config.insertOption key value).masterNode = config.masterNode := by
  unfold insertOption
  split <;> rfl

theorem masterNode_parseLines (lines : List (List Char)) :
    (config.parseLines lines).1.masterNode = config.masterNode := by
  induction lines generalizing config with
  | nil => rfl
  | cons line lines inductionHypothesis =>
      rw [parseLines]
      cases readLine line with
      | skipped => exact inductionHypothesis
      | malformed => rfl
      | option key value => exact inductionHypothesis.trans (masterNode_insertOption key value)

theorem masterNode_setPrivateAttributes {after : Config} {accepted : Bool}
    (set : config.setPrivateAttributes = .ok (after, accepted)) :
    after.masterNode = config.masterNode := by
  obtain ⟨mode, _, rest⟩ := except_bind_eq_ok_iff.mp set
  split at rest
  · cases rest
    rfl
  · split at rest
    · cases rest
      rfl
    · split at rest <;> (cases rest; rfl)

/-- The master of the configuration stays the one of the constructor. -/
theorem masterNode_parseFile {file : Option String} {after : Config} {accepted : Bool}
    (parsed : config.parseFile file = .ok (after, accepted)) :
    after.masterNode = config.masterNode := by
  cases file with
  | none =>
      cases parsed
      rfl
  | some text =>
      have kept : (config.parseLines (text.toList.splitOn '\n')).1.masterNode =
          config.masterNode := masterNode_parseLines _
      rw [parseFile] at parsed
      dsimp only at parsed
      split at parsed
      · exact (masterNode_setPrivateAttributes parsed).trans kept
      · cases parsed
        exact kept

end Parsing

/-! ## What a file sets -/

/-- The value that a line gives to the key. -/
def ConfigLine.valueOf (key : String) : ConfigLine → Option String
  | .option name value => if name = key then some value else none
  | _ => none

/-- The value that the first of the lines with this key gives to it. -/
def firstGiven (lines : List (List Char)) (key : String) : Option String :=
  lines.findSome? fun line => (readLine line).valueOf key

theorem firstGiven_cons (line : List Char) (lines : List (List Char)) (key : String) :
    firstGiven (line :: lines) key =
      ((readLine line).valueOf key).or (firstGiven lines key) := by
  rw [firstGiven, firstGiven, List.findSome?_cons]
  cases (readLine line).valueOf key <;> rfl

@[simp]
theorem getParam_initial (key : String) : initial.getParam key = none :=
  AList.lookup_empty key

section Setting

variable {config : Config}

theorem getParam_insertOption (name value key : String) :
    (config.insertOption name value).getParam key =
      (config.getParam key).or (if name = key then some value else none) := by
  unfold insertOption
  by_cases present : name ∈ config.configOptions
  · rw [if_pos present]
    by_cases same : name = key
    · subst same
      obtain ⟨old, found⟩ := Option.isSome_iff_exists.mp (AList.lookup_isSome.mpr present)
      simp [getParam, found]
    · simp [same]
  · rw [if_neg present]
    by_cases same : name = key
    · subst same
      simp [getParam, AList.lookup_eq_none.mpr present]
    · simp [getParam, same, AList.lookup_insert_ne (Ne.symm same)]

/-- Without a malformed line, the loop reads all lines, and each key keeps the value that
it had or gets the first one that the lines give to it. -/
theorem parseLines_of_wellFormed {lines : List (List Char)}
    (wellFormed : ∀ line ∈ lines, readLine line ≠ .malformed) :
    ∃ parsed, config.parseLines lines = (parsed, true) ∧
      ∀ key, parsed.getParam key = (config.getParam key).or (firstGiven lines key) := by
  induction lines generalizing config with
  | nil => exact ⟨config, rfl, fun key => (Option.or_none).symm⟩
  | cons line lines inductionHypothesis =>
      have first : readLine line ≠ .malformed := wellFormed line List.mem_cons_self
      have others : ∀ line ∈ lines, readLine line ≠ .malformed :=
        fun line member => wellFormed line (List.mem_cons_of_mem _ member)
      simp only [parseLines, firstGiven_cons]
      cases read : readLine line with
      | malformed => exact absurd read first
      | skipped => exact inductionHypothesis others
      | option name value =>
          obtain ⟨parsed, all, params⟩ :=
            @inductionHypothesis (config.insertOption name value) others
          refine ⟨parsed, all, fun key => ?_⟩
          rw [params, getParam_insertOption, Option.or_assoc]
          rfl

/-- The loop stops at the first malformed line. -/
theorem parseLines_of_malformed {lines : List (List Char)}
    (malformed : ∃ line ∈ lines, readLine line = .malformed) :
    ∃ parsed, config.parseLines lines = (parsed, false) := by
  induction lines generalizing config with
  | nil => simp at malformed
  | cons line lines inductionHypothesis =>
      rw [parseLines]
      cases read : readLine line with
      | malformed => exact ⟨config, rfl⟩
      | skipped =>
          have later : ∃ line ∈ lines, readLine line = .malformed := by
            simpa [read] using malformed
          exact inductionHypothesis later
      | option name value =>
          have later : ∃ line ∈ lines, readLine line = .malformed := by
            simpa [read] using malformed
          exact inductionHypothesis later

/-- The names of the running modes in the configuration file. -/
def runningModeText : ERunningMode → String
  | .active => "active"
  | .passive => "passive"
  | .p2p => "p2p"

theorem setPrivateAttributes_of_named {mode : ERunningMode}
    (named : config.getParam "running_mode" = some (runningModeText mode)) :
    config.setPrivateAttributes = .ok ({ config with runningMode := mode }, true) := by
  rw [setPrivateAttributes, param_of_getParam named]
  cases mode <;> rfl

theorem setPrivateAttributes_of_unnamed {name : String}
    (given : config.getParam "running_mode" = some name)
    (unnamed : ∀ mode, name ≠ runningModeText mode) :
    config.setPrivateAttributes = .ok (config, false) := by
  have active : name ≠ "active" := unnamed .active
  have passive : name ≠ "passive" := unnamed .passive
  have p2p : name ≠ "p2p" := unnamed .p2p
  rw [setPrivateAttributes, param_of_getParam given, except_ok_bind, if_neg active,
    if_neg passive, if_neg p2p]
  rfl

theorem setPrivateAttributes_of_missing (missing : config.getParam "running_mode" = none) :
    config.setPrivateAttributes =
      .error (.undefinedBehaviour ("get_param(" ++ "running_mode" ++ ")")) := by
  rw [setPrivateAttributes, param, missing]
  rfl

end Setting

/-- Without a malformed line, the parameters of a file are the first values that its lines
give, and what is left to do is to set the attributes. -/
theorem parseFile_of_wellFormed {text : String}
    (wellFormed : ∀ line ∈ text.toList.splitOn '\n', readLine line ≠ .malformed) :
    ∃ parsed : Config,
      (∀ key, parsed.getParam key = firstGiven (text.toList.splitOn '\n') key) ∧
        initial.parseFile (some text) = parsed.setPrivateAttributes := by
  obtain ⟨parsed, all, params⟩ := @parseLines_of_wellFormed initial _ wellFormed
  refine ⟨parsed, fun key => ?_, ?_⟩
  · rw [params, getParam_initial, Option.none_or]
  · rw [parseFile, all]
    rfl

theorem parseFile_of_malformed {text : String}
    (malformed : ∃ line ∈ text.toList.splitOn '\n', readLine line = .malformed) :
    ∃ parsed, initial.parseFile (some text) = .ok (parsed, false) := by
  obtain ⟨parsed, stopped⟩ := @parseLines_of_malformed initial _ malformed
  refine ⟨parsed, ?_⟩
  rw [parseFile, stopped]
  rfl

end OpenWorkloadScheduler.Config
