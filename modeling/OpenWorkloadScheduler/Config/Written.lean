import Mathlib.Data.Bool.AllAny
import OpenWorkloadScheduler.ConfigFile

/-!
# Files that write settings

A file writes a list of settings if its lines, without their blanks and comments, are
the settings one by one, and empty lines between them.  `Config::parse_file` reads the
settings back.
-/

namespace OpenWorkloadScheduler.Config

open Rpc Foundations

/-- A letter of a key or of a value. -/
def IsPlain (letter : Char) : Prop :=
  isSpace letter = false ∧ letter ≠ '#' ∧ letter ≠ Char.ofNat 0

instance (letter : Char) : Decidable (IsPlain letter) :=
  inferInstanceAs (Decidable (_ ∧ _))

/-- A key and a value that a line can hold. -/
structure Setting where
  key : String
  value : String
  keyFilled : key.toList ≠ []
  valueFilled : value.toList ≠ []
  keyPlain : ∀ letter ∈ key.toList, IsPlain letter ∧ letter ≠ '='
  valuePlain : ∀ letter ∈ value.toList, IsPlain letter
  port : key = "bind_port" → 2 ≤ value.toList.length ∧ value.toList.all Char.isDigit = true

def firstValue (settings : List Setting) (key : String) : Option String :=
  (settings.find? fun setting => setting.key = key).map Setting.value

/-- The line consists of the letters, with blanks anywhere between them. -/
inductive Interspersed : List Char → List Char → Prop
  | nil : Interspersed [] []
  | letter {letters line : List Char} (letter : Char) :
      Interspersed letters line → Interspersed (letter :: letters) (letter :: line)
  | blank {letters line : List Char} (letter : Char) :
      isSpace letter = true → letter ≠ '\n' →
        Interspersed letters line → Interspersed letters (letter :: line)

/-- The end of a line that is not read. -/
inductive Comment : List Char → Prop
  | none : Comment []
  | text {text : List Char} : '\n' ∉ text → Comment ('#' :: text)

/-- The lines write the settings. -/
inductive Writes : List Setting → List (List Char) → Prop
  | nil : Writes [] []
  | skipped {settings : List Setting} {lines : List (List Char)} {body comment : List Char} :
      Interspersed [] body → Comment comment → Writes settings lines →
        Writes settings ((body ++ comment) :: lines)
  | setting {settings : List Setting} {lines : List (List Char)} {body comment : List Char}
      (setting : Setting) :
      Interspersed (setting.key.toList ++ '=' :: setting.value.toList) body →
        Comment comment → Writes settings lines →
          Writes (setting :: settings) ((body ++ comment) :: lines)

/-- The text consists of the lines, the last of which may lack its end. -/
def HasLines (text : String) (lines : List (List Char)) : Prop :=
  text.toList = ['\n'].intercalate lines ∨
    text.toList = lines.flatMap fun line => line ++ ['\n']

/-! ## A line -/

theorem isSpace_newline : isSpace '\n' = true := by
  decide

section Line

variable {letters body comment : List Char}

theorem Interspersed.filter_eq (plain : ∀ letter ∈ letters, isSpace letter = false)
    (interspersed : Interspersed letters body) :
    (body.filter fun letter => !isSpace letter) = letters := by
  induction interspersed with
  | nil => rfl
  | letter letter _ inductionHypothesis =>
      obtain ⟨first, rest⟩ := List.forall_mem_cons.mp plain
      rw [List.filter_cons_of_pos (by simp [first]), inductionHypothesis rest]
  | blank letter space _ _ inductionHypothesis =>
      rw [List.filter_cons_of_neg (by simp [space]), inductionHypothesis plain]

theorem Interspersed.newline_notMem (plain : ∀ letter ∈ letters, isSpace letter = false)
    (interspersed : Interspersed letters body) : '\n' ∉ body := by
  induction interspersed with
  | nil => exact List.not_mem_nil
  | letter letter _ inductionHypothesis =>
      obtain ⟨first, rest⟩ := List.forall_mem_cons.mp plain
      refine List.not_mem_cons_of_ne_of_not_mem ?_ (inductionHypothesis rest)
      rintro rfl
      exact absurd isSpace_newline (by simp [first])
  | blank letter _ other _ inductionHypothesis =>
      exact List.not_mem_cons_of_ne_of_not_mem (Ne.symm other) (inductionHypothesis plain)

theorem interspersed_filter (single : '\n' ∉ body) :
    Interspersed (body.filter fun letter => !isSpace letter) body := by
  induction body with
  | nil => exact .nil
  | cons letter body inductionHypothesis =>
      obtain ⟨other, single⟩ := List.ne_and_not_mem_of_not_mem_cons single
      cases space : isSpace letter with
      | true =>
          rw [List.filter_cons_of_neg (by simp [space])]
          exact .blank letter space (Ne.symm other) (inductionHypothesis single)
      | false =>
          rw [List.filter_cons_of_pos (by simp [space])]
          exact .letter letter (inductionHypothesis single)

theorem Comment.newline_notMem (written : Comment comment) : '\n' ∉ comment := by
  cases written with
  | none => exact List.not_mem_nil
  | text free => exact List.not_mem_cons_of_ne_of_not_mem (by decide) free

theorem Comment.stripLine_eq (written : Comment comment) : stripLine comment = [] := by
  cases written with
  | none => rfl
  | text _ =>
      rw [stripLine, List.filter_cons_of_pos (by decide),
        List.takeWhile_cons_of_neg (by decide)]

theorem stripLine_written
    (plain : ∀ letter ∈ letters, isSpace letter = false ∧ letter ≠ '#')
    (interspersed : Interspersed letters body) (written : Comment comment) :
    stripLine (body ++ comment) = letters := by
  have kept := interspersed.filter_eq fun letter member => (plain letter member).1
  have dropped := written.stripLine_eq
  rw [stripLine] at dropped ⊢
  rw [List.filter_append, kept, List.takeWhile_append_of_pos, dropped, List.append_nil]
  intro letter member
  exact decide_eq_true (plain letter member).2

theorem readLine_of_empty {line : List Char} (stripped : stripLine line = []) :
    readLine line = .skipped := by
  rw [readLine, stripped]

end Line

/-! ## A setting -/

namespace Setting

variable (setting : Setting)

/-- The letters of the line `key=value`. -/
def letters : List Char :=
  setting.key.toList ++ '=' :: setting.value.toList

theorem letters_plain :
    ∀ letter ∈ setting.letters, isSpace letter = false ∧ letter ≠ '#' := by
  intro letter member
  rcases List.mem_append.mp member with member | member
  · have plain := (setting.keyPlain letter member).1
    exact ⟨plain.1, plain.2.1⟩
  · rcases List.mem_cons.mp member with rfl | member
    · decide
    · have plain := setting.valuePlain letter member
      exact ⟨plain.1, plain.2.1⟩

theorem key_before_equals : ∀ letter ∈ setting.key.toList, decide (letter ≠ '=') = true :=
  fun letter member => decide_eq_true (setting.keyPlain letter member).2

/-- A value may contain equals signs: the first one of the line ends the key. -/
theorem takeWhile_letters :
    setting.letters.takeWhile (· ≠ '=') = setting.key.toList := by
  rw [letters, List.takeWhile_append_of_pos setting.key_before_equals,
    List.takeWhile_cons_of_neg (by decide), List.append_nil]

theorem dropWhile_letters :
    setting.letters.dropWhile (· ≠ '=') = '=' :: setting.value.toList := by
  rw [letters, List.dropWhile_append_of_pos setting.key_before_equals,
    List.dropWhile_cons_of_neg (by decide)]

theorem cString_key : cString setting.key.toList = setting.key.toList := by
  have whole := cString_append
    (fun letter member => (setting.keyPlain letter member).1.2.2) []
  simpa [cString] using whole

theorem cString_value : cString setting.value.toList = setting.value.toList := by
  have whole := cString_append
    (fun letter member => (setting.valuePlain letter member).2.2) []
  simpa [cString] using whole

theorem checkSyntax_eq_true : checkSyntax setting.key.toList setting.value.toList = true := by
  rw [checkSyntax, cString_key, cString_value, syntaxRegex]
  by_cases isPort : setting.key.toList = "bind_port".toList
  · obtain ⟨long, digits⟩ := setting.port (String.toList_inj.mp isPort)
    rw [if_pos isPort]
    exact Bool.and_eq_true_iff.mpr ⟨decide_eq_true long, digits⟩
  · rw [if_neg isPort]

theorem readLine_eq {line : List Char} (stripped : stripLine line = setting.letters) :
    readLine line = .option setting.key setting.value := by
  have first := setting.takeWhile_letters
  have after := setting.dropWhile_letters
  have plain := setting.letters_plain
  rw [readLine, stripped]
  split
  · rename_i nothing
    rw [nothing] at after
    cases after
  · rename_i rest hash
    rw [hash] at plain
    exact absurd rfl (plain '#' List.mem_cons_self).2
  · rw [after, first]
    dsimp only
    rw [if_neg (not_or.mpr ⟨setting.keyFilled, setting.valueFilled⟩),
      if_pos setting.checkSyntax_eq_true, String.ofList_toList, String.ofList_toList]

end Setting

/-! ## A file -/

/-- Splitting at the ends of lines gives the written lines, and an empty one where the
last line has its end. -/
theorem HasLines.splitOn_eq {text : String} {lines : List (List Char)}
    (hasLines : HasLines text lines) (filled : lines ≠ [])
    (single : ∀ line ∈ lines, '\n' ∉ line) :
    text.toList.splitOn '\n' = lines ∨ text.toList.splitOn '\n' = lines ++ [[]] := by
  rcases hasLines with joined | ended
  · rw [joined]
    exact Or.inl (List.splitOn_intercalate '\n' single filled)
  · have joined : (lines.flatMap fun line => line ++ ['\n']) =
        ['\n'].intercalate (lines ++ [[]]) := by
      clear ended filled single
      induction lines with
      | nil => rfl
      | cons line lines inductionHypothesis =>
          rw [List.flatMap_cons, inductionHypothesis, List.cons_append,
            List.intercalate_cons_of_ne_nil (by simp)]
    rw [ended, joined]
    refine Or.inr (List.splitOn_intercalate '\n' ?_ (by simp))
    intro line member
    rcases List.mem_append.mp member with member | member
    · exact single line member
    · rw [List.mem_singleton.mp member]
      exact List.not_mem_nil

theorem firstValue_cons (setting : Setting) (settings : List Setting) (key : String) :
    firstValue (setting :: settings) key =
      (if setting.key = key then some setting.value else none).or (firstValue settings key) := by
  by_cases same : setting.key = key
  · simp [firstValue, same]
  · simp [firstValue, same]

section Written

variable {settings : List Setting} {lines : List (List Char)}

theorem Writes.newline_notMem (writes : Writes settings lines) :
    ∀ line ∈ lines, '\n' ∉ line := by
  induction writes with
  | nil => simp
  | skipped interspersed comment _ inductionHypothesis =>
      refine List.forall_mem_cons.mpr ⟨?_, inductionHypothesis⟩
      exact List.not_mem_append (interspersed.newline_notMem (by simp)) comment.newline_notMem
  | setting setting interspersed comment _ inductionHypothesis =>
      refine List.forall_mem_cons.mpr ⟨?_, inductionHypothesis⟩
      refine List.not_mem_append (interspersed.newline_notMem ?_) comment.newline_notMem
      exact fun letter member => (setting.letters_plain letter member).1

/-- What the lines are read as: nothing is malformed, and each key gets its first value. -/
theorem Writes.read (writes : Writes settings lines) :
    (∀ line ∈ lines, readLine line ≠ .malformed) ∧
      ∀ key, firstGiven lines key = firstValue settings key := by
  induction writes with
  | nil => exact ⟨by simp, fun key => rfl⟩
  | skipped interspersed comment _ inductionHypothesis =>
      obtain ⟨wellFormed, given⟩ := inductionHypothesis
      have read := readLine_of_empty (stripLine_written (by simp) interspersed comment)
      refine ⟨List.forall_mem_cons.mpr ⟨by simp [read], wellFormed⟩, fun key => ?_⟩
      rw [firstGiven_cons, read, given]
      rfl
  | setting setting interspersed comment _ inductionHypothesis =>
      obtain ⟨wellFormed, given⟩ := inductionHypothesis
      have read := setting.readLine_eq
        (stripLine_written setting.letters_plain interspersed comment)
      refine ⟨List.forall_mem_cons.mpr ⟨by simp [read], wellFormed⟩, fun key => ?_⟩
      rw [firstGiven_cons, read, given, firstValue_cons]
      rfl

theorem read_append_nil (wellFormed : ∀ line ∈ lines, readLine line ≠ .malformed)
    (key : String) :
    (∀ line ∈ lines ++ [[]], readLine line ≠ .malformed) ∧
      firstGiven (lines ++ [[]]) key = firstGiven lines key := by
  have empty : readLine [] = .skipped := rfl
  constructor
  · intro line member
    rcases List.mem_append.mp member with member | member
    · exact wellFormed line member
    · rw [List.mem_singleton.mp member, empty]
      simp
  · rw [firstGiven, List.findSome?_append]
    simp [firstGiven, empty, ConfigLine.valueOf]

end Written

/-- Every file that writes settings is accepted if the first running mode among them is
one of the three.  Then each key has the value of its first setting, the other keys have
none, and the running mode is the one named. -/
theorem parseFile_written {settings : List Setting} {lines : List (List Char)} {text : String}
    {mode : ERunningMode} (writes : Writes settings lines) (hasLines : HasLines text lines)
    (named : firstValue settings "running_mode" = some (runningModeText mode)) :
    ∃ config, initial.parseFile (some text) = .ok (config, true) ∧
      (∀ key, config.getParam key = firstValue settings key) ∧ config.runningMode = mode := by
  obtain ⟨wellFormed, given⟩ := writes.read
  have filled : lines ≠ [] := by
    rintro rfl
    cases writes
    cases named
  have read : (∀ line ∈ text.toList.splitOn '\n', readLine line ≠ .malformed) ∧
      ∀ key, firstGiven (text.toList.splitOn '\n') key = firstValue settings key := by
    rcases hasLines.splitOn_eq filled writes.newline_notMem with same | same
    · rw [same]
      exact ⟨wellFormed, given⟩
    · rw [same]
      exact ⟨(read_append_nil wellFormed "").1,
        fun key => (read_append_nil wellFormed key).2.trans (given key)⟩
  obtain ⟨parsed, params, all⟩ := parseFile_of_wellFormed read.1
  have modeGiven : parsed.getParam "running_mode" = some (runningModeText mode) := by
    rw [params, read.2, named]
  refine ⟨{ parsed with runningMode := mode }, ?_, fun key => ?_, rfl⟩
  · rw [all, setPrivateAttributes_of_named modeGiven]
  · exact (params key).trans (read.2 key)

def portSetting : Setting where
  key := "bind_port"
  value := "8080"
  keyFilled := by decide
  valueFilled := by decide
  keyPlain := List.all_iff_forall_prop.mp (by decide)
  valuePlain := List.all_iff_forall_prop.mp (by decide)
  port := by decide

def modeSetting : Setting where
  key := "running_mode"
  value := "p2p"
  keyFilled := by decide
  valueFilled := by decide
  keyPlain := List.all_iff_forall_prop.mp (by decide)
  valuePlain := List.all_iff_forall_prop.mp (by decide)
  port := by decide

/-- A file with blanks and a comment, and without the end of its last line. -/
def peerFile : String :=
  "bind_port\t= 80 80 # both = ends\n\n running_mode = p2p"

theorem writes_peerFile :
    Writes [portSetting, modeSetting]
      ["bind_port\t= 80 80 ".toList ++ "# both = ends".toList, [] ++ [],
        " running_mode = p2p".toList ++ []] := by
  refine .setting portSetting ?_ (.text (by decide)) (.skipped .nil .none
    (.setting modeSetting ?_ .none .nil))
  · exact @interspersed_filter "bind_port\t= 80 80 ".toList (by decide)
  · exact @interspersed_filter " running_mode = p2p".toList (by decide)

theorem parseFile_written_peerFile :
    ∃ config, initial.parseFile (some peerFile) = .ok (config, true) ∧
      (∀ key, config.getParam key = firstValue [portSetting, modeSetting] key) ∧
        config.runningMode = .p2p :=
  parseFile_written writes_peerFile (Or.inl (by decide)) (by decide)

end OpenWorkloadScheduler.Config
