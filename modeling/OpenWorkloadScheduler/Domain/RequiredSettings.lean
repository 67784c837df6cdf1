import OpenWorkloadScheduler.ConfigFile
import OpenWorkloadScheduler.Domain.PlanningDuration

/-!
# The settings that nobody tests for

The constructor of `Domain`, the handlers, `Rpc_Server::run` and the `main` of both programs
read some parameters through the pointer that `get_param` returns, as
`set_private_attributes` reads the running mode.  Only `peers_keys` is tested for.
`Config::parse_file` accepts a file line by line, whether it gives these parameters or
not.
-/

namespace OpenWorkloadScheduler

open Rpc Foundations

namespace Config

/-- The parameters that are dereferenced: by the constructor and the handlers, by
`Rpc_Server::run`, and by `main` for the log. -/
def requiredKeys : List String :=
  ["domain_name", "day_duration", "day_start_time", "db_skeleton", "node_name", "is_master",
    "port", "bind_port", "log4cpp_properties"]

/-- `parse_file` ends with `true` or `false`, and with `false` if a required parameter is
not there. -/
def AcceptsSafely (file : Option String) : Prop :=
  ∃ config accepted, initial.parseFile file = .ok (config, accepted) ∧
    (accepted = true → ∀ key ∈ requiredKeys, config.getParam key ≠ none)

/-- Some line gives a value to the key. -/
def Gives (lines : List (List Char)) (key : String) : Prop :=
  ∃ line ∈ lines, ∃ value, readLine line = .option key value

/-- A line is malformed, or the file gives a running mode and, if it is one of the three,
every required parameter. -/
def IsSafe (lines : List (List Char)) : Prop :=
  (∃ line ∈ lines, readLine line = .malformed) ∨
    ∃ name, firstGiven lines "running_mode" = some name ∧
      ((∃ mode, name = runningModeText mode) → ∀ key ∈ requiredKeys, Gives lines key)

theorem valueOf_eq_some_iff {line : ConfigLine} {key value : String} :
    line.valueOf key = some value ↔ line = .option key value := by
  cases line with
  | skipped => simp [ConfigLine.valueOf]
  | malformed => simp [ConfigLine.valueOf]
  | option name other =>
      rw [ConfigLine.valueOf, Option.ite_none_right_eq_some]
      simp

theorem firstGiven_ne_none_iff {lines : List (List Char)} {key : String} :
    firstGiven lines key ≠ none ↔ Gives lines key := by
  rw [firstGiven, ne_eq, List.findSome?_eq_none_iff]
  simp only [not_forall, Option.ne_none_iff_exists', valueOf_eq_some_iff, Gives, exists_prop,
    ← ne_eq]

section File

variable {text : String}

theorem acceptsSafely_of_malformed
    (malformed : ∃ line ∈ text.toList.splitOn '\n', readLine line = .malformed) :
    AcceptsSafely (some text) := by
  obtain ⟨parsed, stopped⟩ := parseFile_of_malformed malformed
  exact ⟨parsed, false, stopped, by simp⟩

theorem acceptsSafely_wellFormed_iff
    (wellFormed : ∀ line ∈ text.toList.splitOn '\n', readLine line ≠ .malformed) :
    AcceptsSafely (some text) ↔
      ∃ name, firstGiven (text.toList.splitOn '\n') "running_mode" = some name ∧
        ((∃ mode, name = runningModeText mode) →
          ∀ key ∈ requiredKeys, Gives (text.toList.splitOn '\n') key) := by
  obtain ⟨parsed, params, ends⟩ := parseFile_of_wellFormed wellFormed
  rw [AcceptsSafely, ends]
  cases named : firstGiven (text.toList.splitOn '\n') "running_mode" with
  | none =>
      rw [setPrivateAttributes_of_missing ((params "running_mode").trans named)]
      simp
  | some name =>
      have given : parsed.getParam "running_mode" = some name :=
        (params "running_mode").trans named
      by_cases isMode : ∃ mode, name = runningModeText mode
      · obtain ⟨mode, rfl⟩ := isMode
        have kept : ∀ key, ({ parsed with runningMode := mode } : Config).getParam key =
            firstGiven (text.toList.splitOn '\n') key := params
        rw [setPrivateAttributes_of_named given]
        constructor
        · rintro ⟨config, accepted, ⟨⟩, present⟩
          refine ⟨_, rfl, fun _ key required => firstGiven_ne_none_iff.mp ?_⟩
          rw [← kept]
          exact present rfl key required
        · rintro ⟨_, ⟨⟩, complete⟩
          refine ⟨_, _, rfl, fun _ key required => ?_⟩
          rw [kept]
          exact firstGiven_ne_none_iff.mpr (complete ⟨mode, rfl⟩ key required)
      · rw [setPrivateAttributes_of_unnamed given fun mode same => isMode ⟨mode, same⟩]
        exact iff_of_true ⟨parsed, false, rfl, by simp⟩
          ⟨name, rfl, fun mode => absurd mode isMode⟩

end File

/-- Of every file, the parser ends and accepts no file that lacks a required parameter if
and only if the file cannot be opened or its lines are safe. -/
theorem acceptsSafely_iff (file : Option String) :
    AcceptsSafely file ↔ ∀ text, file = some text → IsSafe (text.toList.splitOn '\n') := by
  cases file with
  | none => exact iff_of_true ⟨initial, false, rfl, by simp⟩ (by simp)
  | some text =>
      simp only [Option.some.injEq, forall_eq']
      by_cases malformed : ∃ line ∈ text.toList.splitOn '\n', readLine line = .malformed
      · exact iff_of_true (acceptsSafely_of_malformed malformed) (Or.inl malformed)
      · rw [IsSafe, or_iff_right malformed]
        exact acceptsSafely_wellFormed_iff fun line member read =>
          malformed ⟨line, member, read⟩

/-- With the required parameters, the constructor of `Domain` reads no NULL pointer. -/
theorem configured_reads_no_null {config : Config}
    (present : ∀ key ∈ requiredKeys, config.getParam key ≠ none) (key : String) :
    Domain.configured config ≠ .error (.undefinedBehaviour ("get_param(" ++ key ++ ")")) := by
  obtain ⟨name, named⟩ :=
    Option.ne_none_iff_exists'.mp (present "domain_name" (by decide))
  obtain ⟨startTime, starts⟩ :=
    Option.ne_none_iff_exists'.mp (present "day_start_time" (by decide))
  obtain ⟨duration, lasts⟩ :=
    Option.ne_none_iff_exists'.mp (present "day_duration" (by decide))
  by_cases filled : name = ""
  · simp only [Domain.configured, param_of_getParam lasts, param_of_getParam named,
      except_ok_bind, if_pos filled]
    intro raised
    cases raised
  · rw [Domain.configured_eq named filled starts lasts]
    intro raised
    rcases Domain.durationOf_cases duration.toList with
      ⟨_, _, read⟩ | ⟨_, message, read⟩ | ⟨_, _, read⟩
    · rw [read] at raised
      cases raised
    · rw [read] at raised
      cases raised
    · rw [read] at raised
      have same : "int overflow" = "get_param(" ++ key ++ ")" := by
        simpa [Except.map] using raised
      have letters := congrArg (fun text => text.toList.head?) same
      simp at letters

/-- The lines of `etc/client.cfg`, the last of which has its end. -/
def clientLines : List String :=
  ["node_name\t= 127.0.0.1", "domain_name\t= prod", "", "bind_address\t= localhost",
    "bind_port\t= 8080", "",
    "peers_keys\t= /Users/mathieu/Documents/Developpements/c++/ows/etc/peers.pub", "",
    "is_master\t= yes", "running_mode\t= active", "", "tmp_path\t= /tmp", "",
    "db_skeleton\t= /Users/mathieu/Documents/Developpements/sql/skeleton.sql", ""]

def clientFile : String :=
  "\n".intercalate clientLines

theorem splitOn_clientFile :
    clientFile.toList.splitOn '\n' = clientLines.map String.toList := by
  rw [clientFile, String.toList_intercalate]
  refine List.splitOn_intercalate '\n' ?_ (by decide)
  decide +kernel

theorem readLine_clientFile :
    (clientFile.toList.splitOn '\n').map readLine =
      [.option "node_name" "127.0.0.1", .option "domain_name" "prod", .skipped,
        .option "bind_address" "localhost", .option "bind_port" "8080", .skipped,
        .option "peers_keys" "/Users/mathieu/Documents/Developpements/c++/ows/etc/peers.pub",
        .skipped, .option "is_master" "yes", .option "running_mode" "active", .skipped,
        .option "tmp_path" "/tmp", .skipped,
        .option "db_skeleton" "/Users/mathieu/Documents/Developpements/sql/skeleton.sql",
        .skipped] := by
  rw [splitOn_clientFile]
  decide +kernel

/-- The file of the client is accepted without a duration, a start time and a port. -/
theorem parseFile_accepts_clientFile : ¬ ∀ file, AcceptsSafely file := by
  intro always
  obtain ⟨config, accepted, ends, present⟩ := always (some clientFile)
  have wellFormed : ∀ line ∈ clientFile.toList.splitOn '\n', readLine line ≠ .malformed := by
    intro line member malformed
    have read := List.mem_map_of_mem (f := readLine) member
    rw [malformed, readLine_clientFile] at read
    simp at read
  obtain ⟨parsed, params, all⟩ := parseFile_of_wellFormed wellFormed
  have given : ∀ key, parsed.getParam key =
      ((clientFile.toList.splitOn '\n').map readLine).findSome? (ConfigLine.valueOf key) := by
    intro key
    rw [params, firstGiven, List.findSome?_map]
    rfl
  rw [readLine_clientFile] at given
  have named : parsed.getParam "running_mode" = some (runningModeText .active) := by
    rw [given]
    decide
  have missing : parsed.getParam "day_duration" = none := by
    rw [given]
    decide
  rw [all, setPrivateAttributes_of_named named] at ends
  cases ends
  exact present rfl "day_duration" (by decide) missing

end Config

end OpenWorkloadScheduler
