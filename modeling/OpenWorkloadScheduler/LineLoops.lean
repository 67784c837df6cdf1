import OpenWorkloadScheduler.Foundations.ReadLoops
import OpenWorkloadScheduler.Routing.Peers
import OpenWorkloadScheduler.Store.SkeletonFile

/-!
# The loops over the lines of a file

`parse_file`, `update_peers_list` and `load_file` read a file with one loop each:
they test for the end of the file and nothing else, and do not look whether
`getline` has succeeded.  A file that is opened and cannot be read, such as a
directory, never reaches its end.
-/

namespace OpenWorkloadScheduler

open Rpc Foundations

/-! ## Streams -/

/-- What `getline` does: it extracts a line and tells whether the end of the file has been
reached, or it fails without reaching the end. -/
inductive LineRead where
  | line (text : List Char) (atEnd : Bool)
  | failed
  deriving DecidableEq, Repr

/-- What the variable `line` and `eof()` are after the call. -/
def LineRead.reading : LineRead → Reading (List Char)
  | line text atEnd => ⟨text, atEnd⟩
  | failed => ⟨[], false⟩

/-- A stream that has been opened.  A stream that fails extracts nothing any more. -/
structure InputStream where
  read : Nat → LineRead
  stays : ∀ index, read index = .failed → read (index + 1) = .failed

namespace InputStream

def readings (stream : InputStream) (index : Nat) : Reading (List Char) :=
  (stream.read index).reading

/-- One of the reads reaches the end of the file. -/
def ReachesEnd (stream : InputStream) : Prop :=
  ∃ index, (stream.readings index).atEnd = true

/-- The stream of a file that can be read. -/
def ofText (text : String) : InputStream where
  read index :=
    let lines := text.toList.splitOn '\n'
    .line (lines.getD index []) (decide (lines.length ≤ index + 1))
  stays _ := nofun

/-- A stream on which every read fails. -/
def unreadable : InputStream where
  read _ := .failed
  stays _ _ := rfl

theorem failed_of_le {stream : InputStream} {first later : Nat} (ordered : first ≤ later)
    (fails : stream.read first = .failed) : stream.read later = .failed := by
  induction later, ordered using Nat.le_induction with
  | base => exact fails
  | succ index _ inductionHypothesis => exact stream.stays index inductionHypothesis

/-- A stream that reaches the end has not failed before. -/
theorem reachesEnd_iff {stream : InputStream} :
    stream.ReachesEnd ↔
      ∃ index, (stream.readings index).atEnd = true ∧
        ∀ earlier ≤ index, stream.read earlier ≠ .failed := by
  constructor
  · rintro ⟨index, atEnd⟩
    refine ⟨index, atEnd, fun earlier ordered fails => ?_⟩
    rw [readings, failed_of_le ordered fails] at atEnd
    cases atEnd
  · rintro ⟨index, atEnd, _⟩
    exact ⟨index, atEnd⟩

theorem readings_ofText {text : String} {index : Nat}
    (inside : index < (text.toList.splitOn '\n').length) :
    (ofText text).readings index =
      ⟨(text.toList.splitOn '\n')[index], index + 1 = (text.toList.splitOn '\n').length⟩ := by
  have last : decide ((text.toList.splitOn '\n').length ≤ index + 1) =
      decide (index + 1 = (text.toList.splitOn '\n').length) := by
    rw [decide_eq_decide]
    omega
  rw [readings, ofText, LineRead.reading, last, List.getD_eq_getElem?_getD,
    List.getElem?_eq_getElem inside]
  rfl

end InputStream

/-! ## The three loops -/

/-- The body of the loop of `Config::parse_file`; a malformed line leaves it. -/
def Config.parseLine (config : Config) (line : List Char) : Except Config Config :=
  match Config.readLine line with
  | .skipped => .ok config
  | .malformed => .error config
  | .option key value => .ok (config.insertOption key value)

/-- The body of the loop of `Router::update_peers_list` with the answer to the call of
`hello`, if it makes one; a malformed line leaves it. -/
def Router.meetLine (met : Router × THello) (line : List Char × Option THello) :
    Except Router (Router × THello) :=
  match Router.readPeerLine (String.ofList line.1) with
  | .skipped => .ok met
  | .malformed => .error met.1
  | .peer name key =>
      if name = "" then .ok met else .ok (met.1.meetPeer met.2 name key line.2)

/-- The reads of `update_peers_list`, each with the answer to the call that may follow. -/
def InputStream.withAnswers (stream : InputStream) (answers : Nat → Option THello)
    (index : Nat) : Reading (List Char × Option THello) :=
  ⟨((stream.readings index).line, answers index), (stream.readings index).atEnd⟩

/-- The body of the loop of `Mysql::load_file`, which nothing leaves. -/
def Store.Mysql.Loading.loadLine (loading : Store.Mysql.Loading) (line : List Char) :
    Except Empty Store.Mysql.Loading :=
  .ok (loading.readLine line)

/-! ### Files that can be read -/

theorem Config.parseLines_eq_foldlM (config : Config) (lines : List (List Char)) :
    config.parseLines lines =
      match lines.foldlM Config.parseLine config with
      | .ok parsed => (parsed, true)
      | .error parsed => (parsed, false) := by
  induction lines generalizing config with
  | nil => rfl
  | cons line lines inductionHypothesis =>
      rw [parseLines, List.foldlM_cons, parseLine]
      cases readLine line with
      | skipped => exact inductionHypothesis config
      | malformed => rfl
      | option key value => exact inductionHypothesis _

theorem Router.meetLines_eq_foldlM (router : Router) (helloResult : THello)
    (lines : List (List Char × Option THello)) :
    router.meetLines helloResult (lines.map fun line => (String.ofList line.1, line.2)) =
      match lines.foldlM Router.meetLine (router, helloResult) with
      | .ok met => (met.1, true)
      | .error left => (left, false) := by
  induction lines generalizing router helloResult with
  | nil => rfl
  | cons line lines inductionHypothesis =>
      rw [List.map_cons, meetLines, List.foldlM_cons, meetLine]
      cases readPeerLine (String.ofList line.1) with
      | skipped => exact inductionHypothesis router helloResult
      | malformed => rfl
      | peer name key =>
          dsimp only
          split
          · exact inductionHypothesis router helloResult
          · exact inductionHypothesis _ _

theorem Store.Mysql.Loading.foldlM_loadLine (loading : Store.Mysql.Loading)
    (lines : List (List Char)) :
    lines.foldlM loadLine loading = .ok (lines.foldl readLine loading) := by
  induction lines generalizing loading with
  | nil => rfl
  | cons line lines inductionHypothesis => exact inductionHypothesis (loading.readLine line)

section Text

variable (text : String)

theorem readLoop_ofText {State Result : Type} (body : State → List Char → Except Result State)
    (state : State) :
    readLoop (InputStream.ofText text).readings body (text.toList.splitOn '\n').length 0 false
        state =
      some ((text.toList.splitOn '\n').foldlM body state) := by
  refine readLoop_of_lines (List.splitOn_ne_nil _ _) fun index inside => ?_
  rw [Nat.zero_add, InputStream.readings_ofText inside]

theorem parseLoop_ofText (config : Config) :
    ∃ outcome, readLoop (InputStream.ofText text).readings Config.parseLine
        (text.toList.splitOn '\n').length 0 false config = some outcome ∧
      config.parseLines (text.toList.splitOn '\n') =
        match outcome with
        | .ok parsed => (parsed, true)
        | .error parsed => (parsed, false) :=
  ⟨_, readLoop_ofText text _ config, config.parseLines_eq_foldlM _⟩

theorem meetLoop_ofText (router : Router) (answers : Nat → Option THello) :
    ∃ outcome, readLoop ((InputStream.ofText text).withAnswers answers) Router.meetLine
        (text.toList.splitOn '\n').length 0 false (router, {}) = some outcome ∧
      router.meetLines {} ((text.toList.splitOn '\n').mapIdx fun index line =>
          (String.ofList line, answers index)) =
        match outcome with
        | .ok met => (met.1, true)
        | .error left => (left, false) := by
  have looped := @readLoop_of_lines _ _ _ ((InputStream.ofText text).withAnswers answers)
    Router.meetLine 0 (router, {})
    ((text.toList.splitOn '\n').mapIdx fun index line => (line, answers index))
    (by
      rw [Ne, List.mapIdx_eq_nil_iff]
      exact List.splitOn_ne_nil _ _)
    (by
      intro index inside
      rw [List.length_mapIdx] at inside
      rw [Nat.zero_add, InputStream.withAnswers, InputStream.readings_ofText inside,
        List.getElem_mapIdx, List.length_mapIdx])
  rw [List.length_mapIdx] at looped
  refine ⟨_, looped, ?_⟩
  rw [← Router.meetLines_eq_foldlM, List.mapIdx_eq_zipIdx_map, List.mapIdx_eq_zipIdx_map,
    List.map_map]
  rfl

theorem loadLoop_ofText (loading : Store.Mysql.Loading) :
    readLoop (InputStream.ofText text).readings Store.Mysql.Loading.loadLine
        (text.toList.splitOn '\n').length 0 false loading =
      some (.ok ((text.toList.splitOn '\n').foldl Store.Mysql.Loading.readLine loading)) := by
  rw [readLoop_ofText, Store.Mysql.Loading.foldlM_loadLine]

end Text

/-! ### Whether the loops end -/

theorem Config.parseLine_leaves (config : Config) (line : List Char) :
    (∃ left, config.parseLine line = .error left) ↔ Config.readLine line = .malformed := by
  rw [parseLine]
  cases readLine line with
  | skipped => exact iff_of_false nofun nofun
  | malformed => exact iff_of_true ⟨_, rfl⟩ rfl
  | option key value => exact iff_of_false nofun nofun

theorem Router.meetLine_leaves (met : Router × THello) (line : List Char × Option THello) :
    (∃ left, Router.meetLine met line = .error left) ↔
      Router.readPeerLine (String.ofList line.1) = .malformed := by
  rw [meetLine]
  cases readPeerLine (String.ofList line.1) with
  | skipped => exact iff_of_false nofun nofun
  | malformed => exact iff_of_true ⟨_, rfl⟩ rfl
  | peer name key =>
      dsimp only
      split <;> exact iff_of_false nofun nofun

/-- For every stream that has been opened: the loops of `parse_file` and of
`update_peers_list` end if and only if a read reaches the end of the file or a line is
malformed, and the loop of `load_file` ends if and only if a read reaches the end. -/
theorem lineLoops_end_iff (stream : InputStream) (config : Config) (router : Router)
    (answers : Nat → Option THello) (loading : Store.Mysql.Loading) :
    (LoopEnds stream.readings Config.parseLine config ↔
        stream.ReachesEnd ∨
          ∃ index, Config.readLine (stream.readings index).line = .malformed) ∧
      (LoopEnds (stream.withAnswers answers) Router.meetLine (router, {}) ↔
        stream.ReachesEnd ∨
          ∃ index, Router.readPeerLine (String.ofList (stream.readings index).line) =
            .malformed) ∧
      (LoopEnds stream.readings Store.Mysql.Loading.loadLine loading ↔ stream.ReachesEnd) := by
  refine ⟨?_, ?_, ?_⟩
  · rw [loopEnds_iff Config.parseLine_leaves, exists_or]
    rfl
  · rw [loopEnds_iff Router.meetLine_leaves, exists_or]
    rfl
  · exact loopEnds_iff_of_ok (fun _ _ => ⟨_, rfl⟩) loading

/-- A file that can be read ends every one of the loops. -/
theorem InputStream.reachesEnd_ofText (text : String) : (ofText text).ReachesEnd := by
  refine ⟨(text.toList.splitOn '\n').length, ?_⟩
  exact decide_eq_true (Nat.le_succ _)

/-- A directory can be opened, and every read of it fails. -/
theorem lineLoops_read_for_ever :
    ¬ ∀ (stream : InputStream) (config : Config) (router : Router)
      (answers : Nat → Option THello) (loading : Store.Mysql.Loading),
      LoopEnds stream.readings Config.parseLine config ∧
        LoopEnds (stream.withAnswers answers) Router.meetLine (router, {}) ∧
          LoopEnds stream.readings Store.Mysql.Loading.loadLine loading := by
  intro always
  obtain ⟨_, _, loads⟩ := always .unreadable Config.initial {} (fun _ => none) {}
  obtain ⟨index, atEnd⟩ := (loopEnds_iff_of_ok (fun _ _ => ⟨_, rfl⟩) _).mp loads
  cases atEnd

end OpenWorkloadScheduler
