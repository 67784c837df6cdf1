import OpenWorkloadScheduler.Domain.StateReadings
import OpenWorkloadScheduler.Scheduler.Master

/-!
# The loop of the master on the texts that it sends

The threads paste the names of their jobs into the texts of their updates, and the
server executes what it reads there.  The steps below are those of the process with
these updates.  While all texts are plain, they are the steps of the loop as it is meant,
and what holds of its runs holds of theirs.
-/

namespace OpenWorkloadScheduler

open Rpc Store Foundations Domain

namespace Master

variable (domain : Domain) (settings : Settings)

/-! ## The steps -/

def startAsRead (master : Master) (index : Nat) : Option Master :=
  master.startWith (fun job => updateJobStateAsRead job.domain job.nodeName job.name .running)
    index

def finishAsRead (master : Master) (index : Nat) : Option Master :=
  master.finishWith (fun job state startTime stopTime =>
    updateJobStateTimesAsRead job.domain job.nodeName job.name state startTime stopTime) index

/-- A step of the process in which the updates of a thread are those that the server reads.
There is none where it reads a clause of no form that is modelled. -/
def performAsRead (master : Master) (event : Event) : Option Master :=
  match event with
  | .start index => if master.point = .exited then none else master.startAsRead index
  | .finish index => if master.point = .exited then none else master.finishAsRead index
  | event => master.perform domain settings event

def StepAsRead (before : Master) (event : Event) (after : Master) : Prop :=
  before.performAsRead domain settings event = some after

/-! ## Plain texts -/

/-- The schemas whose names the process handles. -/
def schemaNames (master : Master) : List String :=
  master.world.server.schemas.keys ++ master.threads.map fun thread => thread.job.domain

/-- The names in a schema, and those of the jobs that threads have from it. -/
def namesIn (master : Master) (schemaName : String) : List String :=
  ((master.threads.filter fun thread => thread.job.domain = schemaName).map
    fun thread => thread.job.name) ++ (master.world.server.tables schemaName).names

/-- The server reads the names and the command lines of every schema as they are meant, and
tells the names of each schema apart. -/
structure PlainTexts (master : Master) : Prop where
  names : ∀ schemaName ∈ master.schemaNames,
    Plain (settings.nodeName :: master.namesIn schemaName)
  commands : ∀ schemaName ∈ master.schemaNames,
    ∀ row ∈ (master.world.server.tables schemaName).job, isClean row.jobCmdLine.toList = true

instance (master : Master) : Decidable (PlainTexts settings master) :=
  decidable_of_iff
    ((∀ schemaName ∈ master.schemaNames,
        Plain (settings.nodeName :: master.namesIn schemaName)) ∧
      ∀ schemaName ∈ master.schemaNames,
        ∀ row ∈ (master.world.server.tables schemaName).job,
          isClean row.jobCmdLine.toList = true)
    ⟨fun both => ⟨both.1, both.2⟩, fun plain => ⟨plain.names, plain.commands⟩⟩

/-- A step from a state with plain texts, of which the server reads what it gets. -/
def performPlain (master : Master) (event : Event) : Option Master :=
  if PlainTexts settings master then master.performAsRead domain settings event else none

def PlainStep (before : Master) (event : Event) (after : Master) : Prop :=
  before.performPlain domain settings event = some after

section Plain

variable {domain settings} {master : Master}

/-- The server tells the name of a thread's job from the others of its schema. -/
theorem PlainTexts.thread (plain : PlainTexts settings master) {thread : JobThread}
    (member : thread ∈ master.threads) :
    PlainIn master.world.server thread.job.domain thread.job.name := by
  have known : thread.job.domain ∈ master.schemaNames :=
    List.mem_append_right _ (List.mem_map_of_mem member)
  apply (plain.names _ known).mono
  apply List.cons_subset.mpr
  constructor
  · apply List.mem_cons_of_mem
    apply List.mem_append_left
    exact List.mem_map_of_mem (List.mem_filter.mpr ⟨member, by simp⟩)
  · exact fun name member => List.mem_cons_of_mem _ (List.mem_append_right _ member)

/-- A thread makes the same step with two updates that do the same here. -/
theorem startWith_congr {update other : TJob → Option (Action Bool)} {index : Nat}
    (same : ∀ thread ∈ master.threads, ∃ action another, update thread.job = some action ∧
      other thread.job = some another ∧ action master.world = another master.world) :
    master.startWith update index = master.startWith other index := by
  rw [startWith, startWith]
  split
  · rename_i job found
    obtain ⟨action, another, first, second, agree⟩ := same _ (List.mem_of_getElem? found)
    rw [first, second]
    simp only [Option.bind_some, agree]
  · rfl

theorem finishWith_congr {update other : TJob → EJobState → Int → Int → Option (Action Bool)}
    {index : Nat}
    (same : ∀ thread ∈ master.threads, ∀ state startTime stopTime, ∃ action another,
      update thread.job state startTime stopTime = some action ∧
        other thread.job state startTime stopTime = some another ∧
          action master.world = another master.world) :
    master.finishWith update index = master.finishWith other index := by
  rw [finishWith, finishWith]
  split
  · rename_i job startTime stopTime returnCode found
    obtain ⟨action, another, first, second, agree⟩ :=
      same _ (List.mem_of_getElem? found) (finalJobState returnCode) startTime stopTime
    rw [first, second]
    simp only [Option.bind_some, agree]
  · rfl

theorem startAsRead_of_plain (plain : ∀ thread ∈ master.threads,
      PlainIn master.world.server thread.job.domain thread.job.name) (index : Nat) :
    master.startAsRead index = master.start index := by
  apply startWith_congr
  intro thread member
  obtain ⟨action, executed, agree⟩ :=
    updateJobStateAsRead_of_plain (plain thread member) thread.job.nodeName .running
  exact ⟨action, _, executed, rfl, agree⟩

theorem finishAsRead_of_plain (plain : ∀ thread ∈ master.threads,
      PlainIn master.world.server thread.job.domain thread.job.name) (index : Nat) :
    master.finishAsRead index = master.finish index := by
  apply finishWith_congr
  intro thread member state startTime stopTime
  obtain ⟨action, executed, agree⟩ := updateJobStateTimesAsRead_of_plain (plain thread member)
    thread.job.nodeName state startTime stopTime
  exact ⟨action, _, executed, rfl, agree⟩

/-- While the jobs of the threads have plain names, the server reads what is meant. -/
theorem performAsRead_of_plain (plain : ∀ thread ∈ master.threads,
      PlainIn master.world.server thread.job.domain thread.job.name) (event : Event) :
    master.performAsRead domain settings event = master.perform domain settings event := by
  cases event with
  | start index =>
      simp only [performAsRead, startAsRead_of_plain plain]
      rfl
  | finish index =>
      simp only [performAsRead, finishAsRead_of_plain plain]
      rfl
  | _ => rfl

theorem plainStep_iff {before after : Master} {event : Event} :
    PlainStep domain settings before event after ↔
      PlainTexts settings before ∧ StepAsRead domain settings before event after := by
  rw [PlainStep, performPlain, StepAsRead]
  split
  · rename_i plain
    simp [plain]
  · rename_i mixed
    simp [mixed]

/-- On plain texts the process makes the steps that are meant. -/
theorem step_of_plainStep {before after : Master} {event : Event}
    (stepped : PlainStep domain settings before event after) :
    Step domain settings before event after := by
  obtain ⟨plain, read⟩ := plainStep_iff.mp stepped
  rw [StepAsRead, performAsRead_of_plain fun thread member => plain.thread member] at read
  exact read

theorem run_of_plainSteps {before after : Master} {events : List Event}
    (run : Run (PlainStep domain settings) before events after) :
    Run (Step domain settings) before events after :=
  run.mono fun _ _ _ => step_of_plainStep

theorem unique_of_run {before after other : Master} {events : List Event}
    (run : Run (Step domain settings) before events after)
    (another : Run (Step domain settings) before events other) : after = other := by
  refine run.unique (fun _ _ _ _ stepped otherStepped => ?_) another
  exact Option.some.inj (Eq.trans (Eq.symm stepped) otherStepped)

/-- A run of the steps that are meant is one on plain texts where there is such a run. -/
theorem plainSteps_of_run {before after : Master} {events : List Event}
    (possible : (performAll (performPlain domain settings) before events).isSome = true)
    (run : Run (Step domain settings) before events after) :
    Run (PlainStep domain settings) before events after := by
  obtain ⟨other, performed⟩ := Option.isSome_iff_exists.mp possible
  have plain : Run (PlainStep domain settings) before events other :=
    run_of_performAll performed
  rwa [unique_of_run run (run_of_plainSteps plain)]

theorem run_of_plainGuarded {condition : Master → Event → Prop} {before after : Master}
    {events : List Event}
    (run : Run (Guarded (PlainStep domain settings) condition) before events after) :
    Run (Guarded (Step domain settings) condition) before events after :=
  run.mono fun _ _ _ stepped => ⟨step_of_plainStep stepped.1, stepped.2⟩

end Plain

end Master

end OpenWorkloadScheduler
