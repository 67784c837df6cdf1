import OpenWorkloadScheduler.Domain.Acceptance
import OpenWorkloadScheduler.Foundations.Runs

/-!
# Preparing one planning again and again

Every call of `set_next_planning` decides by the existence of the schema whether
there is anything left to do.  A call that fails after the schema has been
created therefore leaves a half-built planning, which the next call takes for a
finished one; and a skeleton that cannot be loaded is taken for success at once.

A call that loads the skeleton may fail anywhere: it returns `true` on a finished
planning only.  The calls before it in a run must be safe, so that none of them
leaves a half-built planning.
-/

namespace OpenWorkloadScheduler.Domain

open Rpc Store Foundations

variable (domain : Domain)

/-! ## Calls and runs -/

/-- A call of `set_next_planning` with what it meets: the answers of MySQL,
whether the skeleton file can be opened, and the clock. -/
structure Attempt where
  reference : Reference
  answers : List Answer
  skeletonFile : Bool
  clock : Int
  deriving DecidableEq, Repr

namespace Attempt

/-- The state in which the call is made. -/
def entry (attempt : Attempt) (world : World) : World :=
  { world with
    answers := attempt.answers
    skeletonFile := attempt.skeletonFile
    clock := attempt.clock }

def result (attempt : Attempt) (world : World) : EStateM.Result Raised World Bool :=
  setNextPlanning domain attempt.reference (attempt.entry world)

/-- A call for the planning of the given start time. -/
def step (startTime : Int) (before : World) (attempt : Attempt) (after : World) : Prop :=
  nextPlanningStartTime domain attempt.clock = startTime ∧
    after = finalState (attempt.result domain before)

end Attempt

/-- The planning has every table and view of the skeleton, and every node and
job of the template. -/
def Prepared (startTime : Int) (template : Tables) (world : World) : Prop :=
  ∃ planning, world.server.schema? (planningName domain startTime) = some planning ∧
    planning.Complete ∧ (∀ row ∈ template.node, row ∈ planning.tables.node) ∧
    ∀ row ∈ template.job, ∃ copy ∈ planning.tables.job,
      copy.jobName = row.jobName ∧ copy.jobCmdLine = row.jobCmdLine ∧
        copy.jobNodeName = row.jobNodeName

/-- The call fails before it creates the schema: it does not get the list of the
schemas, or it gets the list, in which nothing clashes, and no further than to
the statement that creates one. -/
def Stopped (startTime : Int) (world : World) : Prop :=
  Mysql.StopsWithin 4 world.answers ∨
    ¬ world.server.LikeClash (planningName domain startTime) ∧
      (Mysql.StopsWithin 7 world.answers ∨
        isIdentifier (planningName domain startTime) = false)

/-- The planning exists, or the call fails before it creates the schema, or the
call does not fail and can copy the template. -/
def Safe (startTime : Int) (template : Tables) (world : World) : Prop :=
  (world.server.schema? (planningName domain startTime)).isSome ∨
    Stopped domain startTime world ∨
      ¬ world.server.LikeClash (planningName domain startTime) ∧
        Unfailing world ∧ Copyable domain template

/-- The call does not mistake a planning without tables for a finished one: it
does not come to load the skeleton, or the file can be opened and none of its
statements is refused without an error. -/
def Loads (startTime : Int) (world : World) : Prop :=
  (world.server.schema? (planningName domain startTime)).isSome ∨
    Stopped domain startTime world ∨
      ¬ world.server.LikeClash (planningName domain startTime) ∧
        (Mysql.StopsWithin 8 world.answers ∨
          world.skeletonFile = true ∧
            ¬ Mysql.RefusedBetween 10 (11 + skeletonStatements.length) world.answers)

/-! ## One call -/

section Calls

variable {startTime : Int} {template : Schema} {world : World}

theorem prepared_holding (keys : template.tables.Keys) :
    Prepared domain startTime template.tables
      (world.holding (planningName domain startTime) emptySkeleton
        (copiedRows domain template.tables)) := by
  refine ⟨_, Server.schema?_setSchema_self _ _ _,
    complete_emptySkeleton.withTables (copiedRows domain template.tables), ?_, ?_⟩
  · intro row member
    change row ∈ (copiedRows domain template.tables).node
    rwa [node_copiedRows]
  · intro row member
    refine ⟨rowOfJob (decodedJob domain template.tables row), ?_, rfl, rfl, rfl⟩
    change _ ∈ (copiedRows domain template.tables).job
    rw [job_copiedRows]
    exact List.mem_map_of_mem ((copyRows_perm keys).mem_iff.mpr member)

/-- The planning is found, and the call returns `true`. -/
theorem preparePlanning_of_found {rows : List Query.ResultRow}
    (present : (world.server.schema? (planningName domain startTime)).isSome)
    (selects : Mysql.Selects (.schemaExists (planningName domain startTime)) none world rows) :
    preparePlanning domain startTime world = .ok true world.answered.answered := by
  have rowsEq := selects.ran
  rw [Query.run, if_pos present, Except.ok.injEq] at rowsEq
  have accepted : createPlanning (planningName domain startTime) world =
      .ok (some true) world.answered.answered := by
    rw [createPlanning, bind_of_ok (Mysql.queryOneRow_of_selects selects), ← rowsEq]
    rfl
  exact preparePlanning_of_decided domain accepted

/-- On a planning that exists the call changes nothing. -/
theorem preparePlanning_of_present
    (present : (world.server.schema? (planningName domain startTime)).isSome) :
    ∃ accepted after, ReadOnly world after ∧
      preparePlanning domain startTime world = .ok accepted after := by
  rcases Mysql.queryOneRow_cases (.schemaExists (planningName domain startTime)) none world with
    ⟨rows, selects⟩ | ⟨after, readOnly, refused | ⟨message, left⟩⟩
  · exact ⟨true, world.answered.answered, rfl, preparePlanning_of_found domain present selects⟩
  · have declined : createPlanning (planningName domain startTime) world =
        .ok (some false) after := by
      rw [createPlanning, bind_of_ok refused]
      rfl
    exact ⟨false, after, readOnly, preparePlanning_of_decided domain declined⟩
  · have raised : createPlanning (planningName domain startTime) world =
        .error (.exProcessing message) after := by
      rw [createPlanning, bind_of_error left]
    exact ⟨false, after, readOnly, preparePlanning_of_raised domain raised⟩

/-- A call that fails before it creates the schema returns `false` and leaves
the server as it was. -/
theorem preparePlanning_of_stop
    (absent : world.server.schema? (planningName domain startTime) = none)
    (stop : Stopped domain startTime world) :
    ∃ after, Frame world after ∧ after.server = world.server ∧
      preparePlanning domain startTime world = .ok false after := by
  rcases Mysql.queryOneRow_cases (.schemaExists (planningName domain startTime)) none world with
    ⟨rows, selects⟩ | ⟨after, readOnly, refused | ⟨message, left⟩⟩
  · have rowsEq := selects.ran
    rw [Query.run, absent, Except.ok.injEq] at rowsEq
    have passed {number : Nat} (stops : Mysql.StopsWithin (number + 2) world.answers) :
        Mysql.StopsWithin number world.answered.answered.answers :=
      (stops.rest selects.connected).rest selects.answered
    obtain ⟨after, frame, server, message, left⟩ := Mysql.stops_initDomainStructure
      (stop.imp passed fun clear => ⟨clear.1, clear.2.imp_left passed⟩)
    have raised : createPlanning (planningName domain startTime) world =
        .error (.exProcessing message) after := by
      rw [createPlanning, bind_of_ok (Mysql.queryOneRow_of_selects selects), ← rowsEq]
      change (do
        if ← Mysql.initDomainStructure (planningName domain startTime) then return none
        else return some true : Action (Option Bool)) world.answered.answered = _
      exact bind_of_error left
    exact ⟨after, ⟨frame.skeletonFile, frame.updatesMutex, frame.planningStartTime, frame.clock,
      frame.utcOffset⟩, server, preparePlanning_of_raised domain raised⟩
  · have declined : createPlanning (planningName domain startTime) world =
        .ok (some false) after := by
      rw [createPlanning, bind_of_ok refused]
      rfl
    exact ⟨after, readOnly.frame, readOnly.server, preparePlanning_of_decided domain declined⟩
  · have raised : createPlanning (planningName domain startTime) world =
        .error (.exProcessing message) after := by
      rw [createPlanning, bind_of_error left]
    exact ⟨after, readOnly.frame, readOnly.server, preparePlanning_of_raised domain raised⟩

theorem identifier_of_not_stopped
    (clear : ¬ world.server.LikeClash (planningName domain startTime))
    (going : ¬ Stopped domain startTime world) :
    isIdentifier (planningName domain startTime) = true := by
  by_contra refused
  exact going (Or.inr ⟨clear, Or.inr (by simpa using refused)⟩)

/-- What a run of safe calls keeps: the template is as it was, the mutex is free,
and the planning does not exist or is prepared. -/
structure Between (startTime : Int) (template : Schema) (world : World) : Prop where
  source : Template domain world template
  free : MutexFree world
  planning : world.server.schema? (planningName domain startTime) = none ∨
    Prepared domain startTime template.tables world

theorem Prepared.present {template : Tables}
    (prepared : Prepared domain startTime template world) :
    (world.server.schema? (planningName domain startTime)).isSome := by
  obtain ⟨planning, found, _⟩ := prepared
  rw [found]
  rfl

/-- A state of the same server, with the mutex as it was. -/
theorem Between.congr {after : World} (between : Between domain startTime template world)
    (server : after.server = world.server) (mutex : after.updatesMutex = world.updatesMutex) :
    Between domain startTime template after := by
  obtain ⟨source, free, planning⟩ := between
  refine ⟨{ source with found := server ▸ source.found }, mutex.trans free, ?_⟩
  unfold Prepared at planning ⊢
  rwa [server]

theorem between_of_safe (between : Between domain startTime template world)
    (safe : Safe domain startTime template.tables world) :
    Between domain startTime template (finalState (preparePlanning domain startTime world)) := by
  by_cases present : (world.server.schema? (planningName domain startTime)).isSome
  · obtain ⟨accepted, after, readOnly, ran⟩ := preparePlanning_of_present domain present
    rw [ran]
    exact between.congr domain readOnly.server readOnly.frame.updatesMutex
  · have absent : world.server.schema? (planningName domain startTime) = none := by
      simpa using present
    by_cases stop : Stopped domain startTime world
    · obtain ⟨after, frame, server, ran⟩ := preparePlanning_of_stop domain absent stop
      rw [ran]
      exact between.congr domain server frame.updatesMutex
    · obtain ⟨clear, unfailing, copyable⟩ := (safe.resolve_left present).resolve_left stop
      have copied := answers_preparePlanning domain unfailing between.source absent clear
        (identifier_of_not_stopped domain clear stop)
      rw [copied.returns copyable]
      refine ⟨?_, between.free, Or.inr (prepared_holding domain between.source.keys)⟩
      exact { between.source with
        found := (Server.schema?_setSchema_ne
          (name_ne_planningName domain startTime)).trans between.source.found }

/-- The planning that a copy has left is prepared, whatever else could have failed. -/
theorem prepared_of_copy (between : Between domain startTime template world)
    (absent : world.server.schema? (planningName domain startTime) = none)
    (clear : ¬ world.server.LikeClash (planningName domain startTime))
    (identifier : isIdentifier (planningName domain startTime) = true) {created after : World}
    (creates : catchProcessing (createPlanning (planningName domain startTime)) world =
      .ok none created)
    (copies : (getNodes domain domain.name >>= fun nodes =>
      addNodes domain (planningName domain startTime) nodes) created = .ok true after) :
    Prepared domain startTime template.tables after := by
  have createdQuietly := survives_createPlanning (planningName domain startTime) world none
    created (createPlanning_of_catchProcessing (by simp) creates) rfl
  have copiedQuietly := survives_copy domain (planningName domain startTime) created true after
    copies rfl
  have ran : preparePlanning domain startTime world.calmed = .ok true after.calmed := by
    rw [preparePlanning_of_created domain createdQuietly]
    exact copiedQuietly
  have opened : world.skeletonFile = true := by
    by_contra notOpened
    have closed : world.skeletonFile = false := by simpa using notOpened
    rw [createPlanning_of_closed world.quiet_calmed closed absent clear identifier]
      at createdQuietly
    cases createdQuietly
  have source : Template domain world.calmed template :=
    { between.source with found := between.source.found }
  have copied := answers_preparePlanning domain ⟨world.quiet_calmed, opened, between.free⟩ source
    absent clear identifier
  obtain ⟨_, _, held⟩ := copied.of_ok ran
  have prepared := @prepared_holding domain startTime template world.calmed source.keys
  rwa [← held] at prepared

/-- A call that loads the skeleton returns `true` on a prepared planning only,
wherever it may fail. -/
theorem prepared_of_loads (between : Between domain startTime template world)
    (loads : Loads domain startTime world) {after : World}
    (ran : preparePlanning domain startTime world = .ok true after) :
    Prepared domain startTime template.tables after := by
  by_cases present : (world.server.schema? (planningName domain startTime)).isSome
  · have prepared : Prepared domain startTime template.tables world := by
      rcases between.planning with absent | prepared
      · rw [absent] at present
        cases present
      · exact prepared
    obtain ⟨accepted, later, readOnly, returned⟩ := preparePlanning_of_present domain present
    rw [returned] at ran
    cases ran
    unfold Prepared at prepared ⊢
    rwa [readOnly.server]
  · have absent : world.server.schema? (planningName domain startTime) = none := by
      simpa using present
    by_cases stop : Stopped domain startTime world
    · obtain ⟨later, frame, server, returned⟩ := preparePlanning_of_stop domain absent stop
      rw [returned] at ran
      cases ran
    · obtain ⟨clear, loads⟩ := (loads.resolve_left present).resolve_left stop
      obtain ⟨result, created, creates, rest⟩ := bind_eq_ok_iff.mp ran
      cases result with
      | none =>
          exact prepared_of_copy domain between absent clear
            (identifier_of_not_stopped domain clear stop) creates rest
      | some accepted =>
          -- the planning is taken for a finished one
          cases rest
          obtain ⟨begun, left⟩ := answers_of_createPlanning_true absent clear
            (createPlanning_of_catchProcessing (by simp) creates)
          obtain ⟨opened, accepted⟩ := loads.resolve_left begun
          rcases left with closed | refused
          · rw [opened] at closed
            cases closed
          · exact absurd refused accepted

end Calls

/-! ## Runs of safe calls -/

section Runs

variable {startTime : Int} {template : Schema}

/-- What a call meets is what there was before it, up to its own answers, file
and clock. -/
theorem between_entry {before : World} (between : Between domain startTime template before)
    (attempt : Attempt) :
    Between domain startTime template
      (attempt.reference.assigned startTime (attempt.entry before)) := by
  refine between.congr domain ?_ ?_ <;> cases attempt.reference <;> rfl

theorem result_eq {attempt : Attempt}
    (same : nextPlanningStartTime domain attempt.clock = startTime) (world : World) :
    attempt.result domain world =
      preparePlanning domain startTime
        (attempt.reference.assigned startTime (attempt.entry world)) := by
  have clock : nextPlanningStartTime domain (attempt.entry world).clock = startTime := same
  rw [Attempt.result, setNextPlanning_eq, clock]

theorem between_of_step {before after : World} {attempt : Attempt}
    (between : Between domain startTime template before)
    (step : Guarded (Attempt.step domain startTime)
      (fun before attempt => Safe domain startTime template.tables (attempt.entry before))
      before attempt after) :
    Between domain startTime template after := by
  obtain ⟨⟨same, rfl⟩, safe⟩ := step
  rw [result_eq domain same]
  apply between_of_safe domain (between_entry domain between attempt)
  cases attempt.reference
  · obtain exist | stop | ⟨clear, unfailing, copyable⟩ := safe
    · exact Or.inl exist
    · exact Or.inr (Or.inl stop)
    · exact Or.inr (Or.inr
        ⟨clear, ⟨unfailing.quiet, unfailing.opened, unfailing.free⟩, copyable⟩)
  · exact safe

/-- In every run of calls for one planning that begins without it, or with a
prepared one, and in which every call but the last is safe, the last call
returns `true` on a prepared planning only, wherever it may fail. -/
theorem setNextPlanning_prepares_of_run {initial world after : World}
    {attempts : List Attempt} {attempt : Attempt}
    (source : Template domain initial template) (free : MutexFree initial)
    (planning : initial.server.schema? (planningName domain startTime) = none ∨
      Prepared domain startTime template.tables initial)
    (run : Run (Guarded (Attempt.step domain startTime)
      fun before attempt => Safe domain startTime template.tables (attempt.entry before))
      initial attempts world)
    (loads : Loads domain startTime (attempt.entry world))
    (same : nextPlanningStartTime domain attempt.clock = startTime)
    (ran : attempt.result domain world = .ok true after) :
    Prepared domain startTime template.tables after := by
  have between : Between domain startTime template world :=
    run.keeps (fun _ _ _ between step => between_of_step domain between step)
      ⟨source, free, planning⟩
  rw [result_eq domain same] at ran
  refine prepared_of_loads domain (between_entry domain between attempt) ?_ ran
  cases attempt.reference <;> exact loads

end Runs

/-! ## A skeleton that cannot be opened -/

/-- The call takes the failure of `init_domain_structure` for success: it returns
`true` on a schema without tables. -/
theorem preparePlanning_of_closed {startTime : Int} {world : World}
    (quiet : Mysql.Quiet world) (closed : world.skeletonFile = false)
    (absent : world.server.schema? (planningName domain startTime) = none)
    (clear : ¬ world.server.LikeClash (planningName domain startTime))
    (identifier : isIdentifier (planningName domain startTime) = true) :
    preparePlanning domain startTime world =
      .ok true (world.holding (planningName domain startTime) {} {}) :=
  preparePlanning_of_decided domain
    (createPlanning_of_closed quiet closed absent clear identifier)

theorem not_prepared_holding_empty (startTime : Int) (template : Tables) (world : World) :
    ¬ Prepared domain startTime template
      (world.holding (planningName domain startTime) {} {}) := by
  rintro ⟨planning, found, complete, _⟩
  have empty : planning = {} :=
    (Option.some.inj ((Server.schema?_setSchema_self _ _ _).symm.trans found)).symm
  have missing := complete.baseTables "node" (by decide)
  rw [empty] at missing
  cases missing

def withoutSkeleton : Attempt where
  reference := .result
  answers := []
  skeletonFile := false
  clock := 0

/-- The first call for a planning returns `true` although the skeleton file
cannot be opened. -/
theorem setNextPlanning_accepts_withoutSkeleton :
    ¬ ∀ (domain : Domain) (startTime : Int) (template : Schema) (initial world after : World)
      (attempts : List Attempt) (attempt : Attempt),
      Template domain initial template → MutexFree initial →
        initial.server.schema? (planningName domain startTime) = none →
          Run (Attempt.step domain startTime) initial attempts world →
            nextPlanningStartTime domain attempt.clock = startTime →
              attempt.result domain world = .ok true after →
                Prepared domain startTime template.tables after := by
  intro always
  have ran : withoutSkeleton.result dailyDomain (twoJobsWorld ⟨"backup", "archive"⟩) =
      .ok true ((withoutSkeleton.entry (twoJobsWorld ⟨"backup", "archive"⟩)).holding
        (planningName dailyDomain (nextPlanningStartTime dailyDomain 0)) {} {}) := by
    rw [Attempt.result, setNextPlanning_eq, withoutSkeleton, Reference.assigned]
    exact preparePlanning_of_closed dailyDomain rfl rfl (by decide) (by decide) (by decide)
  have prepared := always dailyDomain (nextPlanningStartTime dailyDomain 0)
    (twoJobs ⟨"backup", "archive"⟩) _ _ _ [] withoutSkeleton (template_twoJobs (Or.inl rfl)) rfl
    (by decide) (.stay _) rfl ran
  exact not_prepared_holding_empty dailyDomain _ _ _ prepared

/-- MySQL cannot be reached. -/
def unreachable : Attempt where
  reference := .result
  answers := [.refused]
  skeletonFile := true
  clock := 0

def undisturbed : Attempt where
  reference := .result
  answers := []
  skeletonFile := true
  clock := 0

theorem setNextPlanning_prepares_after_unreachable :
    Prepared dailyDomain (nextPlanningStartTime dailyDomain 0)
      (twoJobs ⟨"backup", "archive"⟩).tables
      ((undisturbed.entry (twoJobsWorld ⟨"backup", "archive"⟩)).holding
        (planningName dailyDomain (nextPlanningStartTime dailyDomain 0)) emptySkeleton
        (copiedRows dailyDomain (twoJobs ⟨"backup", "archive"⟩).tables)) := by
  have source : Template dailyDomain (twoJobsWorld ⟨"backup", "archive"⟩)
      (twoJobs ⟨"backup", "archive"⟩) :=
    template_twoJobs (Or.inl rfl)
  have unfailing : Unfailing (undisturbed.entry (twoJobsWorld ⟨"backup", "archive"⟩)) :=
    ⟨rfl, rfl, rfl⟩
  have condition := (copyCondition_iff dailyDomain source.keys).mp copyCondition_twoJobs
  have ran : undisturbed.result dailyDomain (twoJobsWorld ⟨"backup", "archive"⟩) =
      .ok true ((undisturbed.entry (twoJobsWorld ⟨"backup", "archive"⟩)).holding
        (planningName dailyDomain (nextPlanningStartTime dailyDomain 0)) emptySkeleton
        (copiedRows dailyDomain (twoJobs ⟨"backup", "archive"⟩).tables)) := by
    rw [Attempt.result, setNextPlanning_eq, undisturbed, Reference.assigned]
    exact (answers_preparePlanning dailyDomain unfailing source (by decide) (by decide)
      (by decide)).returns condition.2.2.1
  have stopped : Stopped dailyDomain (nextPlanningStartTime dailyDomain 0)
      (unreachable.entry (twoJobsWorld ⟨"backup", "archive"⟩)) :=
    Or.inl ⟨0, by decide, by decide⟩
  have loads : Loads dailyDomain (nextPlanningStartTime dailyDomain 0)
      (undisturbed.entry (twoJobsWorld ⟨"backup", "archive"⟩)) :=
    Or.inr (Or.inr ⟨by decide, Or.inr ⟨rfl, Mysql.not_refusedBetween_nil⟩⟩)
  exact setNextPlanning_prepares_of_run dailyDomain source rfl (Or.inl (by decide))
    (.next ⟨⟨rfl, rfl⟩, Or.inr (Or.inl stopped)⟩ (.stay _)) loads rfl ran

end OpenWorkloadScheduler.Domain
