import OpenWorkloadScheduler.Domain.Additions
import OpenWorkloadScheduler.Domain.Switching

/-!
# Whether the current planning is prepared

The constructor has `set_next_planning` write the start time before anything is
prepared, and its handler swallows the exceptions of the preparation together with
the one that it raises itself for the result `false`.  `switch_planning` writes the
start time after a success only.

A success alone does not make a planning: `set_next_planning` also returns true for a schema
that a failed call has left without tables.  The names are prepared where the
constructor goes through and no call leaves such a schema to the next one.
-/

namespace OpenWorkloadScheduler.Domain

open Rpc Store Foundations

variable (domain : Domain)

/-- `set_next_planning` returns true from the state. -/
def Prepares (reference : Reference) (world : World) : Prop :=
  ∃ after, setNextPlanning domain reference world = .ok true after

/-- In the run of an object, the first state of which is that of the last `try` block of
the constructor, `set_next_planning` has returned true for the start time. -/
def PreparedIn (constructing : World) (entries : List World) (last : World) : Prop :=
  (Prepares domain .planningStartTime constructing ∧
      last.planningStartTime = nextPlanningStartTime domain constructing.clock) ∨
    ∃ entered ∈ entries, Prepares domain .result entered ∧
      last.planningStartTime = nextPlanningStartTime domain entered.clock

/-- A call of `switch_planning` on the object: what it meets are its own answers, its own
skeleton file and the clock, and everything else is as it was. -/
def Calls (before entered after : World) : Prop :=
  Switches domain before entered after ∧
    entered = { before with
      answers := entered.answers
      skeletonFile := entered.skeletonFile
      clock := entered.clock }

/-- The preparation goes through: the planning is there, and the question for it is answered,
or nothing fails, and the template can be copied into a planning with which nothing
clashes. -/
def Succeeds (startTime : Int) (template : Tables) (world : World) : Prop :=
  (world.server.schema? (planningName domain startTime)).isSome ∧
      ¬ Mysql.StopsWithin 2 world.answers ∨
    (¬ world.server.LikeClash (planningName domain startTime) ∧
        isIdentifier (planningName domain startTime) = true) ∧
      Unfailing world ∧ Copyable domain template

/-- The call of `switch_planning` finds the planning there, fails before it creates it, or
does not fail and can copy the template. -/
def SafeCall (template : Schema) (_ entered : World) : Prop :=
  Safe domain (nextPlanningStartTime domain entered.clock) template.tables entered

/-- No planning of the domain is half-built: each is prepared, or is not there. -/
def Whole (template : Schema) (world : World) : Prop :=
  ∀ startTime, Between domain startTime template world

/-- The start time is one for which `set_next_planning` has returned true, and the
planning that it names is complete. -/
structure NamesPrepared (constructing : World) (template : Tables) (entries : List World)
    (last : World) : Prop where
  returned : PreparedIn domain constructing entries last
  complete : Prepared domain last.planningStartTime template last

section Preparation

variable {domain}

/-- A switch succeeds when its preparation does. -/
theorem switchPlanning_succeeds_iff {entered : World} :
    (∃ after, switchPlanning domain entered = .ok true after) ↔
      Prepares domain .result entered := by
  have read : getNextPlanningStartTime domain entered =
      .ok (nextPlanningStartTime domain entered.clock) entered := rfl
  constructor
  · rintro ⟨after, switched⟩
    rw [switchPlanning, bind_of_ok read] at switched
    obtain ⟨prepared, between, ran, assigned⟩ := bind_eq_ok_iff.mp switched
    cases prepared with
    | false => cases assigned
    | true => exact ⟨between, ran⟩
  · rintro ⟨after, ran⟩
    rw [switchPlanning, bind_of_ok read, bind_of_ok ran]
    exact ⟨_, rfl⟩

theorem Switches.prepares_cases {before entered after : World}
    (switches : Switches domain before entered after) :
    (Prepares domain .result entered ∧
        after.planningStartTime = nextPlanningStartTime domain entered.clock) ∨
      ¬ Prepares domain .result entered ∧
        after.planningStartTime = before.planningStartTime := by
  rcases switches.cases with ⟨switched, startTime, _⟩ | ⟨failure, same, _⟩
  · exact Or.inl ⟨switchPlanning_succeeds_iff.mp ⟨after, switched⟩, startTime⟩
  · apply Or.inr
    refine ⟨fun prepares => ?_, same⟩
    obtain ⟨other, switched⟩ := switchPlanning_succeeds_iff.mpr prepares
    exact failure other switched

/-- Any number of switches: the start time is that of the last one that succeeded. -/
theorem planningStartTime_of_run {first last : World} {entries : List World}
    (run : Run (Switches domain) first entries last) :
    (∃ entered ∈ entries, Prepares domain .result entered ∧
        last.planningStartTime = nextPlanningStartTime domain entered.clock) ∨
      (∀ entered ∈ entries, ¬ Prepares domain .result entered) ∧
        last.planningStartTime = first.planningStartTime := by
  induction run with
  | stay state => exact Or.inr ⟨fun _ member => absurd member List.not_mem_nil, rfl⟩
  | @next before between after entered entries switches _ inductionHypothesis =>
      rcases inductionHypothesis with ⟨other, member, prepared⟩ | ⟨failing, same⟩
      · exact Or.inl ⟨other, List.mem_cons_of_mem entered member, prepared⟩
      · rcases switches.prepares_cases with ⟨prepares, startTime⟩ | ⟨fails, kept⟩
        · exact Or.inl ⟨entered, List.mem_cons_self, prepares, same.trans startTime⟩
        · exact Or.inr ⟨List.forall_mem_cons.mpr ⟨fails, failing⟩, same.trans kept⟩

/-- The start time of a state is prepared if the constructor or a switch up to it has
prepared one. -/
theorem preparedIn_iff {constructing first last : World} {entries : List World}
    (set : first.planningStartTime = nextPlanningStartTime domain constructing.clock)
    (run : Run (Switches domain) first entries last) :
    PreparedIn domain constructing entries last ↔
      Prepares domain .planningStartTime constructing ∨
        ∃ entered ∈ entries, Prepares domain .result entered := by
  constructor
  · rintro (⟨prepares, _⟩ | ⟨entered, member, prepares, _⟩)
    · exact Or.inl prepares
    · exact Or.inr ⟨entered, member, prepares⟩
  · intro prepares
    rcases planningStartTime_of_run run with switched | ⟨failing, same⟩
    · exact Or.inr switched
    · rcases prepares with constructed | ⟨entered, member, switched⟩
      · exact Or.inl ⟨constructed, same.trans set⟩
      · exact absurd switched (failing entered member)

/-- What the constructor leaves after the template has been prepared. -/
theorem planningStartTime_of_constructed {threadSafe : Bool} {start constructing first : World}
    (template : Mysql.initDomainStructure domain.name start = .ok true constructing)
    (constructed : construct domain threadSafe start = .ok () first) :
    first.planningStartTime = nextPlanningStartTime domain constructing.clock := by
  rw [construct] at constructed
  split at constructed
  · cases constructed
  · rw [bind_of_ok template] at constructed
    have set := planningStartTime_prepareFirstPlanning domain constructing
    change prepareFirstPlanning domain constructing = _ at constructed
    rw [constructed] at set
    exact set.1

/-! ## One preparation -/

section Preparing

variable {startTime : Int} {template : Schema} {world after : World}

/-- Whether a planning is prepared depends on its schema only. -/
theorem Prepared.congr_schema {rows : Tables}
    (same : after.server.schema? (planningName domain startTime) =
      world.server.schema? (planningName domain startTime))
    (prepared : Prepared domain startTime rows world) : Prepared domain startTime rows after := by
  unfold Prepared at prepared ⊢
  rwa [same]

theorem Whole.congr (whole : Whole domain template world) (server : after.server = world.server)
    (mutex : after.updatesMutex = world.updatesMutex) : Whole domain template after :=
  fun startTime => (whole startTime).congr domain server mutex

/-- Whatever happens in the preparation of a planning, a planning that is prepared stays so. -/
theorem prepared_of_preparePlanning {rows : Tables} (other : Int)
    (prepared : Prepared domain startTime rows world) :
    Prepared domain startTime rows (finalState (preparePlanning domain other world)) := by
  by_cases same : planningName domain startTime = planningName domain other
  · have present := prepared.present domain
    rw [same] at present
    obtain ⟨accepted, after, readOnly, ran⟩ := preparePlanning_of_present domain present
    rw [ran]
    exact prepared.congr_schema (congrArg (fun server : Server => server.schema? _)
      readOnly.server)
  · exact prepared.congr_schema (keepsBeside_preparePlanning domain other world _ same)

/-- A safe preparation leaves no planning half-built. -/
theorem whole_of_safe (whole : Whole domain template world)
    (safe : Safe domain startTime template.tables world) :
    Whole domain template (finalState (preparePlanning domain startTime world)) := by
  have own := between_of_safe domain (whole startTime) safe
  intro other
  refine ⟨own.source, own.free, ?_⟩
  by_cases same : planningName domain other = planningName domain startTime
  · have planning := own.planning
    unfold Prepared at planning ⊢
    rwa [same]
  · have kept := keepsBeside_preparePlanning domain startTime world _ same
    refine (whole other).planning.imp (fun absent => kept.trans absent) fun prepared => ?_
    exact prepared.congr_schema kept

/-- A safe call mistakes no planning without tables for a finished one. -/
theorem loads_of_safe (safe : Safe domain startTime template.tables world) :
    Loads domain startTime world := by
  refine safe.imp id (Or.imp id ?_)
  rintro ⟨clear, unfailing, _⟩
  refine ⟨clear, Or.inr ⟨unfailing.opened, ?_⟩⟩
  rw [unfailing.quiet]
  exact Mysql.not_refusedBetween_nil

theorem safe_of_succeeds (succeeds : Succeeds domain startTime template.tables world) :
    Safe domain startTime template.tables world := by
  rcases succeeds with ⟨present, _⟩ | ⟨⟨clear, _⟩, unfailing, copyable⟩
  · exact Or.inl present
  · exact Or.inr (Or.inr ⟨clear, unfailing, copyable⟩)

theorem preparePlanning_of_succeeds (whole : Whole domain template world)
    (succeeds : Succeeds domain startTime template.tables world) :
    ∃ after, preparePlanning domain startTime world = .ok true after := by
  by_cases present : (world.server.schema? (planningName domain startTime)).isSome
  · have goes : ¬ Mysql.StopsWithin 2 world.answers := by
      rcases succeeds with ⟨_, goes⟩ | ⟨_, unfailing, _⟩
      · exact goes
      · rw [unfailing.quiet]
        decide
    obtain ⟨connected, answered⟩ := Mysql.done_of_not_stopsWithin_two goes
    exact ⟨_, preparePlanning_of_found domain present
      ⟨connected, Mysql.exists_none _, answered, rfl⟩⟩
  · obtain ⟨⟨clear, identifier⟩, unfailing, copyable⟩ :=
      succeeds.resolve_left fun there => present there.1
    have absent : world.server.schema? (planningName domain startTime) = none := by
      simpa using present
    exact ⟨_, (answers_preparePlanning domain unfailing (whole startTime).source absent clear
      identifier).returns copyable⟩

end Preparing

/-! ## Runs -/

section Runs

variable {template : Schema}

/-- The start time may have been set before. -/
theorem Succeeds.assigned {startTime : Int} {rows : Tables} {world : World}
    (succeeds : Succeeds domain startTime rows world) (time : Int) :
    Succeeds domain startTime rows { world with planningStartTime := time } := by
  refine succeeds.imp id ?_
  rintro ⟨name, unfailing, copyable⟩
  exact ⟨name, ⟨unfailing.quiet, unfailing.opened, unfailing.free⟩, copyable⟩

theorem prepareFirstPlanning_of_returned {constructing after : World}
    (returned : setNextPlanning domain .planningStartTime constructing = .ok true after) :
    prepareFirstPlanning domain constructing = .ok () after :=
  tryCatch_of_ok (bind_of_ok returned)

theorem construct_of_returned {start constructing after : World}
    (begun : Mysql.initDomainStructure domain.name start = .ok true constructing)
    (returned : setNextPlanning domain .planningStartTime constructing = .ok true after) :
    construct domain true start = .ok () after := by
  rw [construct, if_neg (by decide), bind_of_ok begun]
  exact prepareFirstPlanning_of_returned returned

/-- What the constructor leaves once its preparation has gone through. -/
theorem prepared_of_construct {threadSafe : Bool} {start constructing first : World}
    (begun : Mysql.initDomainStructure domain.name start = .ok true constructing)
    (whole : Whole domain template constructing)
    (succeeds : Succeeds domain (nextPlanningStartTime domain constructing.clock)
      template.tables constructing)
    (constructed : construct domain threadSafe start = .ok () first) :
    Prepares domain .planningStartTime constructing ∧ Whole domain template first ∧
      Prepared domain first.planningStartTime template.tables first := by
  have set := planningStartTime_of_constructed begun constructed
  have assigned : Whole domain template { constructing with
      planningStartTime := nextPlanningStartTime domain constructing.clock } :=
    whole.congr rfl rfl
  have goes := succeeds.assigned (nextPlanningStartTime domain constructing.clock)
  obtain ⟨after, ran⟩ := preparePlanning_of_succeeds assigned goes
  have safe := safe_of_succeeds goes
  have left := whole_of_safe assigned safe
  have prepared := prepared_of_loads domain (assigned _) (loads_of_safe safe) ran
  rw [ran] at left
  have returned : setNextPlanning domain .planningStartTime constructing = .ok true after := ran
  have same : first = after := by
    rw [construct] at constructed
    split at constructed
    · cases constructed
    · rw [bind_of_ok begun] at constructed
      change prepareFirstPlanning domain constructing = _ at constructed
      rw [prepareFirstPlanning_of_returned returned] at constructed
      cases constructed
      rfl
  subst same
  rw [set]
  exact ⟨⟨first, returned⟩, left, prepared⟩

/-- A call of `switch_planning` that loads the skeleton leaves the planning of the start
time prepared, whether or not it goes through. -/
theorem prepared_of_calls {before entered after : World} (calls : Calls domain before entered after)
    (whole : Whole domain template before)
    (prepared : Prepared domain before.planningStartTime template.tables before)
    (loads : Loads domain (nextPlanningStartTime domain entered.clock) entered) :
    Prepared domain after.planningStartTime template.tables after := by
  obtain ⟨switches, same⟩ := calls
  have server : entered.server = before.server := by rw [same]
  have mutex : entered.updatesMutex = before.updatesMutex := by rw [same]
  have wholeEntered := whole.congr server mutex
  rcases switches.cases with ⟨switched, startTime, _⟩ | ⟨_, startTime, _⟩
  · rw [startTime]
    rw [switchPlanning, bind_of_ok (rfl : getNextPlanningStartTime domain entered = .ok _ entered)]
      at switched
    obtain ⟨accepted, between, ran, assigned⟩ := bind_eq_ok_iff.mp switched
    cases accepted with
    | false => cases assigned
    | true =>
        cases assigned
        exact (prepared_of_loads domain (wholeEntered _) loads ran).congr_schema rfl
  · rw [startTime]
    have kept := prepared_of_preparePlanning (nextPlanningStartTime domain entered.clock)
      (prepared.congr_schema (congrArg (fun server : Server => server.schema? _) server))
    obtain ⟨_, left⟩ := finalState_switchPlanning domain entered
    rw [switches.2.2, left]
    exact kept.congr_schema rfl

/-- A safe call of `switch_planning` leaves no planning half-built. -/
theorem whole_of_calls {before entered after : World} (calls : Calls domain before entered after)
    (safe : SafeCall domain template before entered) (whole : Whole domain template before) :
    Whole domain template after := by
  obtain ⟨switches, same⟩ := calls
  have entering : Whole domain template entered := by
    rw [same]
    exact whole.congr rfl rfl
  obtain ⟨_, left⟩ := finalState_switchPlanning domain entered
  rw [switches.2.2, left]
  exact (whole_of_safe entering safe).congr rfl rfl

theorem switches_of_run {first last : World} {entries : List World}
    (run : Run (Guarded (Calls domain) (SafeCall domain template)) first entries last) :
    Run (Switches domain) first entries last :=
  run.mono fun _ _ _ step => step.1.1

/-- The constructor, and any number of calls of `switch_planning` after it: where the
preparation in the constructor goes through, and no call but the last leaves a
planning half-built, the start time is always one that `set_next_planning` has prepared,
and its planning is complete, wherever the last call may fail. -/
theorem namesPrepared_of_run {threadSafe : Bool} {start constructing first last : World}
    {entries : List World}
    (begun : Mysql.initDomainStructure domain.name start = .ok true constructing)
    (whole : Whole domain template constructing)
    (succeeds : Succeeds domain (nextPlanningStartTime domain constructing.clock)
      template.tables constructing)
    (constructed : construct domain threadSafe start = .ok () first)
    (run : Run (Guarded (Calls domain) (SafeCall domain template)) first entries last) :
    NamesPrepared domain constructing template.tables entries last ∧
      ∀ entered after, Calls domain last entered after →
        Loads domain (nextPlanningStartTime domain entered.clock) entered →
          NamesPrepared domain constructing template.tables (entries ++ [entered]) after ∧
            (¬ Prepares domain .result entered →
              after.planningStartTime = last.planningStartTime) := by
  have set := planningStartTime_of_constructed begun constructed
  obtain ⟨prepares, wholeFirst, prepared⟩ :=
    prepared_of_construct begun whole succeeds constructed
  have kept : Whole domain template last ∧
      Prepared domain last.planningStartTime template.tables last := by
    apply run.keeps _ ⟨wholeFirst, prepared⟩
    rintro before entered after ⟨whole, prepared⟩ ⟨calls, safe⟩
    exact ⟨whole_of_calls calls safe whole,
      prepared_of_calls calls whole prepared (loads_of_safe safe)⟩
  constructor
  · exact ⟨(preparedIn_iff set (switches_of_run run)).mpr (Or.inl prepares), kept.2⟩
  · intro entered after calls loads
    have longer := (switches_of_run run).append (.next calls.1 (.stay after))
    refine ⟨⟨(preparedIn_iff set longer).mpr (Or.inl prepares),
      prepared_of_calls calls kept.1 kept.2 loads⟩, fun fails => ?_⟩
    rcases calls.1.prepares_cases with ⟨impossible, _⟩ | ⟨_, same⟩
    · exact absurd impossible fails
    · exact same

end Runs

end Preparation

/-! ## A domain with a template of two jobs -/

/-- The constructor of `dailyDomain` on the first day. -/
def constructingDaily : World :=
  twoJobsWorld ⟨"backup", "archive"⟩

def dailyTemplate : Schema :=
  twoJobs ⟨"backup", "archive"⟩

theorem whole_constructingDaily (answers : List Answer) :
    Whole dailyDomain dailyTemplate { constructingDaily with answers } := by
  intro startTime
  refine ⟨?_, rfl, Or.inl ?_⟩
  · exact { template_twoJobs (Or.inl rfl) with found := rfl }
  · exact Server.schema?_setSchema_ne (name_ne_planningName dailyDomain startTime).symm

/-- What the constructor leaves. -/
def constructedDaily : World :=
  ({ constructingDaily with planningStartTime := 86400 } : World).holding
    (planningName dailyDomain 86400) emptySkeleton (copiedRows dailyDomain dailyTemplate.tables)

theorem copyable_dailyTemplate : Copyable dailyDomain dailyTemplate.tables :=
  ((copyCondition_iff dailyDomain (template_twoJobs (Or.inl rfl)).keys).mp
    copyCondition_twoJobs).2.2.1

theorem succeeds_constructingDaily :
    Succeeds dailyDomain 86400 dailyTemplate.tables constructingDaily :=
  Or.inr ⟨⟨by decide, by decide⟩, unfailing_twoJobs _, copyable_dailyTemplate⟩

theorem construct_constructingDaily :
    construct dailyDomain true constructingDaily = .ok () constructedDaily := by
  have assigned : Whole dailyDomain dailyTemplate
      { constructingDaily with planningStartTime := 86400 } :=
    (whole_constructingDaily []).congr rfl rfl
  have unfailing : Unfailing { constructingDaily with planningStartTime := 86400 } :=
    ⟨rfl, rfl, rfl⟩
  have absent : constructingDaily.server.schema? (planningName dailyDomain 86400) = none := by
    decide
  have clear : ¬ constructingDaily.server.LikeClash (planningName dailyDomain 86400) := by decide
  have prepared := answers_preparePlanning dailyDomain unfailing (assigned 86400).source absent
    clear (by decide)
  have returned : setNextPlanning dailyDomain .planningStartTime constructingDaily =
      .ok true constructedDaily := by
    have next : nextPlanningStartTime dailyDomain constructingDaily.clock = 86400 := by decide
    rw [setNextPlanning_eq, next, Reference.assigned]
    exact prepared.returns copyable_dailyTemplate
  exact construct_of_returned rfl returned

/-- MySQL cannot be reached. -/
def refusedDaily : World :=
  { constructedDaily with answers := [.refused] }

def secondDay : World :=
  { constructedDaily with clock := 86400 }

/-- On the first day MySQL cannot be reached, and on the second one the next planning is
prepared. -/
theorem namesPrepared_of_run_daily :
    NamesPrepared dailyDomain constructingDaily dailyTemplate.tables [refusedDaily, secondDay]
      (finalState (switchPlanning dailyDomain secondDay)) := by
  have refused : Guarded (Calls dailyDomain) (SafeCall dailyDomain dailyTemplate)
      constructedDaily refusedDaily constructedDaily :=
    ⟨⟨⟨rfl, le_refl _, rfl⟩, rfl⟩, Or.inr (Or.inl (Or.inl ⟨0, by decide, by decide⟩))⟩
  have clear : ¬ secondDay.server.LikeClash (planningName dailyDomain 172800) := by decide
  have switched : Guarded (Calls dailyDomain) (SafeCall dailyDomain dailyTemplate)
      constructedDaily secondDay (finalState (switchPlanning dailyDomain secondDay)) :=
    ⟨⟨⟨rfl, by decide, rfl⟩, rfl⟩,
      Or.inr (Or.inr ⟨clear, ⟨rfl, rfl, rfl⟩, copyable_dailyTemplate⟩)⟩
  exact (namesPrepared_of_run rfl (whole_constructingDaily []) succeeds_constructingDaily
    construct_constructingDaily (.next refused (.next switched (.stay _)))).1

/-- The connection for the preparation is refused: the constructor returns, and there is
no planning of its start time. -/
theorem constructor_names_unprepared :
    ¬ ∀ (domain : Domain) (threadSafe : Bool) (template : Schema)
      (start constructing first : World),
      Mysql.initDomainStructure domain.name start = .ok true constructing →
        Whole domain template constructing → construct domain threadSafe start = .ok () first →
          NamesPrepared domain constructing template.tables [] first := by
  intro always
  have names := always dailyDomain true dailyTemplate
    { constructingDaily with answers := [.done, .done, .refused] }
    { constructingDaily with answers := [.refused] }
    { constructingDaily with planningStartTime := 86400 } rfl (whole_constructingDaily _) rfl
  rcases names.returned with ⟨⟨after, prepared⟩, _⟩ | ⟨entered, member, _⟩
  · cases prepared
  · cases member

end OpenWorkloadScheduler.Domain
