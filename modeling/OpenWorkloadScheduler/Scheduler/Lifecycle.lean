import OpenWorkloadScheduler.Scheduler.Precedence
import OpenWorkloadScheduler.Scheduler.Tracking

/-!
# The life of a job

A job waits, runs, and succeeds or fails.  The database follows this course where
no poll comes between the start of a thread and its write of `RUNNING`: then one
thread at most is at work on a job, and the state in the database is that of the
thread.  What the database says of a job is then true of its command.
-/

namespace OpenWorkloadScheduler

open Rpc Store Foundations Domain

/-! ## The course of a state -/

/-- How far a job has come. -/
def stage : EJobState → Nat
  | .waiting => 0
  | .running => 1
  | .succeded => 2
  | .failed => 2

/-- The column is as it was, or the job has come further. -/
def StateAdvances (before after : Option EJobState) : Prop :=
  before = after ∨
    ∃ earlier later, before = some earlier ∧ after = some later ∧ stage earlier < stage later

instance : IsPreorder (Option EJobState) StateAdvances where
  refl _ := Or.inl rfl
  trans before between after first second := by
    rcases first with rfl | ⟨earlier, middle, rfl, rfl, risen⟩
    · exact second
    · rcases second with rfl | ⟨other, later, same, rfl, risenAgain⟩
      · exact Or.inr ⟨earlier, middle, rfl, rfl, risen⟩
      · cases same
        exact Or.inr ⟨earlier, later, rfl, rfl, risen.trans risenAgain⟩

/-- Every job of every schema is still there, and none has gone back. -/
def Store.Server.MovesOn (before after : Server) : Prop :=
  ∀ planning, ∀ row ∈ (before.tables planning).job,
    ∃ other ∈ (after.tables planning).job, other.jobName = row.jobName ∧
      StateAdvances row.jobState other.jobState

instance : IsPreorder Server Server.MovesOn where
  refl _ _ row member := ⟨row, member, rfl, Or.inl rfl⟩
  trans _ _ _ first second planning row member := by
    obtain ⟨middle, middleMember, middleName, risen⟩ := first planning row member
    obtain ⟨other, otherMember, otherName, risenAgain⟩ := second planning middle middleMember
    exact ⟨other, otherMember, otherName.trans middleName, IsTrans.trans _ _ _ risen risenAgain⟩

theorem Store.Server.movesOn_of_same {before after : Server} (same : after = before) :
    before.MovesOn after := by
  rw [same]
  exact refl before

theorem Store.Server.Extends.movesOn {before after : Server} (extend : before.Extends after) :
    before.MovesOn after :=
  fun planning row member => ⟨row, (extend.adds planning).mem member, rfl, Or.inl rfl⟩

theorem Store.Server.present_of_hasJob {server : Server} {planning name : String}
    (known : (server.tables planning).hasJob name) : server.Present planning := by
  by_contra absent
  have none : server.schema? planning = none := by simpa [Server.Present] using absent
  rw [Server.tables, none] at known
  cases known

namespace Master

variable (domain : Domain) (settings : Settings)

/-- The thread is at work on the job. -/
def isBusy (planning name : String) (thread : JobThread) : Bool :=
  thread.phase ≠ .finished && isJob planning name thread.job

/-- One thread at most is at work on a job, and the state of the job is that of the
thread. -/
structure Orderly (master : Master) : Prop where
  single : master.Single settings
  stated : ∀ thread ∈ master.threads, thread.phase ≠ .finished →
    ∀ row ∈ (master.world.server.tables thread.job.domain).job,
      row.jobName = thread.job.name → row.jobState = some thread.phase.rowState
  pushed : ∀ job ∈ master.jobs, isLaunched settings job = true →
    ∀ row ∈ (master.world.server.tables job.domain).job,
      row.jobName = job.name → row.jobState = some .waiting
  alone : ∀ planning name,
    (master.jobs.filter (isLaunched settings)).countP (isJob planning name) +
      master.threads.countP (isBusy planning name) ≤ 1

/-- The rows of the job have the states that they had. -/
def SameStates (planning name : String) (before after : Server) : Prop :=
  ∀ row ∈ (after.tables planning).job, row.jobName = name →
    ∃ old ∈ (before.tables planning).job, old.jobName = name ∧ old.jobState = row.jobState

theorem sameStates_of_tables {planning : String} {before after : Server}
    (same : after.tables planning = before.tables planning) (name : String) :
    SameStates planning name before after :=
  fun row member named => ⟨row, same ▸ member, named, rfl⟩

section Steps

variable {domain settings} {before after : Master} {event : Event}

theorem isBusy_iff {planning name : String} {thread : JobThread} :
    isBusy planning name thread = true ↔
      thread.phase ≠ .finished ∧ thread.job.domain = planning ∧ thread.job.name = name := by
  simp [isBusy, isJob]

/-- The database changes, but not the states of the jobs that the process has. -/
theorem Orderly.loop (orderly : before.Orderly settings) {world : World} {point : LoopPoint}
    (single : ({ before with world, point } : Master).Single settings)
    (kept : ∀ job, before.Holds job →
      SameStates job.domain job.name before.world.server world.server) :
    ({ before with world, point } : Master).Orderly settings where
  single := single
  stated thread member working row rowMember named := by
    obtain ⟨old, oldMember, oldName, state⟩ :=
      kept thread.job (Or.inr (Or.inl ⟨thread, member, rfl⟩)) row rowMember named
    rw [← state]
    exact orderly.stated thread member working old oldMember oldName
  pushed job member starts row rowMember named := by
    obtain ⟨old, oldMember, oldName, state⟩ := kept job (Or.inl member) row rowMember named
    rw [← state]
    exact orderly.pushed job member starts old oldMember oldName
  alone := orderly.alone

/-- The only thread that is at work on its job moves on. -/
theorem Orderly.move (orderly : before.Orderly settings) {index : Nat} {job : TJob}
    {phase next : Phase} {world : World} {executions : List TJob}
    (found : before.threads[index]? = some ⟨job, phase⟩) (working : phase ≠ .finished)
    (single : ({ before with
      world, executions, threads := before.threads.set index ⟨job, next⟩ } : Master).Single
        settings)
    (own : next ≠ .finished → ∀ row ∈ (world.server.tables job.domain).job,
      row.jobName = job.name → row.jobState = some next.rowState)
    (others : ∀ planning name, ¬ (job.domain = planning ∧ job.name = name) →
      SameStates planning name before.world.server world.server) :
    ({ before with
      world, executions, threads := before.threads.set index ⟨job, next⟩ } : Master).Orderly
        settings := by
  have busy : isBusy job.domain job.name ⟨job, phase⟩ = true := isBusy_iff.mpr ⟨working, rfl, rfl⟩
  have alone := orderly.alone job.domain job.name
  have counted : 0 < before.threads.countP (isBusy job.domain job.name) :=
    List.countP_pos_iff.mpr ⟨_, List.mem_of_getElem? found, busy⟩
  refine ⟨single, ?_, ?_, ?_⟩
  · intro thread member threadWorking row rowMember named
    rcases mem_set_of_countP_le_one (by omega) found busy member with rfl | ⟨earlier, idle⟩
    · exact own threadWorking row rowMember named
    · have apart : ¬ (job.domain = thread.job.domain ∧ job.name = thread.job.name) := by
        rintro ⟨sameDomain, sameName⟩
        rw [isBusy_iff.mpr ⟨threadWorking, sameDomain.symm, sameName.symm⟩] at idle
        cases idle
      obtain ⟨old, oldMember, oldName, state⟩ := others _ _ apart row rowMember named
      rw [← state]
      exact orderly.stated thread earlier threadWorking old oldMember oldName
  · intro other member starts row rowMember named
    have apart : ¬ (job.domain = other.domain ∧ job.name = other.name) := by
      rintro ⟨sameDomain, sameName⟩
      have launched : 0 < (before.jobs.filter (isLaunched settings)).countP
          (isJob job.domain job.name) :=
        List.countP_pos_iff.mpr ⟨other, List.mem_filter.mpr ⟨member, starts⟩,
          by simp [isJob, sameDomain, sameName]⟩
      omega
    obtain ⟨old, oldMember, oldName, state⟩ := others _ _ apart row rowMember named
    rw [← state]
    exact orderly.pushed other member starts old oldMember oldName
  · intro planning name
    have replaced := countP_set_add (isBusy planning name) ⟨job, next⟩ found
    have bounded := orderly.alone planning name
    have fewer : (isBusy planning name ⟨job, next⟩).toNat ≤
        (isBusy planning name ⟨job, phase⟩).toNat := by
      cases same : isJob planning name job
      · simp [isBusy, same]
      · simp [isBusy, same, working, Bool.toNat_le]
    change (before.jobs.filter (isLaunched settings)).countP (isJob planning name) +
      (before.threads.set index ⟨job, next⟩).countP (isBusy planning name) ≤ 1
    omega

/-- The thread moves on, and nobody writes. -/
theorem Orderly.still (orderly : before.Orderly settings) {index : Nat} {job : TJob}
    {phase next : Phase} {world : World} {executions : List TJob}
    (found : before.threads[index]? = some ⟨job, phase⟩) (working : phase ≠ .finished)
    (single : ({ before with
      world, executions, threads := before.threads.set index ⟨job, next⟩ } : Master).Single
        settings)
    (same : world.server = before.world.server)
    (state : next ≠ .finished → next.rowState = phase.rowState) :
    ({ before with
      world, executions, threads := before.threads.set index ⟨job, next⟩ } : Master).Orderly
        settings := by
  refine orderly.move found working single ?_ fun planning name _ =>
    sameStates_of_tables (by rw [same]) name
  intro unfinished row member named
  rw [same] at member
  rw [state unfinished]
  exact orderly.stated _ (List.mem_of_getElem? found) working row member named

/-- The thread writes the next state of its job. -/
theorem Orderly.write (orderly : before.Orderly settings) {index : Nat} {job : TJob}
    {phase next : Phase} {world : World} {update : JobRow → JobRow}
    (found : before.threads[index]? = some ⟨job, phase⟩) (working : phase ≠ .finished)
    (single : ({ before.moveThread index job next with world } : Master).Single settings)
    (updates : Updates job update before.world world)
    (named : ∀ row, (update row).jobName = row.jobName)
    (state : next ≠ .finished → ∀ row, (update row).jobState = some next.rowState)
    (risen : ∀ row, ∃ later, (update row).jobState = some later ∧
      stage phase.rowState < stage later) :
    ({ before.moveThread index job next with world } : Master).Orderly settings ∧
      before.world.server.MovesOn world.server := by
  have known := orderly.stated _ (List.mem_of_getElem? found) working
  obtain ⟨⟨schema, tables, old, changed, new⟩, beside⟩ := updates
  cases changed
  have oldTables := Server.tables_of_schema? old
  have newTables := Server.tables_of_schema? new
  dsimp only at known newTables
  rw [oldTables] at known
  constructor
  · refine orderly.move found working single ?_ ?_
    · intro unfinished row member rowName
      rw [newTables] at member
      obtain ⟨other, otherMember, otherName, equality⟩ := (Tables.mem_updateJob named).mp member
      rw [if_pos rowName] at equality
      rw [equality, state unfinished]
    · intro planning name apart
      by_cases same : planning = job.domain
      · subst same
        intro row member rowName
        have different : row.jobName ≠ job.name := fun sameName =>
          apart ⟨rfl, sameName.symm.trans rowName⟩
        rw [newTables] at member
        rw [oldTables]
        exact ⟨row, (Tables.mem_updateJob_of_ne named different).mp member, rowName, rfl⟩
      · exact sameStates_of_tables (beside.tables same) name
  · intro planning row member
    by_cases same : planning = job.domain
    · subst same
      rw [oldTables] at member
      rw [newTables]
      by_cases rowName : row.jobName = job.name
      · obtain ⟨later, written, rises⟩ := risen row
        refine ⟨update row, (Tables.mem_updateJob named).mpr ⟨row, member, (named row).symm, ?_⟩,
          named row, Or.inr ⟨_, later, known row member rowName, written, rises⟩⟩
        rw [if_pos ((named row).trans rowName)]
      · exact ⟨row, (Tables.mem_updateJob_of_ne named rowName).mpr member, rfl, Or.inl rfl⟩
    · rw [← beside.tables same] at member
      exact ⟨row, member, rfl, Or.inl rfl⟩

/-! ## The steps of the loop -/

/-- A timely poll that finds a job waiting finds no thread at work on it. -/
theorem countP_isBusy_of_waiting (orderly : before.Orderly settings)
    (timely : before.Timely domain .poll) {row : JobRow}
    (ready : row ∈ (before.world.server.tables
      (planningName domain before.world.planningStartTime)).getReadyJob before.world.now)
    (waiting : row.jobState = some .waiting) :
    before.threads.countP
      (isBusy (planningName domain before.world.planningStartTime) row.jobName) = 0 := by
  refine List.countP_eq_zero.mpr fun thread member busy => ?_
  obtain ⟨working, sameDomain, sameName⟩ := isBusy_iff.mp busy
  have rowMember := (Tables.mem_getReadyJob.mp ready).1
  rw [← sameDomain] at rowMember ready
  have state := orderly.stated thread member working row rowMember sameName.symm
  cases phase : thread.phase with
  | created => exact timely thread member phase sameDomain row ready sameName.symm waiting
  | finished => exact working phase
  | running | executing _ | executed _ _ _ =>
      rw [phase, waiting] at state
      cases state

theorem orderly_of_poll (orderly : before.Orderly settings)
    (timely : before.Timely domain .poll) {world : World} {point : LoopPoint}
    {jobs : List TJob} (top : before.point = .top) (readOnly : ReadOnly before.world world)
    (pushed : jobs = before.jobs ∨ jobs = currentOffer domain (askedNode settings) before.world)
    (single : ({ before with world, point, jobs } : Master).Single settings) :
    ({ before with world, point, jobs } : Master).Orderly settings := by
  have server : world.server = before.world.server := readOnly.server
  have idle := orderly.single.idle top
  have offer : ∀ job ∈ jobs, isLaunched settings job = true →
      ∃ row ∈ (before.world.server.tables
          (planningName domain before.world.planningStartTime)).getReadyJob before.world.now,
        row.jobState = some .waiting ∧
          job = basicJob (planningName domain before.world.planningStartTime) row := by
    intro job member starts
    rcases pushed with rfl | rfl
    · rw [idle] at member
      cases member
    · obtain ⟨row, ready, acceptable, rfl⟩ := mem_offeredJobs member
      simp only [isLaunched, Bool.and_eq_true, decide_eq_true_eq] at starts
      exact ⟨row, ready, waiting_of_basicJob acceptable starts.1, rfl⟩
  refine ⟨single, ?_, ?_, ?_⟩
  · intro thread member working row rowMember named
    rw [server] at rowMember
    exact orderly.stated thread member working row rowMember named
  · intro job member starts row rowMember named
    obtain ⟨found, ready, waiting, rfl⟩ := offer job member starts
    rw [server] at rowMember
    have same : row = found := List.inj_on_of_nodup_map (orderly.single.key _) rowMember
      (Tables.mem_getReadyJob.mp ready).1 named
    rw [same]
    exact waiting
  · intro planning name
    have threads := orderly.alone planning name
    have once := single.once planning name
    rw [attempts] at once
    have fewer : (jobs.filter (isLaunched settings)).countP (isJob planning name) ≤ 1 :=
      Nat.le_of_add_right_le (Nat.le_of_add_right_le once)
    have others : (jobs.filter (isLaunched settings)).countP (isJob planning name) ≠ 0 →
        before.threads.countP (isBusy planning name) = 0 := by
      intro some
      obtain ⟨job, member, same⟩ := List.countP_pos_iff.mp (Nat.pos_of_ne_zero some)
      obtain ⟨jobMember, starts⟩ := List.mem_filter.mp member
      obtain ⟨row, ready, waiting, rfl⟩ := offer job jobMember starts
      simp only [isJob, Bool.and_eq_true, decide_eq_true_eq] at same
      obtain ⟨rfl, rfl⟩ := same
      exact countP_isBusy_of_waiting orderly timely ready waiting
    change (jobs.filter (isLaunched settings)).countP (isJob planning name) +
      before.threads.countP (isBusy planning name) ≤ 1
    omega

theorem orderly_of_launch (orderly : before.Orderly settings) {launched : List TJob}
    (sublist : launched.Sublist (before.jobs.filter (isLaunched settings)))
    (single : ({ before with
      point := .top
      jobs := []
      threads := before.threads ++ launched.map fun job => ⟨job, .created⟩ } : Master).Single
        settings) :
    ({ before with
      point := .top
      jobs := []
      threads := before.threads ++ launched.map fun job => ⟨job, .created⟩ } : Master).Orderly
        settings := by
  refine ⟨single, ?_, fun job member => absurd member List.not_mem_nil, ?_⟩
  · intro thread member working row rowMember named
    rcases List.mem_append.mp member with member | member
    · exact orderly.stated thread member working row rowMember named
    · obtain ⟨job, jobMember, rfl⟩ := List.mem_map.mp member
      obtain ⟨pushed, starts⟩ := List.mem_filter.mp (sublist.subset jobMember)
      exact orderly.pushed job pushed starts row rowMember named
  · intro planning name
    have bounded := orderly.alone planning name
    have counted : (launched.map fun job => (⟨job, .created⟩ : JobThread)).countP
        (isBusy planning name) = launched.countP (isJob planning name) := by
      rw [List.countP_map]
      rfl
    have fewer := sublist.countP_le (p := isJob planning name)
    change
      0 + (before.threads ++ launched.map fun job => (⟨job, .created⟩ : JobThread)).countP _ ≤ 1
    rw [List.countP_append, counted]
    omega

/-- Whoever leaves the states alone leaves those of the jobs that are there. -/
theorem sameStates_of_leavesStates {before after : Server} (leaves : LeavesStates before after)
    {planning name : String} (known : (before.tables planning).hasJob name) :
    SameStates planning name before after := by
  intro row member named
  obtain ⟨old, oldMember, oldName⟩ := List.mem_map.mp known
  obtain ⟨other, otherMember, sameName, sameState⟩ := leaves.kept planning old oldMember
  have same : other = row := List.inj_on_of_nodup_map (leaves.key planning) otherMember member
    (sameName.trans (oldName.trans named.symm))
  exact ⟨old, oldMember, oldName, by rw [← sameState, same]⟩

theorem LeavesStates.movesOn {before after : Server} (leaves : LeavesStates before after) :
    before.MovesOn after := by
  intro planning row member
  obtain ⟨other, otherMember, sameName, sameState⟩ := leaves.kept planning row member
  exact ⟨other, otherMember, sameName, Or.inl sameState.symm⟩

/-- A timely step keeps the order, and no job goes back. -/
theorem orderly_of_step (orderly : before.Orderly settings)
    (stepped : Step domain settings before event after) (timely : before.Timely domain event) :
    after.Orderly settings ∧ before.world.server.MovesOn after.world.server := by
  have single := single_of_step domain orderly.single stepped timely
  have moves := moves_of_step stepped
  cases moves with
  | polled top readOnly busy pushed =>
      exact ⟨orderly_of_poll orderly timely top readOnly (pushed.imp_right And.right) single,
        Server.movesOn_of_same readOnly.server⟩
  | switched busy extend clock start =>
      refine ⟨orderly.loop single fun job holds => ?_, extend.movesOn⟩
      exact sameStates_of_tables
        (extend.same _ (Server.present_of_hasJob (orderly.single.known job holds))) job.name
  | launched sublist =>
      exact ⟨orderly_of_launch orderly sublist single, refl before.world.server⟩
  | started found times updates =>
      exact orderly.write found (by simp) single updates (fun _ => rfl) (fun _ _ => rfl)
        fun _ => ⟨_, rfl, by decide⟩
  | refused found times same | unreported found times same =>
      exact ⟨orderly.still found (by simp) single same (by simp), Server.movesOn_of_same same⟩
  | aborted found times same =>
      refine ⟨orderly.loop single fun job _ => ?_, Server.movesOn_of_same same⟩
      exact sameStates_of_tables (by rw [same]) job.name
  | opened found | notOpened found | closed found =>
      exact ⟨orderly.still found (by simp) single rfl fun _ => rfl, refl before.world.server⟩
  | @reported index job startTime stopTime returnCode world found times updates =>
      refine orderly.write found (by simp) single updates (fun _ => rfl) (by simp) fun row =>
        ⟨finalJobState returnCode, rfl, ?_⟩
      unfold finalJobState
      split <;> exact Nat.lt_succ_self 1
  | ticked seconds =>
      exact ⟨orderly.loop single fun job _ => sameStates_of_tables rfl job.name,
        refl before.world.server⟩
  | interfered world =>
      refine ⟨orderly.loop single fun job holds => ?_, LeavesStates.movesOn timely⟩
      exact sameStates_of_leavesStates timely (orderly.single.known job holds)

end Steps

/-! ## Runs -/

section Runs

variable {domain settings} {world : World} {between last : Master} {events : List Event}

theorem orderly_initial
    (key : ∀ planning, ((world.server.tables planning).job.map JobRow.jobName).Nodup) :
    ({ world } : Master).Orderly settings := by
  refine ⟨⟨key, fun _ => rfl, ?_, ?_, fun _ _ => Nat.zero_le 1⟩, ?_, ?_,
    fun _ _ => Nat.zero_le 1⟩
  · rintro job (member | ⟨thread, member, _⟩ | member) <;> exact absurd member List.not_mem_nil
  · rintro job (⟨thread, member, _⟩ | member) <;> exact absurd member List.not_mem_nil
  · exact fun thread member => absurd member List.not_mem_nil
  · exact fun job member => absurd member List.not_mem_nil

theorem orderly_of_run (orderly : between.Orderly settings)
    (run : Run (Guarded (Step domain settings) (Timely domain)) between events last) :
    last.Orderly settings :=
  run.keeps (fun _ _ _ inOrder stepped => (orderly_of_step inOrder stepped.1 stepped.2).1) orderly

theorem movesOn_of_run (orderly : between.Orderly settings)
    (run : Run (Guarded (Step domain settings) (Timely domain)) between events last) :
    between.world.server.MovesOn last.world.server := by
  have stepped : ∀ before event after, (before.Orderly settings ∧
      between.world.server.MovesOn before.world.server) →
        Guarded (Step domain settings) (Timely domain) before event after →
          after.Orderly settings ∧ between.world.server.MovesOn after.world.server := by
    rintro before event after ⟨inOrder, moved⟩ ⟨stepped, timely⟩
    obtain ⟨next, moves⟩ := orderly_of_step inOrder stepped timely
    exact ⟨next, IsTrans.trans _ _ _ moved moves⟩
  exact (run.keeps stepped ⟨orderly, refl between.world.server⟩).2

end Runs

/-- Between any two points of a run on plain texts in which no poll comes between the start
of a thread and its write of `RUNNING`, no job disappears and none goes back in its state: it
waits, then it runs, then it has succeeded or failed, and it stays so. -/
theorem states_advance_of_run {world : World} {between last : Master}
    {events others : List Event}
    (key : ∀ planning, ((world.server.tables planning).job.map JobRow.jobName).Nodup)
    (run : Run (Guarded (PlainStep domain settings) (Timely domain)) { world } events between)
    (rest : Run (Guarded (PlainStep domain settings) (Timely domain)) between others last) :
    between.world.server.MovesOn last.world.server :=
  movesOn_of_run (orderly_of_run (orderly_initial key) (run_of_plainGuarded run))
    (run_of_plainGuarded rest)

/-! ## What a state says -/

/-- What the state of a job that has waited says of its command. -/
def Tells (world : World) (events : List Event) (last : Master) (planning name : String) :
    Option EJobState → Prop
  | none => False
  | some .waiting => last.executionsOf planning name = 0
  | some .running => last.executionsOf planning name ≤ 1
  | some .succeded => last.executionsOf planning name = 1 ∧
      CommandEnded domain settings world events planning name .succeded
  | some .failed => last.executionsOf planning name ≤ 1 ∧
      CommandEnded domain settings world events planning name .failed

section Executions

variable {domain settings} {world : World} {before after last : Master} {events : List Event}
  {event : Event} {planning name : String}

/-- The command of a thread that is before `pclose` counts as executed. -/
def CountsExecuting (master : Master) : Prop :=
  ∀ thread ∈ master.threads, ∀ startTime, thread.phase = .executing startTime →
    thread.job ∈ master.executions

theorem CountsExecuting.move (counts : before.CountsExecuting) {index : Nat} {job : TJob}
    {next : Phase} {other : World} {executions : List TJob}
    (grows : before.executions ⊆ executions)
    (own : ∀ startTime, next = .executing startTime → job ∈ executions) :
    CountsExecuting { before with
      world := other, executions, threads := before.threads.set index ⟨job, next⟩ } := by
  intro thread member startTime phase
  rcases List.mem_or_eq_of_mem_set member with member | rfl
  · exact grows (counts thread member startTime phase)
  · exact own startTime phase

theorem countsExecuting_of_step (counts : before.CountsExecuting)
    (stepped : Step domain settings before event after) :
    after.CountsExecuting ∧ before.executions <+: after.executions := by
  have moves := moves_of_step stepped
  cases moves with
  | polled _ _ _ _ | switched _ _ _ _ | aborted _ _ _ | ticked _ | interfered _ =>
      exact ⟨counts, List.prefix_rfl⟩
  | launched sublist =>
      refine ⟨fun thread member startTime phase => ?_, List.prefix_rfl⟩
      rcases List.mem_append.mp member with member | member
      · exact counts thread member startTime phase
      · obtain ⟨job, _, rfl⟩ := List.mem_map.mp member
        cases phase
  | started _ _ _ | refused _ _ _ | notOpened _ | closed _ | reported _ _ _
  | unreported _ _ _ =>
      exact ⟨counts.move (List.Subset.refl _) (by simp), List.prefix_rfl⟩
  | opened found =>
      refine ⟨counts.move (List.subset_append_left _ _) fun _ _ => ?_, List.prefix_append _ _⟩
      exact List.mem_append_right _ (List.mem_singleton_self _)

theorem countsExecuting_of_run (counts : before.CountsExecuting)
    (run : Run (Step domain settings) before events after) :
    after.CountsExecuting ∧ before.executions <+: after.executions := by
  induction run with
  | stay state => exact ⟨counts, List.prefix_rfl⟩
  | next stepped _ inductionHypothesis =>
      obtain ⟨next, grows⟩ := countsExecuting_of_step counts stepped
      obtain ⟨later, growsMore⟩ := inductionHypothesis next
      exact ⟨later, grows.trans growsMore⟩

/-- A command that has ended with the status 0 has been executed. -/
theorem executed_of_commandEnded (run : Run (Step domain settings) { world } events last)
    (ended : CommandEnded domain settings world events planning name .succeded) :
    0 < last.executionsOf planning name := by
  obtain ⟨earlier, event, later, between, job, returnCode, rfl, first, ends, rfl, rfl, state⟩ :=
    ended
  obtain ⟨other, next, firstAgain, stepped, rest⟩ := run.split
  obtain rfl := unique_of_run first firstAgain
  have initial : CountsExecuting { world } := fun thread member =>
    absurd member List.not_mem_nil
  have counts := (countsExecuting_of_run initial first).1
  have grows := (countsExecuting_of_run counts (.next stepped rest)).2
  have executed : job ∈ between.executions := by
    cases ends with
    | closed found => exact counts _ (List.mem_of_getElem? found) _ rfl
    | notOpened found => cases state
  exact List.countP_pos_iff.mpr ⟨job, grows.subset executed, by simp [isJob]⟩

/-- Where nobody else writes a state, a job that has come to its end has been ended by
its thread. -/
theorem commandEnded_of_hasState
    (key : ∀ planning, ((world.server.tables planning).job.map JobRow.jobName).Nodup)
    (waits : (world.server.tables planning).Waits name)
    (run : Run (Guarded (Step domain settings) (Timely domain)) { world } events last)
    {state : EJobState} (left : state ≠ .waiting) (ends : state ≠ .running)
    (has : HasState last.world planning name state) :
    CommandEnded domain settings world events planning name state := by
  have accounts := accounts_of_run domain settings world (run.mono fun _ _ _ guarded => guarded.1)
  obtain ⟨row, member, named, waiting⟩ := waits
  rcases accounts.stated planning name state left ends has with started | ended | reported
  · obtain ⟨other, otherMember, otherName, otherState⟩ := started
    have same : other = row :=
      List.inj_on_of_nodup_map (key planning) otherMember member (otherName.trans named.symm)
    rw [same, waiting] at otherState
    exact absurd (Option.some.inj otherState).symm left
  · exact ended
  · obtain ⟨earlier, other, later, between, rfl, first, without, written⟩ := reported
    obtain ⟨again, next, firstAgain, ⟨_, leaves⟩, _⟩ := run.split
    obtain rfl := unique_of_run first (firstAgain.mono fun _ _ _ guarded => guarded.1)
    obtain ⟨now, nowMember, nowName, _⟩ := movesOn_of_run (orderly_initial key) firstAgain
      planning row member
    have known : (between.world.server.tables planning).hasJob name := by
      rw [← named, ← nowName]
      exact List.mem_map_of_mem nowMember
    obtain ⟨rowWritten, writtenMember, writtenName, writtenState⟩ := written
    obtain ⟨old, oldMember, oldName, oldState⟩ :=
      sameStates_of_leavesStates leaves known rowWritten writtenMember writtenName
    exact absurd ⟨old, oldMember, oldName, oldState.trans writtenState⟩ without

end Executions

/-- In every run on plain texts in which no poll comes between the start of a thread and its
write of `RUNNING`, the database tells the truth about each job that has waited at the start:
a job that waits has not been executed; one that has succeeded has been executed once, and
its command has ended with the status 0; one that has failed has been executed once at
most, and its command has ended otherwise. -/
theorem states_tell_executions {world : World} {last : Master} {events : List Event}
    {planning name : String} {row : JobRow}
    (key : ∀ planning, ((world.server.tables planning).job.map JobRow.jobName).Nodup)
    (waits : (world.server.tables planning).Waits name)
    (plainRun : Run (Guarded (PlainStep domain settings) (Timely domain)) { world } events last)
    (member : row ∈ (last.world.server.tables planning).job) (named : row.jobName = name) :
    Tells domain settings world events last planning name row.jobState := by
  have run := run_of_plainGuarded plainRun
  have orderly := orderly_of_run (orderly_initial key) run
  have bounded := orderly.single.once planning name
  rw [attempts] at bounded
  have once : last.executionsOf planning name ≤ 1 := by omega
  have comesTo : ∀ state, row.jobState = some state → HasState last.world planning name state :=
    fun state written => ⟨row, member, named, written⟩
  obtain ⟨first, firstMember, firstName, waiting⟩ := waits
  obtain ⟨other, otherMember, otherName, advances⟩ :=
    movesOn_of_run (orderly_initial key) run planning first firstMember
  have same : other = row := List.inj_on_of_nodup_map (orderly.single.key planning) otherMember
    member (otherName.trans (firstName.trans named.symm))
  rw [same] at advances
  have ended := fun state left ends written => commandEnded_of_hasState key
    ⟨first, firstMember, firstName, waiting⟩ run left ends (comesTo state written)
  cases written : row.jobState with
  | none =>
      rw [written, waiting] at advances
      rcases advances with impossible | ⟨_, _, _, impossible, _⟩ <;> cases impossible
  | some state =>
      cases state with
      | waiting =>
          refine List.countP_eq_zero.mpr fun job executed isNamed => ?_
          simp only [isJob, Bool.and_eq_true, decide_eq_true_eq] at isNamed
          obtain ⟨rfl, rfl⟩ := isNamed
          exact orderly.single.settled job (Or.inr executed) ⟨row, member, named, written⟩
      | running => exact once
      | succeded =>
          have success := ended .succeded (by decide) (by decide) written
          have executed := executed_of_commandEnded
            (run.mono fun _ _ _ guarded => guarded.1) success
          exact ⟨by omega, success⟩
      | failed => exact ⟨once, ended .failed (by decide) (by decide) written⟩

/-! ## The archive, from its start to its end -/

def archiveDone : JobRow :=
  writeEnd 100 100 0 { archiveRow with jobState := some .running }

theorem timely_without_poll {events : List Event} (without : ∀ event ∈ events,
    event.thread?.isSome = true ∨ event = .switch ∨ event = .launch) :
    ∀ event ∈ events, ∀ master, Timely dailyDomain master event := by
  intro event member master
  rcases without event member with acting | rfl | rfl
  · cases event with
    | poll | outside _ => cases acting
    | _ => trivial
  · trivial
  · trivial

theorem polls_oneJob : Run (Guarded (PlainStep dailyDomain thisNode) (Timely dailyDomain))
    { world := oneJobWorld } [.poll, .switch, .launch]
    { world := oneJobWorld, threads := [⟨archive, .created⟩] } := by
  have meant := run_of_performAll (@iterate_oneJob { world := oneJobWorld } rfl
    serving_oneJob (by decide) (by decide))
  cases plainSteps_of_run (by decide +kernel) meant with
  | next polled rest =>
      have idle : Timely dailyDomain { world := oneJobWorld } .poll :=
        fun thread member => absurd member List.not_mem_nil
      exact .next ⟨polled, idle⟩ (rest.guarded (timely_without_poll (by simp)))

/-- The archive is executed and ends well. -/
theorem completes_oneJob :
    ∃ last, Run (Guarded (PlainStep dailyDomain thisNode) (Timely dailyDomain))
        { world := oneJobWorld, threads := [⟨archive, .created⟩] }
        [.start 0, .popen 0 true, .pclose 0 0, .finish 0] last ∧ last.point = .top ∧
      PlainTexts thisNode last ∧
      archiveDone ∈ (last.world.server.tables (planningName dailyDomain 0)).job := by
  have ended : (performAll (performPlain dailyDomain thisNode)
      { world := oneJobWorld, threads := [⟨archive, .created⟩] }
      [.start 0, .popen 0 true, .pclose 0 0, .finish 0]).map (fun last =>
        (last.point, decide (PlainTexts thisNode last),
          (last.world.server.tables (planningName dailyDomain 0)).job)) =
      some (.top, true, [archiveDone]) := by
    decide +kernel
  obtain ⟨last, performed, same⟩ := Option.map_eq_some_iff.mp ended
  obtain ⟨top, texts, rows⟩ : last.point = .top ∧ decide (PlainTexts thisNode last) = true ∧
      (last.world.server.tables (planningName dailyDomain 0)).job = [archiveDone] := by
    simpa only [Prod.mk.injEq] using same
  refine ⟨last, (run_of_performAll performed).guarded
    (timely_without_poll (by simp [Event.thread?])), top, of_decide_eq_true texts, ?_⟩
  rw [rows]
  exact List.mem_singleton_self _

theorem states_advance_of_run_oneJob :
    ∃ between last : Master, between.world.server.MovesOn last.world.server ∧
      archiveDone ∈ (last.world.server.tables (planningName dailyDomain 0)).job := by
  obtain ⟨last, run, _, _, done⟩ := completes_oneJob
  exact ⟨_, last, states_advance_of_run dailyDomain thisNode key_oneJobWorld polls_oneJob run,
    done⟩

theorem states_tell_executions_oneJob :
    ∃ events last, archiveDone ∈ (last.world.server.tables (planningName dailyDomain 0)).job ∧
      Tells dailyDomain thisNode oneJobWorld events last (planningName dailyDomain 0) "archive"
        archiveDone.jobState := by
  obtain ⟨last, run, _, _, done⟩ := completes_oneJob
  have waits : (oneJobWorld.server.tables (planningName dailyDomain 0)).Waits "archive" := by
    rw [oneJobWorld, Server.tables_setSchema_self]
    decide
  exact ⟨_, last, done, states_tell_executions dailyDomain thisNode key_oneJobWorld waits
    (polls_oneJob.append run) done rfl⟩

end Master

end OpenWorkloadScheduler
