import OpenWorkloadScheduler.Scheduler.Moves

/-!
# A mutex that nobody gives back

A mutator that is disturbed inside its transaction leaves `updates_mutex` locked.  The
process goes on: the loop polls, switches and starts threads.  But no thread gets past
its first update any more, none reports its end, and the database stays as it is.
-/

namespace OpenWorkloadScheduler

open Rpc Store Foundations Domain

namespace Domain

variable (domain : Domain)

/-- No row has changed, and the mutex is as it was. -/
structure Rests (before after : World) : Prop where
  rows : before.server.SameTables after.server
  mutex : after.updatesMutex = before.updatesMutex

instance : IsPreorder World Rests where
  refl world := ⟨refl world.server, rfl⟩
  trans _ _ _ first second :=
    ⟨IsTrans.trans _ _ _ first.rows second.rows, second.mutex.trans first.mutex⟩

theorem rests_of_readOnly {before after : World} (readOnly : ReadOnly before after) :
    Rests before after := by
  refine ⟨?_, readOnly.frame.updatesMutex⟩
  rw [readOnly.server]
  exact refl before.server

theorem rests_standaloneExecute {statements : List Statement} {database : Option String}
    (structural : ∀ statement ∈ statements, statement.onRows = false) :
    Within Rests (Mysql.standaloneExecute statements database) :=
  fun world => ⟨Mysql.sameTables_standaloneExecute structural database world,
    (Mysql.within_standaloneExecute statements database world).updatesMutex⟩

theorem rests_createPlanning (name : String) : Within Rests (createPlanning name) := by
  have structural := fun statement member => (@structural_of_mem name statement member).1
  have loads : Within Rests (Mysql.loadFile name) := by
    refine within_bind within_get fun world => ?_
    split
    · exact rests_standaloneExecute fun statement member =>
        structural statement (List.mem_cons_of_mem _ member)
    · exact within_pure false
  have initializes : Within Rests (Mysql.initDomainStructure name) := by
    refine within_bind ((Mysql.within_queryOneRow _ _).mono fun _ _ => rests_of_readOnly)
      fun result => ?_
    cases result with
    | none => exact within_throw _
    | some result =>
        dsimp only
        split
        · exact within_pure true
        · refine within_bind (rests_standaloneExecute
            (List.forall_mem_singleton.mpr rfl)) fun created => ?_
          cases created with
          | true => exact loads
          | false => exact within_throw _
  refine within_bind ((Mysql.within_queryOneRow _ _).mono fun _ _ => rests_of_readOnly)
    fun result => ?_
  cases result with
  | none => exact within_pure _
  | some result =>
      refine within_bind ((within_lift _).mono fun _ _ => rests_of_readOnly) fun text => ?_
      split
      · exact within_pure _
      · refine within_bind initializes fun created => ?_
        cases created <;> exact within_pure _

/-! ## The mutators wait -/

section Held

variable {domain} {world : World}

theorem lockedExecute_of_held (held : ¬ MutexFree world) (statements : List Statement)
    (database : Option String) :
    lockedExecute statements database world = .error .blocked world := by
  rw [lockedExecute, bind_of_error (lock_of_locked held)]

theorem addNode_of_held (held : ¬ MutexFree world) (name : String) (node : TNode) :
    addNode domain name node world = .error .blocked world :=
  andThen_of_error (lockedExecute_of_held held _ _)

/-- `set_next_planning` creates an empty schema at most. -/
theorem preparePlanning_of_held (held : ¬ MutexFree world) (startTime : Int) :
    Rests world (finalState (preparePlanning domain startTime world)) := by
  have handled : Within Rests
      (catchProcessing (createPlanning (planningName domain startTime))) := by
    refine within_tryCatch (rests_createPlanning _) fun raised => ?_
    cases raised with
    | exProcessing message => exact within_pure _
    | _ => exact within_throw _
  have first := handled world
  rw [preparePlanning]
  cases ran : catchProcessing (createPlanning (planningName domain startTime)) world with
  | error raised after =>
      rw [ran] at first
      rw [bind_of_error ran]
      exact first
  | ok result after =>
      rw [ran] at first
      rw [bind_of_ok ran]
      cases result with
      | some result => exact first
      | none =>
          have second := rests_of_readOnly (within_getNodes domain domain.name after)
          dsimp only
          cases read : getNodes domain domain.name after with
          | error raised last =>
              rw [read] at second
              rw [bind_of_error read]
              exact IsTrans.trans _ _ _ first second
          | ok nodes last =>
              rw [read] at second
              rw [bind_of_ok read]
              have both : Rests world last := IsTrans.trans _ _ _ first second
              have stillHeld : ¬ MutexFree last := by
                rwa [MutexFree, both.mutex]
              cases nodes with
              | nil => exact both
              | cons node nodes =>
                  have blocked : addNodes domain (planningName domain startTime) (node :: nodes)
                      last = .error .blocked last :=
                    andThen_of_error (addNode_of_held stillHeld _ _)
                  rw [blocked]
                  exact both

end Held

end Domain

namespace Master

variable (domain : Domain) (settings : Settings)

/-- Nobody else gives the mutex back or changes a row. -/
def StaysHeld (before : Master) : Event → Prop
  | .outside world => ¬ MutexFree world ∧ before.world.server.SameTables world.server
  | _ => True

/-- The thread is about to call `popen` for the job. -/
def isAboutTo (planning name : String) (thread : JobThread) : Bool :=
  thread.phase = .running && isJob planning name thread.job

/-- The mutex is held, no row has changed, what has been executed was about to be, and
no thread with a node has reported the end of its command. -/
structure Frozen (before after : Master) : Prop where
  held : ¬ MutexFree after.world
  rows : before.world.server.SameTables after.world.server
  executed : ∀ planning name,
    after.executionsOf planning name + after.threads.countP (isAboutTo planning name) ≤
      before.executionsOf planning name + before.threads.countP (isAboutTo planning name)
  unreported : ∀ (index : Nat) (job : TJob) startTime stopTime returnCode, job.nodeName ≠ "" →
    before.threads[index]? = some ⟨job, .executed startTime stopTime returnCode⟩ →
      after.threads[index]? = some ⟨job, .executed startTime stopTime returnCode⟩

theorem Frozen.trans {before between after : Master} (first : Frozen before between)
    (second : Frozen between after) : Frozen before after where
  held := second.held
  rows := IsTrans.trans _ _ _ first.rows second.rows
  executed planning name := (second.executed planning name).trans (first.executed planning name)
  unreported index job startTime stopTime returnCode located found :=
    second.unreported index job startTime stopTime returnCode located
      (first.unreported index job startTime stopTime returnCode located found)

section Steps

variable {domain settings} {before after : Master} {event : Event} {index : Nat}

theorem frozen_of_loop {world : World} (rests : Rests before.world world)
    (held : ¬ MutexFree before.world) (point : LoopPoint) (jobs : List TJob) :
    Frozen before { before with world, point, jobs } where
  held := by rwa [MutexFree, rests.mutex]
  rows := rests.rows
  executed _ _ := Nat.le_refl _
  unreported _ _ _ _ _ _ found := found

/-- A thread moves on without a write. -/
theorem frozen_of_move (held : ¬ MutexFree before.world) {job : TJob} {phase next : Phase}
    {executions : List TJob} (found : before.threads[index]? = some ⟨job, phase⟩)
    (unreported : job.nodeName ≠ "" → ∀ startTime stopTime returnCode,
      phase ≠ .executed startTime stopTime returnCode)
    (executed : ∀ planning name, executions.countP (isJob planning name) +
        (isAboutTo planning name ⟨job, next⟩).toNat ≤
      before.executionsOf planning name + (isAboutTo planning name ⟨job, phase⟩).toNat) :
    Frozen before { before with
      executions, threads := before.threads.set index ⟨job, next⟩ } where
  held := held
  rows := refl before.world.server
  executed planning name := by
    have replaced := countP_set_add (isAboutTo planning name) ⟨job, next⟩ found
    have counted := executed planning name
    change executions.countP (isJob planning name) +
      (before.threads.set index ⟨job, next⟩).countP (isAboutTo planning name) ≤ _
    omega
  unreported other otherJob startTime stopTime returnCode located there := by
    rw [List.getElem?_set]
    split
    · rename_i same
      subst same
      rw [found] at there
      cases there
      exact absurd rfl (unreported located startTime stopTime returnCode)
    · exact there

/-- An update of a state waits for the mutex, or there is no node. -/
theorem updateState_of_held (held : ¬ MutexFree before.world) (name runningNode : String)
    (statement : Statement) :
    (if runningNode = "" then return false
      else lockedExecute [statement] (some name) : Action Bool) before.world =
        (if runningNode = "" then .ok false before.world
          else .error .blocked before.world) := by
  split
  · rfl
  · exact lockedExecute_of_held held _ _

theorem frozen_of_start (held : ¬ MutexFree before.world)
    (called : before.start index = some after) : Frozen before after := by
  rw [start, startWith] at called
  split at called
  · rename_i job found
    have moved : Frozen before (before.moveThread index job .finished) :=
      frozen_of_move held found (by simp) fun planning name => Nat.le_refl _
    split at called
    · cases called
      exact moved
    · have ran : updateStateOfJob job.domain (some job) .running before.world = _ :=
        updateState_of_held held job.domain job.nodeName (.updateJobState job.name .running)
      rw [Option.bind_some, ran] at called
      split at called <;> rename_i result
      · split at result <;> cases result
      · split at result <;> cases result
        cases called
        exact moved
      · cases called
      · rename_i raised waits
        split at result <;> cases result
        exact absurd rfl waits
  · cases called

theorem frozen_of_finish (held : ¬ MutexFree before.world)
    (called : before.finish index = some after) : Frozen before after := by
  rw [finish, finishWith] at called
  split at called
  · rename_i job startTime stopTime returnCode found
    have ran : updateStateTimesOfJob job.domain job (finalJobState returnCode) startTime stopTime
        before.world = _ :=
      updateState_of_held held job.domain job.nodeName
        (.updateJobStateTimes job.name (finalJobState returnCode) startTime stopTime)
    rw [Option.bind_some, ran] at called
    split at called <;> rename_i result
    · split at result
      · rename_i nowhere
        cases result
        cases called
        exact frozen_of_move held found (fun located => absurd nowhere located)
          fun planning name => Nat.le_refl _
      · cases result
    · cases called
    · rename_i raised waits
      split at result <;> cases result
      exact absurd rfl waits
  · cases called

theorem frozen_of_switch (held : ¬ MutexFree before.world)
    (called : before.switch domain = some after) : Frozen before after := by
  obtain ⟨world, point, rfl, _, rfl | rfl⟩ := switch_cases domain called
  · exact frozen_of_loop (refl before.world) held point before.jobs
  · refine frozen_of_loop ?_ held point before.jobs
    have prepared := @preparePlanning_of_held domain before.world held
      (nextPlanningStartTime domain before.world.clock)
    refine IsTrans.trans _ _ _ prepared ?_
    obtain ⟨_, same⟩ := finalState_switchPlanning domain before.world
    rw [same]
    exact ⟨refl _, rfl⟩

theorem frozen_of_step (held : ¬ MutexFree before.world)
    (stepped : Step domain settings before event after) (stays : StaysHeld before event) :
    Frozen before after := by
  have moves := moves_of_step stepped
  unfold Step perform at stepped
  split at stepped
  · cases stepped
  · cases moves with
    | @polled world point jobs top readOnly busy pushed =>
        exact frozen_of_loop (rests_of_readOnly readOnly) held point jobs
    | switched busy extend clock start => exact frozen_of_switch held stepped
    | @launched launched sublist =>
        refine ⟨held, refl before.world.server, fun planning name => ?_, ?_⟩
        · have none : (launched.map fun job => (⟨job, .created⟩ : JobThread)).countP
              (isAboutTo planning name) = 0 := by
            refine List.countP_eq_zero.mpr fun thread member => ?_
            obtain ⟨job, _, rfl⟩ := List.mem_map.mp member
            simp [isAboutTo]
          change before.executionsOf planning name + (before.threads ++
            launched.map fun job => (⟨job, .created⟩ : JobThread)).countP _ ≤ _
          rw [List.countP_append, none, Nat.add_zero]
        · intro index job startTime stopTime returnCode _ found
          obtain ⟨bound, _⟩ := List.getElem?_eq_some_iff.mp found
          exact (List.getElem?_append_left bound).trans found
    | started _ _ _ | refused _ _ _ | aborted _ _ _ => exact frozen_of_start held stepped
    | @opened index job found =>
        refine frozen_of_move held found (by simp) fun planning name => ?_
        rw [List.countP_append, List.countP_singleton, executionsOf]
        cases same : isJob planning name job <;> simp [isAboutTo, same]
    | notOpened found | closed found =>
        refine frozen_of_move held found (by simp) fun planning name => ?_
        exact Nat.add_le_add_left (Nat.zero_le _) _
    | reported _ _ _ | unreported _ _ _ => exact frozen_of_finish held stepped
    | ticked seconds =>
        refine frozen_of_loop ?_ held before.point before.jobs
        exact ⟨refl before.world.server, rfl⟩
    | interfered world =>
        exact ⟨stays.1, stays.2, fun _ _ => Nat.le_refl _, fun _ _ _ _ _ _ found => found⟩

end Steps

/-- Once the mutex is held and nobody gives it back, no step of the loop or of a thread
changes a row any more, no thread that has not written `RUNNING` executes its command,
and no thread reports the end of one, in whatever order the steps come. -/
theorem frozen_of_held {before last : Master} {events : List Event}
    (held : ¬ MutexFree before.world)
    (run : Run (Guarded (Step domain settings) StaysHeld) before events last) :
    Frozen before last := by
  have initial : Frozen before before :=
    ⟨held, refl before.world.server, fun _ _ => Nat.le_refl _, fun _ _ _ _ _ _ found => found⟩
  refine run.keeps ?_ initial
  rintro between event after frozen ⟨stepped, stays⟩
  exact frozen.trans (frozen_of_step frozen.held stepped stays)

/-! ## A report that is lost -/

def runningRow (name : String) : JobRow where
  jobName := name
  jobCmdLine := "tar"
  jobNodeName := "localhost"
  jobState := some .running

/-- Two jobs run, and a third one waits. -/
def busyDay : Schema :=
  { emptySkeleton with
    tables := {
      node := [⟨"localhost", 1⟩]
      job := [runningRow "archive", runningRow "copy",
        { runningRow "backup" with jobState := some .waiting }] } }

/-- The connection fails under the final update of `archive`; `copy` goes on. -/
def beforeLostReport : Master where
  world :=
    { server := Server.setSchema ⟨∅⟩ (planningName dailyDomain 0) busyDay
      clock := 100
      answers := [.failed "server has gone away"] }
  threads := ["archive", "copy"].map fun name =>
    { job := basicJob (planningName dailyDomain 0) (runningRow name)
      phase := if name = "archive" then .executed 90 100 0 else .executing 95 }

/-- The loop polls twice, and the command of `copy` ends. -/
def afterLostReport : List Event :=
  [.poll, .switch, .launch, .pclose 1 0, .tick 60, .poll, .switch, .launch]

/-- The exception of one thread keeps the other from its report, and the threads that the loop
starts for `backup` from its command. -/
theorem frozen_of_held_afterLostReport :
    ∃ lost last, Step dailyDomain thisNode beforeLostReport (.finish 0) lost ∧
      Run (Guarded (Step dailyDomain thisNode) StaysHeld) lost afterLostReport last ∧
      last.threads.map (fun thread => (thread.job.name, thread.phase)) =
        [("archive", .finished), ("copy", .executed 95 100 0), ("backup", .created),
          ("backup", .created)] ∧
      Frozen lost last := by
  have computed : ((beforeLostReport.perform dailyDomain thisNode (.finish 0)).bind fun lost =>
      (performAll (perform dailyDomain thisNode) lost afterLostReport).map fun last =>
        (lost.world.updatesMutex,
          last.threads.map fun thread => (thread.job.name, thread.phase))) =
      some (true, [("archive", .finished), ("copy", .executed 95 100 0), ("backup", .created),
        ("backup", .created)]) := by
    decide +kernel
  obtain ⟨lost, first, rest⟩ := Option.bind_eq_some_iff.mp computed
  obtain ⟨last, performed, same⟩ := Option.map_eq_some_iff.mp rest
  obtain ⟨locked, threads⟩ := Prod.mk.inj same
  have held : ¬ MutexFree lost.world := by simp [MutexFree, locked]
  have undisturbed : ∀ event ∈ afterLostReport, ∀ master, StaysHeld master event := by
    intro event member master
    cases event with
    | outside world => simp [afterLostReport] at member
    | _ => trivial
  have waited : Run (Guarded (Step dailyDomain thisNode) StaysHeld) lost afterLostReport last :=
    (run_of_performAll performed).guarded undisturbed
  exact ⟨lost, last, first, waited, threads, frozen_of_held dailyDomain thisNode held waited⟩

end Master

end OpenWorkloadScheduler
