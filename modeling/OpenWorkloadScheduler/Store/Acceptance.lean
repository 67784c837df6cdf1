import OpenWorkloadScheduler.Foundations.Calming
import OpenWorkloadScheduler.Store.Loading

/-!
# What accepted calls have met

A method of `Mysql` that returns a result or `true` has met no failure on its
way: it does the same when no call of the MySQL library fails.  And the answers
of the library tell where a transaction has been refused.
-/

namespace OpenWorkloadScheduler.Store

open Rpc Foundations

/-- The same state with a MySQL library that does not fail. -/
def World.calmed (world : World) : World :=
  { world with answers := [] }

theorem World.quiet_calmed (world : World) : Mysql.Quiet world.calmed :=
  rfl

namespace Mysql

/-! ## Results are those of a library that does not fail -/

theorem survives_nextAnswer : Survives World.calmed (· = .done) nextAnswer := by
  rintro before _ after ⟨⟩ done
  change EStateM.Result.ok Answer.done before.calmed = .ok before.answer before.answered.calmed
  rw [done]
  rfl

theorem survives_bind_nextAnswer {Alpha : Type} {good : Alpha → Prop}
    {next : Answer → Action Alpha} (done : Survives World.calmed good (next .done))
    (otherwise : ∀ answer, answer ≠ .done → Hopeless good (next answer)) :
    Survives World.calmed good (nextAnswer >>= next) := by
  refine survives_bind survives_nextAnswer ?_ otherwise
  rintro _ rfl
  exact done

theorem survives_init (database : Option String) :
    Survives World.calmed (fun _ => True) (init database) := by
  refine survives_bind_nextAnswer (survives_get_bind (fun _ => rfl) fun world => ?_) ?_
  · cases database with
    | none => exact survives_pure ()
    | some name => exact survives_ite (survives_pure ()) (survives_throw _)
  · intro answer failure
    cases answer with
    | done => exact absurd rfl failure
    | refused => exact hopeless_throw _ _
    | failed error => exact hopeless_throw _ _

theorem survives_fetch (query : Query) (database : Option String) :
    Survives World.calmed (·.isSome = true) (fetch query database) := by
  refine survives_bind_nextAnswer (survives_get_bind (fun _ => rfl) fun world => ?_) ?_
  · cases query.run database world.server world.now <;> exact survives_pure _
  · intro answer failure
    cases answer with
    | done => exact absurd rfl failure
    | refused => exact hopeless_pure (by simp)
    | failed error => exact hopeless_pure (by simp)

theorem survives_queryOneRow (query : Query) (database : Option String) :
    Survives World.calmed (·.isSome = true) (queryOneRow query database) := by
  refine survives_bind_of_any (survives_init database) fun _ => ?_
  exact survives_bind_of_some (survives_fetch query database) (fun rows => survives_pure _)
    (hopeless_pure (by simp))

theorem survives_queryFullResult (query : Query) (database : Option String) :
    Survives World.calmed (·.isSome = true) (queryFullResult query database) := by
  refine survives_bind_of_any (survives_init database) fun _ => ?_
  exact survives_bind_of_some (survives_fetch query database) (fun rows => survives_pure _)
    (hopeless_pure (by simp))

theorem survives_setServer (server : Server) :
    Survives World.calmed (fun _ => True)
      (modify fun world => { world with server } : Action Unit) := by
  rintro before _ after ⟨⟩ _
  rfl

theorem survives_atomicExecute (statement : Statement) (session : Session) :
    Survives World.calmed (·.isSome = true) (atomicExecute statement session) := by
  refine survives_ite (survives_pure none) (survives_bind_nextAnswer ?_ ?_)
  · dsimp only
    cases statement.run session with
    | error error => exact survives_throw _
    | ok session =>
        dsimp only
        split
        · exact survives_bind_of_any (survives_setServer _) fun _ => survives_pure _
        · exact survives_pure _
  · intro answer failure
    cases answer with
    | done => exact absurd rfl failure
    | refused => exact hopeless_pure (by simp)
    | failed error => exact hopeless_throw _ _

theorem survives_executeAll (statements : List Statement) (session : Session) :
    Survives World.calmed (·.isSome = true) (executeAll statements session) := by
  induction statements generalizing session with
  | nil => exact survives_pure _
  | cons statement statements inductionHypothesis =>
      refine survives_bind_of_some (survives_atomicExecute statement session)
        (fun session => inductionHypothesis session) ?_
      exact Hopeless.bind fun _ => hopeless_pure (by simp)

theorem survives_commitWork (executed : Option Session) :
    Survives World.calmed (· = true) (commitWork executed) := by
  cases executed with
  | none => exact survives_pure false
  | some session =>
      refine survives_bind_of_some (survives_atomicExecute .commit session)
        (fun session => ?_) (hopeless_throw _ _)
      exact survives_bind_of_any (survives_setServer _) fun _ => survives_pure true

theorem survives_standaloneExecute (statements : List Statement) (database : Option String) :
    Survives World.calmed (· = true) (standaloneExecute statements database) := by
  refine survives_bind_of_any (survives_init database) fun _ => ?_
  refine survives_get_bind (fun _ => rfl) fun world => ?_
  refine survives_bind_of_some (survives_atomicExecute _ _) (fun session => ?_)
    (hopeless_throw _ _)
  exact survives_bind_of_some (survives_executeAll statements session)
    (fun session => survives_commitWork (some session)) (hopeless_pure Bool.false_ne_true)

theorem survives_loadFile (name : String) :
    Survives World.calmed (· = true) (loadFile name) :=
  survives_get_bind (fun _ => rfl) fun _ =>
    survives_ite (survives_standaloneExecute _ _) (survives_pure false)

theorem survives_initDomainStructure (name : String) :
    Survives World.calmed (· = true) (initDomainStructure name) := by
  refine survives_bind_of_some (survives_queryOneRow _ _) (fun result => ?_)
    (hopeless_throw _ _)
  apply survives_ite (survives_pure true)
  exact survives_bind_of_true (survives_standaloneExecute _ _) (survives_loadFile name)
    (hopeless_throw _ _)

/-! ## Answers that a call has used up -/

/-- The first answer of MySQL that is not `done` is a refusal, and has one of the
numbers from `start` on and below `stop`. -/
def RefusedBetween (start stop : Nat) (answers : List Answer) : Prop :=
  ∃ index, start ≤ index ∧ index < stop ∧ ¬ StopsWithin index answers ∧
    answers.getD index .done = .refused

theorem not_refusedBetween_nil {start stop : Nat} : ¬ RefusedBetween start stop [] := by
  rintro ⟨index, _, _, _, refused⟩
  rw [List.getD_nil] at refused
  cases refused

theorem RefusedBetween.later {start stop number : Nat} {answers : List Answer}
    (done : ¬ StopsWithin number answers)
    (refused : RefusedBetween start stop (answers.drop number)) :
    RefusedBetween (number + start) (number + stop) answers := by
  obtain ⟨index, lower, upper, earlier, there⟩ := refused
  refine ⟨number + index, by omega, by omega, ?_, ?_⟩
  · rw [stopsWithin_add]
    exact not_or.mpr ⟨done, earlier⟩
  · rwa [List.getD_eq_getElem?_getD, List.getElem?_drop, ← List.getD_eq_getElem?_getD] at there

/-- A transaction runs through all of its statements, or one of them is refused. -/
theorem answers_of_executeAll {statements : List Statement} {session : Session}
    {world final : World} {executed : Option Session}
    (known : ∀ statement ∈ statements, statement.isBlank = false)
    (ran : executeAll statements session world = .ok executed final) :
    (executed.isSome = true ∧ ¬ StopsWithin statements.length world.answers ∧
        final.answers = world.answers.drop statements.length) ∨
      executed = none ∧ RefusedBetween 0 statements.length world.answers := by
  induction statements generalizing session world with
  | nil =>
      cases ran
      exact Or.inl ⟨rfl, by simp [StopsWithin], rfl⟩
  | cons statement statements inductionHypothesis =>
      have text := known statement List.mem_cons_self
      cases answer : world.answer with
      | refused =>
          have first : world.answers.getD 0 .done = .refused := by
            rwa [World.answer, List.headD_eq_head?_getD, List.head?_eq_getElem?,
              ← List.getD_eq_getElem?_getD] at answer
          refine Or.inr ⟨?_, 0, Nat.le_refl 0, Nat.succ_pos _, by simp [StopsWithin], first⟩
          rw [executeAll_of_refused (atomicExecute_of_refused text answer)] at ran
          obtain ⟨_, _, _, rest⟩ := bind_eq_ok_iff.mp ran
          cases rest
          rfl
      | failed error =>
          rw [executeAll_of_error (atomicExecute_of_error text (Or.inl answer))] at ran
          cases ran
      | done =>
          have begun : ¬ StopsWithin 1 world.answers :=
            fun stops => (stopsWithin_one world).mp stops answer
          cases first : statement.run session with
          | error error =>
              rw [executeAll_of_error (atomicExecute_of_error text (Or.inr ⟨answer, first⟩))]
                at ran
              cases ran
          | ok next =>
              rw [executeAll_of_done (atomicExecute_of_done text answer first)] at ran
              have rest := inductionHypothesis
                (fun other member => known other (List.mem_cons_of_mem statement member)) ran
              have answers : (settle statement next world.answered).answers =
                  world.answers.drop 1 := by
                rw [settle_answers, List.drop_one]
                rfl
              rw [answers, List.drop_drop] at rest
              rw [List.length_cons, Nat.add_comm]
              rcases rest with ⟨finished, done, used⟩ | ⟨stopped, refused⟩
              · refine Or.inl ⟨finished, ?_, used⟩
                rw [stopsWithin_add]
                exact not_or.mpr ⟨begun, done⟩
              · obtain ⟨index, _, upper, earlier, there⟩ := refused.later begun
                exact Or.inr ⟨stopped, index, Nat.zero_le index, upper, earlier, there⟩

/-- The answers that `standalone_execute` has used up when it returns. -/
theorem answers_of_standaloneExecute {statements : List Statement}
    {database : Option String} {world final : World} {accepted : Bool}
    (known : ∀ statement ∈ statements, statement.isBlank = false)
    (ran : standaloneExecute statements database world = .ok accepted final) :
    (accepted = true ∧ ¬ StopsWithin (2 + statements.length + 1) world.answers ∧
        final.answers = world.answers.drop (2 + statements.length + 1)) ∨
      accepted = false ∧ RefusedBetween 2 (2 + statements.length) world.answers := by
  by_cases begins : Begins database world
  · rw [standaloneExecute_of_begins begins] at ran
    obtain ⟨executed, between, executedRan, committed⟩ := bind_eq_ok_iff.mp ran
    have begun := not_stopsWithin_two begins.connected begins.started
    have used := answers_of_executeAll known executedRan
    rw [answers_answered_answered, List.drop_drop] at used
    rcases used with ⟨finished, done, used⟩ | ⟨rfl, refused⟩
    · obtain ⟨session, rfl⟩ := Option.isSome_iff_exists.mp finished
      by_cases answered : between.answer = .done
      · rw [commitWork_of_done answered] at committed
        cases committed
        refine Or.inl ⟨rfl, ?_, ?_⟩
        · rw [stopsWithin_add, stopsWithin_add, ← used]
          refine not_or.mpr ⟨not_or.mpr ⟨begun, done⟩, ?_⟩
          exact fun stops => (stopsWithin_one between).mp stops answered
        · change between.answers.tail = _
          rw [used, ← List.drop_one, List.drop_drop]
      · obtain ⟨message, left⟩ := commitWork_of_not_done session answered
        rw [left] at committed
        cases committed
    · cases committed
      exact Or.inr ⟨rfl, refused.later begun⟩
  · obtain ⟨message, after, _, left⟩ := standaloneExecute_of_not_begins begins
    rw [left] at ran
    cases ran

/-- A schema that has been created without its tables: the skeleton file could not
be opened, or one of its statements has been refused. -/
theorem answers_of_initDomainStructure_false {world final : World} {name : String}
    (clear : ¬ world.server.LikeClash name)
    (ran : initDomainStructure name world = .ok false final) :
    ¬ StopsWithin 6 world.answers ∧ (world.skeletonFile = false ∨
      RefusedBetween 8 (9 + skeletonStatements.length) world.answers) := by
  rcases queryOneRow_cases (.showDatabasesLike name) none world with
    ⟨rows, selects⟩ | ⟨after, _, refused | ⟨message, left⟩⟩
  · rw [initDomainStructure_of_clear selects clear] at ran
    obtain ⟨accepted, between, created, loaded⟩ := bind_eq_ok_iff.mp ran
    have used := answers_of_standaloneExecute (known_createSchema name) created
    rw [answers_answered_answered, List.drop_drop] at used
    rcases used with ⟨rfl, done, used⟩ | ⟨rfl, _⟩
    · have begun : ¬ StopsWithin 6 world.answers := by
        rw [show 6 = 2 + (2 + 1 + 1) from rfl, stopsWithin_add]
        exact not_or.mpr ⟨not_stopsWithin_two selects.connected selects.answered, done⟩
      refine ⟨begun, ?_⟩
      have frame := within_standaloneExecute [.createSchema name] none world.answered.answered
      rw [created] at frame
      have same : between.skeletonFile = world.skeletonFile := frame.skeletonFile
      rw [if_pos rfl, loadFile, bind_get, same] at loaded
      cases opened : world.skeletonFile with
      | false => exact Or.inl rfl
      | true =>
          rw [opened, if_pos rfl] at loaded
          rcases answers_of_standaloneExecute (known_loadedStatements name) loaded with
            ⟨impossible, _⟩ | ⟨_, refused⟩
          · cases impossible
          · rw [used] at refused
            have there := refused.later begun
            rw [List.length_cons] at there
            apply Or.inr
            convert there using 1
            omega
    · cases loaded
  · rw [initDomainStructure, bind_of_ok refused] at ran
    cases ran
  · rw [initDomainStructure, bind_of_error left] at ran
    cases ran

end Mysql

end OpenWorkloadScheduler.Store
