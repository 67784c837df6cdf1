import OpenWorkloadScheduler.Domain.Mutex
import OpenWorkloadScheduler.Service.Handlers
import OpenWorkloadScheduler.Store.Texts

/-!
# The texts of `add_job`

`check_job_arg` lets every name and every command line through that is not empty,
and `add_job` pastes them as they are.  The results below say for which jobs the
server reads what was meant.
-/

namespace OpenWorkloadScheduler.Domain

open Rpc Store Foundations

variable (domain : Domain)

/-! ## What `add_job` builds -/

/-- The statements that `add_job` builds past its check on the node.  It raises at the
first constraint above the duration. -/
def addJobStatements (job : TJob) : List Statement :=
  jobStatements job ++
    (job.timeConstraints.takeWhile fun constraint =>
      constraint.value ≤ domain.planningDuration).map fun constraint =>
        .insertTimeConstraint job.name constraint.type constraint.value

/-- The texts that `add_job` builds for a job whose node it finds, in their order. -/
def addJobTexts (job : TJob) : List String :=
  (Query.countNode job.nodeName).text :: (addJobStatements domain job).map Statement.text

/-- What these texts are meant to be: each value is one literal. -/
def addJobTokens (job : TJob) : List (List Token) :=
  (Query.countNodeTemplate job.nodeName).tokens ::
    (addJobStatements domain job).map fun statement => statement.template.tokens

/-- The server reads each text as it is meant. -/
def ReadsAsMeant (job : TJob) : Prop :=
  (addJobTexts domain job).map Template.read = (addJobTokens domain job).map some

/-- The values that `add_job` pastes. -/
def pasted (job : TJob) : List String :=
  job.name :: job.cmdLine :: job.nodeName :: (job.prv ++ job.nxt)

theorem mem_addJobStatements {job : TJob} {statement : Statement}
    (member : statement ∈ addJobStatements domain job) :
    statement = .insertJob job.name job.cmdLine job.nodeName job.weight ∨
      (∃ prv ∈ job.prv, statement = .insertPrvLink prv job.name) ∨
      (∃ nxt ∈ job.nxt, statement = .insertNxtLink nxt job.name) ∨
      ∃ type value, statement = .insertTimeConstraint job.name type value := by
  rw [addJobStatements, List.mem_append, jobStatements, List.mem_append, List.mem_cons] at member
  rcases member with ((same | before) | behind) | constrained
  · exact Or.inl same
  · obtain ⟨prv, prvMember, rfl⟩ := List.mem_map.mp before
    exact Or.inr (Or.inl ⟨prv, prvMember, rfl⟩)
  · obtain ⟨nxt, nxtMember, rfl⟩ := List.mem_map.mp behind
    exact Or.inr (Or.inr (Or.inl ⟨nxt, nxtMember, rfl⟩))
  · obtain ⟨constraint, _, rfl⟩ := List.mem_map.mp constrained
    exact Or.inr (Or.inr (Or.inr ⟨_, _, rfl⟩))

theorem names_of_addJobStatements {job : TJob} {statement : Statement}
    (member : statement ∈ addJobStatements domain job) :
    statement.names ≠ [] ∧ ∀ name ∈ statement.names, name ∈ pasted job := by
  rcases mem_addJobStatements domain member with
    rfl | ⟨prv, prvMember, rfl⟩ | ⟨nxt, nxtMember, rfl⟩ | ⟨type, value, rfl⟩
  · exact ⟨List.cons_ne_nil _ _, by simp [Statement.names, pasted]⟩
  · exact ⟨List.cons_ne_nil _ _, by simp [Statement.names, pasted, prvMember]⟩
  · exact ⟨List.cons_ne_nil _ _, by simp [Statement.names, pasted, nxtMember]⟩
  · exact ⟨List.cons_ne_nil _ _, by simp [Statement.names, pasted]⟩

/-- Each pasted value is in one of the statements. -/
theorem exists_statement_of_pasted {job : TJob} {name : String} (member : name ∈ pasted job) :
    ∃ statement ∈ addJobStatements domain job, name ∈ statement.names := by
  have inserted : .insertJob job.name job.cmdLine job.nodeName job.weight ∈
      addJobStatements domain job := by
    simp [addJobStatements, jobStatements]
  have linked : ∀ statement ∈ jobStatements job, statement ∈ addJobStatements domain job :=
    fun statement member => List.mem_append_left _ member
  rw [pasted, List.mem_cons, List.mem_cons, List.mem_cons, List.mem_append] at member
  rcases member with rfl | rfl | rfl | prv | nxt
  · exact ⟨_, inserted, by simp [Statement.names]⟩
  · exact ⟨_, inserted, by simp [Statement.names]⟩
  · exact ⟨_, inserted, by simp [Statement.names]⟩
  · exact ⟨.insertPrvLink name job.name, linked _ (by simp [jobStatements, prv]),
      List.mem_cons_self⟩
  · exact ⟨.insertNxtLink name job.name, linked _ (by simp [jobStatements, nxt]),
      List.mem_cons_self⟩

theorem readsAsMeant_iff_each {job : TJob} :
    ReadsAsMeant domain job ↔
      isClean job.nodeName.toList = true ∧
        ∀ statement ∈ addJobStatements domain job,
          ∀ name ∈ statement.names, isClean name.toList = true := by
  rw [ReadsAsMeant, addJobTexts, addJobTokens, List.map_cons, List.map_cons, List.cons.injEq,
    Query.read_countNode_iff, List.map_map, List.map_map, List.map_inj_left]
  refine and_congr_right fun _ => forall₂_congr fun statement member => ?_
  exact Statement.read_text_iff (names_of_addJobStatements domain member).1

/-- The server reads the texts of `add_job` as they are meant if and only if the name,
the command line, the node and the linked jobs have no quote and no zero, and each
backslash in them stands before a wildcard. -/
theorem readsAsMeant_iff_clean (job : TJob) :
    ReadsAsMeant domain job ↔ ∀ text ∈ pasted job, isClean text.toList = true := by
  rw [readsAsMeant_iff_each]
  constructor
  · rintro ⟨_, clean⟩ text member
    obtain ⟨statement, statementMember, named⟩ := exists_statement_of_pasted domain member
    exact clean statement statementMember text named
  · intro clean
    refine ⟨clean job.nodeName (by simp [pasted]), fun statement member name named => ?_⟩
    exact clean name ((names_of_addJobStatements domain member).2 name named)

/-- A job that says hello. -/
def helloJob : TJob where
  name := "hello"
  domain := "test_domain"
  nodeName := "localhost"
  cmdLine := "echo 'hello'"
  weight := 1

/-- The quotes of the command line end its literal. -/
theorem not_readsAsMeant_of_helloJob :
    ¬ ∀ (domain : Domain) (job : TJob), Handlers.checkJobArg job = .ok () →
      ReadsAsMeant domain job := by
  intro always
  have reads := always dailyDomain helloJob (by decide)
  have each := ((readsAsMeant_iff_each dailyDomain).mp reads).2
  have inserted : .insertJob "hello" "echo 'hello'" "localhost" 1 ∈
      addJobStatements dailyDomain helloJob :=
    List.mem_cons_self
  have clean := each _ inserted "echo 'hello'" (by simp [Statement.names])
  revert clean
  decide

end OpenWorkloadScheduler.Domain
