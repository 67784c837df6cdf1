import OpenWorkloadScheduler.Domain.JobRoundTrip

/-!
# The jobs of a schema as they are read

`get_jobs` labels the jobs of every schema with the name of the domain, and
`get_recovery_type` asks for the one character that `+=` makes of an identifier.
-/

namespace OpenWorkloadScheduler.Domain

open Rpc Store Foundations

/-! ## The letter of an identifier -/

theorem toNat_characterOf (id : Int) : (characterOf id).toNat = (id % 256).toNat := by
  have small : (id % 256).toNat < 256 := by omega
  have valid : (id % 256).toNat.isValidChar := Or.inl (by omega)
  rw [characterOf, Char.ofNat, dif_pos valid]
  rfl

/-- The number that MySQL reads is never the identifier: the digits begin at 48, and the
letter 0 is no text. -/
theorem literalNumber_characterOf_ne {id number : Int}
    (literal : Query.literalNumber (characterOf id) = some number) :
    number % 256 ≠ id % 256 := by
  have code := toNat_characterOf id
  unfold Query.literalNumber at literal
  split_ifs at literal with ends digit
  · have bounds : 48 ≤ (characterOf id).toNat ∧ (characterOf id).toNat ≤ 57 :=
      Char.isDigit_iff_toNat.mp digit
    obtain rfl := Option.some.inj literal
    have zero : '0'.toNat = 48 := rfl
    omega
  · obtain rfl := Option.some.inj literal
    intro same
    have null : characterOf id = Char.ofNat 0 := by
      rw [characterOf, ← same]
      rfl
    exact ends (Or.inr (Or.inr null))

/-- A recovery type that is found for an identifier is not the one that it belongs to. -/
theorem decodedRecovery_ne {tables : Tables} {id : Int} {found row : RecoveryTypeRow}
    (selected : recoveryRow tables id = some found) (owned : row.rectypeId = id) :
    decodedRecovery found ≠ decodedRecovery row := by
  obtain ⟨number, literal, first⟩ := Option.bind_eq_some_iff.mp selected
  have foundId : found.rectypeId = number := by
    simpa using List.find?_some first
  intro same
  have ids : Integer.narrow number = Integer.narrow id := by
    rw [← foundId, ← owned]
    exact congrArg TRecoveryType.id same
  have residues : number % ((2 ^ 16 : Nat) : Int) = id % ((2 ^ 16 : Nat) : Int) := by
    have wrapped := congrArg (· % ((2 ^ 16 : Nat) : Int)) ids
    simpa only [Integer.narrow, Int.bmod_emod] using wrapped
  exact literalNumber_characterOf_ne literal (by omega)

/-! ## The jobs -/

/-- The job is that of the row, in the given schema. -/
structure JobOfRow (tables : Tables) (name : String) (row : JobRow) (job : TJob) : Prop where
  domain : job.domain = name
  name : job.name = row.jobName
  nodeName : job.nodeName = row.jobNodeName
  cmdLine : job.cmdLine = row.jobCmdLine
  state : some job.state = row.jobState
  startTime : ∀ value ∈ row.jobStartTime, job.startTime = value
  stopTime : ∀ value ∈ row.jobStopTime, job.stopTime = value
  recoveryType : ∀ id ∈ row.jobRectypeId, ∃ recovery ∈ tables.recoveryType,
    recovery.rectypeId = id ∧ job.recoveryType = decodedRecovery recovery

/-- The columns of the row are decoded, and it has no recovery type. -/
structure JobPlain (row : JobRow) : Prop where
  weight : Fits 32 row.jobWeight
  state : row.jobState ≠ none
  startTime : ∀ value ∈ row.jobStartTime, Fits 64 value
  stopTime : ∀ value ∈ row.jobStopTime, Fits 64 value
  recoveryType : row.jobRectypeId = none

variable (domain : Domain)

/-- `get_jobs` returns exactly one job for each row of the node, in any order. -/
def GetsJobs (name : String) (runningNode : Option String) (tables : Tables)
    (world : World) : Prop :=
  ∃ jobs after, getJobs domain name runningNode world = .ok jobs after ∧
    Matched (JobOfRow tables name) (tables.job.filter (Query.runsOn runningNode)) jobs

variable {domain} {name : String} {tables : Tables} {row : JobRow}

theorem jobPlain_iff :
    JobPlain row ↔ JobReadable tables row ∧ row.jobRectypeId = none := by
  constructor
  · rintro ⟨weight, state, startTime, stopTime, none⟩
    refine ⟨⟨weight, state, startTime, stopTime, fun id member => ?_⟩, none⟩
    rw [none] at member
    cases member
  · rintro ⟨readable, none⟩
    exact ⟨readable.weight, readable.state, readable.startTime, readable.stopTime, none⟩

/-- What is decoded from a row is its job if and only if its schema has the name of the
domain and it has no recovery type. -/
theorem jobOfRow_decodedJob_iff (readable : JobReadable tables row) :
    JobOfRow tables name row (decodedJob domain tables row) ↔
      row.jobRectypeId = none ∧ name = domain.name := by
  constructor
  · intro holds
    refine ⟨Option.eq_none_iff_forall_not_mem.mpr fun id member => ?_, holds.domain.symm⟩
    obtain ⟨recovery, _, owned, same⟩ := holds.recoveryType id member
    obtain ⟨found, selected, _⟩ := (readable.recoveryType id member).2
    have decoded : (decodedJob domain tables row).recoveryType = decodedRecovery found := by
      simp only [decodedJob, Option.mem_def.mp member, Option.elim_some, selected]
    exact decodedRecovery_ne selected owned (decoded.symm.trans same)
  · rintro ⟨none, rfl⟩
    have state : some (row.jobState.getD .waiting) = row.jobState := by
      obtain ⟨state, there⟩ := Option.ne_none_iff_exists'.mp readable.state
      rw [there]
      rfl
    refine ⟨rfl, rfl, rfl, rfl, state, fun value member => ?_, fun value member => ?_,
      fun id member => ?_⟩
    · exact congrArg (·.getD 0) member
    · exact congrArg (·.getD 0) member
    · rw [none] at member
      cases member

theorem jobReadable_of_getsJobs {schema : Schema} {runningNode : Option String} {world : World}
    (readable : Readable world name schema)
    (gets : GetsJobs domain name runningNode schema.tables world) :
    ∀ row ∈ schema.tables.job.filter (Query.runsOn runningNode),
      JobReadable schema.tables row := by
  obtain ⟨jobs, after, returned, _⟩ := gets
  exact ((yields_getJobs domain readable runningNode).of_ok returned).1

/-- On plain names `get_jobs` returns the jobs of the node if and only if each of their rows is
decoded and has no recovery type, and the schema has the name of the domain unless there are
none. -/
theorem getsJobs_iff {schema : Schema} {runningNode : Option String} {world : World}
    (readableFor : ReadableFor runningNode.toList world name schema)
    (keys : schema.tables.Keys) :
    GetsJobs domain name runningNode schema.tables world ↔
      (∀ row ∈ schema.tables.job.filter (Query.runsOn runningNode), JobPlain row) ∧
        (schema.tables.job.filter (Query.runsOn runningNode) = [] ∨ name = domain.name) := by
  have yields := yields_getJobs domain readableFor.toReadable runningNode
  have own : ∀ row ∈ schema.tables.job.filter (Query.runsOn runningNode),
      ∀ other ∈ schema.tables.job.filter (Query.runsOn runningNode),
        JobOfRow schema.tables name row (decodedJob domain schema.tables other) →
          other = row := by
    intro row member other otherMember holds
    exact List.inj_on_of_nodup_map keys.jobName (List.mem_of_mem_filter otherMember)
      (List.mem_of_mem_filter member) holds.name
  constructor
  · rintro ⟨jobs, after, returned, matched⟩
    obtain ⟨decoded, rfl, _⟩ := yields.of_ok returned
    have each : ∀ row ∈ schema.tables.job.filter (Query.runsOn runningNode),
        row.jobRectypeId = none ∧ name = domain.name :=
      fun row member => (jobOfRow_decodedJob_iff (decoded row member)).mp
        ((matched_map_iff own).mp matched row member)
    refine ⟨fun row member => jobPlain_iff.mpr ⟨decoded row member, (each row member).1⟩, ?_⟩
    by_cases nothing : schema.tables.job.filter (Query.runsOn runningNode) = []
    · exact Or.inl nothing
    · obtain ⟨row, member⟩ := List.exists_mem_of_ne_nil _ nothing
      exact Or.inr (each row member).2
  · rintro ⟨plain, labelled⟩
    have both : ∀ row ∈ schema.tables.job.filter (Query.runsOn runningNode),
        JobReadable schema.tables row ∧ row.jobRectypeId = none :=
      fun row member => jobPlain_iff.mp (plain row member)
    refine ⟨_, _, yields.returns fun row member => (both row member).1, ?_⟩
    refine (matched_map_iff own).mpr fun row member => ?_
    have named : name = domain.name := labelled.resolve_left (List.ne_nil_of_mem member)
    exact (jobOfRow_decodedJob_iff (both row member).1).mpr ⟨(both row member).2, named⟩

/-! ## One job -/

theorem readable_stagedWorld (tables : Tables) :
    Readable (stagedWorld tables) "test_domain" { oneNode with tables } :=
  ⟨rfl, Server.schema?_setSchema_self _ _ _, complete_staged tables⟩

theorem getsJobs_stagedTables :
    GetsJobs dailyDomain "test_domain" (some "localhost") stagedTables
      (stagedWorld stagedTables) := by
  have readable : ReadableFor (some "localhost").toList (stagedWorld stagedTables) "test_domain"
      { oneNode with tables := stagedTables } :=
    { readable_stagedWorld stagedTables with plain := by decide +kernel }
  refine (getsJobs_iff readable keys_stagedTables).mpr ⟨fun row member => ?_, Or.inr rfl⟩
  cases List.mem_singleton.mp (List.mem_of_mem_filter member)
  exact ⟨by decide, by decide, by decide, by decide, rfl⟩

/-- The rows of a schema with one job that stops the schedule when it fails. -/
def stoppingTables : Tables where
  node := [⟨"localhost", 10⟩]
  recoveryType := [⟨1, "stp", "stop", .stopSchedule⟩]
  job := [⟨"load", "/bin/load", "localhost", 1, none, none, some .waiting, some 1⟩]

/-- The letter that is made of 1 is compared as 0. -/
theorem getJobs_refuses_stoppingTables :
    ¬ ∀ (domain : Domain) (name : String) (runningNode : Option String) (schema : Schema)
      (world : World), Readable world name schema → schema.tables.Keys →
        GetsJobs domain name runningNode schema.tables world := by
  intro always
  have readable := readable_stagedWorld stoppingTables
  have gets := always dailyDomain "test_domain" none _ _ readable (by constructor <;> decide)
  have decoded := jobReadable_of_getsJobs readable gets _ List.mem_cons_self
  obtain ⟨row, selected, _⟩ := (decoded.recoveryType 1 rfl).2
  have missing : recoveryRow stoppingTables 1 = none := by decide
  rw [missing] at selected
  cases selected

end OpenWorkloadScheduler.Domain
