import Mathlib.Data.List.Basic

/-!
# Reading by position

A computation that reads a sequence at positions, each of which may depend on
what it has read before.  The sequence is meant to be a record whose entries may
be missing; where it leaves the missing entries out, the positions shift, and a
read finds the entry of the record only as long as no entry up to it is missing.
-/

namespace OpenWorkloadScheduler.Foundations

universe u

/-- A computation that ends, or reads the entry at a position; `outside` is what the
read raises past the end. -/
inductive Reads (Exc Entry Alpha : Type u) where
  | done (result : Except Exc Alpha)
  | read (index : Nat) (outside : Exc) (next : Entry → Reads Exc Entry Alpha)

namespace Reads

variable {Exc Entry Alpha Beta : Type u}

/-- A conversion on the way, which may raise. -/
def convert (result : Except Exc Beta) (next : Beta → Reads Exc Entry Alpha) :
    Reads Exc Entry Alpha :=
  match result with
  | .error raised => done (.error raised)
  | .ok value => next value

def run : Reads Exc Entry Alpha → List Entry → Except Exc Alpha
  | done result, _ => result
  | read index outside next, entries =>
      match entries[index]? with
      | some entry => (next entry).run entries
      | none => .error outside

/-- The positions that are read, with the one that is past the end. -/
def indices : Reads Exc Entry Alpha → List Entry → List Nat
  | done _, _ => []
  | read index _ next, entries =>
      index ::
        match entries[index]? with
        | some entry => (next entry).indices entries
        | none => []

/-- Every read is within the sequence and finds what the record has there. -/
def Agrees (reads : Reads Exc Entry Alpha) (entries : List Entry)
    (record : List (Option Entry)) : Prop :=
  ∀ index ∈ reads.indices entries, ∃ entry,
    entries[index]? = some entry ∧ record[index]? = some (some entry)

theorem run_convert (result : Except Exc Beta) (next : Beta → Reads Exc Entry Alpha)
    (entries : List Entry) :
    (convert result next).run entries = result >>= fun value => (next value).run entries := by
  cases result <;> rfl

@[simp]
theorem agrees_done (result : Except Exc Alpha) (entries : List Entry)
    (record : List (Option Entry)) : (done result).Agrees entries record :=
  List.forall_mem_nil _

theorem agrees_read {index : Nat} {outside : Exc} {next : Entry → Reads Exc Entry Alpha}
    {entries : List Entry} {record : List (Option Entry)} :
    (read index outside next).Agrees entries record ↔
      ∃ entry, entries[index]? = some entry ∧ record[index]? = some (some entry) ∧
        (next entry).Agrees entries record := by
  rw [Agrees, indices, List.forall_mem_cons]
  constructor
  · rintro ⟨⟨entry, found, recorded⟩, rest⟩
    rw [found] at rest
    exact ⟨entry, found, recorded, rest⟩
  · rintro ⟨entry, found, recorded, rest⟩
    rw [found]
    exact ⟨⟨entry, rfl, recorded⟩, rest⟩

theorem agrees_convert {result : Except Exc Beta} {next : Beta → Reads Exc Entry Alpha}
    {entries : List Entry} {record : List (Option Entry)} :
    (convert result next).Agrees entries record ↔
      ∀ value, result = .ok value → (next value).Agrees entries record := by
  cases result with
  | error raised => exact iff_of_true (agrees_done _ _ _) nofun
  | ok value =>
      constructor
      · rintro agrees _ ⟨⟩
        exact agrees
      · exact fun agrees => agrees value rfl

end Reads

/-! ## Records without their missing entries -/

/-- The record has an entry at the position. -/
def Filled {Entry : Type u} (record : List (Option Entry)) (index : Nat) : Prop :=
  ∃ entry, record[index]? = some (some entry)

/-- An entry keeps its position as long as none before it is missing. -/
theorem getElem?_filterMap_append {Entry : Type u} {record : List (Option Entry)}
    (rest : List Entry) {index : Nat} {entry : Entry}
    (filled : ∀ earlier < index, Filled record earlier)
    (recorded : record[index]? = some (some entry)) :
    (record.filterMap id ++ rest)[index]? = some entry := by
  induction record generalizing index with
  | nil => cases recorded
  | cons first record inductionHypothesis =>
      cases index with
      | zero =>
          cases recorded
          rfl
      | succ index =>
          obtain ⟨kept, isFirst⟩ := filled 0 (Nat.succ_pos index)
          cases isFirst
          exact inductionHypothesis (fun earlier less => filled (earlier + 1) (by omega)) recorded

end OpenWorkloadScheduler.Foundations
