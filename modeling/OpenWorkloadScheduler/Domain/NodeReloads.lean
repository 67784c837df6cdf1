import OpenWorkloadScheduler.Domain.NodeAddition
import OpenWorkloadScheduler.Domain.Removal

/-!
# A node that is added again

A client that starts again adds its node to the database once more.  The node itself
is inserted by an `INSERT IGNORE`, its resources and its jobs by an `INSERT`, which
their keys refuse as soon as the rows are there.
-/

namespace OpenWorkloadScheduler.Domain

open Rpc Store Foundations

variable (domain : Domain)

/-- `add_node` returns `true` and changes nothing. -/
def RepeatsUnchanged (name : String) (node : TNode) (world : World) : Prop :=
  ∃ after, addNode domain name node world = .ok true after ∧ KeepsSchemas world after

variable {name : String} {node : TNode} {schema : Schema} {world : World}

theorem partsOf_eq_nil_iff : partsOf node = [] ↔ node.resources = [] ∧ node.jobs = [] := by
  rw [partsOf, List.append_eq_nil_iff, List.map_eq_nil_iff, List.map_eq_nil_iff]

/-- The first part of a node that is there is refused, whatever MySQL answers. -/
theorem addNode_ne_true_of_held {part : Part} {parts : List Part}
    (found : world.server.schema? name = some schema) (holds : HoldsNode schema.tables node)
    (split : partsOf node = part :: parts) (after : World) :
    addNode domain name node world ≠ .ok true after := by
  intro ran
  rw [addNode_eq_parts, split] at ran
  obtain ⟨between, added, rest⟩ := andThen_eq_true_iff.mp ran
  have stored := (keeps_of_addWeightedNode found holds.there added name).trans found
  obtain ⟨later, partAdded, _⟩ := andThen_eq_true_iff.mp rest
  obtain ⟨_, _, fits, _⟩ := Part.schema_of_add domain stored partAdded
  have member : part ∈ partsOf node := by
    rw [split]
    exact List.mem_cons_self
  exact Part.not_fits_of_held (holds.parts part member) fits

/-- Without failures, a node without parts that is there is added again. -/
theorem repeatsUnchanged_of_partless (quiet : Mysql.Quiet world) (free : MutexFree world)
    (found : world.server.schema? name = some schema) (complete : schema.Complete)
    (there : schema.tables.hasNode node.name) (partless : partsOf node = []) :
    RepeatsUnchanged domain name node world := by
  obtain ⟨after, added, _⟩ := addWeightedNode_of_found quiet free found complete node.name
    node.weight
  refine ⟨after, ?_, keeps_of_addWeightedNode found there added⟩
  rw [addNode_eq_parts, partless, allTrue, andThen_pure_true]
  exact added

/-- When no call of MySQL fails, `add_node` on a complete schema that holds the node with all
its parts returns `true` and changes nothing if and only if there are no parts. -/
theorem repeatsUnchanged_of_held_iff (quiet : Mysql.Quiet world) (free : MutexFree world)
    (found : world.server.schema? name = some schema) (complete : schema.Complete)
    (holds : HoldsNode schema.tables node) :
    RepeatsUnchanged domain name node world ↔ node.resources = [] ∧ node.jobs = [] := by
  rw [← partsOf_eq_nil_iff]
  constructor
  · rintro ⟨after, ran, _⟩
    cases split : partsOf node with
    | nil => rfl
    | cons part parts =>
        exact absurd ran (addNode_ne_true_of_held domain found holds split after)
  · exact repeatsUnchanged_of_partless domain quiet free found complete holds.there

/-- Whoever has added a node has found the mutex free and has released it. -/
theorem mutexFree_of_addNode {before after : World} {value : Bool}
    (added : addNode domain name node before = .ok value after) : MutexFree after := by
  have free : MutexFree before := by
    obtain ⟨_, _, nodeAdded, _⟩ := bind_eq_ok_iff.mp added
    obtain ⟨_, _, lockRan, _⟩ := bind_eq_ok_iff.mp nodeAdded
    exact (lock_eq_ok_iff.mp lockRan).1
  exact (keeps_addNode domain name node).returned free added

/-- A node that `add_node` has stored in a complete schema can be added again, and nothing
changes, if and only if it has neither resources nor jobs. -/
theorem repeatsUnchanged_iff {before after : World}
    (found : before.server.schema? name = some schema) (complete : schema.Complete)
    (added : addNode domain name node before = .ok true after) :
    RepeatsUnchanged domain name node after.calmed ↔ node.resources = [] ∧ node.jobs = [] := by
  obtain ⟨tables, stored, holds⟩ := holdsNode_of_addNode domain found added
  have free : MutexFree after := mutexFree_of_addNode domain added
  have freeThere : MutexFree after.calmed := free
  have storedThere : after.calmed.server.schema? name = some { schema with tables } := stored
  exact repeatsUnchanged_of_held_iff domain after.quiet_calmed freeThere storedThere
    (complete.withTables tables) holds

/-! ## One node, twice -/

theorem addNode_onePart :
    ∃ after, addNode dailyDomain "test_domain" onePart (stagedWorld stagedTables) =
      .ok true after := by
  have quiet : Mysql.Quiet (stagedWorld stagedTables) := rfl
  have free : MutexFree (stagedWorld stagedTables) := rfl
  obtain ⟨between, added, quietBetween, freeBetween⟩ :=
    addWeightedNode_of_found quiet free found_stagedWorld (complete_staged stagedTables)
      "localhost" 10
  obtain ⟨stored, _⟩ := schema_of_addWeightedNode found_stagedWorld added
  have fits : Part.Fits "localhost" stagedTables (.resource ⟨"memory", 4, 4⟩) :=
    ⟨fun _ none => absurd none List.not_mem_nil, by decide⟩
  obtain ⟨after, partAdded, _⟩ := @Part.add_of_quiet dailyDomain "test_domain" "localhost"
    (.resource ⟨"memory", 4, 4⟩) between _ quietBetween freeBetween stored
    (complete_staged _) trivial fits trivial
  refine ⟨after, ?_⟩
  rw [addNode_eq_parts]
  exact andThen_eq_true_iff.mpr ⟨between, added, andThen_eq_true_iff.mpr ⟨after, partAdded, rfl⟩⟩

theorem repeatsUnchanged_onePart :
    ∃ after, addNode dailyDomain "test_domain" onePart (stagedWorld stagedTables) =
        .ok true after ∧
      (RepeatsUnchanged dailyDomain "test_domain" onePart after.calmed ↔
        onePart.resources = [] ∧ onePart.jobs = []) := by
  obtain ⟨after, added⟩ := addNode_onePart
  exact ⟨after, added, repeatsUnchanged_iff dailyDomain found_stagedWorld
    (complete_staged stagedTables) added⟩

/-- The resource that the first call has stored stops the second one. -/
theorem onePart_refused_again :
    ¬ ∀ (domain : Domain) (name : String) (node : TNode) (schema : Schema)
      (before after : World), before.server.schema? name = some schema → schema.Complete →
        addNode domain name node before = .ok true after →
          RepeatsUnchanged domain name node after.calmed := by
  intro always
  obtain ⟨after, added⟩ := addNode_onePart
  obtain ⟨again, ran, _⟩ := always dailyDomain "test_domain" onePart _ _ after
    found_stagedWorld (complete_staged stagedTables) added
  obtain ⟨tables, stored, holds⟩ := holdsNode_of_addNode dailyDomain found_stagedWorld added
  have storedThere : after.calmed.server.schema? "test_domain" =
      some { oneNode with tables } := stored
  exact addNode_ne_true_of_held dailyDomain storedThere holds rfl again ran

end OpenWorkloadScheduler.Domain
