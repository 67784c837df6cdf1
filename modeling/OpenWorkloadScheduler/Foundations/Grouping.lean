import Mathlib.Data.List.Nodup
import Mathlib.Data.List.Perm.Basic

/-!
# Lists gone through group by group

Going through distinct keys, and for each key through the items of that key,
meets every item once.  Items that are added under a new key are found by it alone.
-/

namespace OpenWorkloadScheduler.Foundations

variable {Key Item : Type} [DecidableEq Key]

theorem flatMap_filter_perm_filter (key : Item → Key) {keys : List Key} (items : List Item)
    (distinct : keys.Nodup) :
    (keys.flatMap fun name => items.filter fun item => key item = name).Perm
      (items.filter fun item => key item ∈ keys) := by
  induction keys with
  | nil => simp
  | cons name keys inductionHypothesis =>
      obtain ⟨single, distinct⟩ := List.nodup_cons.mp distinct
      rw [List.flatMap_cons]
      refine ((inductionHypothesis distinct).append_left _).trans ?_
      have rest : (items.filter fun item => key item ∈ keys) =
          (items.filter fun item => key item ∈ name :: keys).filter
            fun item => !decide (key item = name) := by
        rw [List.filter_filter]
        refine List.filter_congr fun item _ => ?_
        by_cases same : key item = name
        · simp [same, single]
        · simp [same]
      have first : (items.filter fun item => key item = name) =
          (items.filter fun item => key item ∈ name :: keys).filter
            fun item => key item = name := by
        rw [List.filter_filter]
        refine List.filter_congr fun item _ => ?_
        by_cases same : key item = name <;> simp [same]
      rw [first, rest]
      exact List.filter_append_perm _ _

theorem flatMap_filter_perm (key : Item → Key) {keys : List Key} {items : List Item}
    (distinct : keys.Nodup) (covered : ∀ item ∈ items, key item ∈ keys) :
    (keys.flatMap fun name => items.filter fun item => key item = name).Perm items := by
  have all : (items.filter fun item => key item ∈ keys) = items :=
    List.filter_eq_self.mpr fun item member => decide_eq_true (covered item member)
  have grouped := flatMap_filter_perm_filter key items distinct
  rwa [all] at grouped

/-- In a list without repetition, what stands before an item or is that item has
no greater index. -/
theorem idxOf_le_iff {before rest : List Key} {name other : Key}
    (distinct : (before ++ name :: rest).Nodup) :
    (before ++ name :: rest).idxOf other ≤ (before ++ name :: rest).idxOf name ↔
      other = name ∨ other ∈ before := by
  have absent : name ∉ before := by
    intro member
    exact (List.disjoint_of_nodup_append distinct) member List.mem_cons_self
  rw [List.idxOf_append_of_notMem absent, List.idxOf_cons_self, Nat.add_zero]
  by_cases earlier : other ∈ before
  · rw [List.idxOf_append_of_mem earlier]
    exact ⟨fun _ => Or.inr earlier, fun _ => Nat.le_of_lt (List.idxOf_lt_length_of_mem earlier)⟩
  · rw [List.idxOf_append_of_notMem earlier]
    by_cases same : other = name
    · subst same
      simp
    · rw [List.idxOf_cons_ne _ (Ne.symm same)]
      constructor
      · intro bounded
        omega
      · rintro (equality | member)
        · exact absurd equality same
        · exact absurd member earlier

/-- Items of a new key are all that a selection by that key finds. -/
theorem filter_append_eq {key : Item → Key} {name : Key} {old new : List Item}
    (foreign : ∀ item ∈ old, key item ≠ name) (own : ∀ item ∈ new, key item = name) :
    ((old ++ new).filter fun item => key item = name) = new := by
  have none : (old.filter fun item => key item = name) = [] :=
    List.filter_eq_nil_iff.mpr fun item member => by simp [foreign item member]
  have all : (new.filter fun item => key item = name) = new :=
    List.filter_eq_self.mpr fun item member => by simp [own item member]
  rw [List.filter_append, none, all, List.nil_append]

end OpenWorkloadScheduler.Foundations
