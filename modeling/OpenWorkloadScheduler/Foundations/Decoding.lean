import Mathlib.Data.List.Forall2
import OpenWorkloadScheduler.Foundations.Effects

/-!
# Computations that only read

A computation that leaves the state alone is known by the condition under which
it returns and by the value that it returns then.  The rules below collect both
along the parts of the computation.
-/

namespace OpenWorkloadScheduler.Foundations

universe u

variable {Exc State Alpha Beta : Type u}

/-- Under the condition the computation returns the value in the same state, and
without it the computation raises. -/
structure Yields (computation : EStateM Exc State Alpha) (state : State) (condition : Prop)
    (value : Alpha) : Prop where
  returns : condition → computation state = .ok value state
  refuses : ¬ condition → raises (computation state) = true

variable {state : State}

theorem raises_bind {first : EStateM Exc State Alpha} {next : Alpha → EStateM Exc State Beta}
    (raised : raises (first state) = true) :
    raises ((first >>= next) state) = true := by
  cases ran : first state with
  | ok middle after =>
      rw [ran] at raised
      cases raised
  | error text after =>
      rw [bind_of_error ran]
      rfl

theorem Yields.congr {computation : EStateM Exc State Alpha} {condition other : Prop}
    {value : Alpha} (yields : Yields computation state condition value)
    (same : condition ↔ other) :
    Yields computation state other value :=
  ⟨fun holds => yields.returns (same.mpr holds),
    fun fails => yields.refuses fun holds => fails (same.mp holds)⟩

theorem Yields.of_ok {computation : EStateM Exc State Alpha} {condition : Prop}
    {value other : Alpha} {after : State} (yields : Yields computation state condition value)
    (ran : computation state = .ok other after) :
    condition ∧ other = value ∧ after = state := by
  by_cases holds : condition
  · rw [yields.returns holds] at ran
    cases ran
    exact ⟨holds, rfl, rfl⟩
  · have raised := yields.refuses holds
    rw [ran] at raised
    cases raised

theorem yields_pure (value : Alpha) :
    Yields (pure value : EStateM Exc State Alpha) state True value :=
  ⟨fun _ => rfl, fun fails => absurd trivial fails⟩

theorem yields_throw (raised : Exc) (value : Alpha) :
    Yields (throw raised : EStateM Exc State Alpha) state False value :=
  ⟨False.elim, fun _ => rfl⟩

theorem yields_of_ok {computation : EStateM Exc State Alpha} {value : Alpha}
    (ran : computation state = .ok value state) :
    Yields computation state True value :=
  ⟨fun _ => ran, fun fails => absurd trivial fails⟩

theorem yields_bind {first : EStateM Exc State Alpha}
    {next : Alpha → EStateM Exc State Beta} {condition nextCondition : Prop}
    {middle : Alpha} {value : Beta}
    (firstYields : Yields first state condition middle)
    (nextYields : Yields (next middle) state nextCondition value) :
    Yields (first >>= next) state (condition ∧ nextCondition) value := by
  constructor
  · rintro ⟨holds, nextHolds⟩
    rw [bind_of_ok (firstYields.returns holds)]
    exact nextYields.returns nextHolds
  · intro fails
    by_cases holds : condition
    · rw [bind_of_ok (firstYields.returns holds)]
      exact nextYields.refuses fun nextHolds => fails ⟨holds, nextHolds⟩
    · exact raises_bind (firstYields.refuses holds)

theorem yields_bind_of_ok {first : EStateM Exc State Alpha}
    {next : Alpha → EStateM Exc State Beta} {condition : Prop} {middle : Alpha} {value : Beta}
    (ran : first state = .ok middle state)
    (nextYields : Yields (next middle) state condition value) :
    Yields (first >>= next) state condition value :=
  (yields_bind (yields_of_ok ran) nextYields).congr (iff_of_eq (true_and _))

theorem yields_mapM {Item : Type u} {action : Item → EStateM Exc State Alpha}
    {condition : Item → Prop} {value : Item → Alpha} {items : List Item}
    (actionYields : ∀ item ∈ items, Yields (action item) state (condition item) (value item)) :
    Yields (items.mapM action) state (∀ item ∈ items, condition item) (items.map value) := by
  induction items with
  | nil =>
      rw [List.mapM_nil]
      exact (yields_pure []).congr (by simp)
  | cons item items inductionHypothesis =>
      rw [List.mapM_cons]
      have first := actionYields item List.mem_cons_self
      have rest := inductionHypothesis fun other member =>
        actionYields other (List.mem_cons_of_mem item member)
      have whole : Yields (action item >>= fun first => items.mapM action >>= fun others =>
          pure (first :: others)) state _ (value item :: items.map value) :=
        yields_bind first (yields_bind rest (yields_pure _))
      exact whole.congr (by simp)

/-! ## Items and what is made of them -/

section Matching

variable {Item Value : Type u} {relation : Item → Value → Prop}

/-- The items, taken in some order, are related to the values in theirs. -/
def Matched (relation : Item → Value → Prop) (items : List Item) (values : List Value) : Prop :=
  ∃ order : List Item, order.Perm items ∧ List.Forall₂ relation order values

theorem exists_related {items : List Item} {values : List Value}
    (related : List.Forall₂ relation items values) {item : Item} (member : item ∈ items) :
    ∃ value ∈ values, relation item value := by
  induction related with
  | nil => cases member
  | cons holds _ inductionHypothesis =>
      rcases List.mem_cons.mp member with rfl | member
      · exact ⟨_, List.mem_cons_self, holds⟩
      · obtain ⟨value, valueMember, holds⟩ := inductionHypothesis member
        exact ⟨value, List.mem_cons_of_mem _ valueMember, holds⟩

/-- A relation that holds between an item and no value of another one is a condition on the
items. -/
theorem matched_map_iff {items : List Item} {value : Item → Value}
    (own : ∀ item ∈ items, ∀ other ∈ items, relation item (value other) → other = item) :
    Matched relation items (items.map value) ↔ ∀ item ∈ items, relation item (value item) := by
  constructor
  · rintro ⟨order, permuted, related⟩ item member
    obtain ⟨_, valueMember, holds⟩ := exists_related related (permuted.mem_iff.mpr member)
    obtain ⟨other, otherMember, rfl⟩ := List.mem_map.mp valueMember
    rwa [own item member other otherMember holds] at holds
  · intro all
    exact ⟨items, List.Perm.refl items,
      List.forall₂_map_right_iff.mpr (List.forall₂_same.mpr all)⟩

end Matching

end OpenWorkloadScheduler.Foundations
