import Mathlib.Algebra.BigOperators.Group.List.Basic
import Mathlib.Algebra.Order.Ring.Int
import Mathlib.Data.List.Nodup

/-!
# Lists with elements replaced

What the replacement of one element of a list does to its members and to what is
counted or added over them, and when the replacement of each element leaves the
members alone.
-/

namespace OpenWorkloadScheduler.Foundations

universe u v

variable {Item : Type u} {items : List Item} {index : Nat} {old : Item}

theorem sum_map_set_add (weight : Item → Nat) (new : Item) (found : items[index]? = some old) :
    ((items.set index new).map weight).sum + weight old =
      (items.map weight).sum + weight new := by
  induction items generalizing index with
  | nil => cases found
  | cons head items inductionHypothesis =>
      cases index with
      | zero =>
          cases found
          simp only [List.set_cons_zero, List.map_cons, List.sum_cons]
          omega
      | succ index =>
          have later : items[index]? = some old := by simpa using found
          have rest := inductionHypothesis later
          simp only [List.set_cons_succ, List.map_cons, List.sum_cons]
          omega

theorem countP_set_add (test : Item → Bool) (new : Item) (found : items[index]? = some old) :
    (items.set index new).countP test + (test old).toNat =
      items.countP test + (test new).toNat := by
  obtain ⟨bound, equality⟩ := List.getElem?_eq_some_iff.mp found
  have counted : (if test items[index] then 1 else 0) ≤ items.countP test :=
    List.boole_getElem_le_countP bound
  rw [List.countP_set bound, equality]
  rw [equality] at counted
  cases old : test old <;> cases test new <;> simp_all

/-- A replacement that keeps a key keeps the keys. -/
theorem map_set_of_eq {Key : Type v} (key : Item → Key) (new : Item)
    (found : items[index]? = some old) (same : key new = key old) :
    (items.set index new).map key = items.map key := by
  obtain ⟨bound, equality⟩ := List.getElem?_eq_some_iff.mp found
  have mapped : index < (items.map key).length := by rwa [List.length_map]
  have replaced : key new = (items.map key)[index] := by
    rw [List.getElem_map, equality, same]
  rw [List.map_set, replaced, List.set_getElem_self]

/-- The other members keep their keys, which differ from that of the element. -/
theorem mem_set_of_nodup {Key : Type v} {key : Item → Key} (distinct : (items.map key).Nodup)
    (found : items[index]? = some old) {new item : Item} (member : item ∈ items.set index new) :
    item = new ∨ item ∈ items ∧ key item ≠ key old := by
  obtain ⟨place, bound, rfl⟩ := List.mem_iff_getElem.mp member
  rw [List.getElem_set]
  split
  · exact Or.inl rfl
  · rename_i different
    rw [List.length_set] at bound
    refine Or.inr ⟨List.getElem_mem bound, fun same => different ?_⟩
    obtain ⟨oldBound, rfl⟩ := List.getElem?_eq_some_iff.mp found
    have mapped : index < (items.map key).length := by rwa [List.length_map]
    have other : place < (items.map key).length := by rwa [List.length_map]
    have keys : (items.map key)[index] = (items.map key)[place] := by
      rw [List.getElem_map, List.getElem_map, same]
    exact (distinct.getElem_inj_iff).mp keys

/-- Where only the replaced element passes a test, no other member passes it. -/
theorem mem_set_of_countP_le_one {test : Item → Bool} (once : items.countP test ≤ 1)
    (found : items[index]? = some old) (passes : test old = true) {new item : Item}
    (member : item ∈ items.set index new) : item = new ∨ item ∈ items ∧ test item = false := by
  induction items generalizing index with
  | nil => cases found
  | cons head items inductionHypothesis =>
      rw [List.countP_cons] at once
      cases index with
      | zero =>
          cases found
          rw [if_pos passes] at once
          have none : items.countP test = 0 := by omega
          rcases List.mem_cons.mp member with rfl | member
          · exact Or.inl rfl
          · exact Or.inr ⟨List.mem_cons_of_mem _ member, by
              simpa using List.countP_eq_zero.mp none item member⟩
      | succ index =>
          have later : items[index]? = some old := by simpa using found
          have counted : 0 < items.countP test :=
            List.countP_pos_iff.mpr ⟨old, List.mem_of_getElem? later, passes⟩
          have others : test head = false := by
            by_contra tested
            rw [if_pos (by simpa using tested)] at once
            omega
          rcases List.mem_cons.mp member with rfl | member
          · exact Or.inr ⟨List.mem_cons_self, others⟩
          · refine (inductionHypothesis (by omega) later member).imp_right ?_
            exact fun earlier => ⟨List.mem_cons_of_mem _ earlier.1, earlier.2⟩

/-- Elements of distinct keys that are replaced under their keys are the same members
only where each one is replaced by itself. -/
theorem mem_map_iff_of_nodup {Key : Type v} {key : Item → Key} {replace : Item → Item}
    (distinct : (items.map key).Nodup) (same : ∀ item, key (replace item) = key item) :
    (∀ item, item ∈ items.map replace ↔ item ∈ items) ↔ ∀ item ∈ items, replace item = item := by
  constructor
  · intro members item member
    have replaced : replace item ∈ items := (members _).mp (List.mem_map_of_mem member)
    exact List.inj_on_of_nodup_map distinct replaced member (same item)
  · intro stays item
    rw [List.map_congr_left stays, List.map_id']

end OpenWorkloadScheduler.Foundations
