import Mathlib.Data.List.MinMax
import Mathlib.Data.List.Sort

/-!
# Lists kept in the order of a key

An ordered index that admits equal keys puts a new item behind the items whose
key is not greater.  Among equal keys the items therefore stand in the order of
their insertion, and the first item of the index is the earliest one of least key.
-/

namespace OpenWorkloadScheduler.Foundations

universe u v

variable {Item : Type u} {Key : Type v} [LinearOrder Key]

/-- The item goes before the first one whose key is greater. -/
def insertByKey (key : Item → Key) (item : Item) (items : List Item) : List Item :=
  items.orderedInsert (fun first second => key first < key second) item

/-- The index after the insertion of the items in turn. -/
def orderedByKey (key : Item → Key) (items : List Item) : List Item :=
  items.foldl (fun index item => insertByKey key item index) []

variable {key : Item → Key}

theorem orderedByKey_concat (items : List Item) (item : Item) :
    orderedByKey key (items ++ [item]) = insertByKey key item (orderedByKey key items) := by
  rw [orderedByKey, orderedByKey, List.foldl_concat]

theorem mem_insertByKey {item other : Item} {items : List Item} :
    other ∈ insertByKey key item items ↔ other = item ∨ other ∈ items :=
  List.mem_orderedInsert _

theorem insertByKey_cons_of_lt {item first : Item} {items : List Item}
    (less : key item < key first) :
    insertByKey key item (first :: items) = item :: first :: items := by
  rw [insertByKey, List.orderedInsert_cons, if_pos less]

theorem insertByKey_cons_of_le {item first : Item} {items : List Item}
    (le : key first ≤ key item) :
    insertByKey key item (first :: items) = first :: insertByKey key item items := by
  rw [insertByKey, List.orderedInsert_cons, if_neg (not_lt_of_ge le), insertByKey]

/-- The keys of an index do not decrease. -/
def Ordered (key : Item → Key) (items : List Item) : Prop :=
  items.Pairwise fun first second => key first ≤ key second

theorem Ordered.insertByKey {items : List Item} (ordered : Ordered key items) (item : Item) :
    Ordered key (insertByKey key item items) := by
  induction items with
  | nil => exact List.pairwise_singleton _ _
  | cons first items inductionHypothesis =>
      obtain ⟨least, rest⟩ := List.pairwise_cons.mp ordered
      rcases lt_or_ge (key item) (key first) with less | le
      · rw [insertByKey_cons_of_lt less]
        refine List.pairwise_cons.mpr ⟨fun other member => ?_, ordered⟩
        rcases List.mem_cons.mp member with rfl | later
        · exact less.le
        · exact less.le.trans (least other later)
      · rw [insertByKey_cons_of_le le]
        refine List.pairwise_cons.mpr ⟨fun other member => ?_, inductionHypothesis rest⟩
        rcases mem_insertByKey.mp member with rfl | there
        · exact le
        · exact least other there

theorem ordered_orderedByKey (items : List Item) : Ordered key (orderedByKey key items) := by
  induction items using List.reverseRecOn with
  | nil => exact List.Pairwise.nil
  | append_singleton items item inductionHypothesis =>
      rw [orderedByKey_concat]
      exact inductionHypothesis.insertByKey item

/-! ## The first item -/

theorem head?_insertByKey (item : Item) (items : List Item) :
    (insertByKey key item items).head? =
      Option.casesOn items.head? (some item)
        fun first => if key item < key first then some item else some first := by
  cases items with
  | nil => rfl
  | cons first items =>
      dsimp only [List.head?_cons]
      split
      · rename_i less
        rw [insertByKey_cons_of_lt less]
        rfl
      · rename_i notLess
        rw [insertByKey_cons_of_le (not_lt.mp notLess)]
        rfl

/-- The first item is the earliest one of least key. -/
theorem head?_orderedByKey (items : List Item) :
    (orderedByKey key items).head? = items.argmin key := by
  induction items using List.reverseRecOn with
  | nil => rfl
  | append_singleton items item inductionHypothesis =>
      rw [orderedByKey_concat, head?_insertByKey, inductionHypothesis, List.argmin_concat]

/-! ## Removal -/

/-- Removing items commutes with an insertion that finds the index in order. -/
theorem filter_insertByKey {items : List Item} (test : Item → Bool)
    (ordered : Ordered key items) (item : Item) :
    (insertByKey key item items).filter test =
      if test item then insertByKey key item (items.filter test) else items.filter test := by
  induction items with
  | nil => cases kept : test item <;> simp [insertByKey, kept]
  | cons first items inductionHypothesis =>
      obtain ⟨least, rest⟩ := List.pairwise_cons.mp ordered
      have later := inductionHypothesis rest
      rcases lt_or_ge (key item) (key first) with less | le
      · -- whatever is left of the index, its keys are greater
        have front : insertByKey key item ((first :: items).filter test) =
            item :: (first :: items).filter test := by
          cases left : (first :: items).filter test with
          | nil => rfl
          | cons head tail =>
              have member : head ∈ first :: items :=
                List.mem_of_mem_filter (left ▸ List.mem_cons_self : head ∈ _)
              rcases List.mem_cons.mp member with rfl | there
              · exact insertByKey_cons_of_lt less
              · exact insertByKey_cons_of_lt (less.trans_le (least head there))
        rw [insertByKey_cons_of_lt less, front, List.filter_cons]
      · rw [insertByKey_cons_of_le le, List.filter_cons, List.filter_cons, later]
        cases test first <;> cases test item
        · rfl
        · rfl
        · rfl
        · exact (insertByKey_cons_of_le le).symm

/-- Removing items from the index is removing them before they are inserted. -/
theorem filter_orderedByKey (test : Item → Bool) (items : List Item) :
    (orderedByKey key items).filter test = orderedByKey key (items.filter test) := by
  induction items using List.reverseRecOn with
  | nil => rfl
  | append_singleton items item inductionHypothesis =>
      rw [orderedByKey_concat, filter_insertByKey test (ordered_orderedByKey items) item,
        inductionHypothesis, List.filter_append, List.filter_cons, List.filter_nil]
      split
      · exact (orderedByKey_concat _ item).symm
      · rw [List.append_nil]

end OpenWorkloadScheduler.Foundations
