import Mathlib.Data.List.Induction

/-!
# Lists cut after the items that end something

Some items of a list end a segment.  A segmentation holds the segments that have been
ended, each with exactly one such item, its last, and the rest of the list, without any.
The next item of the list either ends the rest, which becomes a segment, or joins it.
-/

namespace OpenWorkloadScheduler.Foundations

variable {Item : Type} (ends : Item → Bool)

/-- The last item ends the segment, and no other one does. -/
def IsSegment (segment : List Item) : Prop :=
  ∃ inner last, segment = inner ++ [last] ∧ ends last = true ∧
    ∀ item ∈ inner, ends item = false

/-- A list in segments, and what comes after the last of them. -/
structure Segmentation (items : List Item) where
  segments : List (List Item)
  rest : List Item
  joins : segments.flatten ++ rest = items
  closed : ∀ segment ∈ segments, IsSegment ends segment
  opened : ∀ item ∈ rest, ends item = false

namespace Segmentation

def empty : Segmentation ends [] where
  segments := []
  rest := []
  joins := rfl
  closed := by simp
  opened := by simp

variable {ends} {items : List Item}

/-- The next item goes on with the rest. -/
def extend (segmentation : Segmentation ends items) (item : Item)
    (goesOn : ends item = false) : Segmentation ends (items ++ [item]) where
  segments := segmentation.segments
  rest := segmentation.rest ++ [item]
  joins := by rw [← List.append_assoc, segmentation.joins]
  closed := segmentation.closed
  opened := by
    intro other member
    rcases List.mem_append.mp member with member | member
    · exact segmentation.opened other member
    · rw [List.mem_singleton.mp member]
      exact goesOn

/-- The next item makes a segment of the rest. -/
def close (segmentation : Segmentation ends items) (item : Item)
    (closes : ends item = true) : Segmentation ends (items ++ [item]) where
  segments := segmentation.segments ++ [segmentation.rest ++ [item]]
  rest := []
  joins := by
    rw [List.flatten_append, List.flatten_singleton, List.append_nil, ← List.append_assoc,
      segmentation.joins]
  closed := by
    intro segment member
    rcases List.mem_append.mp member with member | member
    · exact segmentation.closed segment member
    · rw [List.mem_singleton.mp member]
      exact ⟨segmentation.rest, item, rfl, closes, segmentation.opened⟩
  opened := by simp

/-- A function of the items, applied to the segments and to the rest, loses nothing. -/
theorem flatMap_join {Piece : Type} (segmentation : Segmentation ends items)
    (pieces : Item → List Piece) :
    (segmentation.segments.map fun segment => segment.flatMap pieces).flatten ++
        segmentation.rest.flatMap pieces =
      items.flatMap pieces := by
  have flattened : segmentation.segments.flatten.flatMap pieces =
      (segmentation.segments.map fun segment => segment.flatMap pieces).flatten := by
    rw [List.flatten_eq_flatMap, List.flatMap_assoc, List.flatMap_def]
    rfl
  rw [← flattened, ← List.flatMap_append, segmentation.joins]

end Segmentation

end OpenWorkloadScheduler.Foundations
