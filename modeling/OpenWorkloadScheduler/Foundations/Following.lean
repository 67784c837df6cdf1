import Mathlib.Order.Basic

/-!
# Following a next-hop function

Every place knows at most one next place on the way to a target.  Following it
from place to place arrives at the target after some number of hops, or it
never does.
-/

namespace OpenWorkloadScheduler.Foundations

universe u

variable {Place : Type u}

/-- Following `next` from a place arrives at the target after so many hops. -/
inductive Arrives (next : Place → Option Place) (target : Place) : Place → Nat → Prop where
  | here : Arrives next target target 0
  | hop {place neighbour : Place} {hops : Nat} :
      place ≠ target → next place = some neighbour → Arrives next target neighbour hops →
        Arrives next target place (hops + 1)

variable {next : Place → Option Place} {target place : Place}

theorem Arrives.direct (different : place ≠ target) (hop : next place = some target) :
    Arrives next target place 1 :=
  .hop different hop .here

theorem Arrives.eq_zero {hops : Nat} (arrives : Arrives next target target hops) : hops = 0 := by
  cases arrives with
  | here => rfl
  | hop different _ _ => exact absurd rfl different

theorem Arrives.through {neighbour : Place} (different : place ≠ target)
    (hop : next place = some neighbour) (last : neighbour = target ∨
      neighbour ≠ target ∧ next neighbour = some target) :
    ∃ hops, Arrives next target place hops := by
  rcases last with rfl | ⟨elsewhere, last⟩
  · exact ⟨1, .direct different hop⟩
  · exact ⟨2, .hop different hop (.direct elsewhere last)⟩

end OpenWorkloadScheduler.Foundations
