import OpenWorkloadScheduler.Foundations.Effects

/-!
# Computations that take their answers from a script

A state may carry a script of answers that a computation takes one after the other;
where the script has come to its end, all answers are `done`.  A computation that
returns without a script has taken so many answers `done`, and it does the same with
any script that begins with them.  Hence it can be interrupted right behind itself.
-/

namespace OpenWorkloadScheduler.Foundations

universe u v

/-- How a state is given a script, in place of the one that it carries. -/
structure Supply (Answer : Type v) (State : Type u) where
  give : List Answer → State → State
  give_give : ∀ script other state, give script (give other state) = give script state

variable {Exc State Alpha Beta : Type u} {Answer : Type v} (supply : Supply Answer State)
  (done : Answer)

/-- Whatever follows the answers that the computation takes, it leaves. -/
def Consumes (computation : EStateM Exc State Alpha) : Prop :=
  ∀ before value after, computation (supply.give [] before) = .ok value after →
    supply.give [] after = after ∧ ∃ count, ∀ rest,
      computation (supply.give (List.replicate count done ++ rest) before) =
        .ok value (supply.give rest after)

variable {supply} {done}

/-- A computation that returns can be followed by any answer. -/
theorem Consumes.interrupted {computation : EStateM Exc State Alpha}
    (consumes : Consumes supply done computation) {before after : State} {value : Alpha}
    (ran : computation (supply.give [] before) = .ok value after) (next : Answer) :
    ∃ script, computation (supply.give script before) = .ok value (supply.give [next] after) := by
  obtain ⟨_, count, leaves⟩ := consumes before value after ran
  exact ⟨_, leaves [next]⟩

theorem consumes_pure (value : Alpha) :
    Consumes supply done (pure value : EStateM Exc State Alpha) := by
  rintro before _ after ⟨⟩
  refine ⟨supply.give_give [] [] before, 0, fun rest => ?_⟩
  rw [supply.give_give]
  rfl

theorem consumes_throw (raised : Exc) :
    Consumes supply done (throw raised : EStateM Exc State Alpha) := by
  intro before value after ran
  cases ran

theorem consumes_bind {first : EStateM Exc State Alpha}
    {next : Alpha → EStateM Exc State Beta} (firstConsumes : Consumes supply done first)
    (nextConsumes : ∀ value, Consumes supply done (next value)) :
    Consumes supply done (first >>= next) := by
  intro before value after ran
  obtain ⟨middle, between, firstRan, nextRan⟩ := bind_eq_ok_iff.mp ran
  obtain ⟨empty, count, firstLeaves⟩ := firstConsumes before middle between firstRan
  rw [← empty] at nextRan
  obtain ⟨nextEmpty, more, nextLeaves⟩ := nextConsumes middle between value after nextRan
  refine ⟨nextEmpty, count + more, fun rest => ?_⟩
  rw [← List.replicate_append_replicate, List.append_assoc, bind_of_ok (firstLeaves _)]
  exact nextLeaves rest

theorem consumes_get_bind {next : State → EStateM Exc State Beta}
    (same : ∀ script state, next (supply.give script state) = next state)
    (nextConsumes : ∀ state, Consumes supply done (next state)) :
    Consumes supply done ((get : EStateM Exc State State) >>= next) := by
  intro before value after ran
  rw [bind_get, same] at ran
  obtain ⟨empty, count, leaves⟩ := nextConsumes before before value after ran
  refine ⟨empty, count, fun rest => ?_⟩
  rw [bind_get, same]
  exact leaves rest

theorem consumes_ite {decision : Prop} [Decidable decision]
    {first second : EStateM Exc State Alpha} (firstConsumes : Consumes supply done first)
    (secondConsumes : Consumes supply done second) :
    Consumes supply done (if decision then first else second) := by
  split
  · exact firstConsumes
  · exact secondConsumes

section Loops

variable {Exc State : Type} {supply : Supply Answer State}

theorem consumes_andThen {first second : EStateM Exc State Bool}
    (firstConsumes : Consumes supply done first) (secondConsumes : Consumes supply done second) :
    Consumes supply done (andThen first second) := by
  refine consumes_bind firstConsumes fun accepted => ?_
  cases accepted with
  | true => exact secondConsumes
  | false => exact consumes_pure false

end Loops

end OpenWorkloadScheduler.Foundations
