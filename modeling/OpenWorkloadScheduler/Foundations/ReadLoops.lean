import Mathlib.Data.List.Basic

/-!
# Loops that read until the end

A loop reads a sequence that may go on for ever, tests after each read whether the end
has been reached, and has a body that may leave it.  It is run with fuel: that it ends
means that some fuel is enough.
-/

namespace OpenWorkloadScheduler.Foundations

universe u

/-- What one read leaves: the line, and whether the end has been reached. -/
structure Reading (Line : Type u) where
  line : Line
  atEnd : Bool

variable {Line State Result : Type u}

/-- `while (!atEnd) { read; body }` from a read on, where the body leaves the loop by an
error; `none` stands for fuel that is used up. -/
def readLoop (readings : Nat → Reading Line) (body : State → Line → Except Result State) :
    Nat → Nat → Bool → State → Option (Except Result State)
  | _, _, true, state => some (.ok state)
  | 0, _, false, _ => none
  | fuel + 1, position, false, state =>
      match body state (readings position).line with
      | .error result => some (.error result)
      | .ok state => readLoop readings body fuel (position + 1) (readings position).atEnd state

/-- The loop ends after finitely many reads. -/
def LoopEnds (readings : Nat → Reading Line) (body : State → Line → Except Result State)
    (state : State) : Prop :=
  ∃ fuel outcome, readLoop readings body fuel 0 false state = some outcome

variable {readings : Nat → Reading Line} {body : State → Line → Except Result State}

theorem readLoop_atEnd (fuel position : Nat) (state : State) :
    readLoop readings body fuel position true state = some (.ok state) := by
  cases fuel <;> rfl

/-- What a loop that has ended has found: an end, or a line at which its body leaves. -/
theorem exists_of_readLoop {leaves : Line → Prop}
    (leaving : ∀ state line result, body state line = .error result → leaves line)
    {fuel position : Nat} {state : State} {outcome : Except Result State}
    (ended : readLoop readings body fuel position false state = some outcome) :
    ∃ index, (readings index).atEnd = true ∨ leaves (readings index).line := by
  induction fuel generalizing position state with
  | zero => cases ended
  | succ fuel inductionHypothesis =>
      rw [readLoop] at ended
      cases next : body state (readings position).line with
      | error result => exact ⟨position, Or.inr (leaving _ _ _ next)⟩
      | ok after =>
          rw [next] at ended
          cases atEnd : (readings position).atEnd with
          | true => exact ⟨position, Or.inl atEnd⟩
          | false =>
              dsimp only at ended
              rw [atEnd] at ended
              exact inductionHypothesis ended

/-- An end, or a line at which the body leaves, ends the loop there or before. -/
theorem readLoop_of_exists {gap position : Nat}
    (stops : (readings (position + gap)).atEnd = true ∨
      ∀ state, ∃ result, body state (readings (position + gap)).line = .error result)
    (state : State) :
    ∃ outcome, readLoop readings body (gap + 1) position false state = some outcome := by
  induction gap generalizing position state with
  | zero =>
      rw [readLoop]
      cases next : body state (readings position).line with
      | error result => exact ⟨_, rfl⟩
      | ok after =>
          rcases stops with atEnd | leaves
          · dsimp only
            rw [← Nat.add_zero position, atEnd]
            exact ⟨_, rfl⟩
          · obtain ⟨result, left⟩ := leaves state
            rw [Nat.add_zero, next] at left
            cases left
  | succ gap inductionHypothesis =>
      rw [readLoop]
      cases body state (readings position).line with
      | error result => exact ⟨_, rfl⟩
      | ok after =>
          dsimp only
          cases (readings position).atEnd with
          | true => exact ⟨_, readLoop_atEnd _ _ _⟩
          | false =>
              rw [← Nat.add_assoc, Nat.add_right_comm] at stops
              exact inductionHypothesis stops after

/-- A body that leaves at certain lines, whatever the state is: the loop ends if and only
if one of its reads reaches the end or finds such a line. -/
theorem loopEnds_iff {leaves : Line → Prop}
    (leaving : ∀ state line, (∃ result, body state line = .error result) ↔ leaves line)
    (state : State) :
    LoopEnds readings body state ↔
      ∃ index, (readings index).atEnd = true ∨ leaves (readings index).line := by
  constructor
  · rintro ⟨fuel, outcome, ended⟩
    exact exists_of_readLoop
      (fun state line result left => (leaving state line).mp ⟨result, left⟩) ended
  · rintro ⟨index, stops⟩
    rw [← Nat.zero_add index] at stops
    have leave := stops.imp_right fun leaves state => (leaving state _).mpr leaves
    exact ⟨_, readLoop_of_exists leave state⟩

theorem loopEnds_iff_of_ok (goesOn : ∀ state line, ∃ after, body state line = .ok after)
    (state : State) :
    LoopEnds readings body state ↔ ∃ index, (readings index).atEnd = true := by
  have never : ∀ state line, (∃ result, body state line = .error result) ↔ False := by
    intro state line
    obtain ⟨after, same⟩ := goesOn state line
    rw [same]
    exact iff_of_false nofun id
  rw [loopEnds_iff never]
  exact exists_congr fun index => or_iff_left id

/-- On lines of which the last one reaches the end, the loop goes through the lines. -/
theorem readLoop_of_lines {position : Nat} {state : State} {lines : List Line}
    (filled : lines ≠ [])
    (read : ∀ index (inside : index < lines.length),
      readings (position + index) = ⟨lines[index], index + 1 = lines.length⟩) :
    readLoop readings body lines.length position false state =
      some (lines.foldlM body state) := by
  induction lines generalizing position state with
  | nil => exact absurd rfl filled
  | cons line lines inductionHypothesis =>
      have first := read 0 (Nat.succ_pos _)
      rw [List.length_cons, readLoop, List.foldlM_cons, ← Nat.add_zero position, first]
      dsimp only [List.getElem_cons_zero]
      cases body state line with
      | error result => rfl
      | ok after =>
          by_cases last : lines = []
          · subst last
            rfl
          · have goesOn : decide (0 + 1 = (line :: lines).length) = false := by
              have := List.length_pos_iff.mpr last
              simp only [List.length_cons, decide_eq_false_iff_not]
              omega
            rw [goesOn]
            refine inductionHypothesis last fun index inside => ?_
            have there := read (index + 1) (Nat.succ_lt_succ inside)
            rw [Nat.add_zero, Nat.add_assoc, Nat.add_comm 1 index, there]
            simp

end OpenWorkloadScheduler.Foundations
