import Mathlib.Algebra.Order.Ring.Int
import Mathlib.Order.Bounds.Basic

/-!
# Instants that recur

The instants of a period are the integers that differ from an origin by a
multiple of it.  The formula of this module gives the first of them after an
instant, and two of them never lie closer together than the period.

A property may hold from some instant of each period on.  Over an interval it
stays, once it holds, unless a new period begins in between.
-/

namespace OpenWorkloadScheduler.Foundations

/-- The instant differs from the origin by a multiple of the period. -/
def Recurs (origin period instant : Int) : Prop :=
  period ∣ instant - origin

instance (origin period instant : Int) : Decidable (Recurs origin period instant) :=
  inferInstanceAs (Decidable (_ ∣ _))

/-- The first instant of the period after the given one, for a positive period. -/
def nextInstant (origin period instant : Int) : Int :=
  instant + period - (instant - origin) % period

section Instants

variable {origin period : Int}

theorem recurs_origin (origin period : Int) : Recurs origin period origin := by
  simp [Recurs]

theorem recurs_nextInstant (instant : Int) :
    Recurs origin period (nextInstant origin period instant) := by
  have division := Int.mul_ediv_add_emod (instant - origin) period
  refine ⟨(instant - origin) / period + 1, ?_⟩
  rw [nextInstant, Int.mul_add, Int.mul_one]
  omega

theorem lt_nextInstant (positive : 0 < period) (instant : Int) :
    instant < nextInstant origin period instant := by
  have bound := Int.emod_lt_of_pos (instant - origin) positive
  unfold nextInstant
  omega

theorem nextInstant_le (positive : 0 < period) (instant : Int) :
    nextInstant origin period instant ≤ instant + period := by
  have bound := Int.emod_nonneg (instant - origin) (Int.ne_of_gt positive)
  unfold nextInstant
  omega

/-- Instants of the period that differ do so by the period at least. -/
theorem Recurs.add_le {first second : Int}
    (firstRecurs : Recurs origin period first) (secondRecurs : Recurs origin period second)
    (earlier : first < second) : first + period ≤ second := by
  have difference : period ∣ second - first := by
    have both := Int.dvd_sub secondRecurs firstRecurs
    rwa [show second - origin - (first - origin) = second - first by omega] at both
  have bound := Int.le_of_dvd (by omega) difference
  omega

theorem Recurs.add_period {instant : Int} (recurs : Recurs origin period instant) :
    Recurs origin period (instant + period) := by
  have both := Int.dvd_add recurs (Int.dvd_refl period)
  rwa [Recurs, show instant + period - origin = instant - origin + period by omega]

/-- Every instant of the period after the given one comes no earlier than the first. -/
theorem nextInstant_le_of_recurs (positive : 0 < period) {instant later : Int}
    (recurs : Recurs origin period later) (after : instant < later) :
    nextInstant origin period instant ≤ later := by
  rcases lt_or_ge later (nextInstant origin period instant) with sooner | reached
  · have spaced := recurs.add_le (recurs_nextInstant instant) sooner
    have bound : nextInstant origin period instant ≤ instant + period :=
      nextInstant_le positive instant
    omega
  · exact reached

theorem nextInstant_mono (positive : 0 < period) {earlier later : Int}
    (ordered : earlier ≤ later) :
    nextInstant origin period earlier ≤ nextInstant origin period later := by
  have beyond : later < nextInstant origin period later := lt_nextInstant positive later
  exact nextInstant_le_of_recurs positive (recurs_nextInstant later) (by omega)

/-- An instant of the period is the last one up to a time less than a period later. -/
theorem Recurs.isGreatest {instant time : Int}
    (recurs : Recurs origin period instant) (reached : instant ≤ time)
    (recent : time < instant + period) :
    IsGreatest {earlier | Recurs origin period earlier ∧ earlier ≤ time} instant := by
  refine ⟨⟨recurs, reached⟩, ?_⟩
  rintro other ⟨otherRecurs, past⟩
  rcases lt_or_ge instant other with later | sooner
  · have spaced := recurs.add_le otherRecurs later
    omega
  · exact sooner

/-- An instant of the period is the first one after a time less than a period
before it. -/
theorem Recurs.isLeast {instant time : Int}
    (recurs : Recurs origin period instant) (ahead : time < instant)
    (near : instant ≤ time + period) :
    IsLeast {later | Recurs origin period later ∧ time < later} instant := by
  refine ⟨⟨recurs, ahead⟩, ?_⟩
  rintro other ⟨otherRecurs, future⟩
  rcases lt_or_ge other instant with sooner | later
  · have spaced := otherRecurs.add_le recurs sooner
    omega
  · exact later

theorem isLeast_nextInstant (positive : 0 < period) (instant : Int) :
    IsLeast {later | Recurs origin period later ∧ instant < later}
      (nextInstant origin period instant) :=
  (recurs_nextInstant instant).isLeast (lt_nextInstant positive instant)
    (nextInstant_le positive instant)

/-- Throughout the period that it ends, an instant of the period is the next one. -/
theorem Recurs.nextInstant_eq (positive : 0 < period) {instant time : Int}
    (recurs : Recurs origin period instant) (near : instant ≤ time + period)
    (ahead : time < instant) : nextInstant origin period time = instant :=
  (isLeast_nextInstant positive time).unique (recurs.isLeast ahead near)

theorem Recurs.nextInstant_self (positive : 0 < period) {instant : Int}
    (recurs : Recurs origin period instant) :
    nextInstant origin period instant = instant + period :=
  recurs.add_period.nextInstant_eq positive (Int.le_refl _) (by omega)

end Instants

/-! ## Properties that rise within a period -/

/-- The property depends on the place within the period, and holds there from
some place on. -/
structure Rises (period : Int) (holds : Int → Prop) : Prop where
  recurs : ∀ instant, holds instant ↔ holds (instant % period)
  rises : ∀ earlier later, 0 ≤ earlier → earlier ≤ later → later < period →
    holds earlier → holds later

/-- Once the property holds in an interval, it stays to the end of it. -/
def Stays (holds : Int → Prop) (first last : Int) : Prop :=
  ∀ earlier later, first ≤ earlier → earlier ≤ later → later < last →
    holds earlier → holds later

/-- No period begins in the interval after its first instant. -/
def Unbroken (period first last : Int) : Prop :=
  ∀ instant, first < instant → instant < last → ¬ period ∣ instant

section Rises

variable {period first last : Int} {holds : Int → Prop}

theorem Unbroken.ediv_eq (unbroken : Unbroken period first last) (positive : 0 < period)
    {earlier later : Int} (begins : first ≤ earlier) (ordered : earlier ≤ later)
    (ends : later < last) : earlier / period = later / period := by
  have quotients := Int.ediv_le_ediv positive ordered
  rcases Int.lt_or_eq_of_le quotients with less | same
  · -- the last multiple of the period up to the later instant
    have division := Int.mul_ediv_add_emod later period
    have bound := Int.emod_nonneg later (Int.ne_of_gt positive)
    have beyond : earlier < period * (later / period) := by
      have scaled := Int.lt_mul_of_ediv_lt positive less
      rwa [Int.mul_comm] at scaled
    exact absurd (Int.dvd_mul_right period (later / period))
      (unbroken _ (by omega) (by omega))
  · exact same

theorem Rises.stays_of_unbroken (rising : Rises period holds) (positive : 0 < period)
    (unbroken : Unbroken period first last) : Stays holds first last := by
  intro earlier later begins ordered ends held
  have sameDay := unbroken.ediv_eq positive begins ordered ends
  have before := Int.mul_ediv_add_emod earlier period
  have after := Int.mul_ediv_add_emod later period
  rw [sameDay] at before
  apply (rising.recurs later).mpr
  exact rising.rises (earlier % period) (later % period)
    (Int.emod_nonneg earlier (Int.ne_of_gt positive)) (by omega)
    (Int.emod_lt_of_pos later positive) ((rising.recurs earlier).mp held)

/-- A rising property that holds at the beginning as at the end of a period is
constant. -/
theorem Rises.stays_of_ends (rising : Rises period holds) (positive : 0 < period)
    (ends : holds 0 ↔ holds (period - 1)) : Stays holds first last := by
  intro earlier later _ _ _ held
  have bound := Int.emod_lt_of_pos earlier positive
  have last : holds (period - 1) :=
    rising.rises (earlier % period) (period - 1)
      (Int.emod_nonneg earlier (Int.ne_of_gt positive)) (by omega) (by omega)
      ((rising.recurs earlier).mp held)
  apply (rising.recurs later).mpr
  exact rising.rises 0 (later % period) (Int.le_refl 0)
    (Int.emod_nonneg later (Int.ne_of_gt positive)) (Int.emod_lt_of_pos later positive)
    (ends.mpr last)

/-- A rising property stays throughout an interval if and only if no period begins
in between, or the property is the same at both ends of the period. -/
theorem Rises.stays_iff (rising : Rises period holds) (positive : 0 < period) :
    Stays holds first last ↔
      Unbroken period first last ∨ (holds 0 ↔ holds (period - 1)) := by
  constructor
  · intro stays
    by_cases unbroken : Unbroken period first last
    · exact Or.inl unbroken
    · apply Or.inr
      simp only [Unbroken, not_forall, not_not] at unbroken
      obtain ⟨instant, begins, ends, divides⟩ := unbroken
      constructor
      · exact rising.rises 0 (period - 1) (Int.le_refl 0) (by omega) (by omega)
      · intro held
        have zero : instant % period = 0 := Int.emod_eq_zero_of_dvd divides
        have before : (instant - 1) % period = period - 1 := by
          obtain ⟨count, rfl⟩ := divides
          rw [show period * count - 1 = (period - 1) + period * (count - 1) by
            rw [Int.mul_sub, Int.mul_one]; omega, Int.add_mul_emod_self_left]
          exact Int.emod_eq_of_lt (by omega) (by omega)
        have turned := stays (instant - 1) instant (by omega) (by omega) ends
          ((rising.recurs (instant - 1)).mpr (by rwa [before]))
        rw [rising.recurs instant, zero] at turned
        exact turned
  · rintro (unbroken | ends)
    · exact rising.stays_of_unbroken positive unbroken
    · exact rising.stays_of_ends positive ends

end Rises

end OpenWorkloadScheduler.Foundations
