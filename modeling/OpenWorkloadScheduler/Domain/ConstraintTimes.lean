import OpenWorkloadScheduler.Domain.Configuration
import OpenWorkloadScheduler.Domain.Insertions

/-!
# The times of the constraints

`add_job` accepts every value up to the duration of the plannings, and the views
compare it with the clock as a text.  The hours of the clock have two digits, so
the texts compare like the minutes as long as the hours of the value have two
digits as well, and from 100 hours on only its first two digits count.
-/

namespace OpenWorkloadScheduler

open Rpc Store

namespace Store.Tables

/-! ## Hours of three digits -/

theorem toList_threeDigits {value : Nat} (large : 100 ≤ value) (small : value < 1000) :
    (twoDigits value).toList =
      [Nat.digitChar (value / 100), Nat.digitChar (value / 10 % 10),
        Nat.digitChar (value % 10)] := by
  have twoPlaces : ¬ value < 10 := by omega
  have hundreds : value / 10 / 10 = value / 100 := by omega
  rw [twoDigits, if_neg twoPlaces]
  change value.repr.toList = _
  rw [Nat.toList_repr, Nat.toDigits_of_base_le (by decide) (by omega),
    Nat.toDigits_of_base_le (by decide) (by omega), Nat.toDigits_of_lt_base (by omega), hundreds]
  rfl

/-- From 100 hours on and below 1000, the text has three digits for the hour. -/
theorem toList_timeFormat_of_hundredHours {value : Nat} (large : 360000 ≤ value)
    (small : value < 3600000) :
    (timeFormat value).toList =
      [Nat.digitChar (value / 360000), Nat.digitChar (value / 36000 % 10),
        Nat.digitChar (value / 3600 % 10), ' ',
        Nat.digitChar (value / 600 % 6), Nat.digitChar (value / 60 % 10)] := by
  have hours := @toList_threeDigits (value / 3600) (by omega) (by omega)
  have minutes := @toList_twoDigits (value / 60 % 60) (by omega)
  have first : value / 3600 / 100 = value / 360000 := by omega
  have second : value / 3600 / 10 % 10 = value / 36000 % 10 := by omega
  have fourth : value / 60 % 60 / 10 = value / 600 % 6 := by omega
  have fifth : value / 60 % 60 % 10 = value / 60 % 10 := by omega
  rw [first, second] at hours
  rw [fourth, fifth] at minutes
  have positive : ¬ (value : Int) < 0 := by omega
  rw [timeFormat, if_neg positive, Int.natAbs_natCast, String.toList_append, String.toList_append,
    String.toList_append, hours, minutes]
  rfl

/-- The third digit of the hours stands against a blank, which sorts below it. -/
theorem timeFormat_lt_iff_of_hundredHours {value clock : Nat} (large : 360000 ≤ value)
    (small : value < 3600000) (sameDay : clock < 86400) :
    (timeFormat value < timeFormat clock ↔ value / 36000 < clock / 3600) ∧
      (timeFormat clock < timeFormat value ↔ clock / 3600 ≤ value / 36000) := by
  have notBelow : ∀ digit < 10, ¬ Nat.digitChar digit < ' ' := by decide
  have different : ∀ digit < 10, Nat.digitChar digit ≠ ' ' := by decide
  have above : ∀ digit < 10, ' ' < Nat.digitChar digit := by decide
  have thirdNotBelow := notBelow (value / 3600 % 10) (by omega)
  have thirdDifferent := different (value / 3600 % 10) (by omega)
  have thirdAbove := above (value / 3600 % 10) (by omega)
  rw [String.lt_iff, String.lt_iff, toList_timeFormat_of_hundredHours large small,
    toList_timeFormat (by omega : clock < 360000)]
  simp only [List.cons_lt_cons_iff, thirdNotBelow, thirdDifferent, thirdAbove, false_and,
    and_false, or_false, true_or, and_true]
  rw [digitChar_lt_iff (by omega) (by omega), digitChar_lt_iff (by omega) (by omega),
    digitChar_lt_iff (by omega) (by omega), digitChar_lt_iff (by omega) (by omega),
    digitChar_eq_iff (by omega) (by omega), digitChar_eq_iff (by omega) (by omega),
    digitChar_eq_iff (by omega) (by omega)]
  have valueTens : value / 360000 = value / 36000 / 10 := by omega
  have clockTens : clock / 36000 = clock / 3600 / 10 := by omega
  rw [valueTens, clockTens]
  generalize value / 36000 = first, clock / 3600 = second
  omega

end Store.Tables

namespace Domain

open Tables

/-! ## Texts and minutes -/

/-- The three comparisons of `get_ready_time` between a stored value and the clock have
the answers that the minutes of the value and of the day have. -/
structure ComparesAsMinutes (value now : Int) : Prop where
  equal : timeFormat (secToTime value) = timeFormatNow now ↔ value / 60 = now % 86400 / 60
  atMost : timeFormat (secToTime value) ≤ timeFormatNow now ↔ value / 60 ≤ now % 86400 / 60
  atLeast : timeFormatNow now ≤ timeFormat (secToTime value) ↔ now % 86400 / 60 ≤ value / 60

theorem comparesAsMinutes_iff_lt {value now : Int} :
    ComparesAsMinutes value now ↔
      (timeFormat (secToTime value) < timeFormatNow now ↔ value / 60 < now % 86400 / 60) ∧
        (timeFormatNow now < timeFormat (secToTime value) ↔
          now % 86400 / 60 < value / 60) := by
  constructor
  · rintro ⟨_, atMost, atLeast⟩
    exact ⟨String.not_le.symm.trans ((not_congr atLeast).trans not_le),
      String.not_le.symm.trans ((not_congr atMost).trans not_le)⟩
  · rintro ⟨below, above⟩
    have atMost := String.not_lt.symm.trans ((not_congr above).trans not_lt)
    have atLeast := String.not_lt.symm.trans ((not_congr below).trans not_lt)
    refine ⟨?_, atMost, atLeast⟩
    constructor
    · intro same
      exact le_antisymm (atMost.mp (same ▸ String.le_refl _))
        (atLeast.mp (same ▸ String.le_refl _))
    · intro same
      exact String.le_antisymm (atMost.mpr same.le) (atLeast.mpr same.ge)

/-- What `SEC_TO_TIME` cuts off lies beyond every time of the day, on both sides. -/
theorem compares_of_small {value now : Int} (small : value < 360000) :
    ComparesAsMinutes value now := by
  have storedSmall : secToTime value < 360000 := by
    unfold secToTime
    omega
  obtain ⟨below, above⟩ := TimeConstraintRow.timeFormat_lt_iff storedSmall now
  rw [comparesAsMinutes_iff_lt, below, above]
  unfold secToTime
  omega

theorem compares_iff_of_hundredHours {value now : Int} (large : 360000 ≤ value) :
    ComparesAsMinutes value now ↔ now % 86400 / 3600 ≤ value / 36000 := by
  obtain ⟨clock, clockEq⟩ := Int.eq_ofNat_of_zero_le (by omega : 0 ≤ now % 86400)
  obtain ⟨stored, storedEq⟩ := Int.eq_ofNat_of_zero_le
    (by unfold secToTime; omega : 0 ≤ secToTime value)
  have cut : (stored : Int) = max (-3020399) (min value 3020399) := storedEq.symm
  obtain ⟨below, above⟩ := @timeFormat_lt_iff_of_hundredHours stored clock (by omega)
    (by omega) (by omega)
  rw [comparesAsMinutes_iff_lt, timeFormatNow, clockEq, storedEq, below, above]
  constructor <;> intro law <;> omega

/-- A value that `add_job` accepts compares with the clock like its minutes if and only
if it is below 100 hours, or the hour of the clock is not above the first two of the
three digits of its hours. -/
theorem acceptedConstraint_compares_iff (domain : Domain) (jobName : String)
    (constraint : TTimeConstraint) (now : Int) :
    ((∃ statement, timeConstraintStatement domain jobName constraint = .ok statement) →
        ComparesAsMinutes constraint.value now) ↔
      domain.planningDuration < constraint.value ∨ constraint.value < 360000 ∨
        now % 86400 / 3600 ≤ constraint.value / 36000 := by
  rw [timeConstraintStatement]
  by_cases above : domain.planningDuration < constraint.value
  · rw [if_pos above]
    refine iff_of_true (fun accepted => ?_) (Or.inl above)
    obtain ⟨statement, same⟩ := accepted
    cases same
  · rw [if_neg above]
    simp only [above, false_or, Except.ok.injEq, exists_eq', forall_const]
    by_cases small : constraint.value < 360000
    · exact iff_of_true (compares_of_small small) (Or.inl small)
    · simp only [small, false_or]
      exact compares_iff_of_hundredHours (not_lt.mp small)

/-- Plannings of a week. -/
def weeklyConfig : Config where
  configOptions := [⟨"domain_name", "prod"⟩, ⟨"day_start_time", "00:00"⟩,
    ⟨"day_duration", "168h"⟩].toAList

def weeklyDomain : Domain where
  name := "prod"
  initialPlanningStartTime := 0
  planningDuration := 604800

theorem configured_weeklyConfig : configured weeklyConfig = .ok weeklyDomain := by
  rfl

/-- At 11:00 of the first day, what has to run before the hour 100 is too late: the text
`100 00` is below `11 00`. -/
theorem acceptedConstraint_compares_digits :
    ¬ ∀ (config : Config) (domain : Domain), configured config = .ok domain →
      ∀ (jobName : String) (constraint : TTimeConstraint) (now : Int),
        (∃ statement, timeConstraintStatement domain jobName constraint = .ok statement) →
          ComparesAsMinutes constraint.value now := by
  intro always
  have compares := always weeklyConfig weeklyDomain configured_weeklyConfig "backup"
    { type := .before, value := 360000 } 39600 ⟨_, rfl⟩
  have early : timeFormatNow 39600 ≤ timeFormat (secToTime 360000) :=
    compares.atLeast.mpr (by decide)
  revert early
  decide

/-! ## What the view lets through -/

theorem ComparesAsMinutes.passes_iff {value now : Int} (compares : ComparesAsMinutes value now)
    (type : ETimeConstraintType) (jobName : String) :
    TimeConstraintRow.Passes ⟨type, secToTime value, jobName⟩ now ↔
      TimeConstraintRow.Holds ⟨type, value, jobName⟩ now := by
  cases type with
  | «at» => exact compares.equal.trans eq_comm
  | before => exact compares.atLeast
  | after => exact compares.atMost

/-- One of the constraints that `add_job` writes for a job passes if and only if one of
the constraints of the request holds, as long as their values compare like minutes. -/
theorem exists_passes_of_compares {job : TJob} {now : Int}
    (compares : ∀ constraint ∈ job.timeConstraints, ComparesAsMinutes constraint.value now) :
    (∃ row ∈ constraintsOfJob job, row.Passes now) ↔
      ∃ constraint ∈ job.timeConstraints,
        TimeConstraintRow.Holds ⟨constraint.type, constraint.value, job.name⟩ now := by
  simp only [constraintsOfJob, List.mem_map]
  constructor
  · rintro ⟨_, ⟨constraint, member, rfl⟩, passes⟩
    exact ⟨constraint, member,
      ((compares constraint member).passes_iff constraint.type job.name).mp passes⟩
  · rintro ⟨constraint, member, holds⟩
    exact ⟨_, ⟨constraint, member, rfl⟩,
      ((compares constraint member).passes_iff constraint.type job.name).mpr holds⟩

end Domain

end OpenWorkloadScheduler
