import OpenWorkloadScheduler.Foundations.Periods
import OpenWorkloadScheduler.Store.Readiness

/-!
# The constraints of a job

The purpose of `get_ready_time` is to hold a job back until its constraints allow
it.  The view compares texts, the hour and the minute of a constraint with those
of the clock, and it joins the tests of the three types by `or`: one constraint
that passes is enough, whatever the others say.
-/

namespace OpenWorkloadScheduler.Store

open Rpc

/-! ## Texts of hours and minutes -/

namespace Tables

theorem digitChar_lt_iff {first second : Nat} (firstSmall : first < 10)
    (secondSmall : second < 10) :
    Nat.digitChar first < Nat.digitChar second ↔ first < second := by
  have all : ∀ first < 10, ∀ second < 10,
      (Nat.digitChar first < Nat.digitChar second ↔ first < second) := by
    decide
  exact all first firstSmall second secondSmall

theorem digitChar_eq_iff {first second : Nat} (firstSmall : first < 10)
    (secondSmall : second < 10) :
    Nat.digitChar first = Nat.digitChar second ↔ first = second := by
  have all : ∀ first < 10, ∀ second < 10,
      (Nat.digitChar first = Nat.digitChar second ↔ first = second) := by
    decide
  exact all first firstSmall second secondSmall

theorem toList_twoDigits {value : Nat} (small : value < 100) :
    (twoDigits value).toList = [Nat.digitChar (value / 10), Nat.digitChar (value % 10)] := by
  have all : ∀ value < 100,
      (twoDigits value).toList = [Nat.digitChar (value / 10), Nat.digitChar (value % 10)] := by
    decide +kernel
  exact all value small

/-- Below 100 hours, the text has two digits for the hour and two for the minute. -/
theorem toList_timeFormat {value : Nat} (small : value < 360000) :
    (timeFormat value).toList =
      [Nat.digitChar (value / 36000), Nat.digitChar (value / 3600 % 10), ' ',
        Nat.digitChar (value / 600 % 6), Nat.digitChar (value / 60 % 10)] := by
  have hours := @toList_twoDigits (value / 3600) (by omega)
  have minutes := @toList_twoDigits (value / 60 % 60) (by omega)
  have first : value / 3600 / 10 = value / 36000 := by omega
  have third : value / 60 % 60 / 10 = value / 600 % 6 := by omega
  have fourth : value / 60 % 60 % 10 = value / 60 % 10 := by omega
  rw [first] at hours
  rw [third, fourth] at minutes
  have positive : ¬ (value : Int) < 0 := by omega
  rw [timeFormat, if_neg positive, Int.natAbs_natCast, String.toList_append, String.toList_append,
    String.toList_append, hours, minutes]
  rfl

theorem timeFormat_lt_iff_of_nat {first second : Nat} (firstSmall : first < 360000)
    (secondSmall : second < 360000) :
    timeFormat first < timeFormat second ↔ first / 60 < second / 60 := by
  rw [String.lt_iff, toList_timeFormat firstSmall, toList_timeFormat secondSmall]
  simp only [List.cons_lt_cons_iff]
  rw [digitChar_lt_iff (by omega) (by omega), digitChar_lt_iff (by omega) (by omega),
    digitChar_lt_iff (by omega) (by omega), digitChar_lt_iff (by omega) (by omega),
    digitChar_eq_iff (by omega) (by omega), digitChar_eq_iff (by omega) (by omega),
    digitChar_eq_iff (by omega) (by omega), digitChar_eq_iff (by omega) (by omega)]
  have nothing : ¬ ([] : List Char) < [] := by decide
  have blank : ¬ ' ' < ' ' := by decide
  simp only [nothing, blank, and_false, or_false, false_or, true_and]
  omega

/-- The sign sorts below the digits. -/
theorem timeFormat_lt_of_negative {value : Int} (negative : value < 0) {second : Nat}
    (small : second < 360000) :
    timeFormat value < timeFormat second := by
  have below : ∀ digit < 10, '-' < Nat.digitChar digit := by decide
  rw [String.lt_iff, toList_timeFormat small, timeFormat, if_pos negative, String.toList_append,
    String.toList_append, String.toList_append]
  exact List.cons_lt_cons_iff.mpr (Or.inl (below _ (by omega)))

end Tables

/-! ## One constraint -/

namespace TimeConstraintRow

open Tables

/-- The constraint passes the test that `get_ready_time` has for its type. -/
def Passes (constraint : TimeConstraintRow) (now : Int) : Prop :=
  match constraint.timeCType with
  | .at => timeFormat constraint.timeCValue = timeFormatNow now
  | .before => timeFormatNow now ≤ timeFormat constraint.timeCValue
  | .after => timeFormat constraint.timeCValue ≤ timeFormatNow now

instance : (constraint : TimeConstraintRow) → (now : Int) → Decidable (constraint.Passes now)
  | ⟨.at, _, _⟩, _ => inferInstanceAs (Decidable (_ = _))
  | ⟨.before, _, _⟩, _ => inferInstanceAs (Decidable (_ ≤ _))
  | ⟨.after, _, _⟩, _ => inferInstanceAs (Decidable (_ ≤ _))

/-- What the type of a constraint says: the clock shows its minute, is not past it, or
has reached it. -/
def Holds (constraint : TimeConstraintRow) (now : Int) : Prop :=
  match constraint.timeCType with
  | .at => now % 86400 / 60 = constraint.timeCValue / 60
  | .before => now % 86400 / 60 ≤ constraint.timeCValue / 60
  | .after => constraint.timeCValue / 60 ≤ now % 86400 / 60

instance : (constraint : TimeConstraintRow) → (now : Int) → Decidable (constraint.Holds now)
  | ⟨.at, _, _⟩, _ => inferInstanceAs (Decidable (_ = _))
  | ⟨.before, _, _⟩, _ => inferInstanceAs (Decidable (_ ≤ _))
  | ⟨.after, _, _⟩, _ => inferInstanceAs (Decidable (_ ≤ _))

/-- Below 100 hours the texts compare like the minutes. -/
theorem timeFormat_lt_iff {value : Int} (small : value < 360000) (now : Int) :
    (timeFormat value < timeFormatNow now ↔ value / 60 < now % 86400 / 60) ∧
      (timeFormatNow now < timeFormat value ↔ now % 86400 / 60 < value / 60) := by
  obtain ⟨clock, clockEq⟩ := Int.eq_ofNat_of_zero_le (by omega : 0 ≤ now % 86400)
  have clockSmall : clock < 360000 := by omega
  rw [timeFormatNow, clockEq]
  by_cases negative : value < 0
  · have below := timeFormat_lt_of_negative negative clockSmall
    exact ⟨iff_of_true below (by omega), iff_of_false (String.lt_asymm below) (by omega)⟩
  · obtain ⟨seconds, rfl⟩ := Int.eq_ofNat_of_zero_le (not_lt.mp negative)
    have secondsSmall : seconds < 360000 := by omega
    rw [timeFormat_lt_iff_of_nat secondsSmall clockSmall,
      timeFormat_lt_iff_of_nat clockSmall secondsSmall]
    constructor <;> omega

theorem passes_iff_holds {constraint : TimeConstraintRow}
    (small : constraint.timeCValue < 360000) (now : Int) :
    constraint.Passes now ↔ constraint.Holds now := by
  obtain ⟨below, above⟩ := timeFormat_lt_iff small now
  unfold Passes Holds
  cases constraint.timeCType with
  | before => exact String.not_lt.symm.trans ((not_congr below).trans not_lt)
  | after => exact String.not_lt.symm.trans ((not_congr above).trans not_lt)
  | «at» =>
      constructor
      · intro same
        dsimp only at same
        rw [same] at below above
        have first := mt below.mpr (String.lt_irrefl _)
        have second := mt above.mpr (String.lt_irrefl _)
        omega
      · intro same
        dsimp only at same
        rw [same] at below above
        exact String.le_antisymm (String.not_lt.mp (mt above.mp (lt_irrefl _)))
          (String.not_lt.mp (mt below.mp (lt_irrefl _)))

/-! ### Over the day -/

theorem timeFormatNow_mono {earlier later : Int} (positive : 0 ≤ earlier)
    (ordered : earlier ≤ later) (sameDay : later < 86400) :
    timeFormatNow earlier ≤ timeFormatNow later := by
  obtain ⟨first, rfl⟩ := Int.eq_ofNat_of_zero_le positive
  obtain ⟨second, rfl⟩ := Int.eq_ofNat_of_zero_le (positive.trans ordered)
  have firstDay : (first : Int) % 86400 = first := Int.emod_eq_of_lt positive (by omega)
  have secondDay : (second : Int) % 86400 = second := Int.emod_eq_of_lt (by omega) sameDay
  rw [timeFormatNow, timeFormatNow, firstDay, secondDay, ← String.not_lt,
    timeFormat_lt_iff_of_nat (by omega) (by omega)]
  omega

theorem passes_emod (constraint : TimeConstraintRow) (now : Int) :
    constraint.Passes now ↔ constraint.Passes (now % 86400) := by
  unfold Passes timeFormatNow
  rw [Int.emod_emod]

theorem rises_of_after {constraint : TimeConstraintRow}
    (type : constraint.timeCType = .after) : Foundations.Rises 86400 constraint.Passes where
  recurs := passes_emod constraint
  rises earlier later positive ordered sameDay passes := by
    rw [Passes, type] at passes ⊢
    exact String.le_trans passes (timeFormatNow_mono positive ordered sameDay)

theorem rises_of_before {constraint : TimeConstraintRow}
    (type : constraint.timeCType = .before) :
    Foundations.Rises 86400 fun now => ¬ constraint.Passes now where
  recurs now := not_congr (passes_emod constraint now)
  rises earlier later positive ordered sameDay fails passes := by
    rw [Passes, type] at passes
    apply fails
    rw [Passes, type]
    exact String.le_trans (timeFormatNow_mono positive ordered sameDay) passes

/-- Between the two times, what may run after an instant does not have to stop again,
and what has to run before an instant may run from the beginning. -/
def MonotoneWithin (constraint : TimeConstraintRow) (first last : Int) : Prop :=
  ∀ earlier later, first ≤ earlier → earlier ≤ later → later < last →
    (constraint.timeCType = .after → constraint.Passes earlier → constraint.Passes later) ∧
      (constraint.timeCType = .before → constraint.Passes later → constraint.Passes earlier)

/-- A constraint of the type `after` or `before` is monotone if and only if no day
begins in between, or its test is the same at the first and the last second of a day. -/
theorem monotoneWithin_iff (constraint : TimeConstraintRow) (first last : Int) :
    constraint.MonotoneWithin first last ↔
      constraint.timeCType = .at ∨ Foundations.Unbroken 86400 first last ∨
        (constraint.Passes 0 ↔ constraint.Passes 86399) := by
  cases type : constraint.timeCType with
  | «at» => simp [MonotoneWithin, type]
  | after =>
      have law : Foundations.Stays constraint.Passes first last ↔ _ :=
        (rises_of_after type).stays_iff (by decide)
      simpa [MonotoneWithin, type, Foundations.Stays] using law
  | before =>
      have law : Foundations.Stays (fun now => ¬ constraint.Passes now) first last ↔ _ :=
        (rises_of_before type).stays_iff (by decide)
      rw [not_iff_not] at law
      simpa [MonotoneWithin, type, Foundations.Stays, not_imp_not] using law

end TimeConstraintRow

/-! ## The view -/

namespace Tables

theorem mem_constrained {tables : Tables} {type : ETimeConstraintType} {test : Int → Bool}
    {name : String} :
    name ∈ tables.constrained type test ↔
      ∃ constraint ∈ tables.timeConstraint, constraint.timeCJobName = name ∧
        constraint.timeCType = type ∧ test constraint.timeCValue = true := by
  simp only [constrained, List.mem_map, List.mem_filter, Bool.decide_and, Bool.and_eq_true,
    decide_eq_true_eq]
  constructor
  · rintro ⟨constraint, ⟨member, passes⟩, named⟩
    exact ⟨constraint, member, named, passes⟩
  · rintro ⟨constraint, member, named, passes⟩
    exact ⟨constraint, ⟨member, passes⟩, named⟩

/-- A row with constraints passes when one of them passes. -/
theorem passesTime_iff_exists {tables : Tables} {now : Int} {row : JobRow}
    (constrained : ∃ constraint ∈ tables.timeConstraint,
      constraint.timeCJobName = row.jobName) :
    tables.passesTime now row = true ↔
      ∃ constraint ∈ tables.timeConstraint, constraint.timeCJobName = row.jobName ∧
        constraint.Passes now := by
  have named : ¬ row.jobName ∉ tables.timeConstraint.map TimeConstraintRow.timeCJobName :=
    not_not.mpr (List.mem_map.mpr constrained)
  rw [passesTime, decide_eq_false named, Bool.false_xor]
  simp only [Bool.or_eq_true, decide_eq_true_eq, mem_constrained]
  constructor
  · rintro ((⟨constraint, member, own, type, passes⟩ | ⟨constraint, member, own, type, passes⟩) |
      ⟨constraint, member, own, type, passes⟩)
    all_goals
      refine ⟨constraint, member, own, ?_⟩
      rw [TimeConstraintRow.Passes, type]
      exact passes
  · rintro ⟨constraint, member, own, passes⟩
    rw [TimeConstraintRow.Passes] at passes
    cases type : constraint.timeCType with
    | «at» =>
        rw [type] at passes
        exact Or.inl (Or.inl ⟨constraint, member, own, type, passes⟩)
    | before =>
        rw [type] at passes
        exact Or.inl (Or.inr ⟨constraint, member, own, type, passes⟩)
    | after =>
        rw [type] at passes
        exact Or.inr ⟨constraint, member, own, type, passes⟩

/-- In every state and at every time, a job that has constraints is in `get_ready_time`
if and only if one of them passes the test of its type, which below 100 hours says what
the type says. -/
theorem mem_getReadyTime_iff_exists {tables : Tables} {now : Int} {row : JobRow}
    (member : row ∈ tables.job)
    (constrained : ∃ constraint ∈ tables.timeConstraint,
      constraint.timeCJobName = row.jobName) :
    (row.jobName ∈ tables.getReadyTime now ↔
        ∃ constraint ∈ tables.timeConstraint, constraint.timeCJobName = row.jobName ∧
          constraint.Passes now) ∧
      ∀ constraint ∈ tables.timeConstraint, constraint.timeCValue < 360000 →
        (constraint.Passes now ↔ constraint.Holds now) :=
  ⟨(mem_getReadyTime member).trans (passesTime_iff_exists constrained),
    fun _ _ small => TimeConstraintRow.passes_iff_holds small now⟩

/-- From 100 hours on they do not compare alike: the clock never passes 100:00. -/
example : ¬ (⟨.before, 360000, "backup"⟩ : TimeConstraintRow).Passes 45000 ∧
    (⟨.before, 360000, "backup"⟩ : TimeConstraintRow).Holds 45000 := by
  decide

/-- A job that may start after 18:00 and before 20:00. -/
def eveningJob : Tables where
  node := [⟨"localhost", 10⟩]
  job := [{ jobName := "backup", jobCmdLine := "/bin/ls", jobNodeName := "localhost" }]
  timeConstraint := [⟨.after, 64800, "backup"⟩, ⟨.before, 72000, "backup"⟩]

theorem mem_getReadyTime_of_eveningJob :
    "backup" ∈ eveningJob.getReadyTime 43200 ↔
      ∃ constraint ∈ eveningJob.timeConstraint, constraint.timeCJobName = "backup" ∧
        constraint.Passes 43200 :=
  (@mem_getReadyTime_iff_exists eveningJob 43200
    { jobName := "backup", jobCmdLine := "/bin/ls", jobNodeName := "localhost" }
    (by decide) (by decide)).1

/-- At noon the job is let through, because it is not yet 20:00. -/
theorem getReadyTime_offers_outside_interval :
    ¬ ∀ (tables : Tables) (now : Int), ∀ row ∈ tables.job,
      (∃ constraint ∈ tables.timeConstraint, constraint.timeCJobName = row.jobName) →
        (row.jobName ∈ tables.getReadyTime now ↔
          ∀ constraint ∈ tables.timeConstraint, constraint.timeCJobName = row.jobName →
            constraint.Holds now) := by
  intro always
  have interval := always eveningJob 43200
    { jobName := "backup", jobCmdLine := "/bin/ls", jobNodeName := "localhost" }
    (by decide) (by decide)
  have offered : "backup" ∈ eveningJob.getReadyTime 43200 := by decide
  have late := interval.mp offered ⟨.after, 64800, "backup"⟩ (by decide) rfl
  revert late
  decide

end Tables

end OpenWorkloadScheduler.Store
