import OpenWorkloadScheduler.Config
import OpenWorkloadScheduler.Domain.Switching
import OpenWorkloadScheduler.Rpc.Durations
import OpenWorkloadScheduler.Store.Constraints

/-!
# The settings of a domain

The constructor of `Domain` reads the name, the duration of the plannings and the
initial start time from the configuration.  The start time is a time of the day
and the duration any number of minutes, so that a planning may begin at any hour
and last beyond midnight, while the views compare constraints with the time of
the day.
-/

namespace OpenWorkloadScheduler

open Rpc Store Foundations

namespace Domain

/-! ## The constructor -/

/-- The two numbers that `^([[:digit:]]{2}):([[:digit:]]{2})$` finds in a line. -/
def timeOfLine : List Char → Option (List Char × List Char)
  | [first, second, ':', third, fourth] =>
      if [first, second, third, fourth].all Char.isDigit then
        some ([first, second], [third, fourth])
      else none
  | _ => none

/-- `time_matching`. -/
def timeMatch : List Char → Option (List Char × List Char) :=
  searchLines timeOfLine

/-- A number of the duration in seconds, in the arithmetic of `int`. -/
def durationPart : Int → Option (List Char) → Except Raised Int :=
  numberPart 32 "int overflow" "Error: cannot set planning duration. Cannot cast "

def durationOf (text : List Char) : Except Raised Int := do
  let hours ← durationPart 3600 (hoursMatch text)
  let minutes ← durationPart 60 (minutesMatch text)
  if hours + minutes = 0 then throw (.exProcessing "Error: planning duration is 0")
  return hours + minutes

/-- A time that does not match leaves the initial start time at 0. -/
def startTimeOf (text : List Char) : Int :=
  match timeMatch text with
  | none => 0
  | some (hours, minutes) =>
      Nat.ofDigitChars 10 hours 0 * 3600 + Nat.ofDigitChars 10 minutes 0 * 60

/-- The beginning of the constructor `Domain::Domain`, up to the preparation of the
database. -/
def configured (config : Config) : Except Raised Domain := do
  let duration ← config.param "day_duration"
  let name ← config.param "domain_name"
  if name = "" then throw (.exProcessing "The domain's name is empty")
  let planningDuration ← durationOf duration.toList
  let startTime ← config.param "day_start_time"
  return { name, planningDuration, initialPlanningStartTime := startTimeOf startTime.toList }

/-! ## What the settings give -/

theorem durationPart_bounds {factor seconds : Int} {found : Option (List Char)}
    (positive : 0 ≤ factor) (numeral : ∀ digits, found = some digits → IsNumeral digits)
    (read : durationPart factor found = .ok seconds) : 0 ≤ seconds ∧ factor ∣ seconds := by
  obtain rfl := numberPart_eq_ok 32 _ _ numeral read
  exact ⟨Int.mul_nonneg (Int.natCast_nonneg _) positive, Int.dvd_mul_left _ factor⟩

/-- A duration that the constructor accepts is a positive number of minutes. -/
theorem durationOf_bounds {text : List Char} {duration : Int}
    (read : durationOf text = .ok duration) : 0 < duration ∧ 60 ∣ duration := by
  obtain ⟨hours, hoursRead, rest⟩ := except_bind_eq_ok_iff.mp read
  obtain ⟨minutes, minutesRead, rest⟩ := except_bind_eq_ok_iff.mp rest
  obtain ⟨hoursPositive, hoursDivide⟩ :=
    durationPart_bounds (by decide) (fun _ => isNumeral_of_hoursMatch) hoursRead
  obtain ⟨minutesPositive, minutesDivide⟩ :=
    durationPart_bounds (by decide) (fun _ => isNumeral_of_minutesMatch) minutesRead
  dsimp only at rest
  split at rest
  · cases rest
  · cases rest
    exact ⟨by omega, by omega⟩

theorem durationOf_of_configured {config : Config} {domain : Domain}
    (settings : configured config = .ok domain) :
    domain.name ≠ "" ∧ ∃ text, durationOf text = .ok domain.planningDuration := by
  obtain ⟨duration, _, rest⟩ := except_bind_eq_ok_iff.mp settings
  obtain ⟨name, _, rest⟩ := except_bind_eq_ok_iff.mp rest
  dsimp only at rest
  split at rest
  · cases rest
  · rename_i named
    obtain ⟨planningDuration, read, rest⟩ := except_bind_eq_ok_iff.mp rest
    obtain ⟨startTime, _, ⟨⟩⟩ := except_bind_eq_ok_iff.mp rest
    exact ⟨named, duration.toList, read⟩

theorem planningDuration_of_configured {config : Config} {domain : Domain}
    (settings : configured config = .ok domain) :
    0 < domain.planningDuration ∧ 60 ∣ domain.planningDuration := by
  obtain ⟨_, text, read⟩ := durationOf_of_configured settings
  exact durationOf_bounds read

/-! ## Constraints within a planning -/

/-- A constraint that `add_job` stores is monotone within the planning that begins at
the given time if and only if it is of the type `at`, no day begins within the
planning, or its test is the same at the first and the last second of a day. -/
theorem storedConstraint_monotone_iff (domain : Domain) (start : Int) (jobName : String)
    (constraint : TTimeConstraint) :
    TimeConstraintRow.MonotoneWithin ⟨constraint.type, secToTime constraint.value, jobName⟩
        start (start + domain.planningDuration) ↔
      constraint.type = .at ∨ Unbroken 86400 start (start + domain.planningDuration) ∨
        (TimeConstraintRow.Passes ⟨constraint.type, secToTime constraint.value, jobName⟩ 0 ↔
          TimeConstraintRow.Passes ⟨constraint.type, secToTime constraint.value, jobName⟩
            86399) :=
  TimeConstraintRow.monotoneWithin_iff _ _ _

/-- A planning that begins at 18:10 and lasts for a day. -/
def eveningConfig : Config where
  configOptions := [⟨"domain_name", "prod"⟩, ⟨"day_start_time", "18:10"⟩,
    ⟨"day_duration", "24h"⟩].toAList

def eveningDomain : Domain where
  name := "prod"
  initialPlanningStartTime := 65400
  planningDuration := 86400

theorem configured_eveningConfig : configured eveningConfig = .ok eveningDomain := by
  rfl

/-- What may run after 19:00 may run at 20:00 and no more at 2:00 of the same planning. -/
theorem storedConstraint_stops_at_midnight :
    ¬ ∀ (config : Config) (domain : Domain), configured config = .ok domain →
      ∀ start, IsBoundary domain start → ∀ (jobName : String) (constraint : TTimeConstraint),
        (∃ statement, timeConstraintStatement domain jobName constraint = .ok statement) →
          TimeConstraintRow.MonotoneWithin
            ⟨constraint.type, secToTime constraint.value, jobName⟩
            start (start + domain.planningDuration) := by
  intro always
  have law := always eveningConfig eveningDomain configured_eveningConfig 65400 (by decide)
    "backup" { type := .after, value := 68400 } ⟨_, rfl⟩ 72000 93600 (by decide) (by decide)
    (by decide)
  revert law
  decide

end Domain

end OpenWorkloadScheduler
