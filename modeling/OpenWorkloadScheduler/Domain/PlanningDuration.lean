import OpenWorkloadScheduler.Domain.Configuration

/-!
# The duration of the plannings

A `day_duration` gives hours, minutes or both.  The constructor of `Domain` looks for
the hours at one end and for the minutes at the other, whatever stands in between, and
computes with `int` before it adds up what it has found.
-/

namespace OpenWorkloadScheduler.Domain

open Rpc Foundations

/-! ## What a duration is -/

/-- The text gives a number of hours and of minutes. -/
inductive Denotes : List Char → Nat → Nat → Prop
  | hours {digits : List Char} {hours : Nat} :
      digitsValue digits = some hours → Denotes (digits ++ ['h']) hours 0
  | minutes {digits : List Char} {minutes : Nat} :
      digitsValue digits = some minutes → Denotes (digits ++ ['m', 'i', 'n']) 0 minutes
  | both {hourDigits minuteDigits : List Char} {hours minutes : Nat} :
      digitsValue hourDigits = some hours → digitsValue minuteDigits = some minutes →
        Denotes (hourDigits ++ ['h'] ++ (minuteDigits ++ ['m', 'i', 'n'])) hours minutes

theorem Denotes.getLast? {text : List Char} {hours minutes : Nat}
    (denotes : Denotes text hours minutes) :
    text.getLast? = some 'h' ∨ text.getLast? = some 'n' := by
  cases denotes with
  | hours _ => exact Or.inl List.getLast?_concat
  | minutes _ => exact Or.inr (by rw [List.getLast?_append]; rfl)
  | both _ _ => exact Or.inr (by rw [List.getLast?_append, List.getLast?_append]; rfl)

/-- The text gives a positive duration that `planning_duration` can hold. -/
def IsDuration (text : List Char) (seconds : Int) : Prop :=
  ∃ hours minutes, Denotes text hours minutes ∧ seconds = 3600 * hours + 60 * minutes ∧
    0 < seconds ∧ seconds < 2 ^ 63

/-- The constructor accepts the durations with their numbers of seconds, and rejects
every other text. -/
def TreatsDuration (result : Except Raised Domain) (text : List Char) : Prop :=
  (∀ seconds, IsDuration text seconds →
      ∃ domain, result = .ok domain ∧ domain.planningDuration = seconds) ∧
    ((∀ seconds, ¬ IsDuration text seconds) →
      ∃ message, result = .error (.exProcessing message))

/-! ## What the constructor finds -/

/-- The number that `duration_hour_matching` finds in the text. -/
def hoursNumber (text : List Char) : Nat :=
  numberOf (hoursMatch text)

/-- The number that `duration_minute_matching` finds in the text. -/
def minutesNumber (text : List Char) : Nat :=
  numberOf (minutesMatch text)

section Found

variable {text : List Char}

theorem Denotes.numbers {hours minutes : Nat} (denotes : Denotes text hours minutes) :
    hoursNumber text = hours ∧ minutesNumber text = minutes := by
  unfold hoursNumber minutesNumber
  cases denotes with
  | hours valued =>
      have numeral := isNumeral_of_digitsValue valued
      rw [hoursMatch_hours numeral, minutesMatch_hours numeral]
      exact ⟨numberOf_of_digitsValue valued, rfl⟩
  | minutes valued =>
      have numeral := isNumeral_of_digitsValue valued
      rw [hoursMatch_minutes numeral, minutesMatch_minutes numeral]
      exact ⟨rfl, numberOf_of_digitsValue valued⟩
  | both hoursValued minutesValued =>
      have hoursNumeral := isNumeral_of_digitsValue hoursValued
      have minutesNumeral := isNumeral_of_digitsValue minutesValued
      rw [hoursMatch_both hoursNumeral minutesNumeral,
        minutesMatch_both hoursNumeral minutesNumeral]
      exact ⟨numberOf_of_digitsValue hoursValued, numberOf_of_digitsValue minutesValued⟩

theorem IsDuration.eq_numbers {seconds : Int} (duration : IsDuration text seconds) :
    seconds = 3600 * hoursNumber text + 60 * minutesNumber text ∧ 0 < seconds := by
  obtain ⟨hours, minutes, denotes, rfl, positive, _⟩ := duration
  obtain ⟨hoursFound, minutesFound⟩ := denotes.numbers
  rw [hoursFound, minutesFound]
  exact ⟨rfl, positive⟩

theorem hoursPart_cases (text : List Char) :
    ((hoursNumber text : Int) * 3600 < 2 ^ 31 ∧
        durationPart 3600 (hoursMatch text) = .ok (hoursNumber text * 3600)) ∨
      (2 ^ 31 ≤ (hoursNumber text : Int) ∧
        ∃ message, durationPart 3600 (hoursMatch text) = .error (.exProcessing message)) ∨
      ((hoursNumber text : Int) < 2 ^ 31 ∧ 2 ^ 31 ≤ (hoursNumber text : Int) * 3600 ∧
        durationPart 3600 (hoursMatch text) = .error (.undefinedBehaviour "int overflow")) :=
  numberPart_cases 32 _ _ fun _ => isNumeral_of_hoursMatch

theorem minutesPart_cases (text : List Char) :
    ((minutesNumber text : Int) * 60 < 2 ^ 31 ∧
        durationPart 60 (minutesMatch text) = .ok (minutesNumber text * 60)) ∨
      (2 ^ 31 ≤ (minutesNumber text : Int) ∧
        ∃ message, durationPart 60 (minutesMatch text) = .error (.exProcessing message)) ∨
      ((minutesNumber text : Int) < 2 ^ 31 ∧ 2 ^ 31 ≤ (minutesNumber text : Int) * 60 ∧
        durationPart 60 (minutesMatch text) = .error (.undefinedBehaviour "int overflow")) :=
  numberPart_cases 32 _ _ fun _ => isNumeral_of_minutesMatch

end Found

/-- The seconds of both numbers fit into `int`. -/
def FitsInt (text : List Char) : Prop :=
  (hoursNumber text : Int) * 3600 < 2 ^ 31 ∧ (minutesNumber text : Int) * 60 < 2 ^ 31

/-- The first number that does not fit into `int` does so before it is multiplied, or
nothing but zeros have been found. -/
def LeavesNothing (text : List Char) : Prop :=
  2 ^ 31 ≤ (hoursNumber text : Int) ∨
    (hoursNumber text : Int) * 3600 < 2 ^ 31 ∧
      (2 ^ 31 ≤ (minutesNumber text : Int) ∨ hoursNumber text = 0 ∧ minutesNumber text = 0)

/-- The constructor accepts the numbers, rejects them, or multiplies beyond `int`. -/
theorem durationOf_cases (text : List Char) :
    (FitsInt text ∧ ¬ LeavesNothing text ∧
        durationOf text = .ok (3600 * hoursNumber text + 60 * minutesNumber text)) ∨
      (LeavesNothing text ∧ ∃ message, durationOf text = .error (.exProcessing message)) ∨
      (¬ FitsInt text ∧ ¬ LeavesNothing text ∧
        durationOf text = .error (.undefinedBehaviour "int overflow")) := by
  unfold FitsInt LeavesNothing durationOf
  rcases hoursPart_cases text with
    ⟨hoursFit, hours⟩ | ⟨beyond, message, hours⟩ | ⟨small, beyond, hours⟩
  · rw [hours, except_ok_bind]
    rcases minutesPart_cases text with
      ⟨minutesFit, minutes⟩ | ⟨beyond, message, minutes⟩ | ⟨small, beyond, minutes⟩
    · rw [minutes, except_ok_bind]
      by_cases zero : hoursNumber text = 0 ∧ minutesNumber text = 0
      · refine Or.inr (Or.inl ⟨Or.inr ⟨hoursFit, Or.inr zero⟩,
          "Error: planning duration is 0", ?_⟩)
        rw [if_pos (by omega)]
        rfl
      · refine Or.inl ⟨⟨hoursFit, minutesFit⟩, by omega, ?_⟩
        rw [if_neg (by omega)]
        exact congrArg Except.ok (by omega)
    · rw [minutes]
      exact Or.inr (Or.inl ⟨Or.inr ⟨hoursFit, Or.inl beyond⟩, message, rfl⟩)
    · rw [minutes]
      exact Or.inr (Or.inr ⟨by omega, by omega, rfl⟩)
  · rw [hours]
    exact Or.inr (Or.inl ⟨Or.inl beyond, message, rfl⟩)
  · rw [hours]
    exact Or.inr (Or.inr ⟨by omega, by omega, rfl⟩)

section Treated

variable {text : List Char} {result : Except Raised Domain}

theorem treatsDuration_of_isDuration {seconds : Int} (lasting : IsDuration text seconds) :
    TreatsDuration result text ↔
      ∃ domain, result = .ok domain ∧ domain.planningDuration = seconds := by
  constructor
  · rintro ⟨accepts, _⟩
    exact accepts seconds lasting
  · rintro ⟨domain, accepted, same⟩
    refine ⟨fun other otherLasting => ⟨domain, accepted, ?_⟩,
      fun none => absurd lasting (none seconds)⟩
    rw [same, lasting.eq_numbers.1, otherLasting.eq_numbers.1]

theorem treatsDuration_of_not_isDuration (none : ∀ seconds, ¬ IsDuration text seconds) :
    TreatsDuration result text ↔ ∃ message, result = .error (.exProcessing message) := by
  constructor
  · rintro ⟨_, rejects⟩
    exact rejects none
  · intro rejected
    exact ⟨fun seconds lasting => absurd lasting (none seconds), fun _ => rejected⟩

end Treated

theorem not_leavesNothing_of_isDuration {text : List Char} {seconds : Int}
    (duration : IsDuration text seconds) (fits : FitsInt text) : ¬ LeavesNothing text := by
  have numbers := duration.eq_numbers
  unfold FitsInt at fits
  unfold LeavesNothing
  omega

/-! ## The constructor -/

section Constructor

variable {config : Config} {name startTime duration : String}

/-- With the other settings in order, the constructor is left as it is left at the
duration. -/
theorem configured_eq (named : config.getParam "domain_name" = some name) (filled : name ≠ "")
    (starts : config.getParam "day_start_time" = some startTime)
    (lasts : config.getParam "day_duration" = some duration) :
    configured config = (durationOf duration.toList).map fun planningDuration =>
      { name, planningDuration, initialPlanningStartTime := startTimeOf startTime.toList } := by
  simp only [configured, Config.param_of_getParam lasts, Config.param_of_getParam named,
    Config.param_of_getParam starts, except_ok_bind, if_neg filled]
  cases durationOf duration.toList <;> rfl

/-- With the other settings in order, the constructor accepts the durations with their
numbers of seconds and rejects every other text if and only if the text is a duration
whose parts fit into `int`, or it is none and leaves nothing to accept. -/
theorem configured_treats_duration_iff
    (named : config.getParam "domain_name" = some name) (filled : name ≠ "")
    (starts : config.getParam "day_start_time" = some startTime)
    (lasts : config.getParam "day_duration" = some duration) :
    TreatsDuration (configured config) duration.toList ↔
      (∃ seconds, IsDuration duration.toList seconds) ∧ FitsInt duration.toList ∨
        (∀ seconds, ¬ IsDuration duration.toList seconds) ∧ LeavesNothing duration.toList := by
  rw [configured_eq named filled starts lasts]
  by_cases isDuration : ∃ seconds, IsDuration duration.toList seconds
  · obtain ⟨seconds, lasting⟩ := isDuration
    rw [treatsDuration_of_isDuration lasting]
    rcases durationOf_cases duration.toList with
      ⟨fits, _, read⟩ | ⟨nothing, message, read⟩ | ⟨unfit, _, read⟩
    · rw [read]
      exact iff_of_true ⟨_, rfl, lasting.eq_numbers.1.symm⟩ (Or.inl ⟨⟨seconds, lasting⟩, fits⟩)
    · rw [read]
      refine iff_of_false (by simp [Except.map]) ?_
      rintro (⟨_, fits⟩ | ⟨none, _⟩)
      · exact not_leavesNothing_of_isDuration lasting fits nothing
      · exact none seconds lasting
    · rw [read]
      refine iff_of_false (by simp [Except.map]) ?_
      rintro (⟨_, fits⟩ | ⟨none, _⟩)
      · exact unfit fits
      · exact none seconds lasting
  · have none : ∀ seconds, ¬ IsDuration duration.toList seconds := not_exists.mp isDuration
    rw [treatsDuration_of_not_isDuration none]
    rcases durationOf_cases duration.toList with
      ⟨_, something, read⟩ | ⟨nothing, message, read⟩ | ⟨_, something, read⟩
    · rw [read]
      refine iff_of_false (by simp [Except.map]) ?_
      rintro (⟨some, _⟩ | ⟨_, nothing⟩)
      · exact isDuration some
      · exact something nothing
    · rw [read]
      exact iff_of_true ⟨message, rfl⟩ (Or.inr ⟨none, nothing⟩)
    · rw [read]
      refine iff_of_false (by simp [Except.map]) ?_
      rintro (⟨some, _⟩ | ⟨_, nothing⟩)
      · exact isDuration some
      · exact something nothing

end Constructor

theorem configured_treats_duration_iff_eveningConfig :
    TreatsDuration (configured eveningConfig) "24h".toList ↔
      (∃ seconds, IsDuration "24h".toList seconds) ∧ FitsInt "24h".toList ∨
        (∀ seconds, ¬ IsDuration "24h".toList seconds) ∧ LeavesNothing "24h".toList :=
  @configured_treats_duration_iff eveningConfig "prod" "18:10" "24h" rfl (by decide) rfl rfl

/-- Thirty of no unit after an hour. -/
def unitlessConfig : Config where
  configOptions := [⟨"domain_name", "prod"⟩, ⟨"day_start_time", "18:10"⟩,
    ⟨"day_duration", "1h30"⟩].toAList

theorem not_isDuration_unitless (seconds : Int) : ¬ IsDuration "1h30".toList seconds := by
  rintro ⟨hours, minutes, denotes, _⟩
  exact absurd denotes.getLast? (by decide)

/-- The constructor accepts the text `1h30` as an hour. -/
theorem configured_accepts_unitless :
    ¬ ∀ (config : Config) (name startTime duration : String),
      config.getParam "domain_name" = some name → name ≠ "" →
      config.getParam "day_start_time" = some startTime →
      config.getParam "day_duration" = some duration →
      TreatsDuration (configured config) duration.toList := by
  intro always
  have treated := always unitlessConfig "prod" "18:10" "1h30" rfl (by decide) rfl rfl
  obtain ⟨message, rejected⟩ :=
    (treatsDuration_of_not_isDuration not_isDuration_unitless).mp treated
  have accepted : configured unitlessConfig = .ok
      { name := "prod", planningDuration := 3600, initialPlanningStartTime := 65400 } := rfl
  rw [accepted] at rejected
  cases rejected

end OpenWorkloadScheduler.Domain
