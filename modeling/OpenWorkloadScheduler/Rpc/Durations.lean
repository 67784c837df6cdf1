import Mathlib.Data.Bool.AllAny
import OpenWorkloadScheduler.Foundations.Effects
import OpenWorkloadScheduler.Rpc.Convertions

/-!
# Durations in hours and minutes

`build_unix_time_from_hhmm_time` and the constructor of `Domain` search the same two
regular expressions in a text such as `1h30min`.  The anchors `^` and `$` match at the
ends of lines too, so each of the searches goes through the lines of the text.
-/

namespace OpenWorkloadScheduler.Rpc

open Foundations

/-! ## The regular expressions -/

/-- The letters that the anchors take for the end of a line. -/
def isSeparator (letter : Char) : Bool :=
  letter = '\n' || letter = '\r' || letter = '\x0c'

/-- The first result of a search in the lines of the text. -/
def searchLines {Found : Type} (search : List Char → Option Found) (text : List Char) :
    Option Found :=
  (text.splitOnP isSeparator).findSome? search

/-- The digits that `^([[:digit:]]+)h` finds in a line. -/
def hoursOfLine (line : List Char) : Option (List Char) :=
  match line.takeWhile Char.isDigit, line.dropWhile Char.isDigit with
  | digit :: digits, 'h' :: _ => some (digit :: digits)
  | _, _ => none

/-- The digits that `([[:digit:]]+)min$` finds in a line. -/
def minutesOfLine (line : List Char) : Option (List Char) :=
  match line.reverse with
  | 'n' :: 'i' :: 'm' :: rest =>
      if rest.takeWhile Char.isDigit = [] then none
      else some (rest.takeWhile Char.isDigit).reverse
  | _ => none

/-- `duration_hour_matching`. -/
def hoursMatch : List Char → Option (List Char) :=
  searchLines hoursOfLine

/-- `duration_minute_matching`. -/
def minutesMatch : List Char → Option (List Char) :=
  searchLines minutesOfLine

theorem searchLines_of_line {Found : Type} {search : List Char → Option Found}
    {line : List Char} (single : ∀ letter ∈ line, isSeparator letter = false) :
    searchLines search line = search line := by
  rw [searchLines, List.splitOnP_eq_singleton single, List.findSome?_singleton]

theorem exists_line_of_searchLines {Found : Type} {search : List Char → Option Found}
    {text : List Char} {found : Found} (searched : searchLines search text = some found) :
    ∃ line, search line = some found := by
  obtain ⟨line, _, matched⟩ := List.exists_of_findSome?_eq_some searched
  exact ⟨line, matched⟩

/-! ## What is found -/

def IsNumeral (digits : List Char) : Prop :=
  digits ≠ [] ∧ digits.all Char.isDigit = true

theorem IsNumeral.digitsValue_eq {digits : List Char} (numeral : IsNumeral digits) :
    digitsValue digits = some (Nat.ofDigitChars 10 digits 0) :=
  if_pos numeral

theorem isNumeral_of_digitsValue {digits : List Char} {value : Nat}
    (valued : digitsValue digits = some value) : IsNumeral digits := by
  unfold digitsValue at valued
  split at valued
  · assumption
  · cases valued

/-- The hours are the number that the line begins with, if an `h` follows it. -/
theorem hoursOfLine_eq_some_iff {line digits : List Char} :
    hoursOfLine line = some digits ↔
      IsNumeral digits ∧ ∃ rest, line = digits ++ 'h' :: rest := by
  constructor
  · intro found
    unfold hoursOfLine at found
    split at found
    · rename_i digit others rest taken dropped
      cases found
      refine ⟨⟨by simp, ?_⟩, rest, ?_⟩
      · rw [← taken]
        exact List.all_takeWhile
      · rw [← taken, ← dropped, List.takeWhile_append_dropWhile]
    · cases found
  · rintro ⟨⟨filled, digital⟩, rest, rfl⟩
    have all : ∀ digit ∈ digits, digit.isDigit = true := List.all_eq_true.mp digital
    have taken : (digits ++ 'h' :: rest).takeWhile Char.isDigit = digits := by
      rw [List.takeWhile_append_of_pos all, List.takeWhile_cons_of_neg (by decide),
        List.append_nil]
    have dropped : (digits ++ 'h' :: rest).dropWhile Char.isDigit = 'h' :: rest := by
      rw [List.dropWhile_append_of_pos all, List.dropWhile_cons_of_neg (by decide)]
    unfold hoursOfLine
    rw [taken, dropped]
    cases digits with
    | nil => exact absurd rfl filled
    | cons digit others => rfl

/-- The minutes are the whole number that stands before `min` at the end of the line. -/
theorem minutesOfLine_eq_some_iff {line digits : List Char} :
    minutesOfLine line = some digits ↔
      IsNumeral digits ∧ ∃ before, line = before ++ digits ++ ['m', 'i', 'n'] ∧
        ∀ letter, before.getLast? = some letter → letter.isDigit = false := by
  constructor
  · intro found
    unfold minutesOfLine at found
    split at found
    · rename_i rest reversed
      split at found
      · cases found
      · rename_i filled
        cases found
        refine ⟨⟨by simpa using filled, ?_⟩, (rest.dropWhile Char.isDigit).reverse, ?_, ?_⟩
        · rw [List.all_reverse]
          exact List.all_takeWhile
        · rw [← List.reverse_append, List.takeWhile_append_dropWhile, ← List.reverse_reverse line,
            reversed]
          simp
        · intro letter last
          rw [List.getLast?_reverse] at last
          have other := List.head?_dropWhile_not Char.isDigit rest
          rwa [last] at other
    · cases found
  · rintro ⟨⟨filled, digital⟩, before, rfl, ends⟩
    have all : ∀ digit ∈ digits.reverse, digit.isDigit = true := by
      simpa using digital
    have whole : before.reverse.takeWhile Char.isDigit = [] := by
      cases reversed : before.reverse with
      | nil => rfl
      | cons letter others =>
          have last : before.getLast? = some letter := by
            rw [← List.head?_reverse, reversed, List.head?_cons]
          rw [List.takeWhile_cons_of_neg (by simp [ends letter last])]
    have taken : (digits.reverse ++ before.reverse).takeWhile Char.isDigit = digits.reverse := by
      rw [List.takeWhile_append_of_pos all, whole, List.append_nil]
    have reversed : (before ++ digits ++ ['m', 'i', 'n']).reverse =
        'n' :: 'i' :: 'm' :: (digits.reverse ++ before.reverse) := by
      simp
    unfold minutesOfLine
    rw [reversed]
    simp [taken, filled]

theorem isNumeral_of_hoursMatch {text digits : List Char}
    (found : hoursMatch text = some digits) : IsNumeral digits := by
  obtain ⟨line, matched⟩ := exists_line_of_searchLines found
  exact (hoursOfLine_eq_some_iff.mp matched).1

theorem isNumeral_of_minutesMatch {text digits : List Char}
    (found : minutesMatch text = some digits) : IsNumeral digits := by
  obtain ⟨line, matched⟩ := exists_line_of_searchLines found
  exact (minutesOfLine_eq_some_iff.mp matched).1

/-! ## The texts of durations -/

theorem isSeparator_of_isDigit {letter : Char} (digit : letter.isDigit = true) :
    isSeparator letter = false := by
  have bound : '0' ≤ letter := by
    simp only [Char.isDigit, Bool.and_eq_true, decide_eq_true_eq] at digit
    exact digit.1
  have other : ∀ separator, separator < '0' → letter ≠ separator :=
    fun separator below same => absurd bound (Char.not_le.mpr (same ▸ below))
  simp [isSeparator, other '\n' (by decide), other '\r' (by decide), other '\x0c' (by decide)]

theorem IsNumeral.single {digits : List Char} (numeral : IsNumeral digits) :
    ∀ letter ∈ digits, isSeparator letter = false :=
  fun letter member => isSeparator_of_isDigit (List.all_eq_true.mp numeral.2 letter member)

section Texts

variable {hours minutes : List Char}

theorem single_hours (numeral : IsNumeral hours) :
    ∀ letter ∈ hours ++ ['h'], isSeparator letter = false :=
  List.forall_mem_append.mpr ⟨numeral.single, List.all_iff_forall_prop.mp rfl⟩

theorem single_minutes (numeral : IsNumeral minutes) :
    ∀ letter ∈ minutes ++ ['m', 'i', 'n'], isSeparator letter = false :=
  List.forall_mem_append.mpr ⟨numeral.single, List.all_iff_forall_prop.mp rfl⟩

theorem single_both (hoursNumeral : IsNumeral hours) (minutesNumeral : IsNumeral minutes) :
    ∀ letter ∈ hours ++ ['h'] ++ (minutes ++ ['m', 'i', 'n']), isSeparator letter = false :=
  List.forall_mem_append.mpr ⟨single_hours hoursNumeral, single_minutes minutesNumeral⟩

theorem hoursMatch_hours (numeral : IsNumeral hours) :
    hoursMatch (hours ++ ['h']) = some hours := by
  rw [hoursMatch, searchLines_of_line (single_hours numeral)]
  exact hoursOfLine_eq_some_iff.mpr ⟨numeral, [], rfl⟩

theorem hoursMatch_both (hoursNumeral : IsNumeral hours) (minutesNumeral : IsNumeral minutes) :
    hoursMatch (hours ++ ['h'] ++ (minutes ++ ['m', 'i', 'n'])) = some hours := by
  rw [hoursMatch, searchLines_of_line (single_both hoursNumeral minutesNumeral)]
  exact hoursOfLine_eq_some_iff.mpr
    ⟨hoursNumeral, minutes ++ ['m', 'i', 'n'], by rw [List.append_assoc]; rfl⟩

theorem hoursMatch_minutes (numeral : IsNumeral minutes) :
    hoursMatch (minutes ++ ['m', 'i', 'n']) = none := by
  rw [hoursMatch, searchLines_of_line (single_minutes numeral)]
  have all : ∀ digit ∈ minutes, digit.isDigit = true := List.all_eq_true.mp numeral.2
  unfold hoursOfLine
  rw [List.dropWhile_append_of_pos all, List.dropWhile_cons_of_neg (by decide)]
  split
  · rename_i unit
    cases unit
  · rfl

theorem minutesMatch_minutes (numeral : IsNumeral minutes) :
    minutesMatch (minutes ++ ['m', 'i', 'n']) = some minutes := by
  rw [minutesMatch, searchLines_of_line (single_minutes numeral)]
  exact minutesOfLine_eq_some_iff.mpr ⟨numeral, [], rfl, by simp⟩

theorem minutesMatch_both (hoursNumeral : IsNumeral hours)
    (minutesNumeral : IsNumeral minutes) :
    minutesMatch (hours ++ ['h'] ++ (minutes ++ ['m', 'i', 'n'])) = some minutes := by
  rw [minutesMatch, searchLines_of_line (single_both hoursNumeral minutesNumeral)]
  -- the minutes begin right after the `h`, which is no digit
  refine minutesOfLine_eq_some_iff.mpr
    ⟨minutesNumeral, hours ++ ['h'], by simp only [List.append_assoc], ?_⟩
  intro letter last
  rw [List.getLast?_concat] at last
  cases last
  rfl

theorem minutesMatch_hours (numeral : IsNumeral hours) :
    minutesMatch (hours ++ ['h']) = none := by
  rw [minutesMatch, searchLines_of_line (single_hours numeral), minutesOfLine,
    List.reverse_append]
  rfl

end Texts

/-! ## The numbers in seconds -/

/-- A number of a duration in seconds, in the arithmetic of a signed type of `bits`
bits. -/
def numberPart (bits : Nat) (overflow message : String) (factor : Int) :
    Option (List Char) → Except Raised Int
  | none => .ok 0
  | some digits =>
      match lexicalCast bits (String.ofList digits) with
      | none => .error (.exProcessing (message ++ String.ofList digits))
      | some value =>
          if value * factor < 2 ^ (bits - 1) then .ok (value * factor)
          else .error (.undefinedBehaviour overflow)

theorem lexicalCast_ofList {bits : Nat} {digits : List Char} {value : Nat}
    (valued : digitsValue digits = some value) :
    lexicalCast bits (String.ofList digits) =
      if (value : Int) < 2 ^ (bits - 1) then some (value : Int) else none := by
  have below : -2 ^ (bits - 1) ≤ (value : Int) := by
    have positive : (0 : Int) ≤ 2 ^ (bits - 1) := Int.pow_nonneg (by decide)
    omega
  rw [lexicalCast, String.toList_ofList, decimalValue_of_head_isDigit value valued]
  simp [Option.filter, below]

/-- The number that a search has found, 0 if there is none. -/
def numberOf : Option (List Char) → Nat
  | none => 0
  | some digits => Nat.ofDigitChars 10 digits 0

theorem numberOf_of_digitsValue {digits : List Char} {value : Nat}
    (valued : digitsValue digits = some value) : numberOf (some digits) = value := by
  rw [(isNumeral_of_digitsValue valued).digitsValue_eq] at valued
  exact Option.some.inj valued

section Parts

variable (bits : Nat) (overflow message : String) {factor : Int} {found : Option (List Char)}

/-- The seconds of a number fit into the type, or the number does not, or it is the
product alone that overflows. -/
theorem numberPart_cases
    (numeral : ∀ digits, found = some digits → IsNumeral digits) :
    (numberOf found * factor < 2 ^ (bits - 1) ∧
        numberPart bits overflow message factor found = .ok (numberOf found * factor)) ∨
      (2 ^ (bits - 1) ≤ (numberOf found : Int) ∧ ∃ text,
        numberPart bits overflow message factor found = .error (.exProcessing text)) ∨
      ((numberOf found : Int) < 2 ^ (bits - 1) ∧ 2 ^ (bits - 1) ≤ numberOf found * factor ∧
        numberPart bits overflow message factor found =
          .error (.undefinedBehaviour overflow)) := by
  cases found with
  | none =>
      have limit : (0 : Int) < 2 ^ (bits - 1) := Int.pow_pos (by decide)
      refine Or.inl ⟨?_, ?_⟩
      · rwa [numberOf, Int.natCast_zero, Int.zero_mul]
      · rw [numberPart, numberOf, Int.natCast_zero, Int.zero_mul]
  | some digits =>
      have cast : lexicalCast bits (String.ofList digits) = _ :=
        lexicalCast_ofList (numeral digits rfl).digitsValue_eq
      rw [numberPart, cast, numberOf]
      by_cases small : (Nat.ofDigitChars 10 digits 0 : Int) < 2 ^ (bits - 1)
      · rw [if_pos small]
        by_cases fits : (Nat.ofDigitChars 10 digits 0 : Int) * factor < 2 ^ (bits - 1)
        · exact Or.inl ⟨fits, if_pos fits⟩
        · exact Or.inr (Or.inr ⟨small, Int.not_lt.mp fits, if_neg fits⟩)
      · rw [if_neg small]
        exact Or.inr (Or.inl ⟨Int.not_lt.mp small, _, rfl⟩)

theorem numberPart_of_lt (positive : 0 < factor)
    (numeral : ∀ digits, found = some digits → IsNumeral digits)
    (fits : numberOf found * factor < 2 ^ (bits - 1)) :
    numberPart bits overflow message factor found = .ok (numberOf found * factor) := by
  have scaled : (numberOf found : Int) * 1 ≤ numberOf found * factor :=
    Int.mul_le_mul_of_nonneg_left (by omega) (by omega)
  have parts := @numberPart_cases bits overflow message factor found numeral
  rcases parts with ⟨_, read⟩ | ⟨beyond, _⟩ | ⟨_, beyond, _⟩
  · exact read
  · omega
  · omega

theorem numberPart_eq_ok
    (numeral : ∀ digits, found = some digits → IsNumeral digits) {seconds : Int}
    (read : numberPart bits overflow message factor found = .ok seconds) :
    seconds = numberOf found * factor := by
  have parts := @numberPart_cases bits overflow message factor found numeral
  rcases parts with ⟨_, same⟩ | ⟨_, _, same⟩ | ⟨_, _, same⟩
  · rw [same] at read
    cases read
    rfl
  · rw [same] at read
    cases read
  · rw [same] at read
    cases read

end Parts

/-- A part of `build_unix_time_from_hhmm_time`. -/
def timePart : Int → Option (List Char) → Except Raised Int :=
  numberPart 64 "time_t overflow" "cannot compute time_constraint value. Cannot cast "

def buildUnixTimeFromHhmmTime (time : String) : Except Raised Int := do
  let hours ← timePart 3600 (hoursMatch time.toList)
  let minutes ← timePart 60 (minutesMatch time.toList)
  if hours + minutes < 2 ^ 63 then return hours + minutes
  else throw (.undefinedBehaviour "time_t overflow")

/-! ## Printing -/

/-- The decimal text of a number after some zeros. -/
def zeroPadded (zeros value : Nat) : List Char :=
  List.replicate zeros '0' ++ (toString value).toList

def hoursText (zeros hours : Nat) : List Char :=
  zeroPadded zeros hours ++ ['h']

def minutesText (zeros minutes : Nat) : List Char :=
  zeroPadded zeros minutes ++ ['m', 'i', 'n']

theorem digitsValue_zeroPadded (zeros value : Nat) :
    digitsValue (zeroPadded zeros value) = some value := by
  have decimal : (toString value).toList = Nat.toDigits 10 value :=
    toList_toString_ofNat value
  have digits := isNumeral_of_digitsValue (digitsValue_toDigits value)
  have numeral : IsNumeral (zeroPadded zeros value) := by
    rw [zeroPadded, decimal]
    refine ⟨List.append_ne_nil_of_right_ne_nil _ digits.1, ?_⟩
    rw [List.all_append, digits.2, Bool.and_true, List.all_eq_true]
    intro zero member
    rw [List.eq_of_mem_replicate member]
    rfl
  rw [numeral.digitsValue_eq, zeroPadded, decimal, Nat.ofDigitChars_append,
    Nat.ofDigitChars_replicate_zero, Nat.mul_zero, Nat.ofDigitChars_ten_toDigits]

theorem isNumeral_zeroPadded (zeros value : Nat) : IsNumeral (zeroPadded zeros value) :=
  isNumeral_of_digitsValue (digitsValue_zeroPadded zeros value)

theorem timePart_zeroPadded {factor : Int} {zeros value : Nat} (positive : 0 < factor)
    (fits : (value : Int) * factor < 2 ^ 63) :
    timePart factor (some (zeroPadded zeros value)) = .ok (value * factor) := by
  have same : numberOf (some (zeroPadded zeros value)) = value :=
    numberOf_of_digitsValue (digitsValue_zeroPadded zeros value)
  have numeral : ∀ digits, some (zeroPadded zeros value) = some digits → IsNumeral digits := by
    rintro digits ⟨⟩
    exact isNumeral_zeroPadded zeros value
  rw [← same] at fits
  have read := numberPart_of_lt 64 "time_t overflow"
    "cannot compute time_constraint value. Cannot cast " positive numeral fits
  rwa [same] at read

/-- The function reads back, from the texts of all hours and minutes that fit into
`time_t`, their number of seconds. -/
theorem buildUnixTimeFromHhmmTime_printed (hourZeros hours minuteZeros minutes : Nat)
    (fits : 3600 * hours + 60 * minutes < 2 ^ 63) :
    buildUnixTimeFromHhmmTime
        (String.ofList (hoursText hourZeros hours ++ minutesText minuteZeros minutes)) =
        .ok (3600 * hours + 60 * minutes) ∧
      buildUnixTimeFromHhmmTime (String.ofList (hoursText hourZeros hours)) =
        .ok (3600 * hours) ∧
      buildUnixTimeFromHhmmTime (String.ofList (minutesText minuteZeros minutes)) =
        .ok (60 * minutes) := by
  have hoursNumeral := isNumeral_zeroPadded hourZeros hours
  have minutesNumeral := isNumeral_zeroPadded minuteZeros minutes
  have hoursRead : timePart 3600 (some (zeroPadded hourZeros hours)) = .ok (hours * 3600) :=
    timePart_zeroPadded (by decide) (by omega)
  have minutesRead : timePart 60 (some (zeroPadded minuteZeros minutes)) = .ok (minutes * 60) :=
    timePart_zeroPadded (by decide) (by omega)
  have absent : ∀ factor, timePart factor none = .ok 0 := fun factor => rfl
  unfold buildUnixTimeFromHhmmTime hoursText minutesText
  simp only [String.toList_ofList]
  refine ⟨?_, ?_, ?_⟩
  · rw [hoursMatch_both hoursNumeral minutesNumeral, minutesMatch_both hoursNumeral minutesNumeral,
      hoursRead, minutesRead, except_ok_bind, except_ok_bind, if_pos (by omega)]
    exact congrArg Except.ok (by omega)
  · rw [hoursMatch_hours hoursNumeral, minutesMatch_hours hoursNumeral, hoursRead, absent,
      except_ok_bind, except_ok_bind, if_pos (by omega)]
    exact congrArg Except.ok (by omega)
  · rw [hoursMatch_minutes minutesNumeral, minutesMatch_minutes minutesNumeral, minutesRead,
      absent, except_ok_bind, except_ok_bind, if_pos (by omega)]
    exact congrArg Except.ok (by omega)

/-- The text `024h5min`. -/
theorem buildUnixTimeFromHhmmTime_printed_aDay :
    3600 * 24 + 60 * 5 < 2 ^ 63 ∧
      buildUnixTimeFromHhmmTime (String.ofList (hoursText 1 24 ++ minutesText 0 5)) =
        .ok (3600 * 24 + 60 * 5) :=
  ⟨by decide, (buildUnixTimeFromHhmmTime_printed 1 24 0 5 (by decide)).1⟩

end OpenWorkloadScheduler.Rpc
