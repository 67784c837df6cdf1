import OpenWorkloadScheduler.Rpc.Model

/-!
# Conversions between the columns of the store and the data of the service

The functions of `convertions.cpp` on the enumerations, and
`boost::lexical_cast` on the decimal texts that MySQL returns.
-/

namespace OpenWorkloadScheduler.Rpc

def buildJobStateFromString (state : String) : Except Raised EJobState :=
  if state = "waiting" then .ok .waiting
  else if state = "running" then .ok .running
  else if state = "succeded" then .ok .succeded
  else if state = "failed" then .ok .failed
  else .error (.exProcessing "ex_processing: string state is not related to a job's state")

def buildStringFromJobState : EJobState → String
  | .waiting => "waiting"
  | .running => "running"
  | .succeded => "succeded"
  | .failed => "failed"

def buildRectypeActionFromString (action : String) : Except Raised ERectypeAction :=
  if action = "restart" then .ok .restart
  else if action = "stop_schedule" then .ok .stopSchedule
  else .error (.exProcessing "ex_pocessing: string action is not related to a rectype action")

def buildStringFromRectypeAction : ERectypeAction → String
  | .restart => "restart"
  | .stopSchedule => "stop_schedule"

def buildTimeConstraintTypeFromString (type : String) : Except Raised ETimeConstraintType :=
  if type = "at" then .ok .at
  else if type = "before" then .ok .before
  else if type = "after" then .ok .after
  else .error (.exProcessing "ex_processing: the given type is not valid")

def buildStringFromTimeConstraintType : ETimeConstraintType → String
  | .at => "at"
  | .before => "before"
  | .after => "after"

@[simp]
theorem buildJobStateFromString_build (state : EJobState) :
    buildJobStateFromString (buildStringFromJobState state) = .ok state := by
  cases state <;> rfl

@[simp]
theorem buildRectypeActionFromString_build (action : ERectypeAction) :
    buildRectypeActionFromString (buildStringFromRectypeAction action) = .ok action := by
  cases action <;> rfl

@[simp]
theorem buildTimeConstraintTypeFromString_build (type : ETimeConstraintType) :
    buildTimeConstraintTypeFromString (buildStringFromTimeConstraintType type) = .ok type := by
  cases type <;> rfl

/-- What `mysql_fetch_row` gives for a NULL column in `query_full_result` is no
state at all. -/
theorem buildJobStateFromString_null :
    buildJobStateFromString "NULL" =
      .error (.exProcessing "ex_processing: string state is not related to a job's state") := by
  rfl

/-! ## `boost::lexical_cast` -/

/-- The value of a non-empty list of decimal digits. -/
def digitsValue (digits : List Char) : Option Nat :=
  if digits ≠ [] ∧ digits.all Char.isDigit then
    some (Nat.ofDigitChars 10 digits 0)
  else
    none

/-- The value of a decimal text with an optional minus sign. -/
def decimalValue : List Char → Option Int
  | '-' :: digits => (digitsValue digits).map fun value => -(value : Int)
  | digits => (digitsValue digits).map fun value => (value : Int)

/-- `boost::lexical_cast` to a signed type of `bits` bits; `none` stands for the
exception `bad_lexical_cast`. -/
def lexicalCast (bits : Nat) (text : String) : Option Int :=
  (decimalValue text.toList).filter fun value =>
    -2 ^ (bits - 1) ≤ value ∧ value < 2 ^ (bits - 1)

def badLexicalCast : Raised :=
  .standard "bad lexical cast: source type value could not be interpreted as target"

theorem digitsValue_toDigits (value : Nat) :
    digitsValue (Nat.toDigits 10 value) = some value := by
  have digits : (Nat.toDigits 10 value).all Char.isDigit = true := by
    rw [List.all_eq_true]
    intro digit member
    exact Nat.isDigit_of_mem_toDigits (by decide) (by decide) member
  simp [digitsValue, digits, Nat.toDigits_ne_nil, Nat.ofDigitChars_ten_toDigits]

theorem decimalValue_of_head_isDigit
    {digits : List Char} (value : Nat)
    (parsed : digitsValue digits = some value) :
    decimalValue digits = some (value : Int) := by
  cases digits with
  | nil => simp [digitsValue] at parsed
  | cons head tail =>
      by_cases minus : head = '-'
      · subst head
        simp [digitsValue] at parsed
      · unfold decimalValue
        split
        · rename_i equality
          injection equality with headEquality _
          exact absurd headEquality minus
        · simp [parsed]

theorem toList_toString_ofNat (value : Nat) :
    (toString (Int.ofNat value)).toList = Nat.toDigits 10 value := by
  change (Nat.repr value).toList = _
  exact Nat.toList_repr

theorem toList_toString_negSucc (value : Nat) :
    (toString (Int.negSucc value)).toList = '-' :: Nat.toDigits 10 (value + 1) := by
  change ("-" ++ Nat.repr (value + 1)).toList = _
  simp [Nat.toList_repr]

/-- The text of an integer is read back as that integer. -/
theorem decimalValue_toString (value : Int) :
    decimalValue (toString value).toList = some value := by
  cases value with
  | ofNat value =>
      rw [toList_toString_ofNat]
      exact decimalValue_of_head_isDigit value (digitsValue_toDigits value)
  | negSucc value =>
      rw [toList_toString_negSucc]
      simp [decimalValue, digitsValue_toDigits, Int.negSucc_eq]

/-- A cast of the text of an integer succeeds exactly on the values of the type. -/
theorem lexicalCast_toString (bits : Nat) (value : Int) :
    lexicalCast bits (toString value) =
      if -2 ^ (bits - 1) ≤ value ∧ value < 2 ^ (bits - 1) then some value else none := by
  rw [lexicalCast, decimalValue_toString]
  simp [Option.filter]

end OpenWorkloadScheduler.Rpc
