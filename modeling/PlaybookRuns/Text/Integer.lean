/-!
# Decimal integers within bounds

Reading a decimal integer that has to lie between two bounds, digit by digit: the first fault in
reading order is the one reported. A `-` is a sign only where the bounds admit negative numbers.
-/

namespace PlaybookRuns.Text

/-- Why a text is no integer within the bounds. -/
inductive IntegerFault where
  /-- There is nothing to read. -/
  | empty
  /-- A character is no digit, or a sign stands alone. -/
  | invalidDigit
  /-- The digits read so far exceed the upper bound. -/
  | tooLarge
  /-- The digits read so far fall below the lower bound. -/
  | tooSmall
  deriving DecidableEq, Repr

/-- The wording of a fault. -/
def IntegerFault.message : IntegerFault → String
  | .empty => "cannot parse integer from empty string"
  | .invalidDigit => "invalid digit found in string"
  | .tooLarge => "number too large to fit in target type"
  | .tooSmall => "number too small to fit in target type"

/-- The number of a decimal digit. -/
def digitValue? (c : Char) : Option Nat :=
  if '0' ≤ c ∧ c ≤ '9' then some (c.toNat - 0x30) else none

/-- The number that digits write after those that gave `soFar`, as long as it stays within
`bound`. -/
def readDigits (bound : Nat) : Nat → List Char → Except IntegerFault Nat
  | soFar, [] => .ok soFar
  | soFar, c :: cs =>
    match digitValue? c with
    | none => .error .invalidDigit
    | some d =>
      if soFar * 10 + d ≤ bound then readDigits bound (soFar * 10 + d) cs else .error .tooLarge

/-- The number that a non-empty run of digits writes, as long as it stays within `bound`. -/
def readMagnitude (bound : Nat) : List Char → Except IntegerFault Nat
  | [] => .error .invalidDigit
  | cs => readDigits bound 0 cs

/-- The integer that a text writes, if it lies between `low` and `high`. -/
def readInteger (low high : Int) (s : String) : Except IntegerFault Int :=
  match s.toList with
  | [] => .error .empty
  | '+' :: cs => (readMagnitude high.toNat cs).map Int.ofNat
  | '-' :: cs =>
    if low < 0 then
      match readMagnitude (-low).toNat cs with
      | .ok n => .ok (-(n : Int))
      | .error .tooLarge => .error .tooSmall
      | .error fault => .error fault
    else .error .invalidDigit
  | cs => (readMagnitude high.toNat cs).map Int.ofNat

example : readInteger (-128) 127 "-128" = .ok (-128) := by rfl
example : readInteger (-128) 127 "-129x" = .error .tooSmall := by rfl
example : readInteger 0 255 "255x" = .error .invalidDigit := by rfl
example : readInteger 0 255 "-0" = .error .invalidDigit := by rfl

end PlaybookRuns.Text
