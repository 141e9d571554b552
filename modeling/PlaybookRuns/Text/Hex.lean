/-!
# Hexadecimal digits

Single digits and their numbers. Main statements: the digit written for a number below sixteen, in
either case, reads as that number.
-/

namespace PlaybookRuns.Text

/-- The number of a hexadecimal digit in either case, given by its code point. -/
def hexValue? (code : Nat) : Option Nat :=
  if 0x30 ≤ code ∧ code ≤ 0x39 then some (code - 0x30)
  else if 0x41 ≤ code ∧ code ≤ 0x46 then some (code - 0x37)
  else if 0x61 ≤ code ∧ code ≤ 0x66 then some (code - 0x57)
  else none

/-- The lower-case digit of a number below sixteen. -/
def lowerHexDigit (n : Nat) : Char := Char.ofNat (if n < 10 then 0x30 + n else 0x57 + n)

/-- The upper-case digit of a number below sixteen. -/
def upperHexDigit (n : Nat) : Char := Char.ofNat (if n < 10 then 0x30 + n else 0x37 + n)

/-- A lower-case digit reads as its number. -/
theorem hexValue?_lowerHexDigit {n : Nat} (h : n < 16) :
    hexValue? (lowerHexDigit n).toNat = some n := by
  revert n
  decide

/-- An upper-case digit reads as its number. -/
theorem hexValue?_upperHexDigit {n : Nat} (h : n < 16) :
    hexValue? (upperHexDigit n).toNat = some n := by
  revert n
  decide

end PlaybookRuns.Text
