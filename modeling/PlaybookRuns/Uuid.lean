import PlaybookRuns.Text.Hex

/-!
# Universally unique identifiers

Identifiers of 128 bits, ordered as unsigned numbers. They are written as 32 lower-case digits
grouped 8-4-4-4-12, and read in four spellings: bare digits, grouped digits, and grouped digits in
braces or after `urn:uuid:`.
-/

namespace PlaybookRuns

/-- An identifier of 128 bits. -/
structure Uuid where
  bits : BitVec 128
  deriving DecidableEq, Repr

namespace Uuid

/-- Identifiers compare as unsigned numbers. -/
instance : Ord Uuid where compare a b := compare a.bits.toNat b.bits.toNat

/-- The identifier by default is that of zero. -/
instance : Inhabited Uuid := ⟨⟨0⟩⟩

/-- The identifier with a given number, modulo 2^128. -/
def ofNat (n : Nat) : Uuid := ⟨.ofNat 128 n⟩

/-- The last `count` hexadecimal digits of a number. -/
def hexDigits : (count : Nat) → Nat → List Char
  | 0, _ => []
  | count + 1, n => hexDigits count (n / 16) ++ [Text.lowerHexDigit (n % 16)]

/-- The text of an identifier. -/
def toText (id : Uuid) : String :=
  let digits := hexDigits 32 id.bits.toNat
  String.ofList <|
    ['-'].intercalate
      [digits.take 8, (digits.drop 8).take 4, (digits.drop 12).take 4, (digits.drop 16).take 4,
       digits.drop 20]

/-- The number that exactly `count` leading digits write after those that gave `soFar`, and what
follows them. -/
def readHex : (count : Nat) → (soFar : Nat) → List Char → Option (Nat × List Char)
  | 0, soFar, cs => some (soFar, cs)
  | _ + 1, _, [] => none
  | count + 1, soFar, c :: cs => do readHex count (soFar * 16 + (← Text.hexValue? c.toNat)) cs

/-- The number that groups of digits with the given sizes write, a hyphen before each. -/
def readGroups : (sizes : List Nat) → (soFar : Nat) → List Char → Option Nat
  | [], soFar, [] => some soFar
  | size :: sizes, soFar, '-' :: cs => do
    let (soFar, rest) ← readHex size soFar cs
    readGroups sizes soFar rest
  | _, _, _ => none

/-- The number that grouped digits write. -/
def readGrouped (cs : List Char) : Option Nat := readGroups [8, 4, 4, 4, 12] 0 ('-' :: cs)

/-- The number that bare digits write. -/
def readBare (cs : List Char) : Option Nat := do
  let (n, rest) ← readHex 32 0 cs
  if rest.isEmpty then some n else none

/-- The word before grouped digits, in lower case. -/
def urnWord : List Char := "urn:uuid:".toList

/-- The identifier that a text writes in one of its four spellings. -/
def ofText? (s : String) : Option Uuid :=
  let cs := s.toList
  let number :=
    if cs.length = 32 then readBare cs
    else if cs.head? = some '\x7b' ∧ cs.getLast? = some '\x7d' then readGrouped (cs.drop 1).dropLast
    else if (cs.take urnWord.length).map Char.toLower = urnWord then
      readGrouped (cs.drop urnWord.length)
    else readGrouped cs
  number.map ofNat

example : (ofText? "35720ECBBC234B06A8CDF0C264EDF2C1").map toText =
    some "35720ecb-bc23-4b06-a8cd-f0c264edf2c1" := by decide +kernel

end Uuid

end PlaybookRuns
