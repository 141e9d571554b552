/-!
# Binary numbers and their decimal texts

How numbers in double precision are read from decimal digits and written back. Reading rounds the
leading digits that fit 64 bits and scales by one power of ten, in double precision. Writing takes
the fewest digits that read back to the same number, and of those the nearest; it is positional
while the point falls within sixteen digits.
-/

namespace PlaybookRuns.Json.Real

/-! ## Reading -/

/-- The greatest integer that leading digits may reach before the rest are dropped. -/
def maxSignificand : Nat := UInt64.size - 1

/-- Leading digits appended to a significand as long as it fits; with it how many were taken. -/
def takeDigits : (significand taken : Nat) → List Nat → Nat × Nat
  | significand, taken, [] => (significand, taken)
  | significand, taken, d :: ds =>
    if significand * 10 + d ≤ maxSignificand then takeDigits (significand * 10 + d) (taken + 1) ds
    else (significand, taken)

/-- A power of ten in double precision. -/
def pow10 (n : Nat) : Float := Float.ofScientific 1 false n

/-- A number divided by a power of ten, in steps of at most 10^308. -/
def scaleDown : (steps : Nat) → Float → (exponent : Nat) → Float
  | 0, _, _ => 0.0
  | steps + 1, x, exponent =>
    if exponent ≤ 308 then x / pow10 exponent
    else scaleDown steps (x / pow10 308) (exponent - 308)

/-- A significand times a power of ten; none where it exceeds double precision. -/
def scale? (significand : Nat) (exponent : Int) : Option Float :=
  let x := Float.ofNat significand
  if exponent < 0 then some (scaleDown 4 x exponent.natAbs)
  else if exponent ≤ 308 then
    let y := x * pow10 exponent.toNat
    if y.isInf then none else some y
  else if significand = 0 then some 0.0
  else none

/-- The number with the given digits before and after the point and the given power of ten; none
where it exceeds double precision. -/
def ofDigits? (negative : Bool) (whole fraction : List Nat) (exponent : Int) : Option Float :=
  let (significand, takenWhole) := takeDigits 0 0 whole
  let (significand, takenFraction) := takeDigits significand 0 fraction
  let power := exponent + (whole.length - takenWhole : Nat) - takenFraction
  (scale? significand power).map fun x ↦ if negative then -x else x

/-! ## Writing -/

/-- The significand and the power of two of a finite number, its sign dropped. -/
def parts (x : Float) : Nat × Int :=
  let bits := x.toBits.toNat
  let significand := bits % (1 <<< 52)
  let exponent : Nat := (bits >>> 52) % 2048
  if exponent = 0 then (significand, -1074) else (significand + (1 <<< 52), (exponent : Int) - 1075)

/-- The numbers that read back as `m · 2^q` form an interval; `low` and `high` are its ends and
`mid` the number itself, over the denominator `unit`. The ends belong to it iff `closed`. -/
structure Interval where
  low : Nat
  mid : Nat
  high : Nat
  unit : Nat
  closed : Bool

/-- The interval of a finite positive number. -/
def interval (x : Float) : Interval :=
  let (m, q) := parts x
  let below := if m = 1 <<< 52 ∧ -1074 < q then 1 else 2
  let (up, down) := if 0 ≤ q then (1 <<< q.toNat, 1) else (1, 1 <<< q.natAbs)
  ⟨(4 * m - below) * up, 4 * m * up, (4 * m + 2) * up, 4 * down, m % 2 = 0⟩

/-- Whether `n` over the interval's denominator lies in the interval. -/
def Interval.contains (i : Interval) (n : Nat) : Bool :=
  if i.closed then i.low ≤ n && n ≤ i.high else i.low < n && n < i.high

/-- The interval measured in steps of `10^power`. -/
def Interval.scaled (i : Interval) (power : Int) : Interval :=
  if 0 ≤ power then { i with unit := i.unit * Nat.pow 10 power.toNat }
  else
    let f := Nat.pow 10 power.natAbs
    { i with low := i.low * f, mid := i.mid * f, high := i.high * f }

/-- The multiple of `10^power` in the interval that is nearest to the number, of two the even
one. -/
def Interval.nearest? (i : Interval) (power : Int) : Option Nat :=
  let j := i.scaled power
  let n := j.mid / j.unit
  let lower := j.contains (n * j.unit)
  let upper := j.contains ((n + 1) * j.unit)
  let r := j.mid % j.unit
  if lower && upper then
    if 2 * r < j.unit then some n else if j.unit < 2 * r then some (n + 1)
    else some (if n % 2 = 0 then n else n + 1)
  else if lower then some n
  else if upper then some (n + 1)
  else none

/-- The number of decimal digits of `n / d`, the point's place: the least power of ten above it. -/
def magnitude (n d : Nat) : Int :=
  if d ≤ n then ((Nat.toDigits 10 (n / d)).length : Int)
  else
    let inverse := d / n
    1 - ((Nat.toDigits 10 inverse).length : Int) + (if inverse * n = d then 1 else 0) - 1

/-- The first multiple found when the grids `10^power`, `10^(power-1)`, … are tried in turn. -/
def Interval.search (i : Interval) : (tries : Nat) → (power : Int) → Nat × Int
  | 0, power => (0, power)
  | tries + 1, power =>
    match i.nearest? power with
    | some n => if n = 0 then i.search tries (power - 1) else (n, power)
    | none => i.search tries (power - 1)

/-- The digits and the power of ten of the shortest decimal of a finite positive number. -/
def shortest (x : Float) : Nat × Int :=
  let i := interval x
  i.search 20 (magnitude i.mid i.unit + 1)

/-- The positional or scientific text of digits times a power of ten. -/
def layout (digits : List Char) (power : Int) : List Char :=
  let length : Int := digits.length
  let point := length + power
  if 0 ≤ power ∧ point ≤ 16 then digits ++ List.replicate power.toNat '0' ++ ['.', '0']
  else if 0 < point ∧ point ≤ 16 then
    digits.take point.toNat ++ '.' :: digits.drop point.toNat
  else if -5 < point ∧ point ≤ 0 then
    '0' :: '.' :: List.replicate point.natAbs '0' ++ digits
  else
    let exponent := (toString (point - 1)).toList
    digits.take 1 ++ (if length = 1 then [] else '.' :: digits.drop 1) ++ 'e' :: exponent

/-- The text of a number; null where it is not finite. -/
def toChars (x : Float) : List Char :=
  if x.isNaN || x.isInf then "null".toList
  else
    let sign := if 1 <<< 63 ≤ x.toBits.toNat then ['-'] else []
    if x == 0.0 then sign ++ "0.0".toList
    else
      let (n, power) := shortest x
      sign ++ layout (Nat.toDigits 10 n) power

end PlaybookRuns.Json.Real
