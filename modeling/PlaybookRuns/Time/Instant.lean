import PlaybookRuns.Text.Blank
import PlaybookRuns.Text.Integer
import PlaybookRuns.Time.Date

/-!
# Instants

Points in time to the nanosecond, and their RFC 3339 texts. An instant is written in UTC with the
fewest of 0, 3, 6 and 9 fraction digits that lose nothing. The reader is lenient about width and
blanks, and takes any offset below a day; digits after the ninth of a fraction are dropped. A
minute may end with an inserted second, written 60; it is taken for the rest of the one before.
The calendar covers the years -262143 to 262142: no instant outside them is read or reached.
-/

namespace PlaybookRuns.Time

open PlaybookRuns.Text (isBlank digitValue?)

/-- Nanoseconds in a second. -/
def nanosPerSecond : Nat := 1000000000

/-- A point in time. -/
structure Instant where
  /-- Whole seconds since 1970-01-01 00:00 UTC, inserted ones not counted. -/
  seconds : Int
  /-- Nanoseconds since the start of that second: below 10^9, and from there to 2 · 10^9 within an
  inserted second that follows it. -/
  nanos : Nat
  deriving DecidableEq, Repr

namespace Instant

/-- Instants compare by their seconds, and within one second by their nanoseconds. -/
instance : Ord Instant where
  compare a b := (compare a.seconds b.seconds).then (compare a.nanos b.nanos)

/-- The earlier instant is the smaller one. -/
instance : LE Instant where
  le a b := a.seconds < b.seconds ∨ a.seconds = b.seconds ∧ a.nanos ≤ b.nanos

/-- An instant is less than the later ones. -/
instance : LT Instant where
  lt a b := a.seconds < b.seconds ∨ a.seconds = b.seconds ∧ a.nanos < b.nanos

/-- The order of instants is told by their seconds and nanoseconds. -/
instance (a b : Instant) : Decidable (a ≤ b) := inferInstanceAs (Decidable (_ ∨ _))

/-- The strict order of instants is told by their seconds and nanoseconds. -/
instance (a b : Instant) : Decidable (a < b) := inferInstanceAs (Decidable (_ ∨ _))

/-- The instant by default is the first of 1970. -/
instance : Inhabited Instant := ⟨⟨0, 0⟩⟩

/-- The instant a number of seconds later. From within an inserted second, the first step leads
into the second after it, or back into the one before it. -/
def addSeconds (t : Instant) (n : Int) : Instant :=
  if t.nanos < nanosPerSecond ∨ n = 0 then { t with seconds := t.seconds + n }
  else ⟨t.seconds + (if n < 0 then n + 1 else n), t.nanos - nanosPerSecond⟩

/-- The first year that the calendar covers. -/
def firstYear : Int := -262143

/-- The last year that the calendar covers. -/
def lastYear : Int := 262142

/-- Whether the calendar covers an instant. -/
def isCovered (t : Instant) : Bool :=
  (Date.mk firstYear 1 1).toDays * 86400 ≤ t.seconds &&
    t.seconds < (Date.mk (lastYear + 1) 1 1).toDays * 86400

/-- The instant a number of seconds later, if the calendar covers it. -/
def addSeconds? (t : Instant) (n : Int) : Option Instant :=
  Option.guard isCovered (t.addSeconds n)

/-- The last whole microsecond that is not later. -/
def floorMicros (t : Instant) : Instant := { t with nanos := t.nanos / 1000 * 1000 }

/-- The last `width` decimal digits of a number. -/
def digits : (width : Nat) → Nat → List Char
  | 0, _ => []
  | width + 1, n => digits width (n / 10) ++ [Char.ofNat (0x30 + n % 10)]

/-- The text of a year: four digits, with a sign outside the years 0 to 9999. -/
def yearText (year : Int) : List Char :=
  if 0 ≤ year ∧ year ≤ 9999 then digits 4 year.toNat
  else
    (if year < 0 then '-' else '+') ::
      (if year.natAbs ≤ 9999 then digits 4 year.natAbs else Nat.toDigits 10 year.natAbs)

/-- The fraction of a second with its point, in the fewest of 0, 3, 6 and 9 digits that are
exact. -/
def fractionText (nanos : Nat) : List Char :=
  if nanos = 0 then []
  else if nanos % 1000000 = 0 then '.' :: digits 3 (nanos / 1000000)
  else if nanos % 1000 = 0 then '.' :: digits 6 (nanos / 1000)
  else '.' :: digits 9 nanos

/-- Date and time of day up to the seconds; within an inserted second they are one further. -/
def secondsText (seconds : Int) (inserted : Bool) : List Char :=
  let date := Date.ofDays (seconds / 86400)
  let clock := (seconds % 86400).toNat
  yearText date.year ++ '-' :: digits 2 date.month ++ '-' :: digits 2 date.day ++
    'T' :: digits 2 (clock / 3600) ++ ':' :: digits 2 (clock / 60 % 60) ++
    ':' :: digits 2 (clock % 60 + inserted.toNat)

/-- The text of an instant, in UTC. -/
def toText (t : Instant) : String :=
  String.ofList <|
    secondsText t.seconds (nanosPerSecond ≤ t.nanos) ++
      fractionText (t.nanos % nanosPerSecond) ++ ['Z']

/-- The text of an instant with exactly six fraction digits, later ones dropped. -/
def toMicrosText (t : Instant) : String :=
  String.ofList <|
    secondsText t.seconds (nanosPerSecond ≤ t.nanos) ++
      '.' :: digits 6 (t.nanos % nanosPerSecond / 1000) ++ ['Z']

/-! ## Reading -/

/-- What follows leading white space. -/
def skipBlank (cs : List Char) : List Char := cs.dropWhile isBlank

/-- The number that the leading digits write, `width` of them at most, after those that gave
`soFar`; with it how many they are and what follows. -/
def readUpTo : (width : Nat) → (soFar count : Nat) → List Char → Nat × Nat × List Char
  | 0, soFar, count, cs => (soFar, count, cs)
  | _ + 1, soFar, count, [] => (soFar, count, [])
  | width + 1, soFar, count, c :: cs =>
    match digitValue? c with
    | some d => readUpTo width (soFar * 10 + d) (count + 1) cs
    | none => (soFar, count, c :: cs)

/-- A number of one to `width` digits, blanks before it skipped, between two bounds. -/
def readField (width low high : Nat) (cs : List Char) : Option (Nat × List Char) :=
  let (n, count, rest) := readUpTo width 0 0 (skipBlank cs)
  if 0 < count ∧ low ≤ n ∧ n ≤ high then some (n, rest) else none

/-- A year: up to four digits, or a sign and any number of them. -/
def readYear (cs : List Char) : Option (Int × List Char) :=
  match skipBlank cs with
  | '-' :: cs => signed (-1) cs
  | '+' :: cs => signed 1 cs
  | cs =>
    let (n, count, rest) := readUpTo 4 0 0 cs
    if 0 < count then some (n, rest) else none
where
  /-- The digits after a sign. -/
  signed (sign : Int) (cs : List Char) : Option (Int × List Char) :=
    let (n, count, rest) := readUpTo cs.length 0 0 cs
    if 0 < count then some (sign * n, rest) else none

/-- What follows a given character, blanks before it skipped. -/
def readMark (mark : Char) (cs : List Char) : Option (List Char) :=
  match skipBlank cs with
  | c :: rest => if c = mark then some rest else none
  | [] => none

/-- The nanoseconds of a fraction, if a point stands here. -/
def readFraction : List Char → Option (Nat × List Char)
  | '.' :: cs =>
    let (n, count, rest) := readUpTo 9 0 0 cs
    if 0 < count then some (n * Nat.pow 10 (9 - count), rest.dropWhile Char.isDigit) else none
  | cs => some (0, cs)

/-- The offset from UTC in seconds: `Z`, `UTC`, or hours and minutes with a sign. -/
def readOffset (cs : List Char) : Option (Int × List Char) :=
  if (cs.take 3).map Char.toUpper = ['U', 'T', 'C'] then some (0, cs.drop 3)
  else
    match cs with
    | 'Z' :: rest | 'z' :: rest => some (0, rest)
    | '+' :: rest => hoursAndMinutes 1 rest
    | '-' :: rest | '\u2212' :: rest => hoursAndMinutes (-1) rest
    | _ => none
where
  /-- Two digits of hours and two of minutes, colons or blanks between. -/
  hoursAndMinutes (sign : Int) (cs : List Char) : Option (Int × List Char) := do
    let (hours, rest) ← twoDigits cs
    let (minutes, rest) ← twoDigits (rest.dropWhile fun c ↦ c == ':' || isBlank c)
    if hours ≤ 23 ∧ minutes ≤ 59 then some (sign * (hours * 3600 + minutes * 60), rest) else none
  /-- The number that exactly two digits write. -/
  twoDigits (cs : List Char) : Option (Int × List Char) :=
    match readUpTo 2 0 0 cs with
    | (n, 2, rest) => some (n, rest)
    | _ => none

/-- The instant that a text denotes. -/
def ofText? (s : String) : Option Instant := do
  let (year, cs) ← readYear s.toList
  let (month, cs) ← readField 2 1 12 (← readMark '-' cs)
  let (day, cs) ← readField 2 1 31 (← readMark '-' cs)
  let date : Date := ⟨year, month, day⟩
  let cs ← match cs with
    | 'T' :: rest | 't' :: rest | ' ' :: rest => some rest
    | _ => none
  let (hour, cs) ← readField 2 0 23 cs
  let (minute, cs) ← readField 2 0 59 (← readMark ':' cs)
  let (second, cs) ← readField 2 0 60 (← readMark ':' cs)
  let (fraction, cs) ← readFraction cs
  let (offset, cs) ← readOffset (skipBlank cs)
  let clock := hour * 3600 + minute * 60 + min second 59
  let t : Instant := ⟨date.toDays * 86400 + clock - offset,
    if second = 60 then nanosPerSecond + fraction else fraction⟩
  if (skipBlank cs).isEmpty ∧ date.IsValid ∧ firstYear ≤ date.year ∧ date.year ≤ lastYear ∧
      t.isCovered then
    some t
  else none

example : (ofText? "2024-03-01T23:00:00.5-05:00").map toText = some "2024-03-02T04:00:00.500Z" := by
  decide +kernel

example : (ofText? "2016-12-31T23:59:60.5Z").map (toText <| addSeconds · 1) =
    some "2017-01-01T00:00:00.500Z" := by
  decide +kernel

example : ofText? "2024-02-30T00:00:00Z" = none := by decide +kernel

example : (ofText? "+262142-12-31T23:59:59Z").bind (addSeconds? · 1) = none := by decide +kernel

example : ((ofText? "-262143-01-01T00:00:01Z").bind (addSeconds? · (-1))).map toText =
    some "-262143-01-01T00:00:00Z" := by
  decide +kernel

end Instant

end PlaybookRuns.Time
