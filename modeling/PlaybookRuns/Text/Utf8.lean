/-!
# UTF-8

Writing characters as octets, and reading octets back when they may be ill-formed: every maximal
ill-formed stretch is replaced by U+FFFD. The reader is a machine that takes one octet at a time,
so it never looks ahead; an octet that cannot continue a character ends it and is read afresh.
-/

namespace PlaybookRuns.Text.Utf8

/-- The character that stands for octets that are no character. -/
def replacement : Char := '\uFFFD'

/-- The octets of a character, by the size of its code point. -/
def encodeChar (c : Char) : List UInt8 :=
  let n := c.toNat
  if n < 0x80 then [.ofNat n]
  else if n < 0x800 then [.ofNat (0xC0 + n / 64), .ofNat (0x80 + n % 64)]
  else if n < 0x10000 then
    [.ofNat (0xE0 + n / 4096), .ofNat (0x80 + n / 64 % 64), .ofNat (0x80 + n % 64)]
  else
    [.ofNat (0xF0 + n / 262144), .ofNat (0x80 + n / 4096 % 64), .ofNat (0x80 + n / 64 % 64),
     .ofNat (0x80 + n % 64)]

/-- The octets of a run of characters. -/
def encode (cs : List Char) : List UInt8 := cs.flatMap encodeChar

/-- Where the reader stands between octets. -/
inductive State where
  /-- Between characters. -/
  | start
  /-- Inside a character: the bits read so far, how many octets are still owed, and the range in
  which the next one must lie. -/
  | inside (bits owed low high : Nat)
  deriving DecidableEq, Repr

/-- The characters and the state that an octet gives between characters. The second octet of a
character is held to a narrower range where a full one would allow a longer spelling of a smaller
code point, a surrogate, or a code point above U+10FFFF. -/
def begin (b : Nat) : List Char × State :=
  if b < 0x80 then ([Char.ofNat b], .start)
  else if b < 0xC2 then ([replacement], .start)
  else if b < 0xE0 then ([], .inside (b - 0xC0) 1 0x80 0xBF)
  else if b < 0xF0 then
    ([], .inside (b - 0xE0) 2 (if b = 0xE0 then 0xA0 else 0x80) (if b = 0xED then 0x9F else 0xBF))
  else if b < 0xF5 then
    ([], .inside (b - 0xF0) 3 (if b = 0xF0 then 0x90 else 0x80) (if b = 0xF4 then 0x8F else 0xBF))
  else ([replacement], .start)

/-- One octet: the characters it completes and the state after it. -/
def step : State → Nat → List Char × State
  | .start, b => begin b
  | .inside bits owed low high, b =>
    if low ≤ b ∧ b ≤ high then
      let bits := bits * 64 + (b - 0x80)
      if owed ≤ 1 then ([Char.ofNat bits], .start) else ([], .inside bits (owed - 1) 0x80 0xBF)
    else
      let (cs, state) := begin b
      (replacement :: cs, state)

/-- The characters that the octets give from a state on; a character cut off by the end is
replaced too. -/
def decodeFrom : State → List UInt8 → List Char
  | .start, [] => []
  | .inside .., [] => [replacement]
  | state, b :: bs =>
    let (cs, next) := step state b.toNat
    cs ++ decodeFrom next bs

/-- The characters of a run of octets, ill-formed stretches replaced. -/
def decodeLossy (bs : List UInt8) : List Char := decodeFrom .start bs

example : decodeLossy [0x61, 0xE2, 0x82, 0xAC, 0xFF, 0xE2, 0x82, 0x62] =
    ['a', '€', replacement, replacement, 'b'] := by decide

example : decodeLossy (encode "aé€😀".toList) = "aé€😀".toList := by decide

end PlaybookRuns.Text.Utf8
