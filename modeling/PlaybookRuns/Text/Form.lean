import PlaybookRuns.Text.Hex
import PlaybookRuns.Text.Split
import PlaybookRuns.Text.Utf8

/-!
# Form-urlencoded parameters

Parameters as `name=value` pairs joined by `&`, with octets escaped as `%XX` and spaces written
`+`. `encode` writes a list of pairs and `decode` reads any text back as one, without failing: an
escape that is not one is taken literally, and octets that are no UTF-8 are replaced.
-/

namespace PlaybookRuns.Text.Form

/-- A decoded parameter: its name and its value. -/
abbrev Pair := String × String

/-- Octets that stand for themselves. -/
def isPlain (b : UInt8) : Bool :=
  let n := b.toNat
  (0x30 ≤ n && n ≤ 0x39) || (0x41 ≤ n && n ≤ 0x5A) || (0x61 ≤ n && n ≤ 0x7A) ||
    n == 0x2A || n == 0x2D || n == 0x2E || n == 0x5F

/-- The characters that write an octet. -/
def encodeOctet (b : UInt8) : List Char :=
  if b = 0x20 then ['+']
  else if isPlain b then [Char.ofNat b.toNat]
  else ['%', upperHexDigit (b.toNat / 16), upperHexDigit (b.toNat % 16)]

/-- The characters that write a name or a value. -/
def encodeText (s : String) : List Char := (Utf8.encode s.toList).flatMap encodeOctet

/-- The characters that write one parameter. -/
def encodePair (p : Pair) : List Char := encodeText p.1 ++ '=' :: encodeText p.2

/-- The text of a list of parameters. -/
def encode (ps : List Pair) : String :=
  String.ofList (['&'].intercalate (ps.map encodePair))

/-- The octets that a written name or value stands for. -/
def unescape : List UInt8 → List UInt8
  | [] => []
  | b :: bs =>
    if b = 0x2B then 0x20 :: unescape bs
    else if b = 0x25 then
      match bs with
      | high :: low :: rest =>
        match hexValue? high.toNat, hexValue? low.toNat with
        | some h, some l => .ofNat (h * 16 + l) :: unescape rest
        | _, _ => b :: unescape (high :: low :: rest)
      | rest => b :: unescape rest
    else b :: unescape bs

/-- The text that a written name or value stands for. -/
def decodeText (bs : List UInt8) : String := String.ofList (Utf8.decodeLossy (unescape bs))

/-- The parameter that a stretch between two `&` stands for. -/
def decodePair (bs : List UInt8) : Pair :=
  let (name, value) := (splitFirst? 0x3D bs).getD (bs, [])
  (decodeText name, decodeText value)

/-- The parameters of a written text, in order; empty stretches between `&` hold none. -/
def decode (s : String) : List Pair :=
  ((splitAll 0x26 (Utf8.encode s.toList)).filter (· ≠ [])).map decodePair

example : encode [("a b", "ü&="), ("", "")] = "a+b=%C3%BC%26%3D&=" := by decide +kernel

example : decode "&a+b=%c3%BC%26=%3D%zz&&x" = [("a b", "ü&==%zz"), ("x", "")] := by decide +kernel

end PlaybookRuns.Text.Form
