import PlaybookRuns.Json.Real
import PlaybookRuns.Text.Hex
import PlaybookRuns.Text.Integer

/-!
# Reading JSON text

The reader turns a text into a tree of what it finds, as far as it gets: where the text breaks the
grammar, the tree holds `broken` or an unfinished list, and nothing after that point is looked at.
So a consumer that walks the tree in order meets a fault of the text exactly where it stands
relative to the faults of meaning that it finds itself.
-/

namespace PlaybookRuns.Json

open PlaybookRuns.Text (digitValue? hexValue?)

/-- A number as written. -/
structure NumberText where
  negative : Bool
  whole : List Nat
  fraction : Option (List Nat)
  exponent : Option Int
  deriving DecidableEq, Repr

/-- What has been read of a JSON text. A string is none where its escapes leave a surrogate
without its partner. -/
inductive Document where
  /-- The text breaks the grammar here. -/
  | broken
  | null
  | bool (value : Bool)
  | number (value : NumberText)
  | string (value : Option String)
  /-- The items found, and whether the closing bracket was. -/
  | array (items : List Document) (closed : Bool)
  /-- The members found, and whether the closing brace was. -/
  | object (members : List (Option String × Document)) (closed : Bool)
  deriving Inhabited

/-! ## Tokens -/

/-- What follows leading JSON white space. -/
def skipSpace (cs : List Char) : List Char :=
  cs.dropWhile fun c ↦ c == ' ' || c == '\n' || c == '\t' || c == '\r'

/-- The character that a one-character escape stands for. -/
def simpleEscape? : Char → Option Char
  | '"' => some '"'
  | '\\' => some '\\'
  | '/' => some '/'
  | 'b' => some '\x08'
  | 'f' => some '\x0c'
  | 'n' => some '\n'
  | 'r' => some '\r'
  | 't' => some '\t'
  | _ => none

/-- The number of four hexadecimal digits. -/
def hexQuad? (a b c d : Char) : Option Nat := do
  let digit (c : Char) := hexValue? c.toNat
  return (((← digit a) * 16 + (← digit b)) * 16 + (← digit c)) * 16 + (← digit d)

/-- A piece of a string: a character, or a 16-bit unit given by its number. -/
inductive StringPiece where
  | char (c : Char)
  | unit (n : Nat)
  deriving DecidableEq, Repr

/-- The pieces of a string up to its closing quote, and what follows it. -/
def readPieces : List Char → Option (List StringPiece × List Char)
  | [] => none
  | '"' :: rest => some ([], rest)
  | '\\' :: 'u' :: a :: b :: c :: d :: rest => do
    let n ← hexQuad? a b c d
    let (pieces, rest) ← readPieces rest
    return (.unit n :: pieces, rest)
  | '\\' :: e :: rest => do
    let c ← simpleEscape? e
    let (pieces, rest) ← readPieces rest
    return (.char c :: pieces, rest)
  | c :: rest =>
    if c.toNat < 0x20 ∨ c = '\\' then none
    else do
      let (pieces, rest) ← readPieces rest
      return (.char c :: pieces, rest)

/-- The characters that pieces make up, two surrogates together giving one. -/
def assemble? : List StringPiece → Option (List Char)
  | [] => some []
  | .char c :: pieces => (assemble? pieces).map (c :: ·)
  | .unit n :: pieces =>
    if n < 0xD800 ∨ 0xE000 ≤ n then (assemble? pieces).map (Char.ofNat n :: ·)
    else
      match pieces with
      | .unit m :: pieces =>
        if n < 0xDC00 ∧ 0xDC00 ≤ m ∧ m < 0xE000 then
          (assemble? pieces).map
            (Char.ofNat (0x10000 + (n - 0xD800) * 1024 + (m - 0xDC00)) :: ·)
        else none
      | _ => none

/-- A string after its opening quote, and what follows it. -/
def readString (cs : List Char) : Option (Option String × List Char) := do
  let (pieces, rest) ← readPieces cs
  return ((assemble? pieces).map String.ofList, rest)

/-- The leading digits and what follows them. -/
def readDigits : List Char → List Nat × List Char
  | [] => ([], [])
  | c :: cs =>
    match digitValue? c with
    | some d => ((readDigits cs).map (d :: ·) id)
    | none => ([], c :: cs)

/-- The digits after a decimal point, if one stands here. -/
def readFraction : List Char → Option (Option (List Nat) × List Char)
  | '.' :: cs =>
    match readDigits cs with
    | ([], _) => none
    | (ds, rest) => some (some ds, rest)
  | cs => some (none, cs)

/-- The number that decimal digits write. -/
def ofDigits (ds : List Nat) : Nat := ds.foldl (fun n d ↦ n * 10 + d) 0

/-- The exponent after `e` or `E`. -/
def readExponentDigits (cs : List Char) : Option (Int × List Char) :=
  let (negative, cs) := match cs with
    | '+' :: rest => (false, rest)
    | '-' :: rest => (true, rest)
    | cs => (false, cs)
  match readDigits cs with
  | ([], _) => none
  | (ds, rest) => some (if negative then -(ofDigits ds : Int) else ofDigits ds, rest)

/-- The exponent, if one stands here. -/
def readExponent : List Char → Option (Option Int × List Char)
  | 'e' :: cs | 'E' :: cs => (readExponentDigits cs).map fun (n, rest) ↦ (some n, rest)
  | cs => some (none, cs)

/-- A number, the sign already read: no digit may follow a leading zero. -/
def readNumber (negative : Bool) (cs : List Char) : Option (NumberText × List Char) := do
  let (whole, rest) ← match readDigits cs with
    | ([], _) => none
    | (0 :: _ :: _, _) => none
    | found => some found
  let (fraction, rest) ← readFraction rest
  let (exponent, rest) ← readExponent rest
  return (⟨negative, whole, fraction, exponent⟩, rest)

/-- What follows a word that must stand here. -/
def readWord : (word cs : List Char) → Option (List Char)
  | [], cs => some cs
  | w :: word, c :: cs => if w = c then readWord word cs else none
  | _ :: _, [] => none

/-- A constant spelled out by a word. -/
def readConstant (word : List Char) (value : Document) (cs : List Char) : Document × List Char :=
  match readWord word cs with
  | some rest => (value, rest)
  | none => (.broken, [])

/-! ## Trees -/

mutual

/-- The value that stands here and what follows it; nothing follows a broken one. -/
def readValue : (fuel : Nat) → List Char → Document × List Char
  | 0, _ => (.broken, [])
  | fuel + 1, cs =>
    match skipSpace cs with
    | '\x7b' :: rest =>
      match skipSpace rest with
      | '\x7d' :: rest => (.object [] true, rest)
      | rest =>
        let (members, closed, rest) := readMembers fuel rest
        (.object members closed, rest)
    | '[' :: rest =>
      match skipSpace rest with
      | ']' :: rest => (.array [] true, rest)
      | rest =>
        let (items, closed, rest) := readItems fuel rest
        (.array items closed, rest)
    | '"' :: rest =>
      match readString rest with
      | some (s, rest) => (.string s, rest)
      | none => (.broken, [])
    | '-' :: rest =>
      match readNumber true rest with
      | some (n, rest) => (.number n, rest)
      | none => (.broken, [])
    | 'n' :: rest => readConstant "ull".toList .null rest
    | 't' :: rest => readConstant "rue".toList (.bool true) rest
    | 'f' :: rest => readConstant "alse".toList (.bool false) rest
    | rest =>
      match readNumber false rest with
      | some (n, rest) => (.number n, rest)
      | none => (.broken, [])

/-- The items from here to the closing bracket, whether it was found, and what follows. -/
def readItems : (fuel : Nat) → List Char → List Document × Bool × List Char
  | 0, _ => ([], false, [])
  | fuel + 1, cs =>
    let (item, rest) := readValue fuel cs
    match skipSpace rest with
    | ']' :: rest => ([item], true, rest)
    | ',' :: rest =>
      let (items, closed, rest) := readItems fuel rest
      (item :: items, closed, rest)
    | _ => ([item], false, [])

/-- The members from here to the closing brace, whether it was found, and what follows. -/
def readMembers : (fuel : Nat) → List Char → List (Option String × Document) × Bool × List Char
  | 0, _ => ([], false, [])
  | fuel + 1, cs =>
    match skipSpace cs with
    | '"' :: rest =>
      match readString rest with
      | none => ([], false, [])
      | some (key, rest) =>
        match skipSpace rest with
        | ':' :: rest =>
          let (value, rest) := readValue fuel rest
          match skipSpace rest with
          | '\x7d' :: rest => ([(key, value)], true, rest)
          | ',' :: rest =>
            let (members, closed, rest) := readMembers fuel rest
            ((key, value) :: members, closed, rest)
          | _ => ([(key, value)], false, [])
        | _ => ([(key, .broken)], false, [])
    | _ => ([], false, [])

end

/-- The tree of a text, and whether only white space follows its value. -/
def read (s : String) : Document × Bool :=
  let cs := s.toList
  let (document, rest) := readValue (2 * cs.length + 2) cs
  (document, (skipSpace rest).isEmpty)

end PlaybookRuns.Json
