import PlaybookRuns.Json.Basic
import PlaybookRuns.Json.Document
import PlaybookRuns.Time.Instant
import PlaybookRuns.Uuid

/-!
# Decoding JSON documents into shapes

A decoder turns the tree of a text into a value, and reports the first fault in reading order: the
text may break the grammar, or be good JSON of another shape. A record may be given as an object
or as an array of its fields in declaration order; unknown members are skipped, a known member
may not come twice.
-/

namespace PlaybookRuns.Json

/-- Why a text does not decode. -/
inductive Fault where
  /-- The text breaks the grammar, or a limit of the reader. -/
  | malformed
  /-- The text is JSON of another shape. -/
  | mismatched
  deriving DecidableEq, Repr

/-- A way to read values of a type. -/
abbrev Decoder (α : Type) := Document → Except Fault α

/-! ## Numbers -/

/-- A number that has been read: a whole one that fits 64 bits, or another in double precision. -/
inductive Number where
  | integer (n : Int)
  | real (x : Float)

/-- The number that a text denotes; none where it exceeds double precision. Minus zero is no whole
number, and neither is anything outside the signed and unsigned 64-bit ranges. -/
def NumberText.value? (t : NumberText) : Option Number :=
  match t.fraction, t.exponent with
  | none, none =>
    let n := ofDigits t.whole
    if t.negative ∧ 0 < n ∧ Int64.minValue.toInt ≤ -(n : Int) then some (.integer (-(n : Int)))
    else if ¬t.negative ∧ n < UInt64.size then some (.integer n)
    else (Real.ofDigits? t.negative t.whole [] 0).map .real
  | fraction, exponent =>
    (Real.ofDigits? t.negative t.whole (fraction.getD []) (exponent.getD 0)).map .real

namespace Shape

/-! ## Plain values -/

/-- The fault of meeting a document where another kind is expected. -/
def mismatch : Document → Fault
  | .broken => .malformed
  | .string none => .malformed
  | .number n => if n.value?.isSome then .mismatched else .malformed
  | _ => .mismatched

/-- A text. -/
def text : Decoder String
  | .string (some s) => .ok s
  | d => .error (mismatch d)

/-- A text in a notation of its own. -/
def parsed (parse? : String → Option α) : Decoder α := fun d ↦ do
  match parse? (← text d) with
  | some a => .ok a
  | none => .error .mismatched

/-- An identifier. -/
def uuid : Decoder Uuid := parsed Uuid.ofText?

/-- An instant. -/
def instant : Decoder Time.Instant := parsed Time.Instant.ofText?

/-- A whole number between two bounds. -/
def integer (low high : Int) : Decoder Int
  | .number t =>
    match t.value? with
    | some (.integer n) => if low ≤ n ∧ n ≤ high then .ok n else .error .mismatched
    | some (.real _) => .error .mismatched
    | none => .error .malformed
  | d => .error (mismatch d)

/-- A value or null. -/
def optional (decode : Decoder α) : Decoder (Option α)
  | .null => .ok none
  | d => some <$> decode d

/-- One of a few names, as a text or as the only member of an object, with null for its value. -/
def name (ofName? : String → Option α) : Decoder α
  | .string (some s) =>
    match ofName? s with
    | some a => .ok a
    | none => .error .mismatched
  | .object ((some s, value) :: members) closed =>
    match ofName? s, value with
    | none, _ => .error .mismatched
    | some a, .null => if members.isEmpty ∧ closed then .ok a else .error .malformed
    | some _, value => .error (mismatch value)
  | _ => .error .malformed

/-! ## Lists and maps -/

/-- A value after which a list must have been closed. -/
def whenClosed (closed : Bool) (a : α) : Except Fault α :=
  if closed then .ok a else .error .malformed

/-- An array of values. -/
def list (decode : Decoder α) : Decoder (List α)
  | .array items closed => do whenClosed closed (← items.mapM decode)
  | d => .error (mismatch d)

/-- A member of an object with any keys. -/
def entry (decode : Decoder α) : Option String × Document → Except Fault (String × α)
  | (some key, value) => return (key, ← decode value)
  | (none, _) => .error .malformed

/-- The entries of an object with any keys, sorted; of two with one key the later stands. -/
def entries (decode : Decoder α) : Decoder (List (String × α))
  | .object members closed => do
    whenClosed closed (Keyed.ofList (← members.mapM (entry decode)))
  | d => .error (mismatch d)

mutual

/-- Whether nothing is broken or unfinished. -/
def isWhole : Document → Bool
  | .broken => false
  | .array items closed => closed && itemsWhole items
  | .object members closed => closed && membersWhole members
  | _ => true

/-- Whether nothing is broken or unfinished in any item. -/
def itemsWhole : List Document → Bool
  | [] => true
  | item :: items => isWhole item && itemsWhole items

/-- Whether nothing is broken or unfinished in any member. -/
def membersWhole : List (Option String × Document) → Bool
  | [] => true
  | (_, value) :: members => isWhole value && membersWhole members

end

mutual

/-- Any value, with at most `room` lists inside one another. -/
def anyValue (room : Nat) : Document → Except Fault Json
  | .broken => .error .malformed
  | .null => .ok .null
  | .bool b => .ok (.bool b)
  | .number t =>
    match t.value? with
    | some (.integer n) => .ok (.integer n)
    | some (.real x) => .ok (.real x)
    | none => .error .malformed
  | .string (some s) => .ok (.string s)
  | .string none => .error .malformed
  | .array items closed =>
    if room = 0 then .error .malformed
    else do whenClosed closed (.array (← anyItems (room - 1) items))
  | .object members closed =>
    if room = 0 then .error .malformed
    else do whenClosed closed (.ofMembers (← anyMembers (room - 1) members))

/-- The values of items. -/
def anyItems (room : Nat) : List Document → Except Fault (List Json)
  | [] => .ok []
  | item :: items => return (← anyValue room item) :: (← anyItems room items)

/-- The values of members with their keys. -/
def anyMembers (room : Nat) : List (Option String × Document) → Except Fault (List (String × Json))
  | [] => .ok []
  | (some key, value) :: members =>
    return (key, ← anyValue room value) :: (← anyMembers room members)
  | (none, _) :: _ => .error .malformed

end

/-- How many lists of one text may stand inside one another. -/
def maxDepth : Nat := 127

/-! ## Records -/

/-- What it means that a field is missing. -/
inductive Presence where
  /-- The record does not decode. -/
  | required
  /-- It has no value; in an array of fields it may not be missing. -/
  | nullable
  /-- It has its default. -/
  | defaulted
  deriving DecidableEq, Repr

/-- A field of a record: its name, what its value must decode as, and whether it may be missing. -/
structure Field where
  name : String
  check : Document → Except Fault Unit
  presence : Presence

/-- A field whose values a decoder reads. -/
def Field.of (name : String) (decode : Decoder α) (presence : Presence) : Field :=
  ⟨name, fun d ↦ (decode d).map fun _ ↦ (), presence⟩

/-- The known members of an object in the order met; `seen` are those met before. -/
def scanMembers (fields : List Field) (closed : Bool) :
    (seen : List (String × Document)) → List (Option String × Document) →
      Except Fault (List (String × Document))
  | seen, [] => whenClosed closed seen
  | _, (none, _) :: _ => .error .malformed
  | seen, (some key, value) :: members =>
    match fields.find? (·.name = key) with
    | none => if isWhole value then scanMembers fields closed seen members else .error .malformed
    | some field =>
      if seen.any (·.1 = key) then .error .mismatched
      else do
        field.check value
        scanMembers fields closed (seen ++ [(key, value)]) members

/-- The items of an array of fields under their names. -/
def scanItems (closed : Bool) : List Field → List Document → Except Fault (List (String × Document))
  | [], [] => whenClosed closed []
  | [], _ :: _ => .error .malformed
  | field :: fields, [] =>
    if ¬closed then .error .malformed
    else if field.presence = .defaulted then scanItems closed fields []
    else .error .mismatched
  | field :: fields, item :: items => do
    field.check item
    return (field.name, item) :: (← scanItems closed fields items)

/-- The values given for the fields of a record, each checked; required ones are all there. -/
def record (fields : List Field) : Decoder (List (String × Document))
  | .object members closed => do
    let found ← scanMembers fields closed [] members
    if fields.all fun f ↦ f.presence ≠ .required || found.any (·.1 = f.name) then .ok found
    else .error .mismatched
  | .array items closed => scanItems closed fields items
  | d => .error (mismatch d)

/-- The value of a field that must be there. -/
def required (key : String) (decode : Decoder α) (found : List (String × Document)) :
    Except Fault α :=
  match found.lookup key with
  | some value => decode value
  | none => .error .mismatched

/-- The value of a field that may be missing. -/
def orDefault (key : String) (decode : Decoder α) (default : α) (found : List (String × Document)) :
    Except Fault α :=
  match found.lookup key with
  | some value => decode value
  | none => .ok default

end Shape

/-! ## Whole texts -/

/-- The value of a whole text: nothing but white space may follow it. -/
def decode (decoder : Decoder α) (s : String) : Except Fault α := do
  let (document, atEnd) := read s
  Shape.whenClosed atEnd (← decoder document)

end PlaybookRuns.Json
