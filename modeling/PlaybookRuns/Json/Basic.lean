import PlaybookRuns.Keyed

/-!
# JSON values

Values of JSON as programs hold them: whole numbers apart from other numbers, and the members of
an object in ascending key order, each key once.
-/

namespace PlaybookRuns

/-- A JSON value. The members of an object ascend by key. -/
inductive Json where
  | null
  | bool (value : Bool)
  | integer (value : Int)
  | real (value : Float)
  | string (value : String)
  | array (items : List Json)
  | object (members : List (String × Json))
  deriving Inhabited

namespace Json

/-- The object with the given members; of two with one key the later stands. -/
def ofMembers (members : List (String × Json)) : Json := .object (Keyed.ofList members)

/-- The object with the given members, absent ones left out. -/
def ofPresent (members : List (String × Option Json)) : Json :=
  ofMembers (members.filterMap fun (key, value) ↦ value.map (key, ·))

/-- A text, or null. -/
def ofOption (f : α → Json) : Option α → Json
  | some a => f a
  | none => .null

/-- The value of a member of an object. -/
def member? (key : String) : Json → Option Json
  | .object members => Keyed.find? key members
  | _ => none

/-- The text that a string holds. -/
def text? : Json → Option String
  | .string s => some s
  | _ => none

end Json

end PlaybookRuns
