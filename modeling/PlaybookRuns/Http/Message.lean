import PlaybookRuns.Json.Basic
import PlaybookRuns.Text.Blank
import PlaybookRuns.Text.Split

/-!
# HTTP requests and responses

Requests as a server sees them, and the responses it gives. Of a header given more than once the
first counts, and one whose value is not printable ASCII counts as missing.
-/

namespace PlaybookRuns.Http

/-- A header: its name and its value. -/
abbrev Header := String × String

/-- A request. -/
structure Request where
  method : String
  /-- Path and query as they stand in the request line. -/
  target : String
  headers : List Header
  body : String
  deriving DecidableEq, Repr

/-- The body of a response. -/
inductive Body where
  | empty
  | text (s : String)
  | json (value : Json)
  /-- A refusal whose wording is not laid down. -/
  | rejected

/-- A response. -/
structure Response where
  status : Nat
  body : Body

/-- What a client gets of a response: its status and, if it could be read to the end, its body. -/
structure Reply where
  status : Nat
  body : Option String
  deriving DecidableEq, Repr

/-- Whether a status tells of success. -/
def isSuccess (status : Nat) : Bool := 200 ≤ status && status < 300

/-- Whether a character may stand in a header value that is read as text. -/
def isHeaderChar (c : Char) : Bool := c == '\t' || (0x20 ≤ c.toNat && c.toNat < 0x7F)

/-- The text of a header, if it is there and printable. -/
def header? (headers : List Header) (name : String) : Option String :=
  ((headers.find? fun h ↦ h.1.toLower = name).map (·.2)).filter (·.toList.all isHeaderChar)

/-- The text of a header without white space around it, unless there is nothing else. -/
def trimmedHeader? (headers : List Header) (name : String) : Option String :=
  ((header? headers name).map Text.trim).filter (· ≠ "")

/-- Whether a character may stand in a scheme. -/
def isSchemeChar (c : Char) : Bool := c.isAlphanum || "+-.".toList.contains c

/-- What follows scheme and authority, for a target that starts with them. -/
def skipAuthority (cs : List Char) : List Char :=
  match cs.dropWhile isSchemeChar with
  | ':' :: '/' :: '/' :: rest => rest.dropWhile fun c ↦ !("/?#".toList.contains c)
  | _ => cs

/-- The path and the query of a request line. Whether the target names the server does not
matter. -/
def splitTarget (target : String) : String × String :=
  let cs := (skipAuthority target.toList).takeWhile (· ≠ '#')
  let (path, query) := (Text.splitFirst? '?' cs).getD (cs, [])
  (String.ofList path, String.ofList query)

example : splitTarget "http://localhost:8000/runs?limit=1" = ("/runs", "limit=1") := by decide

example : splitTarget "/runs?next=http://localhost/" = ("/runs", "next=http://localhost/") := by
  decide

end PlaybookRuns.Http
