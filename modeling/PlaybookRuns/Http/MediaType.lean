import PlaybookRuns.Text.Split

/-!
# Media types

Which content types announce JSON: `application/json` and `application/…+json`, in any case, with
any well-formed parameters.
-/

namespace PlaybookRuns.Http

/-- Whether a character may stand in a token. -/
def isTokenChar (c : Char) : Bool := c.isAlphanum || "!#$%&'*+-.^_\x60|~".toList.contains c

/-- Whether a character may stand between quotes. -/
def isQuotable (c : Char) : Bool := 0x20 ≤ c.toNat && c.toNat ≠ 0x7F

/-- Where the reader of parameters stands. -/
inductive ParameterState where
  /-- Before a name; blanks are skipped. -/
  | start
  | name
  /-- After the equals sign. -/
  | value
  | token
  /-- After the opening quote; a quoted value has one character at least. -/
  | opened
  | quoted
  /-- After the closing quote. -/
  | closed
  deriving DecidableEq, Repr

/-- Whether a text is a list of parameters, from a state on. -/
def areParameters : ParameterState → List Char → Bool
  | .name, [] | .opened, [] | .quoted, [] => false
  | _, [] => true
  | .start, c :: cs =>
    if c = ' ' then areParameters .start cs else isTokenChar c && areParameters .name cs
  | .name, c :: cs =>
    if c = '=' then areParameters .value cs else isTokenChar c && areParameters .name cs
  | .value, c :: cs =>
    if c = '"' then areParameters .opened cs else isTokenChar c && areParameters .token cs
  | .token, c :: cs =>
    if c = ';' then areParameters .start cs else isTokenChar c && areParameters .token cs
  | .opened, c :: cs => isQuotable c && areParameters .quoted cs
  | .quoted, c :: cs =>
    if c = '"' then areParameters .closed cs else isQuotable c && areParameters .quoted cs
  | .closed, c :: cs =>
    if c = ';' then areParameters .start cs else c = ' ' && areParameters .closed cs

/-- Whether the part of a media type after the slash announces JSON: it is `json`, or so is what
stands before or after its last plus sign. -/
def isJsonSubtype (subtype : List Char) : Bool :=
  let json := "json".toList
  match Text.splitFirst? '+' subtype.reverse with
  | some (after, before) =>
    !before.isEmpty && (before.reverse == json || after.reverse == json)
  | none => subtype == json

/-- Whether a content type announces JSON. -/
def isJsonMediaType (contentType : String) : Bool :=
  match Text.splitFirst? '/' contentType.toList with
  | none => false
  | some (type, rest) =>
    let (subtype, parameters) := (Text.splitFirst? ';' rest).getD (rest, [])
    type.map Char.toLower = "application".toList && subtype.all isTokenChar &&
      isJsonSubtype (subtype.map Char.toLower) && areParameters .start parameters

example : isJsonMediaType "Application/vnd.api+JSON; charset=utf-8" := by decide +kernel

example : isJsonMediaType "application/json;a=\"b;c\" ; d=e" := by decide +kernel

example : ¬isJsonMediaType "application/jsonx" := by decide +kernel

end PlaybookRuns.Http
