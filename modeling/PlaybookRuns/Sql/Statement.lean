import PlaybookRuns.Run.Basic

/-!
# Statements

Statements of SQL as sequences of tokens, some of which stand for values that are sent apart from
the text. In the text a value is a placeholder, numbered by its place among the values.
-/

namespace PlaybookRuns.Sql

open PlaybookRuns.Time (Instant)

/-- A value that is sent with a statement, or comes back in a row. -/
inductive Value where
  | null
  | uuid (id : Uuid)
  | text (s : String)
  | int4 (n : Int32)
  | int8 (n : Int64)
  | instant (t : Instant)
  | labels (labels : Labels)
  deriving DecidableEq

/-- The value of something that may be absent. -/
def Value.ofOption (f : α → Value) : Option α → Value
  | some a => f a
  | none => .null

/-- A piece of a statement: a word of its text, or a value. -/
inductive Token where
  | word (s : String)
  | bind (v : Value)
  deriving DecidableEq

/-- A statement. -/
abbrev Statement := List Token

/-- The statement that a text of words separated by blanks denotes. -/
def words (ws : List String) : Statement := ws.map .word

/-- Pieces of a statement with commas between them. -/
def commaSeparated (parts : List Statement) : Statement := [Token.word ","].intercalate parts

/-- A statement in parentheses. -/
def parenthesized (s : Statement) : Statement := .word "(" :: (s ++ [.word ")"])

namespace Statement

/-- The values sent with a statement, in order. -/
def binds : Statement → List Value
  | [] => []
  | .word _ :: rest => binds rest
  | .bind v :: rest => v :: binds rest

/-- The words of a statement, with numbered placeholders for its values after the first `count`. -/
def numbered : (count : Nat) → Statement → List String
  | _, [] => []
  | count, .word s :: rest => s :: numbered count rest
  | count, .bind _ :: rest => ("$" ++ toString (count + 1)) :: numbered (count + 1) rest

/-- Words with one blank between them, none after an opening parenthesis and none before a closing
one or a comma. -/
def spaced : List String → String
  | [] => ""
  | [w] => w
  | w :: next :: rest =>
    (if w = "(" ∨ next = ")" ∨ next = "," then w else w ++ " ") ++ spaced (next :: rest)

/-- The text of a statement. -/
def toText (s : Statement) : String := spaced (numbered 0 s)

end Statement

end PlaybookRuns.Sql
