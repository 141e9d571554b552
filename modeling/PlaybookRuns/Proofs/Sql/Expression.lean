import PlaybookRuns.Sql.Condition
import PlaybookRuns.Sql.Insertion

/-!
# Expressions of statements

What the tokens of a condition mean to the database, whatever they were written from: they are read
as an expression by the precedence of its operators, among which `AND` binds tighter than `OR`, and
the expression is evaluated on a row in three-valued logic. Instants are held in whole microseconds.
-/

namespace PlaybookRuns.Sql

open PlaybookRuns.Time (Instant)

/-- An operator between two expressions. -/
inductive Operator where
  | or
  | and
  | equal
  | atMost
  | above
  | includes
  | plus
  | times
  deriving DecidableEq, Repr

/-- How tightly an operator binds; `IN` stands between comparisons and `@>`. -/
def Operator.precedence : Operator → Nat
  | or => 1
  | and => 2
  | equal | atMost | above => 3
  | includes => 5
  | plus => 6
  | times => 7

/-- An expression as the database reads it. -/
inductive Expr where
  | truth (b : Bool)
  | value (v : Value)
  | text (s : String)
  | column (c : ColumnRef)
  /-- An interval of one second. -/
  | second
  | binary (op : Operator) (a b : Expr)
  | isIn (a : Expr) (values : List Value)
  deriving DecidableEq

/-! ## Reading -/

/-- The columns of both tables. -/
def knownColumns : List ColumnRef :=
  runInsertColumns.map runColumn ++ hostInsertColumns.map hostColumn

/-- The text that a quoted word writes. -/
def quoted? (w : String) : Option String :=
  match w.toList with
  | '\'' :: cs => if cs.getLast? = some '\'' then some (String.ofList cs.dropLast) else none
  | _ => none

/-- The part that a token plays in an expression. -/
inductive Lexeme where
  | opening
  | closing
  | comma
  | isIn
  | interval
  | operator (op : Operator)
  | operand (e : Expr)
  deriving DecidableEq

/-- The part that a token plays, if it has one. -/
def lexeme? : Token → Option Lexeme
  | .bind v => some (.operand (.value v))
  | .word w => match w with
    | "(" => some .opening
    | ")" => some .closing
    | "," => some .comma
    | "IN" => some .isIn
    | "INTERVAL" => some .interval
    | "OR" => some (.operator .or)
    | "AND" => some (.operator .and)
    | "=" => some (.operator .equal)
    | "<=" => some (.operator .atMost)
    | ">" => some (.operator .above)
    | "@>" => some (.operator .includes)
    | "+" => some (.operator .plus)
    | "*" => some (.operator .times)
    | "TRUE" => some (.operand (.truth true))
    | "FALSE" => some (.operand (.truth false))
    | w =>
      match knownColumns.find? (·.word = w) with
      | some c => some (.operand (.column c))
      | none => (quoted? w).map fun s ↦ .operand (.text s)

/-- What has been opened and not yet closed while an expression is read. -/
inductive Frame where
  | parenthesis
  | interval
  /-- An operator that waits for its right side. -/
  | operator (a : Expr) (op : Operator)
  /-- An `IN` that waits for its list. -/
  | among (a : Expr)
  /-- The list of an `IN`. -/
  | list (a : Expr) (values : List Value)
  deriving DecidableEq

/-- How far an expression has been read. -/
structure Reading where
  /-- What is open, innermost first. -/
  stack : List Frame
  /-- What has been read since, where an operator may follow. -/
  current : Option Expr
  deriving DecidableEq

/-- What is left after the operators that bind at least as tightly as `precedence` have taken their
right side. -/
def settle (precedence : Nat) : List Frame → Expr → List Frame × Expr
  | .operator a op :: stack, b =>
    if precedence ≤ op.precedence then settle precedence stack (.binary op a b)
    else (.operator a op :: stack, b)
  | stack, b => (stack, b)

/-- How far an expression has been read after one more token. -/
def Reading.step (r : Reading) (t : Token) : Option Reading :=
  match lexeme? t, r.current with
  | some .opening, none => match r.stack with
    | .among a :: stack => some ⟨.list a [] :: stack, none⟩
    | stack => some ⟨.parenthesis :: stack, none⟩
  | some .interval, none => some ⟨.interval :: r.stack, none⟩
  | some (.operand e), none => match r.stack with
    | .interval :: stack => if e = .text "1 second" then some ⟨stack, some .second⟩ else none
    | .among _ :: _ => none
    | stack => some ⟨stack, some e⟩
  | some (.operator op), some e =>
    let (stack, e) := settle op.precedence r.stack e
    some ⟨.operator e op :: stack, none⟩
  | some .isIn, some e =>
    let (stack, e) := settle 5 r.stack e
    some ⟨.among e :: stack, none⟩
  | some .comma, some e => match settle 0 r.stack e with
    | (.list a values :: stack, .value v) => some ⟨.list a (values ++ [v]) :: stack, none⟩
    | _ => none
  | some .closing, some e => match settle 0 r.stack e with
    | (.parenthesis :: stack, e) => some ⟨stack, some e⟩
    | (.list a values :: stack, .value v) => some ⟨stack, some (.isIn a (values ++ [v]))⟩
    | _ => none
  | _, _ => none

/-- How far an expression has been read after a sequence of tokens. -/
def Reading.steps (r : Reading) (ts : Statement) : Option Reading := ts.foldlM step r

/-- The expression that has been read, if nothing is left open. -/
def Reading.result? (r : Reading) : Option Expr :=
  match r.current.map (settle 0 r.stack) with
  | some ([], e) => some e
  | _ => none

/-- The expression that tokens write. -/
def Expr.ofTokens? (ts : Statement) : Option Expr :=
  ((Reading.mk [] none).steps ts).bind Reading.result?

/-- The condition of a `WHERE` clause. -/
def Expr.ofClause? : Statement → Option Expr
  | .word "WHERE" :: ts => ofTokens? ts
  | _ => none

/-! ## Evaluation -/

/-- What an expression evaluates to. -/
inductive Datum where
  | null
  | truth (b : Bool)
  | uuid (id : Uuid)
  | text (s : String)
  | number (n : Int)
  | instant (t : Instant)
  /-- An interval of so many seconds. -/
  | seconds (n : Int)
  | object (labels : Labels)
  deriving DecidableEq

namespace Datum

/-- A value as the database holds it. -/
def ofValue : Value → Datum
  | .null => null
  | .uuid id => uuid id
  | .text s => text s
  | .int4 n => number n.toInt
  | .int8 n => number n.toInt
  | .instant t => instant t.floorMicros
  | .labels labels => object labels

/-- A truth value, if it is one; no value stands for the unknown. -/
def logical? : Datum → Option (Option Bool)
  | truth b => some (some b)
  | null => some none
  | _ => none

/-- A truth value as a datum. -/
def ofLogical : Option Bool → Datum
  | some b => truth b
  | none => null

end Datum

/-- Conjunction in three-valued logic. -/
def conjunction : Option Bool → Option Bool → Option Bool
  | some false, _ => some false
  | _, some false => some false
  | some true, some true => some true
  | _, _ => none

/-- Disjunction in three-valued logic. -/
def disjunction : Option Bool → Option Bool → Option Bool
  | some true, _ => some true
  | _, some true => some true
  | some false, some false => some false
  | _, _ => none

/-- What an operator other than a connective makes of two values, if it is defined on them. -/
def Operator.onValues? : Operator → Datum → Datum → Option Datum
  | equal, .uuid a, .uuid b => some (.truth (a = b))
  | equal, .text a, .text b => some (.truth (a = b))
  | equal, .number a, .number b => some (.truth (a = b))
  | equal, .instant a, .instant b => some (.truth (a = b))
  | atMost, .number a, .number b => some (.truth (a ≤ b))
  | atMost, .instant a, .instant b => some (.truth (a ≤ b))
  | above, .number a, .number b => some (.truth (b < a))
  | above, .instant a, .instant b => some (.truth (b < a))
  | includes, .object a, .object b =>
    some (.truth (b.entries.all fun (key, value) ↦ a.get? key == some value))
  | plus, .instant t, .seconds n => some (.instant { t with seconds := t.seconds + n })
  | times, .number n, .seconds m => some (.seconds (n * m))
  | _, _, _ => none

/-- What an operator makes of two data. Only a connective has a result that does not hang on a
missing value. -/
def Operator.result? : Operator → Datum → Datum → Option Datum
  | and, a, b => do return .ofLogical (conjunction (← a.logical?) (← b.logical?))
  | or, a, b => do return .ofLogical (disjunction (← a.logical?) (← b.logical?))
  | op, a, b => if a = .null ∨ b = .null then some .null else op.onValues? a b

/-- Whether a datum equals a value, or what was found before is true. -/
def orEqual? (datum found : Datum) (v : Value) : Option Datum := do
  Operator.or.result? found (← Operator.equal.result? datum (.ofValue v))

/-- The columns of a row, for each table that the statement draws from. -/
abbrev JoinedRow := Table → Option (List (String × Value))

/-- The value of a column in a row. -/
def JoinedRow.value? (row : JoinedRow) (c : ColumnRef) : Option Value :=
  (row c.table).bind fun columns ↦ columns.lookup c.name

namespace Expr

/-- What an expression evaluates to on a row; nothing where the database would refuse it. -/
def eval? (row : JoinedRow) : Expr → Option Datum
  | truth b => some (.truth b)
  | value v => some (.ofValue v)
  | text s => some (.text s)
  | column c => (row.value? c).map Datum.ofValue
  | second => some (.seconds 1)
  | binary op a b => do op.result? (← a.eval? row) (← b.eval? row)
  | isIn a values => do
    values.foldlM (orEqual? (← a.eval? row)) (.truth false)

/-- The columns that an expression refers to. -/
def columns : Expr → List ColumnRef
  | column c => [c]
  | binary _ a b => a.columns ++ b.columns
  | isIn a _ => a.columns
  | truth _ | value _ | text _ | second => []

example : ofTokens? (words ["FALSE", "AND", "TRUE", "OR", "TRUE"]) =
    some (.binary .or (.binary .and (.truth false) (.truth true)) (.truth true)) := by
  decide +kernel

end Expr

end PlaybookRuns.Sql
