import PlaybookRuns.Query.Filter
import PlaybookRuns.Sql.Statement

/-!
# Conditions

Conditions on the rows of a statement, how they are written, and the condition that selects the
rows of a tenant which a filter holds of. Inside another condition a compound one stands in
parentheses; a choice among nothing is written `FALSE`.
-/

namespace PlaybookRuns.Sql

open PlaybookRuns.Query PlaybookRuns.Time

/-- The tables, by the alias under which statements refer to them. -/
inductive Table where
  /-- Runs, aliased `r`. -/
  | runs
  /-- Hosts, aliased `h`. -/
  | hosts
  deriving DecidableEq, Repr

/-- The alias of a table. -/
def Table.alias : Table → String
  | runs => "r"
  | hosts => "h"

/-- A column of a table. -/
structure ColumnRef where
  table : Table
  name : String
  deriving DecidableEq, Repr

/-- A column as a word. -/
def ColumnRef.word (c : ColumnRef) : String := c.table.alias ++ "." ++ c.name

/-- What is compared. -/
inductive Term where
  | column (c : ColumnRef)
  | bound (v : Value)
  | literal (s : String)
  /-- A number of seconds, held in one column, after the instant in another. -/
  | secondsAfter (instant seconds : ColumnRef)
  deriving DecidableEq

/-- A condition on a row. -/
inductive Condition where
  | equal (a b : Term)
  | atMost (a b : Term)
  | above (a b : Term)
  /-- The object in `a` has every member of the object in `b`. -/
  | includes (a b : Term)
  | isIn (a : Term) (values : List Value)
  | all (conditions : List Condition)
  | any (conditions : List Condition)

/-- A term as written. -/
def Term.statement : Term → Statement
  | column c => [.word c.word]
  | bound v => [.bind v]
  | literal s => [.word ("'" ++ s ++ "'")]
  | secondsAfter instant seconds =>
    parenthesized (words [instant.word, "+", seconds.word, "*", "INTERVAL", "'1 second'"])

namespace Condition

/-- A comparison as written. -/
def comparison (a : Term) (operator : String) (b : Term) : Statement :=
  a.statement ++ .word operator :: b.statement

mutual

/-- A condition as written inside another. -/
def operand : Condition → Statement
  | equal a b => comparison a "=" b
  | atMost a b => comparison a "<=" b
  | above a b => comparison a ">" b
  | includes a b => comparison a "@>" b
  | isIn _ [] => [.word "FALSE"]
  | isIn a (v :: values) =>
    a.statement ++ .word "IN" :: parenthesized (commaSeparated ((v :: values).map ([.bind ·])))
  | all [] => [.word "TRUE"]
  | all (c :: conditions) => parenthesized (c.operand ++ joined "AND" conditions)
  | any [] => [.word "FALSE"]
  | any (c :: conditions) => parenthesized (c.operand ++ joined "OR" conditions)

/-- Further conditions, a connective before each. -/
def joined (connective : String) : List Condition → Statement
  | [] => []
  | c :: conditions => .word connective :: (c.operand ++ joined connective conditions)

end

end Condition

/-! ## Filters as conditions -/

/-- A column of the table of runs. -/
def runColumn (name : String) : ColumnRef := ⟨.runs, name⟩

/-- A column of the table of hosts. -/
def hostColumn (name : String) : ColumnRef := ⟨.hosts, name⟩

/-- The instant from which a run counts as timed out. -/
def deadline : Term := .secondsAfter (runColumn "created_at") (runColumn "timeout")

/-- Where a column of a filter is kept. -/
def filterColumn : Column → ColumnRef
  | .runId => runColumn "id"
  | .recipient => runColumn "recipient"
  | .service => runColumn "service"
  | .host => hostColumn "host"
  | .inventoryId => hostColumn "inventory_id"

/-- An operand of a filter as a value. -/
def operandValue : Operand → Value
  | .uuid id => .uuid id
  | .text s => .text s

/-- Where the stored status of a subject is kept. -/
def statusColumn : Subject → ColumnRef
  | .run => runColumn "status"
  | .host => hostColumn "status"

/-- The condition that a status is shown at `now`. -/
def shownCondition (column : ColumnRef) (now : Instant) : DisplayedStatus → Condition
  | .timeout =>
    .all [.equal (.column column) (.literal "running"), .atMost deadline (.bound (.instant now))]
  | .running =>
    .all [.equal (.column column) (.literal "running"), .above deadline (.bound (.instant now))]
  | status => .equal (.column column) (.bound (.text status.name))

/-- A predicate as a condition. -/
def predicateCondition (now : Instant) : Predicate → Condition
  | .anyOf column values => .isIn (.column (filterColumn column)) (values.map operandValue)
  | .status subject shown => .any (shown.map (shownCondition (statusColumn subject) now))
  | .label key value =>
    .includes (.column (runColumn "labels")) (.bound (.labels (.ofList [(key, value)])))

/-- The condition that a row belongs to a tenant. -/
def tenantCondition (orgId : String) : Condition :=
  .equal (.column (runColumn "org_id")) (.bound (.text orgId))

/-- The clause that selects the rows of a tenant which a filter holds of. -/
def whereClause (orgId : String) (filter : Filter) (now : Instant) : Statement :=
  .word "WHERE" :: ((tenantCondition orgId).operand ++
    Condition.joined "AND" (filter.predicates.map (predicateCondition now)))

end PlaybookRuns.Sql
