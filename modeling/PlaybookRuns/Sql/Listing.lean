import PlaybookRuns.Query.Request
import PlaybookRuns.Sql.Condition

/-!
# Listing statements

The statements that count the rows of a listing and fetch one window of them in order. Missing
values come first when ascending and last when descending; identifiers break ties.
-/

namespace PlaybookRuns.Sql

open PlaybookRuns.Query

/-- A column that a statement yields, and the name under which it does. -/
structure OutputColumn where
  source : ColumnRef
  name : String
  deriving DecidableEq, Repr

/-- An output column as written: the name is given where it is not the column's own. -/
def OutputColumn.statement (c : OutputColumn) : Statement :=
  if c.name = c.source.name then [.word c.source.word] else words [c.source.word, "AS", c.name]

/-- The columns of a run. -/
def runOutput : List OutputColumn :=
  ["id", "org_id", "recipient", "correlation_id", "url", "timeout", "status", "labels", "service",
    "created_at", "updated_at", "satellite_id", "satellite_org_id", "name",
    "web_console_url"].map fun name ↦ ⟨runColumn name, name⟩

/-- The columns of a host, named so that they do not clash with those of its run. -/
def hostOutput : List OutputColumn := [
  ⟨hostColumn "id", "host_id"⟩,
  ⟨hostColumn "run_id", "host_run_id"⟩,
  ⟨hostColumn "host", "host_name"⟩,
  ⟨hostColumn "inventory_id", "host_inventory_id"⟩,
  ⟨hostColumn "status", "host_status"⟩,
  ⟨hostColumn "stdout", "host_stdout"⟩,
  ⟨hostColumn "created_at", "host_created_at"⟩,
  ⟨hostColumn "updated_at", "host_updated_at"⟩]

/-- Where the rows of runs come from. -/
def fromRuns : Statement := words ["FROM", "runs", "r"]

/-- Where the rows of hosts come from, each with its run. -/
def fromHosts : Statement :=
  words ["FROM", "run_hosts", "h", "JOIN", "runs", "r", "ON", "r.id", "=", "h.run_id"]

/-- The column that a sort key of runs stands for. -/
def runSortColumn : RunSortKey → ColumnRef
  | .createdAt => runColumn "created_at"
  | .updatedAt => runColumn "updated_at"
  | .timeout => runColumn "timeout"
  | .recipient => runColumn "recipient"
  | .service => runColumn "service"
  | .name => runColumn "name"

/-- The column that a sort key of hosts stands for. -/
def hostSortColumn : HostSortKey → ColumnRef
  | .createdAt => hostColumn "created_at"
  | .updatedAt => hostColumn "updated_at"
  | .host => hostColumn "host"
  | .inventoryId => hostColumn "inventory_id"

/-- One criterion of an order: a column, its direction, and where missing values go. -/
structure OrderTerm where
  column : ColumnRef
  direction : Direction
  /-- Whether missing values come first; none where the statement does not say. -/
  nullsFirst : Option Bool
  deriving DecidableEq, Repr

/-- A criterion as written. -/
def OrderTerm.statement (t : OrderTerm) : Statement :=
  words ([t.column.word, match t.direction with | .asc => "ASC" | .desc => "DESC"] ++
    match t.nullsFirst with
    | some true => ["NULLS", "FIRST"]
    | some false => ["NULLS", "LAST"]
    | none => [])

/-- The criteria of an order by a column: missing values are the least, and ascending identifiers
break ties. -/
def orderTerms (column id : ColumnRef) (direction : Direction) : List OrderTerm :=
  [⟨column, direction, some (direction = .asc)⟩, ⟨id, .asc, none⟩]

/-- The criteria of an order of runs. -/
def runOrder (order : SortOrder RunSortKey) : List OrderTerm :=
  orderTerms (runSortColumn order.key) (runColumn "id") order.direction

/-- The criteria of an order of hosts. -/
def hostOrder (order : SortOrder HostSortKey) : List OrderTerm :=
  orderTerms (hostSortColumn order.key) (hostColumn "id") order.direction

/-- The clause that puts rows in order. -/
def orderClause (terms : List OrderTerm) : Statement :=
  words ["ORDER", "BY"] ++ commaSeparated (terms.map OrderTerm.statement)

/-- The clause that cuts a window out of the rows. -/
def windowClause (window : Window) : Statement :=
  [.word "LIMIT", .bind (.int8 window.limit), .word "OFFSET", .bind (.int8 window.offset)]

/-- The statement that counts the rows of a listing. -/
def countStatement (source : Statement) (query : ListQuery κ) : Statement :=
  words ["SELECT", "COUNT(*)"] ++ source ++ whereClause query.orgId query.filter query.now

/-- The statement that fetches a window of the rows of a listing. -/
def selectStatement (output : List OutputColumn) (source : Statement) (terms : List OrderTerm)
    (query : ListQuery κ) : Statement :=
  .word "SELECT" :: commaSeparated (output.map OutputColumn.statement) ++ source ++
    whereClause query.orgId query.filter query.now ++ orderClause terms ++
    windowClause query.window

/-- The statement that counts the runs a query asks for. -/
def countRuns (query : ListQuery RunSortKey) : Statement := countStatement fromRuns query

/-- The statement that fetches the runs a query asks for. -/
def selectRuns (query : ListQuery RunSortKey) : Statement :=
  selectStatement runOutput fromRuns (runOrder query.sort) query

/-- The statement that counts the hosts a query asks for. -/
def countHosts (query : ListQuery HostSortKey) : Statement := countStatement fromHosts query

/-- The statement that fetches the hosts a query asks for, each with its run. -/
def selectHosts (query : ListQuery HostSortKey) : Statement :=
  selectStatement (hostOutput ++ runOutput) fromHosts (hostOrder query.sort) query

end PlaybookRuns.Sql
