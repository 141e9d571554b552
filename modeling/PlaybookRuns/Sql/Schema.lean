import PlaybookRuns.Sql.Statement

/-!
# The schema

The tables in which runs and hosts are kept, with what must hold of each column, and the
statements that create them.
-/

namespace PlaybookRuns.Sql

/-- The type of a column. -/
inductive ColumnType where
  | uuid
  /-- A text of at most so many characters. -/
  | varchar (width : Nat)
  | text
  | integer
  | jsonb
  | timestamptz
  deriving DecidableEq, Repr

/-- A condition that a column's values must meet. -/
inductive Check where
  | notNegative
  | oneOf (texts : List String)
  deriving DecidableEq, Repr

/-- A column of a table. -/
structure ColumnDef where
  name : String
  type : ColumnType
  primaryKey : Bool
  notNull : Bool
  check : Option Check
  /-- The table and the column in which every value must be found. -/
  references : Option (String × String)
  default : Option String
  deriving DecidableEq, Repr

/-- A table. -/
structure TableDef where
  name : String
  columns : List ColumnDef
  deriving DecidableEq, Repr

namespace ColumnDef

/-- A column that may be without a value. -/
def nullable (name : String) (type : ColumnType) : ColumnDef :=
  ⟨name, type, false, false, none, none, none⟩

/-- A column that must have a value. -/
def required (name : String) (type : ColumnType) : ColumnDef :=
  { nullable name type with notNull := true }

/-- A column that must have a value which meets a condition. -/
def checked (name : String) (type : ColumnType) (check : Check) : ColumnDef :=
  { required name type with check := some check }

/-- The column that identifies a row. -/
def key (name : String) : ColumnDef := { nullable name .uuid with primaryKey := true }

end ColumnDef

/-- The condition that a text is a stored status. -/
def statusCheck : Check := .oneOf (["running", "success", "failure"])

/-- The table of runs. -/
def runsTable : TableDef where
  name := "runs"
  columns := [
    .key "id",
    .required "org_id" (.varchar 10),
    .required "recipient" .uuid,
    .required "correlation_id" .uuid,
    .required "url" .text,
    .checked "timeout" .integer .notNegative,
    .checked "status" (.varchar 16) statusCheck,
    { ColumnDef.required "labels" .jsonb with default := some "'\x7b\x7d'" },
    .required "service" (.varchar 255),
    .required "created_at" .timestamptz,
    .required "updated_at" .timestamptz,
    .nullable "satellite_id" .uuid,
    .nullable "satellite_org_id" (.varchar 255),
    .nullable "name" .text,
    .nullable "web_console_url" .text]

/-- The table of hosts. -/
def hostsTable : TableDef where
  name := "run_hosts"
  columns := [
    .key "id",
    { ColumnDef.required "run_id" .uuid with references := some ("runs", "id") },
    .required "host" .text,
    .nullable "inventory_id" .uuid,
    .checked "status" (.varchar 16) statusCheck,
    .nullable "stdout" .text,
    .required "created_at" .timestamptz,
    .required "updated_at" .timestamptz]

/-- An index: its name, its table and what it is made of. -/
structure IndexDef where
  name : String
  definition : String
  deriving DecidableEq, Repr

/-- The indexes that listings use. -/
def indexes : List IndexDef := [
  ⟨"idx_runs_org_created", "runs(org_id, created_at DESC)"⟩,
  ⟨"idx_runs_recipient", "runs(recipient)"⟩,
  ⟨"idx_runs_labels", "runs USING GIN (labels)"⟩,
  ⟨"idx_run_hosts_run_id", "run_hosts(run_id)"⟩,
  ⟨"idx_run_hosts_inventory_id", "run_hosts(inventory_id)"⟩]

/-! ## Statements -/

/-- A type as written. -/
def ColumnType.word : ColumnType → String
  | uuid => "UUID"
  | varchar width => "VARCHAR(" ++ toString width ++ ")"
  | text => "TEXT"
  | integer => "INTEGER"
  | jsonb => "JSONB"
  | timestamptz => "TIMESTAMPTZ"

/-- A condition on a column as written. -/
def Check.text (column : String) : Check → String
  | notNegative => "CHECK (" ++ column ++ " >= 0)"
  | oneOf texts =>
    "CHECK (" ++ column ++ " IN (" ++
      ", ".intercalate (texts.map fun s ↦ "'" ++ s ++ "'") ++ "))"

/-- A column as written. -/
def ColumnDef.text (c : ColumnDef) : String :=
  " ".intercalate ([some c.name, some c.type.word,
    if c.primaryKey then some "PRIMARY KEY" else none,
    if c.notNull then some "NOT NULL" else none,
    c.references.map fun (table, column) ↦
      "REFERENCES " ++ table ++ "(" ++ column ++ ") ON DELETE CASCADE",
    c.check.map (Check.text c.name),
    c.default.map ("DEFAULT " ++ ·)].filterMap id)

/-- The statement that creates a table. -/
def TableDef.statement (t : TableDef) : Statement :=
  words ["CREATE TABLE IF NOT EXISTS " ++ t.name ++ " ( " ++
    ", ".intercalate (t.columns.map ColumnDef.text) ++ " )"]

/-- The statement that creates an index. -/
def IndexDef.statement (i : IndexDef) : Statement :=
  words ["CREATE INDEX IF NOT EXISTS " ++ i.name ++ " ON " ++ i.definition]

/-- The statements that create what is not there yet, in order. -/
def migrations : List Statement :=
  [runsTable.statement, hostsTable.statement] ++ indexes.map IndexDef.statement

end PlaybookRuns.Sql
