import PlaybookRuns.Sql.Statement
import PlaybookRuns.Store.Basic

/-!
# Rows

Rows that come back from the database, read by the names of their columns. A column that must
have a value is checked when the row is fetched; a stored status is understood only after that.
-/

namespace PlaybookRuns.Sql

open PlaybookRuns.Time (Instant)

/-- A row: values by the names of their columns. -/
abbrev Row := List (String × Value)

/-- A run as fetched, its status not yet understood. -/
structure RunRow where
  id : Uuid
  orgId : String
  recipient : Uuid
  correlationId : Uuid
  url : String
  timeout : Int32
  status : String
  labels : Labels
  service : String
  createdAt : Instant
  updatedAt : Instant
  satelliteId : Option Uuid
  satelliteOrgId : Option String
  name : Option String
  webConsoleUrl : Option String
  deriving DecidableEq

/-- A host and its run as fetched, their statuses not yet understood. -/
structure HostRow where
  id : Uuid
  runId : Uuid
  host : String
  inventoryId : Option Uuid
  status : String
  stdout : Option String
  createdAt : Instant
  updatedAt : Instant
  run : RunRow
  deriving DecidableEq

namespace Row

/-- What a value of another type than the column's is reported as. -/
def typeMismatch (column : String) : StoreError := .failed ("mismatched types in column " ++ column)

/-- The value of a column that may be absent. -/
def optional (get? : Value → Option α) (column : String) (row : Row) :
    Except StoreError (Option α) :=
  match row.lookup column with
  | none => .error (.failed ("no column found for name: " ++ column))
  | some .null => .ok none
  | some v =>
    match get? v with
    | some a => .ok (some a)
    | none => .error (typeMismatch column)

/-- The value of a column that must be there. -/
def required (get? : Value → Option α) (column : String) (row : Row) : Except StoreError α := do
  match ← optional get? column row with
  | some a => return a
  | none => throw (.missingValue column)

end Row

namespace Value

/-- The identifier that a value is. -/
def uuid? : Value → Option Uuid
  | uuid id => some id
  | _ => none

/-- The text that a value is. -/
def text? : Value → Option String
  | text s => some s
  | _ => none

/-- The 32-bit number that a value is. -/
def int4? : Value → Option Int32
  | int4 n => some n
  | _ => none

/-- The instant that a value is. -/
def instant? : Value → Option Instant
  | instant t => some t
  | _ => none

/-- The labels that a value is. -/
def labels? : Value → Option Labels
  | labels l => some l
  | _ => none

end Value

/-- The run in a row. -/
def RunRow.ofRow (row : Row) : Except StoreError RunRow := do
  return {
    id := ← row.required Value.uuid? "id"
    orgId := ← row.required Value.text? "org_id"
    recipient := ← row.required Value.uuid? "recipient"
    correlationId := ← row.required Value.uuid? "correlation_id"
    url := ← row.required Value.text? "url"
    timeout := ← row.required Value.int4? "timeout"
    status := ← row.required Value.text? "status"
    labels := ← row.required Value.labels? "labels"
    service := ← row.required Value.text? "service"
    createdAt := ← row.required Value.instant? "created_at"
    updatedAt := ← row.required Value.instant? "updated_at"
    satelliteId := ← row.optional Value.uuid? "satellite_id"
    satelliteOrgId := ← row.optional Value.text? "satellite_org_id"
    name := ← row.optional Value.text? "name"
    webConsoleUrl := ← row.optional Value.text? "web_console_url" }

/-- The host in a row, with its run. -/
def HostRow.ofRow (row : Row) : Except StoreError HostRow := do
  return {
    id := ← row.required Value.uuid? "host_id"
    runId := ← row.required Value.uuid? "host_run_id"
    host := ← row.required Value.text? "host_name"
    inventoryId := ← row.optional Value.uuid? "host_inventory_id"
    status := ← row.required Value.text? "host_status"
    stdout := ← row.optional Value.text? "host_stdout"
    createdAt := ← row.required Value.instant? "host_created_at"
    updatedAt := ← row.required Value.instant? "host_updated_at"
    run := ← RunRow.ofRow row }

/-- The status that a stored text names. -/
def statusOf (raw : String) : Except StoreError StoredStatus :=
  match StoredStatus.ofName? raw with
  | some status => .ok status
  | none => .error (.unknownStatus raw)

/-- The run that was stored. -/
def RunRow.toRun (row : RunRow) : Except StoreError Run := do
  return {
    id := row.id
    orgId := row.orgId
    recipient := row.recipient
    correlationId := row.correlationId
    url := row.url
    timeout := row.timeout
    status := ← statusOf row.status
    labels := row.labels
    service := row.service
    createdAt := row.createdAt
    updatedAt := row.updatedAt
    satelliteId := row.satelliteId
    satelliteOrgId := row.satelliteOrgId
    name := row.name
    webConsoleUrl := row.webConsoleUrl }

/-- The host that was stored, with its run; the host's status is understood first. -/
def HostRow.toRecord (row : HostRow) : Except StoreError HostRecord := do
  let status ← statusOf row.status
  let host : Host := {
    id := row.id
    runId := row.runId
    host := row.host
    inventoryId := row.inventoryId
    status
    stdout := row.stdout
    createdAt := row.createdAt
    updatedAt := row.updatedAt }
  return ⟨host, ← row.run.toRun⟩

end PlaybookRuns.Sql
