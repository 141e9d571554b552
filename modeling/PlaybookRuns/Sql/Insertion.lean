import PlaybookRuns.Sql.Statement

/-!
# Insertions

The statements that keep a run and its hosts: one row for the run, and one statement for all hosts
where there are any.
-/

namespace PlaybookRuns.Sql

/-- An insertion of rows into a table: the columns that are given, and their values row by row. -/
structure Insertion where
  table : String
  columns : List String
  rows : List (List Value)
  deriving DecidableEq

/-- An insertion as written. -/
def Insertion.statement (i : Insertion) : Statement :=
  words ["INSERT", "INTO", i.table] ++
    parenthesized (commaSeparated (i.columns.map fun c ↦ [.word c])) ++ .word "VALUES" ::
    commaSeparated (i.rows.map fun row ↦ parenthesized (commaSeparated (row.map ([.bind ·]))))

/-- The columns of a run that are given when it is kept. -/
def runInsertColumns : List String := [
  "id", "org_id", "recipient", "correlation_id", "url", "timeout", "status", "labels", "service",
  "created_at", "updated_at", "satellite_id", "satellite_org_id", "name", "web_console_url"]

/-- The values of a run, in the order of its columns. -/
def runValues (run : Run) : List Value := [
  .uuid run.id,
  .text run.orgId,
  .uuid run.recipient,
  .uuid run.correlationId,
  .text run.url,
  .int4 run.timeout,
  .text run.status.name,
  .labels run.labels,
  .text run.service,
  .instant run.createdAt,
  .instant run.updatedAt,
  .ofOption .uuid run.satelliteId,
  .ofOption .text run.satelliteOrgId,
  .ofOption .text run.name,
  .ofOption .text run.webConsoleUrl]

/-- The columns of a host that are given when it is kept. -/
def hostInsertColumns : List String :=
  ["id", "run_id", "host", "inventory_id", "status", "stdout", "created_at", "updated_at"]

/-- The values of a host, in the order of its columns. -/
def hostValues (host : Host) : List Value := [
  .uuid host.id,
  .uuid host.runId,
  .text host.host,
  .ofOption .uuid host.inventoryId,
  .text host.status.name,
  .ofOption .text host.stdout,
  .instant host.createdAt,
  .instant host.updatedAt]

/-- The insertion of a run. -/
def insertRun (run : Run) : Insertion := ⟨"runs", runInsertColumns, [runValues run]⟩

/-- The insertion of hosts. -/
def insertHosts (hosts : List Host) : Insertion :=
  ⟨"run_hosts", hostInsertColumns, hosts.map hostValues⟩

/-- The insertions that keep a run and its hosts, in order. -/
def insertions (run : Run) (hosts : List Host) : List Insertion :=
  if hosts.isEmpty then [insertRun run] else [insertRun run, insertHosts hosts]

end PlaybookRuns.Sql
