import PlaybookRuns.Sql.Insertion
import PlaybookRuns.Sql.Listing
import PlaybookRuns.Sql.Row
import PlaybookRuns.Sql.Schema

/-!
# The store in a database

A store over a session that executes statements one by one. A run and its hosts are kept in one
transaction; a listing counts and fetches in one snapshot, so that its total describes its page.
The first statement that fails ends an operation.
-/

namespace PlaybookRuns.Sql

open PlaybookRuns.Query

/-- A session with state `σ`: it executes a statement and answers with the rows it yields. -/
abbrev Session (σ : Type) := Statement → σ → Except StoreError (List Row) × σ

/-- The statement that opens a transaction. -/
def beginStatement : Statement := words ["BEGIN"]

/-- The statement that makes a transaction read one snapshot. -/
def snapshotStatement : Statement :=
  words ["SET", "TRANSACTION", "ISOLATION", "LEVEL", "REPEATABLE", "READ", ",", "READ", "ONLY"]

/-- The statement that ends a transaction and keeps what it did. -/
def commitStatement : Statement := words ["COMMIT"]

/-- The statement that checks that the database answers. -/
def pingStatement : Statement := words ["SELECT", "1"]

namespace Session

variable {σ : Type}

/-- Executes statements in order, up to the first that fails. -/
def executeAll (session : Session σ) : List Statement → StoreAction σ Unit
  | [], state => (.ok (), state)
  | s :: rest, state =>
    match session s state with
    | (.error e, state) => (.error e, state)
    | (.ok _, state) => executeAll session rest state

/-- The number that a count yields. -/
def countOf (rows : List Row) : Except StoreError Int64 :=
  match rows with
  | ((_, .int8 n) :: _) :: _ => .ok n
  | _ => .error (.failed "no rows returned by a query that expected to return at least one row")

/-- Executes a statement and reads what it yields. -/
def fetch (session : Session σ) (s : Statement) (read : List Row → Except StoreError α) :
    StoreAction σ α := fun state ↦
  match session s state with
  | (.error e, state) => (.error e, state)
  | (.ok rows, state) => (read rows, state)

/-- Counts and fetches in one snapshot: the total, and the rows as `read` understands them. -/
def snapshot (session : Session σ) (count select : Statement)
    (read : Row → Except StoreError α) : StoreAction σ (Int64 × List α) := fun state ↦
  match session.executeAll [beginStatement, snapshotStatement] state with
  | (.error e, state) => (.error e, state)
  | (.ok (), state) =>
    match session.fetch count countOf state with
    | (.error e, state) => (.error e, state)
    | (.ok total, state) =>
      match session.fetch select (·.mapM read) state with
      | (.error e, state) => (.error e, state)
      | (.ok rows, state) =>
        match session commitStatement state with
        | (.error e, state) => (.error e, state)
        | (.ok _, state) => (.ok (total, rows), state)

/-- The rows of a listing, each understood; the first that is not fails them all. Deadlines are
compared by the database, so there always is a listing. -/
def listing (session : Session σ) (count select : Statement) (read : Row → Except StoreError α)
    (understand : α → Except StoreError ρ) : StoreAction σ (Option (Listing ρ)) := fun state ↦
  match session.snapshot count select read state with
  | (.error e, state) => (.error e, state)
  | (.ok (total, rows), state) =>
    ((rows.mapM understand).map fun items ↦ some ⟨items, total⟩, state)

/-- The store over a session. -/
def store (session : Session σ) : RunStore σ where
  insert run hosts :=
    session.executeAll
      (beginStatement :: (insertions run hosts).map Insertion.statement ++ [commitStatement])
  listRuns query :=
    session.listing (countRuns query) (selectRuns query) RunRow.ofRow RunRow.toRun
  listHosts query :=
    session.listing (countHosts query) (selectHosts query) HostRow.ofRow HostRow.toRecord
  ping := session.executeAll [pingStatement]

/-- Creates the tables and indexes that are not there yet. -/
def migrate (session : Session σ) : StoreAction σ Unit := session.executeAll migrations

end Session

/-- Where sessions come from: a pool that may be unable to open one. -/
structure Pool (σ : Type) where
  open? : Option (Session σ × σ)

/-- A pool that cannot open a session. -/
def Pool.unreachable : Pool σ := ⟨none⟩

end PlaybookRuns.Sql
