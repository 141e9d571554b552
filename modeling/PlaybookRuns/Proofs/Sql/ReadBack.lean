import PlaybookRuns.Proofs.Sql.Inserting
import PlaybookRuns.Proofs.Sql.Ordering
import PlaybookRuns.Proofs.Sql.Session

/-!
# Rows read back

The rows that insertions add to the tables, and what the statements of listings show of them, both
as the tokens of the statements have it. Main statement: a run and its hosts are read back as they
were kept, and a listing of whatever rows comes out whole or is refused.
-/

namespace PlaybookRuns.Sql

open PlaybookRuns.Query PlaybookRuns.Time

/-! ## Rows of insertions -/

/-- A value as the database holds it, with instants in whole microseconds. -/
def Value.held : Value → Value
  | .instant t => .instant t.floorMicros
  | v => v

/-- The table to which a statement adds rows, and the rows as they are held. -/
def inserted? (s : Statement) : Option (String × List Row) :=
  (Insertion.ofTokens? s).map fun i ↦
    (i.table, i.rows.map fun values ↦ i.columns.zip (values.map Value.held))

private theorem Value.held_ofOption {α : Type} {f : α → Value} (hf : ∀ a, (f a).held = f a)
    (a? : Option α) : (Value.ofOption f a?).held = .ofOption f a? := by
  cases a? with
  | none => rfl
  | some a => exact hf a

private theorem Value.held_instant {t : Instant} (h : t.WholeMicros) :
    (Value.instant t).held = .instant t := by
  rw [held, Instant.floorMicros_of_wholeMicros h]

private theorem held_runValues {run : Run} (h : run.WholeMicros) :
    (runValues run).map Value.held = runValues run := by
  simp only [runValues, List.map_cons, List.map_nil, Value.held_instant h.1,
    Value.held_instant h.2, Value.held_ofOption (f := Value.uuid) (fun _ ↦ rfl),
    Value.held_ofOption (f := Value.text) (fun _ ↦ rfl)]
  rfl

private theorem held_hostValues {host : Host} (h : host.WholeMicros) :
    (hostValues host).map Value.held = hostValues host := by
  simp only [hostValues, List.map_cons, List.map_nil, Value.held_instant h.1,
    Value.held_instant h.2, Value.held_ofOption (f := Value.uuid) (fun _ ↦ rfl),
    Value.held_ofOption (f := Value.text) (fun _ ↦ rfl)]
  rfl

/-- The row of a run, by the columns that are named when it is kept. -/
def runRow (run : Run) : Row := runInsertColumns.zip (runValues run)

/-- The row of a host, by the columns that are named when it is kept. -/
def hostRow (host : Host) : Row := hostInsertColumns.zip (hostValues host)

/-- The insertion of a run adds its row. -/
theorem inserted?_insertRun {run : Run} (h : run.WholeMicros) :
    inserted? (insertRun run).statement = some ("runs", [runRow run]) := by
  have hread : Insertion.ofTokens? (insertRun run).statement = some (insertRun run) :=
    Insertion.ofTokens?_statement (List.cons_ne_nil _ _)
      (by decide : "," ∉ runInsertColumns ∧ ")" ∉ runInsertColumns) (List.cons_ne_nil _ _)
      (List.forall_mem_singleton.2 rfl)
  rw [inserted?, hread, Option.map_some, insertRun, List.map_singleton, held_runValues h]
  rfl

/-- The insertion of hosts adds the row of each, in order. -/
theorem inserted?_insertHosts {hosts : List Host} (hne : hosts ≠ [])
    (h : ∀ host ∈ hosts, host.WholeMicros) :
    inserted? (insertHosts hosts).statement = some ("run_hosts", hosts.map hostRow) := by
  have hread : Insertion.ofTokens? (insertHosts hosts).statement = some (insertHosts hosts) := by
    apply Insertion.ofTokens?_statement (List.cons_ne_nil _ _)
      (by decide : "," ∉ hostInsertColumns ∧ ")" ∉ hostInsertColumns)
    · simpa [insertHosts] using hne
    · exact List.forall_mem_map.2 fun host _ ↦ rfl
  have hrows : (hosts.map hostValues).map
      (fun values ↦ hostInsertColumns.zip (values.map Value.held)) = hosts.map hostRow := by
    rw [List.map_map]
    exact List.map_congr_left fun host hhost ↦
      congrArg (hostInsertColumns.zip ·) (held_hostValues (h host hhost))
  rw [inserted?, hread, Option.map_some, insertHosts, hrows]

/-! ## Rows of listings -/

/-- What a statement shows: columns, of the tables that have these aliases. -/
structure Selection where
  output : List OutputColumn
  tables : List (String × String)
  deriving DecidableEq

/-- The output column that tokens write. -/
def OutputColumn.ofTokens? : Statement → Option OutputColumn
  | [.word w] => (knownColumns.find? (·.word = w)).map fun c ↦ ⟨c, c.name⟩
  | [.word w, .word "AS", .word name] => (knownColumns.find? (·.word = w)).map (⟨·, name⟩)
  | _ => none

/-- The tables that tokens name, by the aliases they give them. -/
def readTables? : Statement → Option (List (String × String))
  | [.word t, .word a] => some [(a, t)]
  | .word t :: .word a :: .word "JOIN" :: .word t' :: .word a' :: .word "ON" :: _ =>
    some [(a, t), (a', t')]
  | _ => none

namespace Selection

/-- What a statement shows, of which these tokens stand before the condition. -/
def ofFront? : Statement → Option Selection
  | .word "SELECT" :: ts => do
    let (output, tables) ← Text.splitFirst? (.word "FROM") ts
    return ⟨← (Text.splitAll (.word ",") output).mapM OutputColumn.ofTokens?, ← readTables? tables⟩
  | _ => none

/-- What a statement shows. -/
def ofTokens? (s : Statement) : Option Selection := do
  let (front, _) ← Text.splitFirst? (.word "WHERE") s
  ofFront? front

/-- What is shown where one row stands in each table. -/
def row? (s : Selection) (rows : List (String × Row)) : Option Row :=
  s.output.mapM fun c ↦ do
    let table ← s.tables.lookup c.source.table.alias
    let row ← rows.lookup table
    return (c.name, ← row.lookup c.source.name)

end Selection

/-- What a statement shows where one row stands in each table. -/
def fetched? (select : Statement) (rows : List (String × Row)) : Option Row :=
  (Selection.ofTokens? select).bind (·.row? rows)

private theorem ofTokens?_selectStatement {κ : Type} {output : List OutputColumn}
    {source : Statement} {terms : List OrderTerm} {query : ListQuery κ} {selection : Selection}
    (hfront : Token.word "WHERE" ∉
      .word "SELECT" :: commaSeparated (output.map OutputColumn.statement) ++ source)
    (hread : Selection.ofFront?
      (.word "SELECT" :: commaSeparated (output.map OutputColumn.statement) ++ source) =
        some selection) :
    Selection.ofTokens? (selectStatement output source terms query) = some selection := by
  have htokens : selectStatement output source terms query =
      (.word "SELECT" :: commaSeparated (output.map OutputColumn.statement) ++ source) ++
        .word "WHERE" :: (((tenantCondition query.orgId).operand ++ Condition.joined "AND"
          (query.filter.predicates.map (predicateCondition query.now))) ++
            orderClause terms ++ windowClause query.window) := by
    simp [selectStatement, whereClause]
  rw [Selection.ofTokens?, htokens, Text.splitFirst?_append_cons hfront]
  exact hread

/-- A row of runs is shown as it is. -/
theorem fetched?_selectRuns (query : ListQuery RunSortKey) (run : Run) :
    fetched? (selectRuns query) [("runs", runRow run)] = some (runRow run) := by
  have hselection : Selection.ofTokens? (selectRuns query) = some ⟨runOutput, [("r", "runs")]⟩ :=
    ofTokens?_selectStatement (by decide +kernel) (by decide +kernel)
  rw [fetched?, hselection, Option.bind_some]
  rfl

/-- The names under which the columns of a host are shown. -/
def hostNames : List String := hostOutput.map (·.name)

/-- A row of hosts is shown under names of its own, and the row of runs after it. -/
theorem fetched?_selectHosts (query : ListQuery HostSortKey) (host : Host) (run : Run) :
    fetched? (selectHosts query) [("run_hosts", hostRow host), ("runs", runRow run)] =
      some (hostNames.zip (hostValues host) ++ runRow run) := by
  have hselection : Selection.ofTokens? (selectHosts query) =
      some ⟨hostOutput ++ runOutput, [("h", "run_hosts"), ("r", "runs")]⟩ :=
    ofTokens?_selectStatement (by decide +kernel) (by decide +kernel)
  rw [fetched?, hselection, Option.bind_some]
  rfl

/-! ## Reading rows -/

namespace Row

variable {α : Type} {get? : Value → Option α} {column : String} {row other : Row}

/-- A column that may be absent is read as what was written there. -/
theorem optional_of_lookup {f : α → Value} (hnull : get? .null = none)
    (hget : ∀ a, get? (f a) = some a) {a? : Option α}
    (h : row.lookup column = some (.ofOption f a?)) : row.optional get? column = .ok a? := by
  rw [optional, h]
  cases a? with
  | none => rfl
  | some a =>
    have hvalue := hget a
    simp only [Value.ofOption]
    generalize f a = v at hvalue
    cases v with
    | null => rw [hnull] at hvalue; cases hvalue
    | _ => simp [hvalue]

private theorem optional_uuid {id? : Option Uuid}
    (h : row.lookup column = some (.ofOption .uuid id?)) :
    row.optional Value.uuid? column = .ok id? :=
  optional_of_lookup (f := Value.uuid) rfl (fun _ ↦ rfl) h

private theorem optional_text {s? : Option String}
    (h : row.lookup column = some (.ofOption .text s?)) :
    row.optional Value.text? column = .ok s? :=
  optional_of_lookup (f := Value.text) rfl (fun _ ↦ rfl) h

private theorem optional_congr (h : row.lookup column = other.lookup column) :
    row.optional get? column = other.optional get? column := by
  rw [optional, optional, h]

private theorem required_congr (h : row.lookup column = other.lookup column) :
    row.required get? column = other.required get? column := by
  rw [required, required, optional_congr h]

end Row

/-- A run as it is fetched. -/
def RunRow.ofRun (run : Run) : RunRow where
  id := run.id
  orgId := run.orgId
  recipient := run.recipient
  correlationId := run.correlationId
  url := run.url
  timeout := run.timeout
  status := run.status.name
  labels := run.labels
  service := run.service
  createdAt := run.createdAt
  updatedAt := run.updatedAt
  satelliteId := run.satelliteId
  satelliteOrgId := run.satelliteOrgId
  name := run.name
  webConsoleUrl := run.webConsoleUrl

/-- A host and its run as they are fetched. -/
def HostRow.ofRecord (record : HostRecord) : HostRow where
  id := record.host.id
  runId := record.host.runId
  host := record.host.host
  inventoryId := record.host.inventoryId
  status := record.host.status.name
  stdout := record.host.stdout
  createdAt := record.host.createdAt
  updatedAt := record.host.updatedAt
  run := .ofRun record.run

/-- The stored status of a name is understood. -/
theorem statusOf_name (status : StoredStatus) : statusOf status.name = .ok status := by
  rw [statusOf, StoredStatus.ofName?_name]

/-- A fetched run is understood as the run it is. -/
theorem RunRow.toRun_ofRun (run : Run) : (RunRow.ofRun run).toRun = .ok run := by
  rw [toRun, show (ofRun run).status = run.status.name from rfl, statusOf_name]
  rfl

/-- A fetched host is understood as the host it is, with its run. -/
theorem HostRow.toRecord_ofRecord (record : HostRecord) :
    (HostRow.ofRecord record).toRecord = .ok record := by
  rw [toRecord, show (ofRecord record).status = record.host.status.name from rfl, statusOf_name,
    show (ofRecord record).run = .ofRun record.run from rfl, RunRow.toRun_ofRun]
  rfl

/-- A run is read alike in rows that agree on the columns of runs. -/
theorem RunRow.ofRow_congr {row other : Row}
    (h : ∀ c ∈ runInsertColumns, row.lookup c = other.lookup c) :
    RunRow.ofRow row = RunRow.ofRow other := by
  have hoptional {α : Type} (get? : Value → Option α) {c : String} (hc : c ∈ runInsertColumns) :
      row.optional get? c = other.optional get? c := Row.optional_congr (h c hc)
  have hrequired {α : Type} (get? : Value → Option α) {c : String} (hc : c ∈ runInsertColumns) :
      row.required get? c = other.required get? c := Row.required_congr (h c hc)
  simp (disch := decide) only [ofRow, hoptional, hrequired]

/-- The row of a run is read as that run. -/
theorem RunRow.ofRow_runRow (run : Run) : RunRow.ofRow (runRow run) = .ok (.ofRun run) := by
  have hsatellite : (runRow run).optional Value.uuid? "satellite_id" = .ok run.satelliteId :=
    Row.optional_uuid rfl
  have horg : (runRow run).optional Value.text? "satellite_org_id" = .ok run.satelliteOrgId :=
    Row.optional_text rfl
  have hname : (runRow run).optional Value.text? "name" = .ok run.name := Row.optional_text rfl
  have hconsole : (runRow run).optional Value.text? "web_console_url" = .ok run.webConsoleUrl :=
    Row.optional_text rfl
  rw [ofRow, hsatellite, horg, hname, hconsole]
  rfl

/-- What is shown of a host and its run is read as that host and that run. -/
theorem HostRow.ofRow_shown (host : Host) (run : Run) :
    HostRow.ofRow (hostNames.zip (hostValues host) ++ runRow run) =
      .ok (.ofRecord ⟨host, run⟩) := by
  have hinventory : Row.optional Value.uuid? "host_inventory_id"
      (hostNames.zip (hostValues host) ++ runRow run) = .ok host.inventoryId :=
    Row.optional_uuid rfl
  have hstdout : Row.optional Value.text? "host_stdout"
      (hostNames.zip (hostValues host) ++ runRow run) = .ok host.stdout :=
    Row.optional_text rfl
  -- no column of runs is shadowed by a name under which one of hosts is shown
  have hdistinct : ∀ c ∈ runInsertColumns, c ∉ hostNames := by decide
  have hrun : RunRow.ofRow (hostNames.zip (hostValues host) ++ runRow run) = .ok (.ofRun run) := by
    rw [← RunRow.ofRow_runRow]
    apply RunRow.ofRow_congr
    intro c hc
    have hnone : (hostNames.zip (hostValues host)).lookup c = none := by
      rw [List.lookup_eq_none_iff]
      rintro ⟨name, v⟩ hmem
      rw [bne_iff_ne]
      rintro rfl
      exact hdistinct c hc (List.of_mem_zip hmem).1
    rw [List.lookup_append, hnone, Option.none_or]
  rw [ofRow, hinventory, hstdout, hrun]
  rfl

/-! ## Refusing rows -/

/-- A fetched run is refused where its status is none that is stored. -/
theorem RunRow.refusal?_toRun (row : RunRow) :
    Checked.refusal? row.toRun = (firstUnknown? [row.status]).map .unknownStatus := by
  rw [toRun, ← refusal?_statusOf]
  exact Checked.refusal?_bind_pure _ _

/-- A fetched host is refused where its own status is none that is stored, or else that of its
run. -/
theorem HostRow.refusal?_toRecord (row : HostRow) :
    Checked.refusal? row.toRecord =
      (firstUnknown? [row.status, row.run.status]).map .unknownStatus := by
  rw [firstUnknown?_cons, Option.map_or, ← refusal?_statusOf, ← RunRow.refusal?_toRun, toRecord]
  exact Checked.refusal?_bind fun _ ↦ Checked.refusal?_bind_pure _ _

/-! ## Runs and hosts that are kept -/

/-- What a fetched row of runs is understood as. -/
def readRun (row : Row) : Except StoreError Run := RunRow.ofRow row >>= RunRow.toRun

/-- What a fetched row of hosts is understood as. -/
def readRecord (row : Row) : Except StoreError HostRecord := HostRow.ofRow row >>= HostRow.toRecord

/-- That statements add a run and its hosts to the tables, and that these are read back. -/
structure Keeps (inserts : List Statement) (run : Run) (hosts : List Host) (added : Row)
    (addedHosts : List Row) : Prop where
  /-- One statement adds the row of the run, and another those of the hosts if there are any. -/
  inserted : inserts.mapM inserted? =
    some (("runs", [added]) :: if hosts.isEmpty then [] else [("run_hosts", addedHosts)])
  width : ∀ row ∈ addedHosts, row.length = 8
  /-- Any listing shows the row of the run as that run. -/
  run_eq : ∀ query, (fetched? (selectRuns query) [("runs", added)]).map readRun = some (.ok run)
  /-- Any listing shows the rows of the hosts, each with that of the run, as those hosts. -/
  hosts_eq : ∀ query, addedHosts.map (fun row ↦
      (fetched? (selectHosts query) [("run_hosts", row), ("runs", added)]).map readRecord) =
    hosts.map fun host ↦ some (.ok ⟨host, run⟩)

/-- The insertions of a run and its hosts keep them. -/
theorem keeps_insertions {run : Run} {hosts : List Host} (hrun : run.WholeMicros)
    (hhosts : ∀ host ∈ hosts, host.WholeMicros) :
    Keeps ((insertions run hosts).map Insertion.statement) run hosts (runRow run)
      (hosts.map hostRow) where
  inserted := by
    rw [Checked.mapM_eq_some_iff]
    by_cases hnone : hosts = []
    · subst hnone
      simp [insertions, inserted?_insertRun hrun]
    · simp [insertions, hnone, inserted?_insertRun hrun, inserted?_insertHosts hnone hhosts]
  width := List.forall_mem_map.2 fun _ _ ↦ rfl
  run_eq query := by
    rw [fetched?_selectRuns, Option.map_some, readRun, RunRow.ofRow_runRow]
    exact congrArg some (RunRow.toRun_ofRun run)
  hosts_eq query := by
    rw [List.map_map]
    apply List.map_congr_left
    intro host _
    rw [Function.comp_apply, fetched?_selectHosts, Option.map_some, readRecord, HostRow.ofRow_shown]
    exact congrArg some (HostRow.toRecord_ofRecord ⟨host, run⟩)

/-- A run and its hosts are kept by the insertions of one transaction, and read back as they were
given. Of the rows that a listing fetches, those whose statuses are all stored come out whole, and
others not at all. -/
theorem rows_survive :
    (∀ (run : Run) (hosts : List Host), run.WholeMicros → (∀ host ∈ hosts, host.WholeMicros) →
      ∃ inserts added addedHosts, Keeps inserts run hosts added addedHosts ∧
        ∀ (σ : Type) (session : Session σ) (state : σ), ∃ issued,
          Session.Issues (beginStatement :: inserts ++ [commitStatement]) issued
            (session.store.insert run hosts state).1 ∧
          session.recorded.store.insert run hosts (state, []) =
            ((session.store.insert run hosts state).1, (session.store.insert run hosts state).2,
              issued)) ∧
    ∀ (σ : Type) (session : Session σ) (state : σ) (total : Int64),
      (∀ query rows,
        session.Fetches (countRuns query) (selectRuns query) RunRow.ofRow state total rows →
          ListsWhole (fun row ↦ [row.status]) RunRow.toRun rows total
            (session.store.listRuns query state).1) ∧
      ∀ query rows,
        session.Fetches (countHosts query) (selectHosts query) HostRow.ofRow state total rows →
          ListsWhole (fun row ↦ [row.status, row.run.status]) HostRow.toRecord rows total
            (session.store.listHosts query state).1 := by
  constructor
  · intro run hosts hrun hhosts
    refine ⟨_, _, _, keeps_insertions hrun hhosts, fun σ session state ↦ ?_⟩
    exact session.executeAll_recorded _ state []
  · intro σ session state total
    constructor
    · intro query rows hfetches
      rw [Session.store, Session.listing_of_fetches hfetches]
      exact listsWhole_of_refusal RunRow.refusal?_toRun rows total
    · intro query rows hfetches
      rw [Session.store, Session.listing_of_fetches hfetches]
      exact listsWhole_of_refusal HostRow.refusal?_toRecord rows total

/-- A session that answers one statement after the other with the rows of a script. -/
def Session.scripted (script : List (List Row)) : Session Nat :=
  fun _ n ↦ (.ok (script.getD n []), n + 1)

/-- A run is kept together with its host and both are read back; a listing of two runs of which the
second is stored as timed out comes to nothing. -/
theorem rows_survive_timedOut :
    let run := namedRun 7 (some "patch")
    let host : Host :=
      ⟨.ofNat 8, run.id, "web-1", none, .failure, some "unreachable", ⟨0, 1000⟩, ⟨1, 0⟩⟩
    let late : Row := (runRow run).map fun (column, value) ↦
      (column, if column = "status" then .text "timeout" else value)
    let session := Session.scripted [[], [], [[("count", .int8 2)]], [runRow run, late], []]
    let query : ListQuery RunSortKey := ⟨"5318290", ⟨[]⟩, ⟨.name, .desc⟩, ⟨2, 0⟩, ⟨0, 0⟩⟩
    (∃ inserts added addedHosts, Keeps inserts run [host] added addedHosts) ∧
      (session.store.listRuns query 0).1 = .error (.unknownStatus "timeout") := by
  intro run host late session query
  have hrun : run.WholeMicros := by
    simp [run, namedRun, Run.WholeMicros, Instant.WholeMicros, nanosPerSecond]
  have hhosts : ∀ h ∈ [host], h.WholeMicros := by
    simp [host, Host.WholeMicros, Instant.WholeMicros, nanosPerSecond]
  obtain ⟨inserts, added, addedHosts, hkeeps, -⟩ := rows_survive.1 run [host] hrun hhosts
  refine ⟨⟨inserts, added, addedHosts, hkeeps⟩, ?_⟩
  have hlists := (rows_survive.2 Nat session 0 2).1 query
    [.ofRun run, { RunRow.ofRun run with status := "timeout" }]
    ⟨[], [], [[("count", .int8 2)]], [runRow run, late], [], 5,
      ⟨1, rfl, 2, rfl, 3, rfl, 4, rfl, 5, rfl, rfl⟩, rfl, rfl⟩
  cases hanswer : (session.store.listRuns query 0).1 with
  | ok listing =>
    have hstored : "timeout" ∈ storedNames :=
      hlists.listed_iff.1 ⟨listing, hanswer⟩ { RunRow.ofRun run with status := "timeout" }
        (by simp) "timeout" (by simp)
    exact absurd hstored (by decide)
  | error e =>
    obtain ⟨raw, hraw, rfl⟩ := hlists.error_eq e hanswer
    rw [show raw = "timeout" from (Option.some.inj hraw).symm]

end PlaybookRuns.Sql
