import Mathlib.Data.List.Forall2
import PlaybookRuns.Proofs.Sql.Statement
import PlaybookRuns.Sql.Insertion
import PlaybookRuns.Sql.Row
import PlaybookRuns.Sql.Schema

/-!
# Constraints

What the schema demands of rows that are inserted, on top of what is in the database already, and
how many values one statement may carry. Main statements: when the rows of a run and of its hosts
are taken.
-/

namespace PlaybookRuns.Sql

/-- The rows of every table, by the name of the table. -/
abbrev Database := String → List Row

/-- The tables that the migrations create. -/
def schema : List TableDef := [runsTable, hostsTable]

/-- How many values can be sent with one statement: their number is sent in sixteen bits. -/
def maxBinds : Nat := 65535

/-- Whether a value is one of a type. The width of a text is the number of its characters. -/
def ColumnType.Takes : ColumnType → Value → Prop
  | uuid, .uuid _ => True
  | varchar width, .text s => s.length ≤ width
  | text, .text _ => True
  | integer, .int4 _ => True
  | jsonb, .labels _ => True
  | timestamptz, .instant _ => True
  | _, _ => False

/-- Whether a value meets a condition. -/
def Check.Holds : Check → Value → Prop
  | notNegative, .int4 n => 0 ≤ n
  | oneOf texts, .text s => s ∈ texts
  | _, _ => False

/-- Whether a value may stand in a column: nothing only where the column may be without a value,
anything else only if it is of the column's type, meets its condition and, where the column refers
to another, is found there. -/
def ColumnDef.Takes (c : ColumnDef) (db : Database) : Value → Prop
  | .null => c.notNull = false ∧ c.primaryKey = false
  | v => c.type.Takes v ∧ (∀ check, c.check = some check → check.Holds v) ∧
      ∀ table column, c.references = some (table, column) →
        ∃ row ∈ db table, row.lookup column = some v

/-- Whether rows can be added to a table. -/
structure TableDef.Takes (t : TableDef) (db : Database) (rows : List Row) : Prop where
  /-- Every column is given a value that may stand there. -/
  columns : ∀ row ∈ rows, ∀ c ∈ t.columns, ∃ v, row.lookup c.name = some v ∧ c.Takes db v
  /-- No two rows have the same identifier. -/
  distinct : ∀ c ∈ t.columns, c.primaryKey →
    rows.Pairwise fun row other ↦ row.lookup c.name ≠ other.lookup c.name
  /-- No row has an identifier that is in use. -/
  unused : ∀ c ∈ t.columns, c.primaryKey →
    ∀ row ∈ rows, ∀ other ∈ db t.name, other.lookup c.name ≠ row.lookup c.name

namespace Insertion

/-- The rows that are inserted, by the names of their columns. -/
def records (i : Insertion) : List Row := i.rows.map (i.columns.zip ·)

/-- Whether a database takes an insertion: its table takes the rows, and one statement can carry
their values. -/
structure Fits (i : Insertion) (db : Database) : Prop where
  table : ∃ t ∈ schema, t.name = i.table ∧ t.Takes db i.records
  binds : i.statement.binds.length ≤ maxBinds

end Insertion

namespace Database

/-- The database after an insertion. -/
def after (db : Database) (i : Insertion) : Database :=
  fun table ↦ if table = i.table then db table ++ i.records else db table

/-- Whether a database takes insertions one after the other. -/
def TakesAll : Database → List Insertion → Prop
  | _, [] => True
  | db, i :: rest => i.Fits db ∧ (db.after i).TakesAll rest

end Database

/-! ## Values of a statement -/

/-- An insertion carries the values of its rows. -/
theorem Insertion.binds_statement (i : Insertion) : i.statement.binds = i.rows.flatten := by
  have hcolumns : (i.columns.map fun c ↦ [Token.word c]).flatMap Statement.binds = [] := by
    rw [List.flatMap_map, List.flatMap_eq_nil_iff]
    intro _ _
    rfl
  have hrow (row : List Value) : (row.map ([Token.bind ·])).flatMap Statement.binds = row := by
    rw [List.flatMap_map]
    exact List.flatMap_singleton' row
  have hrows : (i.rows.map fun row ↦ parenthesized (commaSeparated (row.map ([.bind ·])))).flatMap
      Statement.binds = i.rows.flatten := by
    simp only [List.flatMap_map, Statement.binds_parenthesized, Statement.binds_commaSeparated,
      hrow, List.flatMap_id']
  have hnames : (commaSeparated (i.columns.map fun c ↦ [Token.word c])).binds = [] := by
    rw [Statement.binds_commaSeparated, hcolumns]
  rw [statement, Statement.binds_append, Statement.binds_append, Statement.binds_words,
    Statement.binds_parenthesized, hnames, Statement.binds, Statement.binds_commaSeparated, hrows]
  rfl

/-! ## Columns -/

private theorem Value.uuid_ne_null (id : Uuid) : Value.uuid id ≠ .null := nofun

private theorem Value.text_ne_null (s : String) : Value.text s ≠ .null := nofun

/-- Nothing is of a type. -/
theorem ColumnType.not_takes_null (type : ColumnType) : ¬type.Takes .null := by
  cases type <;> exact id

namespace ColumnDef

variable {name : String} {type : ColumnType} {check : Check} {db : Database} {v : Value}

/-- A key takes every identifier. -/
theorem takes_key_uuid (id : Uuid) : (key name).Takes db (.uuid id) := by
  simp [key, nullable, Takes, ColumnType.Takes]

/-- A required column takes what is of its type. -/
theorem takes_required_iff : (required name type).Takes db v ↔ type.Takes v := by
  cases v <;> simp [required, nullable, Takes, ColumnType.not_takes_null]

/-- A checked column takes what is of its type and passes the check. -/
theorem takes_checked_iff :
    (checked name type check).Takes db v ↔ type.Takes v ∧ check.Holds v := by
  cases v <;> simp [checked, required, nullable, Takes, ColumnType.not_takes_null]

/-- A column that may be without a value takes one that is absent, and one of its type. -/
theorem takes_nullable_ofOption_iff {α : Type} {f : α → Value} (hf : ∀ a, f a ≠ .null)
    {a? : Option α} :
    (nullable name type).Takes db (.ofOption f a?) ↔ ∀ a, a? = some a → type.Takes (f a) := by
  cases a? with
  | none => simp [nullable, Takes, Value.ofOption]
  | some a =>
    have ha := hf a
    simp only [Value.ofOption, Option.some.injEq, forall_eq']
    generalize f a = v at ha
    cases v with
    | null => exact absurd rfl ha
    | _ => simp [nullable, Takes]

/-- A column that refers to another takes an identifier that is found there. -/
theorem takes_reference_iff {table column : String} {id : Uuid} :
    { required name .uuid with references := some (table, column) }.Takes db (.uuid id) ↔
      ∃ row ∈ db table, row.lookup column = some (.uuid id) := by
  simp [required, nullable, Takes, ColumnType.Takes]

/-- What stands in a column where no value is given does not matter where one is. -/
theorem takes_default_iff {c : ColumnDef} {default : Option String} :
    { c with default }.Takes db v ↔ c.Takes db v := by
  cases v <;> rfl

end ColumnDef

private theorem forall_lookup_zip_iff {columns : List ColumnDef} {values : List Value}
    {P : ColumnDef → Value → Prop} (hnames : (columns.map (·.name)).Nodup)
    (hlength : columns.length = values.length) :
    (∀ c ∈ columns, ∃ v, ((columns.map (·.name)).zip values).lookup c.name = some v ∧ P c v) ↔
      List.Forall₂ P columns values := by
  induction columns generalizing values with
  | nil =>
    obtain rfl := List.length_eq_zero_iff.1 hlength.symm
    simp
  | cons c columns ih =>
    cases values with
    | nil => cases hlength
    | cons v values =>
      rw [List.map_cons, List.nodup_cons] at hnames
      rw [List.forall₂_cons, ← ih hnames.2 (Nat.succ.inj hlength), List.forall_mem_cons]
      apply and_congr
      · simp
      · apply forall₂_congr
        intro d hd
        have hne : d.name ≠ c.name := fun heq ↦ hnames.1 (heq ▸ List.mem_map_of_mem hd)
        have hskip : ((c.name, v) :: (columns.map (·.name)).zip values).lookup d.name =
            ((columns.map (·.name)).zip values).lookup d.name := by
          rw [List.lookup_cons, beq_false_of_ne hne]
        rw [List.map_cons, List.zip_cons_cons, hskip]

/-- A stored status fits the column for it. -/
theorem takes_status (status : StoredStatus) (db : Database) :
    (ColumnDef.checked "status" (.varchar 16) statusCheck).Takes db (.text status.name) := by
  rw [ColumnDef.takes_checked_iff]
  constructor
  · change status.name.length ≤ 16
    cases status <;> decide
  · change status.name ∈ ["running", "success", "failure"]
    cases status <;> decide

/-- A timeout fits its column if it is not negative. -/
theorem takes_timeout_iff {timeout : Int32} {db : Database} :
    (ColumnDef.checked "timeout" .integer .notNegative).Takes db (.int4 timeout) ↔ 0 ≤ timeout :=
  ColumnDef.takes_checked_iff.trans (and_iff_right trivial)

/-! ## Runs and hosts -/

/-- Whether the texts and the timeout of a run fit their columns. -/
structure FitsColumns (run : Run) : Prop where
  orgId : run.orgId.length ≤ 10
  timeout : 0 ≤ run.timeout
  service : run.service.length ≤ 255
  satelliteOrgId : ∀ s, run.satelliteOrgId = some s → s.length ≤ 255

private theorem columns_insertRun_iff {run : Run} {db : Database} :
    List.Forall₂ (fun c v ↦ c.Takes db v) runsTable.columns (runValues run) ↔
      FitsColumns run := by
  simp only [runsTable, runValues, List.forall₂_cons, ColumnDef.takes_required_iff,
    ColumnDef.takes_key_uuid, ColumnDef.takes_default_iff, takes_timeout_iff, takes_status,
    ColumnDef.takes_nullable_ofOption_iff Value.uuid_ne_null,
    ColumnDef.takes_nullable_ofOption_iff Value.text_ne_null, ColumnType.Takes, true_and, and_true,
    implies_true, List.forall₂_nil_left_iff]
  constructor
  · rintro ⟨horgId, htimeout, hservice, hsatellite⟩
    exact ⟨horgId, htimeout, hservice, hsatellite⟩
  · intro h
    exact ⟨h.orgId, h.timeout, h.service, h.satelliteOrgId⟩

private theorem columns_insertHosts_iff {host : Host} {db : Database} :
    List.Forall₂ (fun c v ↦ c.Takes db v) hostsTable.columns (hostValues host) ↔
      ∃ row ∈ db "runs", row.lookup "id" = some (.uuid host.runId) := by
  simp only [hostsTable, hostValues, List.forall₂_cons, ColumnDef.takes_required_iff,
    ColumnDef.takes_key_uuid, ColumnDef.takes_reference_iff, takes_status,
    ColumnDef.takes_nullable_ofOption_iff Value.uuid_ne_null,
    ColumnDef.takes_nullable_ofOption_iff Value.text_ne_null, ColumnType.Takes, true_and, and_true,
    implies_true, List.forall₂_nil_left_iff]

private theorem TableDef.takes_iff {t : TableDef} {columns : List ColumnDef}
    (hcolumns : t.columns = .key "id" :: columns) (hrest : ∀ c ∈ columns, c.primaryKey = false)
    {db : Database} {rows : List Row} :
    t.Takes db rows ↔
      (∀ row ∈ rows, ∀ c ∈ t.columns, ∃ v, row.lookup c.name = some v ∧ c.Takes db v) ∧
      (rows.Pairwise fun row other ↦ row.lookup "id" ≠ other.lookup "id") ∧
      ∀ row ∈ rows, ∀ other ∈ db t.name, other.lookup "id" ≠ row.lookup "id" := by
  have hmem : .key "id" ∈ t.columns := hcolumns ▸ List.mem_cons_self
  have honly : ∀ c ∈ t.columns, c.primaryKey → c.name = "id" := by
    rw [hcolumns, List.forall_mem_cons]
    refine ⟨fun _ ↦ rfl, fun c hc hprimary ↦ ?_⟩
    rw [hrest c hc] at hprimary
    cases hprimary
  constructor
  · intro h
    exact ⟨h.columns, h.distinct _ hmem rfl, h.unused _ hmem rfl⟩
  · rintro ⟨hvalues, hdistinct, hunused⟩
    refine ⟨hvalues, fun c hc hprimary ↦ ?_, fun c hc hprimary ↦ ?_⟩
    · rw [honly c hc hprimary]
      exact hdistinct
    · rw [honly c hc hprimary]
      exact hunused

/-- The table of runs takes a run exactly when its texts and its timeout fit and its identifier is
not in use. -/
theorem takes_insertRun_iff {run : Run} {db : Database} :
    runsTable.Takes db (insertRun run).records ↔
      FitsColumns run ∧ ∀ other ∈ db "runs", other.lookup "id" ≠ some (.uuid run.id) := by
  have hcolumns := (@forall_lookup_zip_iff runsTable.columns (runValues run)
    (fun c v ↦ c.Takes db v) (by decide) rfl).trans columns_insertRun_iff
  have hrecords : (insertRun run).records = [runInsertColumns.zip (runValues run)] := rfl
  rw [TableDef.takes_iff rfl (by decide), hrecords, List.forall_mem_singleton,
    List.forall_mem_singleton, ← hcolumns]
  exact and_congr_right fun _ ↦ and_iff_right (List.pairwise_singleton _ _)

/-- The table of hosts takes hosts exactly when their runs are found and their identifiers are new.
-/
theorem takes_insertHosts_iff {hosts : List Host} {db : Database} :
    hostsTable.Takes db (insertHosts hosts).records ↔
      (∀ host ∈ hosts, ∃ row ∈ db "runs", row.lookup "id" = some (.uuid host.runId)) ∧
      (hosts.Pairwise fun host other ↦ host.id ≠ other.id) ∧
      ∀ host ∈ hosts, ∀ other ∈ db "run_hosts", other.lookup "id" ≠ some (.uuid host.id) := by
  have hcolumns (host : Host) := (@forall_lookup_zip_iff hostsTable.columns (hostValues host)
    (fun c v ↦ c.Takes db v) (by decide) rfl).trans columns_insertHosts_iff
  have hrecords : (insertHosts hosts).records =
      hosts.map fun host ↦ hostInsertColumns.zip (hostValues host) := List.map_map
  have hid (host : Host) : List.lookup "id" (hostInsertColumns.zip (hostValues host)) =
      some (.uuid host.id) := rfl
  have hne (host other : Host) : (some (Value.uuid host.id) ≠ some (.uuid other.id)) ↔
      host.id ≠ other.id := by simp
  rw [TableDef.takes_iff rfl (by decide), hrecords, List.forall_mem_map, List.forall_mem_map,
    List.pairwise_map]
  simp only [hid, hne]
  exact and_congr_left fun _ ↦ forall₂_congr fun host _ ↦ hcolumns host

private theorem binds_insertRun (run : Run) : (insertRun run).statement.binds.length = 15 := by
  rw [Insertion.binds_statement]
  rfl

private theorem binds_insertHosts (hosts : List Host) :
    (insertHosts hosts).statement.binds.length = 8 * hosts.length := by
  rw [Insertion.binds_statement, insertHosts, List.length_flatten, List.map_map]
  have hrow : List.length ∘ hostValues = fun _ ↦ 8 := rfl
  rw [hrow]
  simp [Nat.mul_comm]

private theorem Insertion.fits_iff {i : Insertion} {db : Database} {t : TableDef} (ht : t ∈ schema)
    (hname : t.name = i.table) (honly : ∀ t' ∈ schema, t'.name = t.name → t' = t) :
    i.Fits db ↔ t.Takes db i.records ∧ i.statement.binds.length ≤ maxBinds := by
  constructor
  · rintro ⟨⟨t', ht', hname', htakes⟩, hbinds⟩
    obtain rfl := honly t' ht' (hname'.trans hname.symm)
    exact ⟨htakes, hbinds⟩
  · rintro ⟨htakes, hbinds⟩
    exact ⟨⟨t, ht, hname, htakes⟩, hbinds⟩

/-- A database takes a run and its hosts exactly when the texts of the run fit and there are not too
many hosts, provided that the identifiers are new and the hosts are the run's. -/
theorem takesAll_insertions_iff {run : Run} {hosts : List Host} {db : Database}
    (hrun : ∀ other ∈ db "runs", other.lookup "id" ≠ some (.uuid run.id))
    (howner : ∀ host ∈ hosts, host.runId = run.id)
    (hdistinct : hosts.Pairwise fun host other ↦ host.id ≠ other.id)
    (hhosts : ∀ host ∈ hosts, ∀ other ∈ db "run_hosts", other.lookup "id" ≠ some (.uuid host.id)) :
    db.TakesAll (insertions run hosts) ↔ FitsColumns run ∧ 8 * hosts.length ≤ maxBinds := by
  have hfitsRun : (insertRun run).Fits db ↔ FitsColumns run := by
    rw [Insertion.fits_iff (t := runsTable) (by decide) rfl (by decide), takes_insertRun_iff, binds_insertRun,
      and_iff_left hrun]
    exact and_iff_left (by decide)
  have hfitsHosts : (insertHosts hosts).Fits (db.after (insertRun run)) ↔
      8 * hosts.length ≤ maxBinds := by
    rw [Insertion.fits_iff (t := hostsTable) (by decide) rfl (by decide), takes_insertHosts_iff,
      binds_insertHosts]
    refine and_iff_right ⟨fun host hhost ↦ ?_, hdistinct, hhosts⟩
    refine ⟨runInsertColumns.zip (runValues run), List.mem_append_right _ List.mem_cons_self, ?_⟩
    rw [howner host hhost]
    rfl
  cases hosts with
  | nil => simp [insertions, Database.TakesAll, hfitsRun]
  | cons host hosts =>
    rw [← hfitsRun, ← hfitsHosts]
    simp [insertions, Database.TakesAll]

end PlaybookRuns.Sql
