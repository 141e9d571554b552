import PlaybookRuns.Proofs.Query.Filter
import PlaybookRuns.Proofs.Sql.Evaluation
import PlaybookRuns.Proofs.Time.Instant
import PlaybookRuns.Sql.Listing

/-!
# The rows that a clause selects

The `WHERE` clause of a listing against the evaluation of its filter in memory. Main statement: on
every stored row the clause is true exactly where the row belongs to the tenant and the filter holds
of it.
-/

namespace PlaybookRuns.Sql

open PlaybookRuns.Query PlaybookRuns.Time

/-! ## Reading -/

private theorem readsAsTerm_filterColumn (c : Column) :
    ReadsAsTerm (Term.column (filterColumn c)).statement (.column (filterColumn c)) := by
  apply readsAsTerm_column
  cases c <;> decide +kernel

private theorem readsAsTerm_statusColumn (s : Subject) :
    ReadsAsTerm (Term.column (statusColumn s)).statement (.column (statusColumn s)) := by
  apply readsAsTerm_column
  cases s <;> decide +kernel

private theorem readsAsTerm_running :
    ReadsAsTerm (Term.literal "running").statement (.text "running") :=
  readsAsTerm_operand (by decide +kernel)

private theorem readsAsTerm_deadline : ReadsAsTerm deadline.statement deadline.expr :=
  readsAsTerm_secondsAfter (by decide +kernel) (by decide +kernel)

private theorem reads_shownCondition (s : Subject) (now : Instant) (shown : DisplayedStatus) :
    ReadsAsCondition (shownCondition (statusColumn s) now shown).operand
      (shownCondition (statusColumn s) now shown).expr := by
  have hstatus := readsAsTerm_statusColumn s
  have hrunning : ReadsAsCondition
      (Condition.equal (.column (statusColumn s)) (.literal "running")).operand
      (Condition.equal (.column (statusColumn s)) (.literal "running")).expr :=
    readsAsCondition_comparison rfl (by decide) hstatus readsAsTerm_running
  have hnow := readsAsTerm_bound (.instant now)
  cases shown with
  | timeout =>
    apply readsAsCondition_all_pair hrunning
    exact readsAsCondition_comparison rfl (by decide) readsAsTerm_deadline hnow
  | running =>
    apply readsAsCondition_all_pair hrunning
    exact readsAsCondition_comparison rfl (by decide) readsAsTerm_deadline hnow
  | success => exact readsAsCondition_comparison rfl (by decide) hstatus (readsAsTerm_bound _)
  | failure => exact readsAsCondition_comparison rfl (by decide) hstatus (readsAsTerm_bound _)

private theorem reads_predicateCondition (now : Instant) (p : Predicate) :
    ReadsAsCondition (predicateCondition now p).operand (predicateCondition now p).expr := by
  cases p with
  | anyOf column values => exact readsAsCondition_isIn (readsAsTerm_filterColumn column) _
  | status subject shown =>
    apply readsAsCondition_any
    intro c hc
    obtain ⟨status, -, rfl⟩ := List.mem_map.1 hc
    exact reads_shownCondition subject now status
  | label key value =>
    exact readsAsCondition_comparison rfl (by decide) (readsAsTerm_column (by decide +kernel))
      (readsAsTerm_bound _)

/-- The expression that a clause stands for: the tenant, and every predicate of the filter. -/
def clauseExpr (orgId : String) (filter : Filter) (now : Instant) : Expr :=
  Condition.chain .and (tenantCondition orgId).expr
    (filter.predicates.map (predicateCondition now))

/-- A clause reads as the conjunction of the tenant's condition and those of the predicates. -/
theorem ofClause?_whereClause (orgId : String) (filter : Filter) (now : Instant) :
    Expr.ofClause? (whereClause orgId filter now) = some (clauseExpr orgId filter now) := by
  have htenant : ReadsAsCondition (tenantCondition orgId).operand (tenantCondition orgId).expr :=
    readsAsCondition_comparison rfl (by decide) (readsAsTerm_column (by decide +kernel))
      (readsAsTerm_bound _)
  have hread : AllRead (filter.predicates.map (predicateCondition now)) := by
    intro c hc
    obtain ⟨p, -, rfl⟩ := List.mem_map.1 hc
    exact reads_predicateCondition now p
  obtain ⟨stack₁, e₁, hfirst, hsettled⟩ := htenant [] trivial
  have hand : lexeme? (.word "AND") = some (.operator .and) := rfl
  obtain ⟨stack₂, e₂, hrest, hsettled₂⟩ := steps_joined hand (by decide) hread
    (show Closed [] from trivial) (fun precedence hle ↦ (hsettled precedence hle).trans rfl)
  change ((Reading.mk [] none).steps ((tenantCondition orgId).operand ++
    Condition.joined "AND" (filter.predicates.map (predicateCondition now)))).bind _ = _
  rw [Reading.steps_append, hfirst, Option.bind_some, hrest, Option.bind_some, Reading.result?,
    Option.map_some, hsettled₂ 0 (Nat.zero_le _)]
  rfl

/-! ## Stored rows -/

/-- The row of a run, and of one of its hosts where hosts are listed, as they are kept. -/
def storedRow (run : Run) (host : Option Host) : JoinedRow
  | .runs => some (runInsertColumns.zip (runValues run))
  | .hosts => host.map fun host ↦ hostInsertColumns.zip (hostValues host)

variable {run : Run} {host : Option Host} {now : Instant}

/-- An operand as the database holds it. -/
def operandDatum (o : Operand) : Datum := .ofValue (operandValue o)

private theorem eval?_filterColumn (run : Run) {column : Column}
    (hcolumn : host.isSome ∨ column = .runId ∨ column = .recipient ∨ column = .service) :
    (Term.column (filterColumn column)).expr.eval? (storedRow run host) =
      some (match column.value? run host with
        | some o => operandDatum o
        | none => .null) := by
  cases host with
  | none =>
    rcases hcolumn with h | rfl | rfl | rfl
    · cases h
    · rfl
    · rfl
    · rfl
  | some host =>
    cases column with
    | inventoryId =>
      obtain ⟨id, runId, name, inventoryId, status, stdout, createdAt, updatedAt⟩ := host
      cases inventoryId <;> rfl
    | _ => rfl

private theorem isUuid_of_value? {column : Column} {o : Operand}
    (h : column.value? run host = some o) : o.isUuid = column.isUuid := by
  cases column with
  | runId => cases h; rfl
  | recipient => cases h; rfl
  | service => cases h; rfl
  | host =>
    obtain ⟨_, _, rfl⟩ := Option.map_eq_some_iff.1 h
    rfl
  | inventoryId =>
    obtain ⟨_, _, rfl⟩ := Option.map_eq_some_iff.1 h
    rfl

private theorem result?_equal_operandDatum {o v : Operand} (h : o.isUuid = v.isUuid) :
    Operator.equal.result? (operandDatum o) (operandDatum v) = some (.truth (o = v)) := by
  cases o with
  | uuid a =>
    cases v with
    | uuid b => simp [operandDatum, operandValue, Datum.ofValue, Operator.result?, Operator.onValues?]
    | text s => cases h
  | text a =>
    cases v with
    | uuid b => cases h
    | text b => simp [operandDatum, operandValue, Datum.ofValue, Operator.result?, Operator.onValues?]

private theorem evalsTo_anyOf (run : Run) {column : Column} {values : List Operand}
    (hvalues : ∀ v ∈ values, v.isUuid = column.isUuid)
    (hcolumn : host.isSome ∨ column = .runId ∨ column = .recipient ∨ column = .service) :
    ∃ l, EvalsTo (storedRow run host)
        (Condition.isIn (.column (filterColumn column)) (values.map operandValue)).expr l ∧
      (l = some true ↔ (column.value? run host).any (values.contains ·) = true) := by
  have heval := eval?_filterColumn run hcolumn
  cases hvalue : column.value? run host with
  | none =>
    rw [hvalue] at heval
    obtain ⟨l, hl, hne⟩ := evalsTo_isIn_null heval (values.map operandValue)
    exact ⟨l, hl, by simp [hne]⟩
  | some o =>
    rw [hvalue] at heval
    have hkind := isUuid_of_value? hvalue
    refine ⟨_, evalsTo_isIn heval fun v hv ↦
      result?_equal_operandDatum (hkind.trans (hvalues v hv).symm), ?_⟩
    rw [Option.some_inj, Option.any_some, List.any_eq_true, List.contains_iff_mem]
    constructor
    · rintro ⟨v, hv, hsame⟩
      exact of_decide_eq_true hsame ▸ hv
    · intro ho
      exact ⟨o, ho, decide_eq_true rfl⟩

/-! ## Statuses -/

/-- The instant from which a run counts as timed out, as the database computes it. -/
def storedDeadline (run : Run) : Instant :=
  { run.createdAt with seconds := run.createdAt.seconds + run.timeout.toInt }

/-- Whether the condition of a shown status holds of something with a stored status. -/
def shownVerdict (run : Run) (stored : StoredStatus) (now : Instant) : DisplayedStatus → Bool
  | .timeout => stored = .running && storedDeadline run ≤ now
  | .running => stored = .running && !(decide (storedDeadline run ≤ now))
  | shown => stored.displayed = shown

private theorem eval?_deadline (hstored : run.createdAt.WholeMicros) :
    deadline.expr.eval? (storedRow run host) = some (.instant (storedDeadline run)) := by
  have hfloor := Instant.floorMicros_of_wholeMicros hstored
  have hcreated : (Expr.column (runColumn "created_at")).eval? (storedRow run host) =
      some (.instant run.createdAt.floorMicros) := rfl
  have htimeout : (Expr.binary .times (.column (runColumn "timeout")) .second).eval?
      (storedRow run host) = some (.seconds (run.timeout.toInt * 1)) := rfl
  rw [hfloor] at hcreated
  rw [Int.mul_one] at htimeout
  exact eval?_binary hcreated htimeout

-- The instant of a request is held rounded down, which is no matter to a stored deadline.
private theorem deadline_le_floorMicros (hstored : run.createdAt.WholeMicros) :
    storedDeadline run ≤ now.floorMicros ↔ storedDeadline run ≤ now := by
  have hwhole : (storedDeadline run).WholeMicros := hstored
  exact Instant.le_floorMicros_iff hwhole

private theorem evalsTo_reached (hstored : run.createdAt.WholeMicros) :
    EvalsTo (storedRow run host) (Condition.atMost deadline (.bound (.instant now))).expr
      (some (storedDeadline run ≤ now)) := by
  have hnow : (Expr.value (.instant now)).eval? (storedRow run host) =
      some (.instant now.floorMicros) := rfl
  rw [← decide_eq_decide.2 (deadline_le_floorMicros hstored)]
  exact eval?_binary (eval?_deadline hstored) hnow

private theorem evalsTo_ahead (hstored : run.createdAt.WholeMicros) :
    EvalsTo (storedRow run host) (Condition.above deadline (.bound (.instant now))).expr
      (some !(decide (storedDeadline run ≤ now))) := by
  have hnow : (Expr.value (.instant now)).eval? (storedRow run host) =
      some (.instant now.floorMicros) := rfl
  have hlater : decide (now.floorMicros < storedDeadline run) =
      !(decide (storedDeadline run ≤ now)) := by
    rw [← decide_not, decide_eq_decide, ← deadline_le_floorMicros hstored]
    exact Instant.lt_iff_not_le
  rw [← hlater]
  exact eval?_binary (eval?_deadline hstored) hnow

private theorem eval?_statusColumn {subject : Subject} {stored : StoredStatus}
    (hsubject : subject.stored? run host = some stored) :
    (Expr.column (statusColumn subject)).eval? (storedRow run host) = some (.text stored.name) := by
  cases subject with
  | run =>
    obtain rfl := Option.some.inj hsubject
    rfl
  | host =>
    obtain ⟨_, rfl, rfl⟩ := Option.map_eq_some_iff.1 hsubject
    rfl

private theorem evalsTo_shownCondition (hstored : run.createdAt.WholeMicros) {subject : Subject}
    {stored : StoredStatus} (hsubject : subject.stored? run host = some stored)
    (shown : DisplayedStatus) :
    EvalsTo (storedRow run host) (shownCondition (statusColumn subject) now shown).expr
      (some (shownVerdict run stored now shown)) := by
  have hstatus := eval?_statusColumn hsubject
  have hrunning : EvalsTo (storedRow run host)
      (Condition.equal (.column (statusColumn subject)) (.literal "running")).expr
      (some (stored = .running)) :=
    (eval?_binary hstatus rfl).trans (by cases stored <;> rfl)
  cases shown with
  | timeout => exact evalsTo_all_pair hrunning (evalsTo_reached hstored)
  | running => exact evalsTo_all_pair hrunning (evalsTo_ahead hstored)
  | success => exact (eval?_binary hstatus rfl).trans (by cases stored <;> rfl)
  | failure => exact (eval?_binary hstatus rfl).trans (by cases stored <;> rfl)

private theorem shownVerdict_iff (hstored : run.createdAt.WholeMicros) {stored : StoredStatus}
    {status : DisplayedStatus}
    (hstatus : DisplayedStatus.derive? stored run.createdAt run.timeout now = some status)
    (shown : DisplayedStatus) : shownVerdict run stored now shown = true ↔ shown = status := by
  unfold DisplayedStatus.derive? at hstatus
  split at hstatus
  · next hrunning =>
    obtain ⟨deadline, hdeadline, rfl⟩ := Option.map_eq_some_iff.1 hstatus
    have hsame : deadline = storedDeadline run := Instant.eq_of_addSeconds? hstored.1 hdeadline
    rw [hsame]
    by_cases hpast : storedDeadline run ≤ now
    · cases shown <;> simp [shownVerdict, StoredStatus.displayed, hrunning, hpast]
    · cases shown <;> simp [shownVerdict, StoredStatus.displayed, hrunning, hpast]
  · next hended =>
    obtain rfl := Option.some.inj hstatus
    cases stored <;> cases shown <;> simp_all [shownVerdict, StoredStatus.displayed]

/-! ## Predicates -/

private theorem exists_stored?_of_fits (run : Run) {subject : Subject}
    {shown : List DisplayedStatus}
    (hfits : host.isSome ∨ (Predicate.status subject shown).OfRun) :
    ∃ stored, subject.stored? run host = some stored := by
  cases subject with
  | run => exact ⟨_, rfl⟩
  | host =>
    rcases hfits with hsome | hrun
    · obtain ⟨host, rfl⟩ := Option.isSome_iff_exists.1 hsome
      exact ⟨_, rfl⟩
    · cases hrun

private theorem evalsTo_label (key value : String) :
    EvalsTo (storedRow run host) (predicateCondition now (.label key value)).expr
      (some (run.labels.get? key == some value)) := by
  have hlabels : (Expr.column (runColumn "labels")).eval? (storedRow run host) =
      some (.object run.labels) := rfl
  have hbound : (Expr.value (.labels (.ofList [(key, value)]))).eval? (storedRow run host) =
      some (.object (.ofList [(key, value)])) := rfl
  refine (eval?_binary hlabels hbound).trans ?_
  simp [Operator.result?, Operator.onValues?, Labels.ofList, Keyed.ofList, Keyed.insert,
    Datum.ofLogical]

private theorem evalsTo_predicateCondition (hstored : run.createdAt.WholeMicros) {p : Predicate}
    (htyped : p.WellTyped) (hfits : host.isSome ∨ p.OfRun) :
    ∃ l, EvalsTo (storedRow run host) (predicateCondition now p).expr l ∧
      ∀ b, p.holds? run host now = some b → (l = some true ↔ b = true) := by
  cases p with
  | anyOf column values =>
    obtain ⟨l, hl, hiff⟩ := evalsTo_anyOf run htyped hfits
    refine ⟨l, hl, fun b hb ↦ ?_⟩
    rw [hiff, Option.some.inj hb]
  | status subject shown =>
    obtain ⟨stored, hsubject⟩ := exists_stored?_of_fits run hfits
    refine ⟨_, evalsTo_any fun status _ ↦ evalsTo_shownCondition hstored hsubject status,
      fun b hb ↦ ?_⟩
    simp only [Predicate.holds?, hsubject] at hb
    obtain ⟨status, hstatus, rfl⟩ := Option.map_eq_some_iff.1 hb
    rw [Option.some_inj, List.any_eq_true, List.contains_iff_mem]
    constructor
    · rintro ⟨status', hmem, hverdict⟩
      exact (shownVerdict_iff hstored hstatus status').1 hverdict ▸ hmem
    · intro hmem
      exact ⟨status, hmem, (shownVerdict_iff hstored hstatus status).2 rfl⟩
  | label key value =>
    refine ⟨_, evalsTo_label key value, fun b hb ↦ ?_⟩
    rw [Option.some_inj, Option.some.inj hb]

private theorem table_of_columns {p : Predicate} (hp : p.OfRun) {c : ColumnRef}
    (hc : c ∈ (predicateCondition now p).expr.columns) : c.table = .runs := by
  cases p with
  | anyOf column values =>
    cases values with
    | nil => cases hc
    | cons v values =>
      obtain rfl := List.mem_singleton.1 hc
      rcases hp with rfl | rfl | rfl <;> rfl
  | status subject shown =>
    obtain rfl : subject = .run := hp
    have hshown : ∀ status, c ∈ (shownCondition (statusColumn .run) now status).expr.columns →
        c.table = .runs := by
      intro status hstatus
      cases status <;>
        simp only [shownCondition, Condition.expr, Condition.chain, Term.expr, deadline,
          Expr.columns, List.cons_append, List.nil_append, List.append_nil, List.mem_cons,
          List.not_mem_nil, or_false] at hstatus
      all_goals
        rcases hstatus with rfl | rfl | rfl <;> rfl
    cases shown with
    | nil => cases hc
    | cons status shown =>
      rcases columns_chain.1 hc with hfirst | ⟨condition, hcondition, hrest⟩
      · exact hshown status hfirst
      · obtain ⟨status', -, rfl⟩ := List.mem_map.1 hcondition
        exact hshown status' hrest
  | label key value =>
    obtain rfl := List.mem_singleton.1 hc
    rfl

/-! ## Clauses -/

/-- Where the rows of a listing come from. -/
def sourceOf : Resource → Statement
  | .run => fromRuns
  | .runHost => fromHosts

private theorem table_of_clauseExpr {orgId : String} {filter : Filter}
    (hofRun : ∀ p ∈ filter.predicates, p.OfRun) {c : ColumnRef}
    (hc : c ∈ (clauseExpr orgId filter now).columns) : c.table = .runs := by
  rcases columns_chain.1 hc with htenant | ⟨condition, hcondition, hrest⟩
  · obtain rfl := List.mem_singleton.1 htenant
    rfl
  · obtain ⟨p, hp, rfl⟩ := List.mem_map.1 hcondition
    exact table_of_columns (hofRun p hp) hrest

private theorem evalsTo_tenantCondition (orgId : String) :
    EvalsTo (storedRow run host) (tenantCondition orgId).expr (some (run.orgId = orgId)) := by
  have horg : (Expr.column (runColumn "org_id")).eval? (storedRow run host) =
      some (.text run.orgId) := rfl
  have hbound : (Expr.value (.text orgId)).eval? (storedRow run host) = some (.text orgId) := rfl
  refine (eval?_binary horg hbound).trans ?_
  simp [Operator.result?, Operator.onValues?, Datum.ofLogical]

private theorem evalsTo_predicates_iff (hstored : run.createdAt.WholeMicros) {filter : Filter}
    (htyped : ∀ p ∈ filter.predicates, p.WellTyped)
    (hfits : ∀ p ∈ filter.predicates, host.isSome ∨ p.OfRun) {b : Bool}
    (hb : filter.holds? run host now = some b) :
    (∀ p ∈ filter.predicates,
      EvalsTo (storedRow run host) (predicateCondition now p).expr (some true)) ↔ b = true := by
  have hholds : ∀ p ∈ filter.predicates, ∀ b, p.holds? run host now = some b →
      (EvalsTo (storedRow run host) (predicateCondition now p).expr (some true) ↔ b = true) := by
    intro p hp b hb
    obtain ⟨l, hl, hiff⟩ := evalsTo_predicateCondition hstored (htyped p hp) (hfits p hp)
    rw [hl.iff_eq, hiff b hb]
  cases b with
  | true =>
    have hall := Filter.holds?_eq_some_true_iff.1 hb
    exact iff_of_true (fun p hp ↦ (hholds p hp true (hall p hp)).2 rfl) rfl
  | false =>
    obtain ⟨before, p, after, hsplit, -, hp⟩ := Filter.holds?_eq_some_false_iff.1 hb
    have hmem : p ∈ filter.predicates := by
      rw [hsplit]
      exact List.mem_append_right _ List.mem_cons_self
    refine iff_of_false (fun hall ↦ ?_) (by simp)
    exact absurd ((hholds p hmem false hp).1 (hall p hmem)) (by simp)

/-- The clause of a listing reads as a condition on the tables of its statement. On a stored row it
is never refused, and it is true exactly where the row belongs to the tenant and the filter holds of
it, unless the filter comes to no result there; a row of another tenant is not selected even then.
-/
theorem whereClause_selects {tree : Tree} {resource : Resource} {filter : Filter}
    (hfilter : Filter.ofTree tree resource = .ok filter) (orgId : String) (now : Instant) :
    ∃ e, Expr.ofClause? (whereClause orgId filter now) = some e ∧
      (∀ c ∈ e.columns, Token.word c.table.alias ∈ sourceOf resource) ∧
      ∀ run host, (host.isSome ↔ resource = .runHost) → run.createdAt.WholeMicros →
        ∃ l, EvalsTo (storedRow run host) e l ∧
          (l = some true → run.orgId = orgId) ∧
          (∀ b, filter.holds? run host now = some b →
            (l = some true ↔ run.orgId = orgId ∧ b = true)) ∧
          (filter.holds? run host now = none ↔ filter.Undecided run host now) := by
  have htyped := Filter.wellTyped_of_ofTree hfilter
  have hofRun : resource = .run → ∀ p ∈ filter.predicates, p.OfRun := by
    rintro rfl
    exact Filter.ofRun_of_ofTree hfilter
  refine ⟨clauseExpr orgId filter now, ofClause?_whereClause orgId filter now, ?_, ?_⟩
  · intro c hc
    cases resource with
    | run =>
      rw [table_of_clauseExpr (hofRun rfl) hc]
      decide
    | runHost => cases c.table <;> decide
  · intro run host hhost hstored
    have hfits : ∀ p ∈ filter.predicates, host.isSome ∨ p.OfRun := by
      intro p hp
      cases resource with
      | run => exact .inr (hofRun rfl p hp)
      | runHost => exact .inl (hhost.2 rfl)
    have hknown : ∀ p ∈ filter.predicates,
        ∃ l, EvalsTo (storedRow run host) (predicateCondition now p).expr l := by
      intro p hp
      obtain ⟨l, hl, -⟩ := evalsTo_predicateCondition hstored (htyped p hp) (hfits p hp)
      exact ⟨l, hl⟩
    obtain ⟨l, hl, hiff⟩ := evalsTo_chain_and hknown (evalsTo_tenantCondition orgId)
    rw [Option.some_inj, decide_eq_true_eq] at hiff
    refine ⟨l, hl, fun htrue ↦ (hiff.1 htrue).1, fun b hb ↦ ?_, Filter.holds?_eq_none_iff⟩
    rw [hiff, evalsTo_predicates_iff hstored htyped hfits hb]

/-- A run that has timed out is selected by the condition that it has. -/
theorem whereClause_selects_timedOut :
    ∃ e, Expr.ofClause? (whereClause "org" ⟨[.status .run [.timeout]]⟩ ⟨100, 0⟩) = some e ∧
      EvalsTo (storedRow (minuteRun 3 ⟨0, 0⟩) none) e (some true) := by
  have hfilter : Filter.ofTree [("status", .leaf ["timeout"])] .run =
      .ok ⟨[.status .run [.timeout]]⟩ := rfl
  obtain ⟨e, he, -, hrows⟩ := whereClause_selects hfilter "org" ⟨100, 0⟩
  obtain ⟨l, hl, -, hselected, -⟩ :=
    hrows (minuteRun 3 ⟨0, 0⟩) none (by decide) (by unfold minuteRun; decide)
  obtain rfl := (hselected true (by decide +kernel)).2 ⟨rfl, rfl⟩
  exact ⟨e, he, hl⟩

/-- The clause selects a run that is still running and would time out after the calendar ends, of
which the filter cannot tell in memory. -/
theorem whereClause_selects_lastMinute :
    (Filter.ofTree [("status", .leaf ["running"])] .run = .ok ⟨[.status .run [.running]]⟩) ∧
      lastMinute.WholeMicros ∧
      (∃ e, Expr.ofClause? (whereClause "org" ⟨[.status .run [.running]]⟩ ⟨0, 0⟩) = some e ∧
        EvalsTo (storedRow (minuteRun 3 lastMinute) none) e (some true)) ∧
      Filter.holds? ⟨[.status .run [.running]]⟩ (minuteRun 3 lastMinute) none ⟨0, 0⟩ = none := by
  refine ⟨rfl, by decide, ⟨_, ofClause?_whereClause _ _ _, ?_⟩, by decide +kernel⟩
  unfold EvalsTo
  decide +kernel

end PlaybookRuns.Sql
