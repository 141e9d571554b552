import Mathlib.Order.RelClasses
import PlaybookRuns.Proofs.Query.SortOrder
import PlaybookRuns.Proofs.Query.Window
import PlaybookRuns.Proofs.Sql.Ending
import PlaybookRuns.Proofs.Sql.Where

/-!
# The order of selected rows

The `ORDER BY`, `LIMIT` and `OFFSET` of a listing against the order and the window of its request in
memory. Main statement: on stored rows with different identifiers the criteria compare as the order
does, strictly and totally, so that the statement yields the rows that memory shows and no others.
-/

namespace PlaybookRuns

open PlaybookRuns.Query PlaybookRuns.Time

/-- Whether the instants of a run are of whole microseconds. -/
def Run.WholeMicros (run : Run) : Prop := run.createdAt.WholeMicros ∧ run.updatedAt.WholeMicros

/-- Whether the instants of a host are of whole microseconds. -/
def Host.WholeMicros (host : Host) : Prop :=
  host.createdAt.WholeMicros ∧ host.updatedAt.WholeMicros

namespace Sql

/-! ## Comparing data -/

-- How two data compare where a missing value is the least.
private def ascending? (x y : Datum) : Option Ordering :=
  OrderTerm.compare? ⟨runColumn "id", .asc, some true⟩ x y

private theorem compare?_nullsLeast (column : ColumnRef) (direction : Direction) (x y : Datum) :
    OrderTerm.compare? ⟨column, direction, some (direction = .asc)⟩ x y =
      (ascending? x y).map direction.apply := by
  cases direction with
  | asc => cases x <;> cases y <;> rfl
  | desc => cases x <;> cases y <;> rfl

private theorem ascending?_uuid (a b : Uuid) :
    ascending? (.ofValue (.uuid a)) (.ofValue (.uuid b)) = some (compare a b) :=
  congrArg some (Uuid.compare_octets a b)

private theorem ascending?_text (a b : String) :
    ascending? (.ofValue (.text a)) (.ofValue (.text b)) = some (compare a b) :=
  congrArg some (Text.Utf8.compare_encode a b)

private theorem ascending?_instant {a b : Instant} (ha : a.WholeMicros) (hb : b.WholeMicros) :
    ascending? (.ofValue (.instant a)) (.ofValue (.instant b)) = some (compare a b) := by
  rw [Datum.ofValue, Datum.ofValue, Instant.floorMicros_of_wholeMicros ha,
    Instant.floorMicros_of_wholeMicros hb]
  rfl

private theorem ascending?_ofOption {α : Type} [Ord α] {value : α → Value}
    (hnull : ∀ a, ascending? .null (.ofValue (value a)) = some .lt ∧
      ascending? (.ofValue (value a)) .null = some .gt)
    (h : ∀ a b, ascending? (.ofValue (value a)) (.ofValue (value b)) = some (compare a b))
    (a b : Option α) :
    ascending? (.ofValue (.ofOption value a)) (.ofValue (.ofOption value b)) =
      some (compare a b) := by
  cases a with
  | none =>
    cases b with
    | none => rfl
    | some b => exact (hnull b).1
  | some a =>
    cases b with
    | none => exact (hnull a).2
    | some b => exact h a b

/-! ## Comparing rows -/

private theorem compareRows?_orderTerms {row other : JoinedRow} {column id : ColumnRef}
    {x y : Value} {a b : Uuid} {o : Ordering} (hx : row.value? column = some x)
    (hy : other.value? column = some y) (ha : row.value? id = some (.uuid a))
    (hb : other.value? id = some (.uuid b)) (ho : ascending? (.ofValue x) (.ofValue y) = some o)
    (direction : Direction) :
    compareRows? (orderTerms column id direction) row other =
      some ((direction.apply o).then (compare a b)) := by
  have hkeys := compare?_nullsLeast column direction (.ofValue x) (.ofValue y)
  have hids : OrderTerm.compare? ⟨id, .asc, none⟩ (.ofValue (.uuid a)) (.ofValue (.uuid b)) =
      some (compare a b) := ascending?_uuid a b
  rw [ho, Option.map_some] at hkeys
  simp only [orderTerms, compareRows?, hx, hy, ha, hb, hkeys, hids, Option.bind_eq_bind,
    Option.bind_some, Option.pure_def, Ordering.then_eq]

/-- Stored runs compare as runs do. -/
theorem compareRows?_run (order : SortOrder RunSortKey) {a b : Run} (ha : a.WholeMicros)
    (hb : b.WholeMicros) :
    compareRows? (runOrder order) (storedRow a none) (storedRow b none) =
      some (order.compare a b) := by
  obtain ⟨key, direction⟩ := order
  cases key with
  | createdAt => exact compareRows?_orderTerms rfl rfl rfl rfl (ascending?_instant ha.1 hb.1) _
  | updatedAt => exact compareRows?_orderTerms rfl rfl rfl rfl (ascending?_instant ha.2 hb.2) _
  | timeout => exact compareRows?_orderTerms rfl rfl rfl rfl rfl _
  | recipient => exact compareRows?_orderTerms rfl rfl rfl rfl (ascending?_uuid _ _) _
  | service => exact compareRows?_orderTerms rfl rfl rfl rfl (ascending?_text _ _) _
  | name =>
    exact compareRows?_orderTerms rfl rfl rfl rfl
      (ascending?_ofOption (fun _ ↦ ⟨rfl, rfl⟩) ascending?_text _ _) _

/-- Stored hosts, each with its run, compare as hosts do. -/
theorem compareRows?_host (order : SortOrder HostSortKey) {a b : HostRecord}
    (ha : a.host.WholeMicros) (hb : b.host.WholeMicros) :
    compareRows? (hostOrder order) (storedRow a.run (some a.host)) (storedRow b.run (some b.host)) =
      some (order.compare a b) := by
  obtain ⟨key, direction⟩ := order
  cases key with
  | createdAt => exact compareRows?_orderTerms rfl rfl rfl rfl (ascending?_instant ha.1 hb.1) _
  | updatedAt => exact compareRows?_orderTerms rfl rfl rfl rfl (ascending?_instant ha.2 hb.2) _
  | host => exact compareRows?_orderTerms rfl rfl rfl rfl (ascending?_text _ _) _
  | inventoryId =>
    exact compareRows?_orderTerms rfl rfl rfl rfl
      (ascending?_ofOption (fun _ ↦ ⟨rfl, rfl⟩) ascending?_uuid _ _) _

/-! ## Ends of statements -/

/-- That the end of a statement orders and cuts rows as an order and a window do in memory. -/
structure Ending.Agrees {κ ρ : Type} [SortKeys κ ρ] (ending : Ending) (order : SortOrder κ)
    (window : Window) (row : ρ → JoinedRow) (rows : List ρ) : Prop where
  /-- Any two rows compare alike. -/
  compare_eq : ∀ a ∈ rows, ∀ b ∈ rows,
    compareRows? ending.terms (row a) (row b) = some (order.compare a b)
  /-- Which of two rows comes before the other is a strict total order. -/
  strict : IsStrictTotalOrder {a // a ∈ rows} fun a b ↦
    compareRows? ending.terms (row a) (row b) = some .lt
  /-- In whatever order the rows are found, memory sorts them alike. -/
  apply_eq : ∀ found : List ρ, found.Perm rows → order.apply found = order.apply rows
  /-- In whatever order the rows are found, the statement yields what memory shows. -/
  yields_iff : ∀ found : List ρ, found.Perm rows → ∀ shown,
    ending.Yields (found.map row) shown ↔ shown = (window.slice (order.apply rows)).map row

section Agreement

variable {κ ρ : Type} [SortKeys κ ρ] {window : Window} {terms : List OrderTerm}
  {row : ρ → JoinedRow} {rows : List ρ}

private theorem cut?_map (h : window.Valid) (terms : List OrderTerm) (row : ρ → JoinedRow)
    (rows : List ρ) :
    (Ending.mk terms (.int8 window.limit) (.int8 window.offset)).cut? (rows.map row) =
      some ((window.slice rows).map row) := by
  have hvalid : 0 ≤ window.limit ∧ 0 ≤ window.offset :=
    ⟨Int64.le_of_lt h.limit_pos, h.offset_nonneg⟩
  simp only [Ending.cut?]
  rw [if_pos hvalid, Window.slice_eq h, ← List.map_drop, ← List.map_take]
  rfl

variable [LawfulSortKeys κ ρ] {order : SortOrder κ}

private theorem isStrictTotalOrder_of_compare
    (hcompare : ∀ a ∈ rows, ∀ b ∈ rows,
      compareRows? terms (row a) (row b) = some (order.compare a b))
    (hids : (rows.map (SortKeys.id κ)).Nodup) :
    IsStrictTotalOrder {a // a ∈ rows} fun a b ↦
      compareRows? terms (row a) (row b) = some .lt := by
  have hlt (a b : {a // a ∈ rows}) :
      compareRows? terms (row a) (row b) = some .lt ↔ order.compare a.1 b.1 = .lt := by
    rw [hcompare a a.2 b b.2, Option.some_inj]
  simp only [hlt]
  refine { trichotomous := fun a b hab hba ↦ ?_, irrefl := fun a h ↦ ?_, trans := fun a b c ↦ ?_ }
  · cases h : order.compare a.1 b.1 with
    | lt => exact absurd h hab
    | eq =>
      apply Subtype.ext
      exact List.inj_on_of_nodup_map hids a.2 b.2 (SortOrder.id_eq_of_compare h)
    | gt => exact absurd (Std.OrientedCmp.gt_iff_lt.1 h) hba
  · have hself : order.compare a.1 a.1 = .eq := Std.ReflCmp.compare_self
    rw [hself] at h
    cases h
  · exact Std.TransCmp.lt_trans

private theorem perm_and_inOrder_iff
    (hcompare : ∀ a ∈ rows, ∀ b ∈ rows,
      compareRows? terms (row a) (row b) = some (order.compare a b))
    (hids : (rows.map (SortKeys.id κ)).Nodup) {sorted : List JoinedRow} :
    sorted.Perm (rows.map row) ∧ InOrder terms sorted ↔ sorted = (order.apply rows).map row := by
  have hmemory := order.apply_perm rows
  have hordered : InOrder terms ((order.apply rows).map row) := by
    rw [InOrder, List.pairwise_map]
    refine (order.pairwise_apply rows).imp_of_mem fun ha hb hle ↦ ?_
    exact ⟨_, hcompare _ (hmemory.mem_iff.1 ha) _ (hmemory.mem_iff.1 hb), hle⟩
  constructor
  · rintro ⟨hperm, hsorted⟩
    refine List.Perm.eq_of_pairwise ?_ hsorted hordered (hperm.trans (hmemory.map row).symm)
    rintro x y hx hy ⟨o, ho, hle⟩ ⟨o', ho', hge⟩
    obtain ⟨a, ha, rfl⟩ := List.mem_map.1 (hperm.mem_iff.1 hx)
    obtain ⟨b, hb, rfl⟩ := List.mem_map.1 ((hmemory.map row).mem_iff.1 hy)
    obtain rfl := Option.some.inj ((hcompare a ha b hb).symm.trans ho)
    obtain rfl := Option.some.inj ((hcompare b hb a ha).symm.trans ho')
    rw [SortOrder.eq_of_isLE hids ha hb hle hge]
  · rintro rfl
    exact ⟨hmemory.map row, hordered⟩

private theorem agrees_of_compare (hwindow : window.Valid)
    (hcompare : ∀ a ∈ rows, ∀ b ∈ rows,
      compareRows? terms (row a) (row b) = some (order.compare a b))
    (hids : (rows.map (SortKeys.id κ)).Nodup) :
    Ending.Agrees ⟨terms, .int8 window.limit, .int8 window.offset⟩ order window row rows := by
  refine ⟨hcompare, isStrictTotalOrder_of_compare hcompare hids,
    fun found hfound ↦ order.apply_eq_of_perm hfound hids, fun found hfound shown ↦ ?_⟩
  have hsorted (sorted : List JoinedRow) :
      sorted.Perm (found.map row) ∧ InOrder terms sorted ↔ sorted = (order.apply rows).map row := by
    have hfoundRows := hfound.map row
    rw [← perm_and_inOrder_iff hcompare hids]
    exact and_congr_left' ⟨fun h ↦ h.trans hfoundRows, fun h ↦ h.trans hfoundRows.symm⟩
  simp only [Ending.Yields, ← and_assoc, hsorted, exists_eq_left, cut?_map hwindow,
    Option.some_inj, eq_comm]

end Agreement

private theorem orderTerms_known {column id : ColumnRef} (hcolumn : column ∈ knownColumns)
    (hid : id ∈ knownColumns) (direction : Direction) :
    ∀ t ∈ orderTerms column id direction, t.column ∈ knownColumns := by
  intro t ht
  rw [orderTerms, List.mem_pair] at ht
  rcases ht with rfl | rfl
  · exact hcolumn
  · exact hid

/-- The statement that fetches rows without what stands after its condition. -/
def selectFound {κ : Type} (output : List OutputColumn) (source : Statement)
    (query : ListQuery κ) : Statement :=
  .word "SELECT" :: commaSeparated (output.map OutputColumn.statement) ++ source ++
    whereClause query.orgId query.filter query.now

/-- Of the rows that the condition of a listing statement finds it yields those that order and
window show in memory, whatever the key and the direction, for runs and for hosts. -/
theorem select_agrees_memory :
    (∀ query : ListQuery RunSortKey, query.window.Valid →
      ∃ tokens ending, selectRuns query = selectFound runOutput fromRuns query ++ tokens ∧
        Ending.ofTokens? tokens = some ending ∧
        ∀ rows : List Run, (∀ run ∈ rows, run.WholeMicros) → (rows.map Run.id).Nodup →
          ending.Agrees query.sort query.window (storedRow · none) rows) ∧
    ∀ query : ListQuery HostSortKey, query.window.Valid →
      ∃ tokens ending, selectHosts query =
          selectFound (hostOutput ++ runOutput) fromHosts query ++ tokens ∧
        Ending.ofTokens? tokens = some ending ∧
        ∀ rows : List HostRecord, (∀ record ∈ rows, record.host.WholeMicros) →
          (rows.map (·.host.id)).Nodup →
            ending.Agrees query.sort query.window
              (fun record ↦ storedRow record.run (some record.host)) rows := by
  constructor
  · intro query hwindow
    have hknown : ∀ t ∈ runOrder query.sort, t.column ∈ knownColumns := by
      apply orderTerms_known
      · cases query.sort.key <;> decide
      · decide
    refine ⟨_, _, List.append_assoc _ _ _, Ending.ofTokens?_clauses (List.cons_ne_nil _ _)
      hknown query.window, fun rows hwhole hids ↦ agrees_of_compare hwindow ?_ hids⟩
    exact fun a ha b hb ↦ compareRows?_run query.sort (hwhole a ha) (hwhole b hb)
  · intro query hwindow
    have hknown : ∀ t ∈ hostOrder query.sort, t.column ∈ knownColumns := by
      apply orderTerms_known
      · cases query.sort.key <;> decide
      · decide
    refine ⟨_, _, List.append_assoc _ _ _, Ending.ofTokens?_clauses (List.cons_ne_nil _ _)
      hknown query.window, fun rows hwhole hids ↦ agrees_of_compare hwindow ?_ hids⟩
    exact fun a ha b hb ↦ compareRows?_host query.sort (hwhole a ha) (hwhole b hb)

/-- A run with a name, or without. -/
def namedRun (id : Nat) (name : Option String) : Run where
  id := .ofNat id
  orgId := "5318290"
  recipient := .ofNat 0
  correlationId := .ofNat 0
  url := "https://example.com/playbook"
  timeout := 3600
  status := .running
  labels := ∅
  service := "remediations"
  createdAt := ⟨0, 0⟩
  updatedAt := ⟨0, 0⟩
  satelliteId := none
  satelliteOrgId := none
  name := name
  webConsoleUrl := none

/-- By descending names, the two rows after the first are those whose names tie, the lower
identifier first, wherever the run without a name was found. -/
theorem select_agrees_memory_named :
    let query : ListQuery RunSortKey := ⟨"5318290", ⟨[]⟩, ⟨.name, .desc⟩, ⟨2, 1⟩, ⟨0, 0⟩⟩
    let rows := [namedRun 2 (some "b"), namedRun 3 none, namedRun 1 (some "b"),
      namedRun 4 (some "c")]
    ∃ tokens ending, selectRuns query = selectFound runOutput fromRuns query ++ tokens ∧
      Ending.ofTokens? tokens = some ending ∧ ∀ shown,
        ending.Yields (rows.map (storedRow · none)) shown ↔
          shown = [namedRun 1 (some "b"), namedRun 2 (some "b")].map (storedRow · none) := by
  intro query rows
  obtain ⟨tokens, ending, hselect, hread, hagrees⟩ :=
    select_agrees_memory.1 query ⟨by decide, by decide⟩
  let sorted := [namedRun 4 (some "c"), namedRun 1 (some "b"), namedRun 2 (some "b"),
    namedRun 3 none]
  have hwhole : ∀ run ∈ rows, run.WholeMicros := by
    simp [rows, namedRun, Run.WholeMicros, Instant.WholeMicros, nanosPerSecond]
  have hids : (rows.map Run.id).Nodup := by decide +kernel
  have hsorted : query.sort.apply rows = sorted :=
    (query.sort.apply_eq_of_perm (by decide +kernel : sorted.Perm rows) hids).symm.trans
      (List.mergeSort_of_pairwise (by decide +kernel))
  have hyields := (hagrees rows hwhole hids).yields_iff rows (.refl _)
  rw [hsorted] at hyields
  exact ⟨tokens, ending, hselect, hread, hyields⟩

end Sql

end PlaybookRuns
