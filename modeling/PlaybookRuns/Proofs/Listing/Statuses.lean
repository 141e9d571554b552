import PlaybookRuns.Listing.Serve
import PlaybookRuns.Proofs.Listing.Projection
import PlaybookRuns.Proofs.Query.StatusParam
import PlaybookRuns.Proofs.Store.Memory
import PlaybookRuns.Proofs.Time.Instant

/-!
# Listings by status

How the listings of the four statuses lie within the listing without a status. Main statement: where
every row of that listing has a status, each stands in exactly one of the four, the one that is
shown of it, and as time passes rows move from those that run to those that timed out, and nowhere
else.
-/

namespace PlaybookRuns

open PlaybookRuns.Query PlaybookRuns.Time

/-- As time passes a status stays, or turns from running into a timeout. -/
theorem DisplayedStatus.derive?_later {stored : StoredStatus} {created now later : Instant}
    {timeout : Int32} (h : now ≤ later) :
    derive? stored created timeout later = derive? stored created timeout now ∨
      derive? stored created timeout now = some .running ∧
        derive? stored created timeout later = some .timeout := by
  unfold derive?
  split
  · cases deadline? created timeout with
    | none => exact .inl rfl
    | some deadline =>
      rw [Option.map_some, Option.map_some]
      by_cases hnow : deadline ≤ now
      · rw [if_pos hnow, if_pos (Instant.le_trans hnow h)]
        exact .inl rfl
      · rw [if_neg hnow]
        split
        · exact .inr ⟨rfl, rfl⟩
        · exact .inl rfl
  · exact .inl rfl

/-! ## Rows with a status -/

section Rows

variable {ρ : Type}

/-- The rows that show one of the given statuses at an instant. -/
def withStatus (shown? : ρ → Instant → Option DisplayedStatus) (rows : List ρ) (now : Instant)
    (statuses : List DisplayedStatus) : List ρ :=
  rows.filter fun row ↦ ∃ s ∈ statuses, shown? row now = some s

variable {shown? : ρ → Instant → Option DisplayedStatus} {rows : List ρ} {now later : Instant}

private theorem mem_withStatus_singleton {row : ρ} {s : DisplayedStatus} :
    row ∈ withStatus shown? rows now [s] ↔ row ∈ rows ∧ shown? row now = some s := by
  simp [withStatus]

/-- Rows that all have a status are as many as those of the four statuses. -/
theorem length_withStatus (h : ∀ row ∈ rows, (shown? row now).isSome) :
    (withStatus shown? rows now [.running]).length +
      (withStatus shown? rows now [.success]).length +
      (withStatus shown? rows now [.failure]).length +
      (withStatus shown? rows now [.timeout]).length = rows.length := by
  induction rows with
  | nil => rfl
  | cons row rows ih =>
    obtain ⟨hrow, hrest⟩ := List.forall_mem_cons.1 h
    obtain ⟨s, hs⟩ := Option.isSome_iff_exists.1 hrow
    have hcount := ih hrest
    cases s <;> simp [withStatus, hs] at hcount ⊢ <;> omega

/-- How the rows of each status change between two instants: some that ran have timed out. -/
structure StatusesMove (shown? : ρ → Instant → Option DisplayedStatus) (rows : List ρ)
    (now later : Instant) : Prop where
  success_eq : withStatus shown? rows later [.success] = withStatus shown? rows now [.success]
  failure_eq : withStatus shown? rows later [.failure] = withStatus shown? rows now [.failure]
  timeout_sublist :
    (withStatus shown? rows now [.timeout]).Sublist (withStatus shown? rows later [.timeout])
  running_sublist :
    (withStatus shown? rows later [.running]).Sublist (withStatus shown? rows now [.running])
  /-- The timeouts that are new are those that no longer run. -/
  gained_eq_lost :
    (withStatus shown? rows later [.timeout]).filter (shown? · now ≠ some .timeout) =
      (withStatus shown? rows now [.running]).filter (shown? · later ≠ some .running)

private theorem withStatus_later (h : ∀ row, shown? row later = shown? row now ∨
      shown? row now = some .running ∧ shown? row later = some .timeout) {s : DisplayedStatus}
    (hrunning : s ≠ .running) (htimeout : s ≠ .timeout) :
    withStatus shown? rows later [s] = withStatus shown? rows now [s] := by
  apply List.filter_congr
  intro row _
  rcases h row with heq | ⟨hnow, hlater⟩
  · rw [heq]
  · simp [hnow, hlater, hrunning.symm, htimeout.symm]

/-- Rows whose status stays or turns from running into a timeout move accordingly. -/
theorem StatusesMove.of_later (h : ∀ row, shown? row later = shown? row now ∨
      shown? row now = some .running ∧ shown? row later = some .timeout) :
    StatusesMove shown? rows now later where
  success_eq := withStatus_later h (by decide) (by decide)
  failure_eq := withStatus_later h (by decide) (by decide)
  timeout_sublist := by
    apply List.monotone_filter_right
    intro row
    rcases h row with heq | ⟨hnow, hlater⟩
    · simp [heq]
    · simp [hnow]
  running_sublist := by
    apply List.monotone_filter_right
    intro row
    rcases h row with heq | ⟨hnow, hlater⟩
    · simp [heq]
    · simp [hlater]
  gained_eq_lost := by
    rw [withStatus, withStatus, List.filter_filter, List.filter_filter]
    apply List.filter_congr
    intro row _
    rcases h row with heq | ⟨hnow, hlater⟩
    · simp [heq]
    · simp [hnow, hlater]

end Rows

/-! ## Listings -/

variable {φ κ ρ : Type} [FieldSet φ] [SortKeys κ ρ] [Listable ρ φ κ]

/-- The status shown of a row at an instant, if it has one. -/
def Listable.shown? (row : ρ) (now : Instant) : Option DisplayedStatus :=
  DisplayedStatus.derive? (stored row) (run row).createdAt (run row).timeout now

/-- A row shows no status exactly where it lacks a deadline. -/
theorem Listable.shown?_eq_none_iff {row : ρ} (now : Instant) :
    shown? row now = none ↔ LacksDeadline row := DisplayedStatus.derive?_eq_none_iff

/-- Rows that are filtered by the status that is shown of them. -/
class LawfulStatus (ρ : Type) (φ κ : outParam Type) [FieldSet φ] [SortKeys κ ρ] [Listable ρ φ κ] :
    Prop where
  /-- The filter is about the status that is kept of the row. -/
  stored?_eq (row : ρ) :
    (Listable.resource ρ).subject.stored? (Listable.run row) (Listable.host? row) =
      some (Listable.stored row)
  /-- What is shown as the status of a row is its status. -/
  value?_eq (field : φ) (row : ρ) (now : Instant) (h : FieldSet.name field = "status") :
    Listable.value? field row now = (Listable.shown? row now).map DisplayedStatus.toJson

/-- Runs are filtered by their own status. -/
instance : LawfulStatus Run RunField RunSortKey where
  stored?_eq _ := rfl
  value?_eq field run now h := by
    cases field with
    | status => rfl
    | _ => simp [FieldSet.name] at h

/-- Hosts are filtered by their own status, and not by that of their run. -/
instance : LawfulStatus HostRecord HostField HostSortKey where
  stored?_eq _ := rfl
  value?_eq field record now h := by
    cases field with
    | status => rfl
    | _ => simp [FieldSet.name] at h

/-- That a listing finds the given rows: it tells their number, and shows those in any window. -/
def Finds (list? : ListQuery κ → Option (Listing ρ)) (query : ListQuery κ) (rows : List ρ) :
    Prop :=
  ∀ window, list? { query with window } = some ⟨window.slice rows, Int64.ofNat rows.length⟩

/-- How the listings with statuses added to the parameters lie within the listing without one. -/
structure PartitionedByStatus (list? : ListQuery κ → Option (Listing ρ))
    (shown? : ρ → Instant → Option DisplayedStatus) (params : Params) (request : ListRequest φ κ)
    (orgId : String) (rows : List ρ) : Prop where
  /-- Without a status the same rows are found at all times. -/
  unfiltered : ∀ now, Finds list? (request.toQuery orgId now) rows
  /-- What is shown as the status of a row is the status it is filtered by. -/
  projected : ∀ (field : φ) (row : ρ) (now : Instant), FieldSet.name field = "status" →
    Listable.value? field row now = (shown? row now).map DisplayedStatus.toJson
  /-- Parameters with added statuses ask for the same otherwise. They select the rows that show one
  of these statuses, where every row shows one, and give no listing where some row shows none. -/
  filtered : ∀ params' statuses, params.AddsStatuses params' statuses → statuses ≠ [] →
    ∃ filter, ListRequest.ofParams (Listable.resource ρ) params' = .ok { request with filter } ∧
      ∀ now,
        ((∀ row ∈ rows, ¬Listable.LacksDeadline row) →
          Finds list? (ListRequest.toQuery { request with filter } orgId now)
            (withStatus shown? rows now statuses)) ∧
        ((∃ row ∈ rows, Listable.LacksDeadline row) →
          ∀ window, list? { ListRequest.toQuery { request with filter } orgId now with window } =
            none)
  /-- The totals of the four statuses sum up to that of all rows. -/
  length_eq : (∀ row ∈ rows, ¬Listable.LacksDeadline row) → ∀ now,
    (withStatus shown? rows now [.running]).length +
      (withStatus shown? rows now [.success]).length +
      (withStatus shown? rows now [.failure]).length +
      (withStatus shown? rows now [.timeout]).length = rows.length
  /-- No row is among those of two statuses. -/
  disjoint : ∀ now s t, s ≠ t →
    List.Disjoint (withStatus shown? rows now [s]) (withStatus shown? rows now [t])
  /-- As time passes, rows move from those that run to those that timed out, and nowhere else. -/
  moves : ∀ now later, now ≤ later → StatusesMove shown? rows now later

section Answers

private theorem exists_holds?_toQuery {request : ListRequest φ κ}
    (h : ∀ p ∈ request.filter.predicates, ¬p.IsStatus) (orgId : String) (row : ρ) :
    ∃ b, ∀ now, Memory.holds? (request.toQuery orgId now) row = some b :=
  Filter.exists_holds?_eq h (Listable.run row) (Listable.host? row)

private theorem matching_toQuery {request : ListRequest φ κ}
    (h : ∀ p ∈ request.filter.predicates, ¬p.IsStatus) (orgId : String) (rows : List ρ)
    (now later : Instant) :
    Memory.matching (request.toQuery orgId now) rows =
      Memory.matching (request.toQuery orgId later) rows := by
  have hsame : ∀ row ∈ rows, decide (Memory.holds? (request.toQuery orgId now) row = some true) =
      decide (Memory.holds? (request.toQuery orgId later) row = some true) := by
    intro row _
    obtain ⟨b, hb⟩ := exists_holds?_toQuery h orgId row
    rw [hb now, hb later]
  rw [Memory.matching, Memory.matching, List.filter_congr hsame]
  rfl

private def addStatuses (ρ : Type) {φ κ : Type} [FieldSet φ] [SortKeys κ ρ] [Listable ρ φ κ]
    (query : ListQuery κ) (statuses : List DisplayedStatus) : ListQuery κ :=
  { query with filter := query.filter.withStatus (Listable.resource ρ) statuses }

variable [LawfulStatus ρ φ κ] {query : ListQuery κ}

private theorem holds?_addStatuses {row : ρ} {b : Bool} (h : Memory.holds? query row = some b)
    (statuses : List DisplayedStatus) :
    Memory.holds? (addStatuses ρ query statuses) row =
      if b then (Listable.shown? row query.now).map (statuses.eraseDups.contains ·)
      else some false := by
  have hstatus : (Predicate.status (Listable.resource ρ).subject statuses.eraseDups).holds?
      (Listable.run row) (Listable.host? row) query.now =
      (Listable.shown? row query.now).map (statuses.eraseDups.contains ·) := by
    rw [Predicate.holds?, LawfulStatus.stored?_eq]
    rfl
  rw [← hstatus]
  exact Filter.holds?_append h _

variable {rows : List ρ} (h : ∀ row ∈ rows, (Memory.holds? query row).isSome)
include h

private theorem matching_addStatuses [LawfulSortKeys κ ρ] (statuses : List DisplayedStatus) :
    Memory.matching (addStatuses ρ query statuses) rows =
      withStatus Listable.shown? (Memory.matching query rows) query.now statuses := by
  have hheld : ∀ row ∈ rows,
      decide (Memory.holds? (addStatuses ρ query statuses) row = some true) =
      (decide (∃ s ∈ statuses, Listable.shown? row query.now = some s) &&
        decide (Memory.holds? query row = some true)) := by
    intro row hrow
    obtain ⟨b, hb⟩ := Option.isSome_iff_exists.1 (h row hrow)
    rw [holds?_addStatuses hb, hb]
    cases b with
    | false => simp
    | true => cases Listable.shown? row query.now <;> simp
  rw [withStatus, Memory.matching, Memory.matching, ← SortOrder.apply_filter, List.filter_filter,
    List.filter_congr hheld]
  rfl

private theorem decided_addStatuses_iff (statuses : List DisplayedStatus) :
    (∀ row ∈ rows, (Memory.holds? (addStatuses ρ query statuses) row).isSome) ↔
      ∀ row ∈ Memory.matching query rows, ¬Listable.LacksDeadline row := by
  simp only [Memory.mem_matching, and_imp]
  apply forall₂_congr
  intro row hrow
  obtain ⟨b, hb⟩ := Option.isSome_iff_exists.1 (h row hrow)
  rw [holds?_addStatuses hb, hb, ← Listable.shown?_eq_none_iff query.now]
  cases b with
  | false => simp
  | true => cases Listable.shown? row query.now <;> simp

private theorem answer?_addStatuses [LawfulSortKeys κ ρ] (statuses : List DisplayedStatus) :
    ((∀ row ∈ Memory.matching query rows, ¬Listable.LacksDeadline row) →
      Finds (Memory.answer? · rows) (addStatuses ρ query statuses)
        (withStatus Listable.shown? (Memory.matching query rows) query.now statuses)) ∧
    ((∃ row ∈ Memory.matching query rows, Listable.LacksDeadline row) → ∀ window,
      Memory.answer? { addStatuses ρ query statuses with window } rows = none) := by
  have hdecided := decided_addStatuses_iff h statuses
  constructor
  · intro hshown
    rw [← matching_addStatuses h]
    exact Memory.answer?_of_decided (hdecided.2 hshown)
  · rintro ⟨row, hrow, hlacks⟩
    refine Memory.answer?_of_undecided ?_
    rw [hdecided]
    exact fun hshown ↦ hshown row hrow hlacks

end Answers

private theorem partitionedByStatus_of_answers [LawfulStatus ρ φ κ] [LawfulSortKeys κ ρ]
    {list? : ListQuery κ → Option (Listing ρ)} {params : Params} {request : ListRequest φ κ}
    {orgId : String} (rows : List ρ)
    (hlist : ∀ query, query.orgId = orgId → list? query = Memory.answer? query rows)
    (hnone : ∀ p ∈ params, p.1 ≠ "filter[status]")
    (hrequest : ListRequest.ofParams (Listable.resource ρ) params = .ok request) :
    PartitionedByStatus list? Listable.shown? params request orgId
      (Memory.matching (request.toQuery orgId ⟨0, 0⟩) rows) := by
  have hother := not_isStatus_of_ofParams hnone hrequest
  have hmatching (now : Instant) : Memory.matching (request.toQuery orgId now) rows =
      Memory.matching (request.toQuery orgId ⟨0, 0⟩) rows :=
    matching_toQuery hother orgId rows now ⟨0, 0⟩
  have hdecided (now : Instant) :
      ∀ row ∈ rows, (Memory.holds? (request.toQuery orgId now) row).isSome := by
    intro row _
    obtain ⟨b, hb⟩ := exists_holds?_toQuery hother orgId row
    rw [hb now]
    rfl
  refine ⟨?_, LawfulStatus.value?_eq, ?_, ?_, ?_, ?_⟩
  · intro now window
    rw [hlist _ rfl, Memory.answer?_of_decided (hdecided now), hmatching now]
  · intro params' statuses hadds hstatuses
    refine ⟨_, ofParams_of_addsStatuses hadds hstatuses hrequest, fun now ↦ ?_⟩
    obtain ⟨hfinds, hfails⟩ := answer?_addStatuses (hdecided now) statuses
    rw [hmatching now] at hfinds hfails
    constructor
    · intro hshown window
      exact (hlist _ rfl).trans (hfinds hshown window)
    · intro hlacks window
      exact (hlist _ rfl).trans (hfails hlacks window)
  · intro hshown now
    apply length_withStatus
    intro row hrow
    rw [Option.isSome_iff_ne_none]
    exact fun h ↦ hshown row hrow ((Listable.shown?_eq_none_iff now).1 h)
  · intro now s t hne row hs ht
    rw [mem_withStatus_singleton] at hs ht
    exact hne (Option.some.inj (hs.2.symm.trans ht.2))
  · intro now later h
    exact .of_later fun row ↦ DisplayedStatus.derive?_later h

private theorem mem_hostsOf {m : Memory} {orgId : String} {record : HostRecord}
    (h : record ∈ m.hostsOf orgId) :
    record.host ∈ m.hosts ∧ record.run ∈ m.runs ∧ record.run.id = record.host.runId := by
  obtain ⟨host, hhost, hrecord⟩ := List.mem_filterMap.1 h
  obtain ⟨run, hfound, rfl⟩ := Option.map_eq_some_iff.1 hrecord
  have hmatch : run.id = host.runId ∧ run.orgId = orgId := by
    simpa using List.find?_some hfound
  exact ⟨hhost, List.mem_of_find?_eq_some hfound, hmatch.1⟩

/-- Over a store in memory the listings of runs are partitioned by the status that is shown of them,
and those of hosts by that which their own status and the creation and timeout of their run come
to. -/
theorem partitionedByStatus_memory (m : Memory) (orgId : String) {params : Params}
    (hnone : ∀ p ∈ params, p.1 ≠ "filter[status]") :
    (∀ request, ListRequest.ofParams .run params = .ok request → ∃ rows,
      PartitionedByStatus m.listRuns? Run.displayedStatus? params request orgId rows) ∧
    ∀ request, ListRequest.ofParams .runHost params = .ok request → ∃ records,
      PartitionedByStatus m.listHosts?
          (fun record ↦ DisplayedStatus.derive? record.host.status record.run.createdAt
            record.run.timeout) params request orgId records ∧
        ∀ record ∈ records, record.host ∈ m.hosts ∧ record.run ∈ m.runs ∧
          record.run.id = record.host.runId := by
  constructor
  · intro request hrequest
    refine ⟨_, partitionedByStatus_of_answers (m.runsOf orgId) ?_ hnone hrequest⟩
    rintro query rfl
    rfl
  · intro request hrequest
    refine ⟨_, partitionedByStatus_of_answers (m.hostsOf orgId) ?_ hnone hrequest, ?_⟩
    · rintro query rfl
      rfl
    · exact fun record hrecord ↦ mem_hostsOf (Memory.mem_matching.1 hrecord).1

private def minuteStore (created : Instant) : Memory := ⟨[minuteRun 3 created], []⟩

private def oldestFirst : ListRequest RunField RunSortKey :=
  ⟨FieldSet.defaults, ⟨[]⟩, ⟨.createdAt, .asc⟩, ⟨50, 0⟩⟩

/-- A run with a timeout of a minute is among those that run after ten seconds, and among those that
timed out after seventy. -/
theorem partitionedByStatus_of_minuteRun :
    ∃ rows, PartitionedByStatus (minuteStore ⟨0, 0⟩).listRuns? Run.displayedStatus?
        [("sort_by", "created_at")] oldestFirst "org" rows ∧
      withStatus Run.displayedStatus? rows ⟨10, 0⟩ [.running] = [minuteRun 3 ⟨0, 0⟩] ∧
      withStatus Run.displayedStatus? rows ⟨70, 0⟩ [.timeout] = [minuteRun 3 ⟨0, 0⟩] := by
  have hnone : ∀ p ∈ [("sort_by", "created_at")], p.1 ≠ "filter[status]" := by decide
  have hrequest : ListRequest.ofParams .run [("sort_by", "created_at")] = .ok oldestFirst := rfl
  obtain ⟨rows, hrows⟩ := (partitionedByStatus_memory (minuteStore ⟨0, 0⟩) "org" hnone).1 _ hrequest
  -- a window without a limit shows every row that is found
  have hall := hrows.unfiltered ⟨10, 0⟩ ⟨-1, 0⟩
  have hfound : (minuteStore ⟨0, 0⟩).listRuns?
      { oldestFirst.toQuery "org" ⟨10, 0⟩ with window := ⟨-1, 0⟩ } =
        some ⟨[minuteRun 3 ⟨0, 0⟩], 1⟩ := by decide +kernel
  have hshown : [minuteRun 3 ⟨0, 0⟩] = rows :=
    congrArg Listing.items (Option.some.inj (hfound.symm.trans hall))
  subst hshown
  exact ⟨_, hrows, by decide +kernel, by decide +kernel⟩

/-- A run that was created in the last minute of the calendar, and would time out after it, is
listed, but there is no listing with any of the four statuses added to the parameters. -/
theorem not_listed_withStatus_of_lastMinute :
    (∃ page, (Memory.store.runsPage ⟨"org", "/runs", [("fields[data]", "id")], ⟨0, 0⟩⟩
        (minuteStore lastMinute)).1 = .ok (some page) ∧ page.total = 1) ∧
    ∀ s : DisplayedStatus,
      Params.AddsStatuses [("fields[data]", "id")]
        [("fields[data]", "id"), ("filter[status]", s.name)] [s] ∧
      (Memory.store.runsPage ⟨"org", "/runs",
        [("fields[data]", "id"), ("filter[status]", s.name)], ⟨0, 0⟩⟩ (minuteStore lastMinute)).1 =
          .ok none := by
  refine ⟨Checked.eq_ok_some_of_map (by decide +kernel), fun s ↦ ⟨⟨?_, ?_⟩, ?_⟩⟩
  · cases s <;> decide
  · cases s <;> decide
  · apply Checked.eq_ok_none_of_map
    cases s <;> decide +kernel

end PlaybookRuns
