import PlaybookRuns.Proofs.Keyed
import PlaybookRuns.Proofs.Listing.Statuses
import PlaybookRuns.Proofs.Query.RunScope

/-!
# Hosts of selected runs

What a listing of hosts finds whose filters are all about their runs. Main statement: those are the
hosts of just the runs that a listing of runs finds with the same filters.
-/

namespace PlaybookRuns

open PlaybookRuns.Query PlaybookRuns.Time

/-- The hosts of some runs, each with its run. -/
def hostsOfRuns (runs : List Run) (hosts : List Host) : List HostRecord :=
  hosts.filterMap fun host ↦ (runs.find? (·.id = host.runId)).map fun run ↦ ⟨host, run⟩

/-! ## Runs with identifiers of their own -/

/-- That no two of some runs have the same identifier. -/
def DistinctRuns (runs : List Run) : Prop := (runs.map (·.id)).Nodup

namespace DistinctRuns

variable {runs : List Run} (h : DistinctRuns runs)
include h

private theorem find?_eq_some_iff {host : Host} {run : Run} :
    runs.find? (·.id = host.runId) = some run ↔ run ∈ runs ∧ run.id = host.runId := by
  rw [Keyed.find?_eq_some_iff_of_nodup h fun run hid ↦ of_decide_eq_true hid, decide_eq_true_eq]

private theorem find?_ofTenant_eq_some_iff {host : Host} {run : Run} (orgId : String) :
    runs.find? (fun run ↦ run.id = host.runId ∧ run.orgId = orgId) = some run ↔
      run ∈ runs ∧ run.id = host.runId ∧ run.orgId = orgId := by
  rw [Keyed.find?_eq_some_iff_of_nodup h fun run hid ↦ (of_decide_eq_true hid).1,
    decide_eq_true_eq]

/-- A host stands among those of some runs exactly where its run is one of them. -/
theorem mem_hostsOfRuns_iff {hosts : List Host} {record : HostRecord} :
    record ∈ hostsOfRuns runs hosts ↔
      record.host ∈ hosts ∧ record.run ∈ runs ∧ record.run.id = record.host.runId := by
  simp only [hostsOfRuns, List.mem_filterMap, Option.map_eq_some_iff, find?_eq_some_iff h]
  constructor
  · rintro ⟨host, hhost, run, hrun, rfl⟩
    exact ⟨hhost, hrun⟩
  · rintro ⟨hhost, hrun⟩
    exact ⟨record.host, hhost, record.run, hrun, rfl⟩

/-- The runs that a listing finds are distinct where those of the store are. -/
theorem matching (orgId : String) (query : ListQuery RunSortKey) {hosts : List Host} :
    DistinctRuns (Memory.matching query (Memory.runsOf ⟨runs, hosts⟩ orgId)) := by
  have hperm := (Memory.matching_perm query (Memory.runsOf ⟨runs, hosts⟩ orgId)).map (·.id)
  have hsublist := (List.filter_sublist (p := fun run ↦ Memory.holds? query run = some true)
    (l := Memory.runsOf ⟨runs, hosts⟩ orgId)).trans List.filter_sublist
  exact hperm.nodup_iff.2 (h.sublist (hsublist.map _))

end DistinctRuns

/-! ## Filters of runs, evaluated on hosts -/

/-- What asks for nothing of a host is decided alike on a run and on any of its hosts. -/
theorem Query.Predicate.holds?_of_ofRun {p : Predicate} (h : p.OfRun) (run : Run)
    (host : Option Host) (now : Instant) : p.holds? run host now = p.holds? run none now := by
  cases p with
  | anyOf column values =>
    rcases h with rfl | rfl | rfl
    · rfl
    · rfl
    · rfl
  | status subject shown =>
    obtain rfl : subject = .run := h
    rfl
  | label key value => rfl

/-- A filter that asks for nothing of a host holds of a host exactly where it holds of its run. -/
theorem Query.Filter.holds?_of_ofRun {f : Filter} (h : ∀ p ∈ f.predicates, p.OfRun) {run : Run}
    {host : Option Host} {now : Instant} :
    f.holds? run host now = some true ↔ f.holds? run none now = some true := by
  rw [holds?_eq_some_true_iff, holds?_eq_some_true_iff]
  refine forall₂_congr fun p hp ↦ ?_
  rw [Predicate.holds?_of_ofRun (h p hp) run host now]

section Listings

variable {filter : Filter} {orgId : String} {now : Instant} {window : Window}

private theorem finds_matching {φ κ ρ : Type} [FieldSet φ] [SortKeys κ ρ] [Listable ρ φ κ]
    {list? : ListQuery κ → Option (Listing ρ)} {query : ListQuery κ} {rows : List ρ}
    (hlist : ∀ window, list? { query with window } = Memory.answer? { query with window } rows)
    (h : ∀ p ∈ query.filter.predicates, ¬p.IsStatus) :
    Finds list? query (Memory.matching query rows) := by
  intro window
  rw [hlist, Memory.answer?_of_decided]
  intro row _
  obtain ⟨b, hb⟩ := Filter.exists_holds?_eq h (Listable.run row) (Listable.host? row)
  rw [Memory.holds?, hb]
  rfl

private theorem matching_hostsOf_perm {m : Memory} (hdistinct : DistinctRuns m.runs)
    (hofRun : ∀ p ∈ filter.predicates, p.OfRun) (runSort : SortOrder RunSortKey)
    (hostSort : SortOrder HostSortKey) :
    (Memory.matching ⟨orgId, filter, hostSort, window, now⟩ (m.hostsOf orgId)).Perm
      (hostsOfRuns (Memory.matching ⟨orgId, filter, runSort, window, now⟩ (m.runsOf orgId))
        m.hosts) := by
  refine (Memory.matching_perm _ _).trans (.of_eq ?_)
  rw [Memory.hostsOf, List.filter_filterMap, hostsOfRuns]
  refine List.filterMap_congr fun host _ ↦ Option.ext fun record ↦ ?_
  have hselected (run : Run) :
      run ∈ Memory.matching ⟨orgId, filter, runSort, window, now⟩ (m.runsOf orgId) ↔
        run ∈ m.runs ∧ run.orgId = orgId ∧ filter.holds? run (some host) now = some true := by
    rw [Memory.mem_matching, Memory.runsOf, List.mem_filter, decide_eq_true_eq,
      Filter.holds?_of_ofRun hofRun, and_assoc]
    rfl
  simp only [Option.filter_eq_some_iff, Option.map_eq_some_iff, decide_eq_true_eq,
    hdistinct.find?_ofTenant_eq_some_iff, (hdistinct.matching orgId _).find?_eq_some_iff,
    hselected]
  constructor
  · rintro ⟨⟨run, ⟨hrun, hid, horg⟩, rfl⟩, hholds⟩
    exact ⟨run, ⟨⟨hrun, horg, hholds⟩, hid⟩, rfl⟩
  · rintro ⟨run, ⟨⟨hrun, horg, hholds⟩, hid⟩, rfl⟩
    exact ⟨⟨run, ⟨hrun, hid, horg⟩, rfl⟩, hholds⟩

end Listings

/-- A tree of filters without a status comes to the same filter for runs and, under `run`, for
hosts, or is refused alike up to its paths. Over a store in memory whose runs have identifiers of
their own the listing of hosts finds with it just the hosts of the runs that the listing of runs
finds, each as often as it is stored. -/
theorem hosts_of_selected_runs {tree : Tree} (hstatus : ∀ e ∈ tree, e.1 ≠ "status") :
    AgreesUnder "run" (Filter.ofTree tree .run)
        (Filter.ofTree [("run", .branch tree)] .runHost) ∧
      ∀ runFilter hostFilter, Filter.ofTree tree .run = .ok runFilter →
        Filter.ofTree [("run", .branch tree)] .runHost = .ok hostFilter →
        ∀ m : Memory, DistinctRuns m.runs →
          ∀ (orgId : String) (runSort : SortOrder RunSortKey) (hostSort : SortOrder HostSortKey)
            (window : Window) (now : Instant), ∃ runs records,
            Finds m.listRuns? ⟨orgId, runFilter, runSort, window, now⟩ runs ∧
            Finds m.listHosts? ⟨orgId, hostFilter, hostSort, window, now⟩ records ∧
            records.Perm (hostsOfRuns runs m.hosts) ∧
            ∀ record, record ∈ records ↔
              record.host ∈ m.hosts ∧ record.run ∈ runs ∧ record.run.id = record.host.runId := by
  have hagrees := agreesUnder_ofTree_run hstatus
  refine ⟨hagrees, fun runFilter hostFilter hrun hhost m hdistinct orgId runSort hostSort window now
    ↦ ?_⟩
  obtain rfl : runFilter = hostFilter := by
    rw [hrun, hhost] at hagrees
    cases hagrees
    rfl
  have hother := not_isStatus_of_ofTree_runHost_run hhost
  have hperm : (Memory.matching ⟨orgId, runFilter, hostSort, window, now⟩ (m.hostsOf orgId)).Perm
      (hostsOfRuns (Memory.matching ⟨orgId, runFilter, runSort, window, now⟩ (m.runsOf orgId))
        m.hosts) :=
    matching_hostsOf_perm hdistinct (Filter.ofRun_of_ofTree hrun) runSort hostSort
  refine ⟨_, _, finds_matching (fun _ ↦ rfl) hother, finds_matching (fun _ ↦ rfl) hother, hperm,
    fun record ↦ ?_⟩
  rw [hperm.mem_iff, (hdistinct.matching orgId _).mem_hostsOfRuns_iff]

private def teamTree : Tree :=
  [("labels", .branch [("team", .leaf ["db"])]), ("service", .leaf ["remediations"])]

private def teamFilter : Filter :=
  ⟨[.label "team" "db", .anyOf .service [.text "remediations"]]⟩

private def labelled : Memory where
  runs := [{ minuteRun 3 ⟨0, 0⟩ with labels := .ofList [("team", "db")] }, minuteRun 4 ⟨0, 0⟩]
  hosts := [3, 4].map fun id ↦ {
    id := .ofNat (10 + id), runId := .ofNat id, inventoryId := none, host := "localhost",
    status := .running, stdout := none, createdAt := ⟨0, 0⟩, updatedAt := ⟨0, 0⟩ }

/-- Of the hosts of two runs, the one is found whose run has the label. -/
theorem host_of_labelled_run :
    Filter.ofTree teamTree .run = .ok teamFilter ∧
      Filter.ofTree [("run", .branch teamTree)] .runHost = .ok teamFilter ∧
      ∃ runs records,
        Finds labelled.listRuns? ⟨"org", teamFilter, .initial, ⟨50, 0⟩, ⟨0, 0⟩⟩ runs ∧
        Finds labelled.listHosts? ⟨"org", teamFilter, .initial, ⟨50, 0⟩, ⟨0, 0⟩⟩ records ∧
        runs.map (·.id) = [.ofNat 3] ∧ records.map (·.host.id) = [.ofNat 13] := by
  have hrun : Filter.ofTree teamTree .run = .ok teamFilter := by decide +kernel
  have hhost : Filter.ofTree [("run", .branch teamTree)] .runHost = .ok teamFilter := by
    decide +kernel
  obtain ⟨runs, records, hruns, hrecords, -⟩ :=
    (hosts_of_selected_runs (by decide)).2 _ _ hrun hhost labelled
      (by unfold DistinctRuns; decide) "org" .initial .initial ⟨50, 0⟩ ⟨0, 0⟩
  refine ⟨hrun, hhost, runs, records, hruns, hrecords, ?_, ?_⟩
  · have hshown := congrArg (Option.map fun l ↦ l.items.map (·.id)) (hruns ⟨-1, 0⟩)
    exact (Option.some.inj (Eq.trans (by decide +kernel) hshown)).symm
  · have hshown := congrArg (Option.map fun l ↦ l.items.map (·.host.id)) (hrecords ⟨-1, 0⟩)
    exact (Option.some.inj (Eq.trans (by decide +kernel) hshown)).symm

end PlaybookRuns
