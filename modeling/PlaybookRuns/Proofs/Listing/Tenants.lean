import Mathlib.Data.List.Nodup
import Mathlib.Data.List.Perm.Subperm
import PlaybookRuns.Proofs.Listing.Walk

/-!
# Tenants of the store in memory

What a store holds after a history of insertions, seen by one tenant. Main statement: the listings
of a tenant depend only on the insertions of its own runs, and show only rows of these.
-/

namespace PlaybookRuns

open PlaybookRuns.Query PlaybookRuns.Time

namespace Memory

/-- A run that is inserted together with its hosts. -/
structure Arrival where
  run : Run
  hosts : List Host
  /-- The hosts are those of the run. -/
  runId_eq : ∀ host ∈ hosts, host.runId = run.id

/-- The hosts of an arrival, each with its run. -/
def Arrival.records (arrival : Arrival) : List HostRecord :=
  arrival.hosts.map (⟨·, arrival.run⟩)

/-- Runs in the order of their insertion, no two with the same identifier. -/
structure History where
  arrivals : List Arrival
  nodup_ids : (arrivals.map (·.run.id)).Nodup

namespace History

variable {history history' : History} {orgId : String}

/-- What is stored after a history. -/
def stored (history : History) : Memory :=
  history.arrivals.foldl (fun m arrival ↦ m.insert arrival.run arrival.hosts) ∅

/-- The arrivals whose run belongs to a tenant. -/
def ofTenant (history : History) (orgId : String) : List Arrival :=
  history.arrivals.filter (·.run.orgId = orgId)

/-- The stored runs are those of the arrivals. -/
theorem runs_stored (history : History) :
    history.stored.runs = history.arrivals.map (·.run) := by
  rw [stored, Memory.foldl_insert]
  rfl

/-- The stored hosts are those of the arrivals. -/
theorem hosts_stored (history : History) :
    history.stored.hosts = history.arrivals.flatMap (·.hosts) := by
  rw [stored, Memory.foldl_insert]
  rfl

/-- The runs of a tenant are those of its arrivals. -/
theorem runsOf_stored (history : History) (orgId : String) :
    history.stored.runsOf orgId = (history.ofTenant orgId).map (·.run) := by
  rw [runsOf, runs_stored, List.filter_map]
  rfl

private theorem find?_stored {arrival : Arrival} (h : arrival ∈ history.arrivals) :
    (history.stored.runs.find? fun run ↦ run.id = arrival.run.id ∧ run.orgId = orgId) =
      if arrival.run.orgId = orgId then some arrival.run else none := by
  have hrun : arrival.run ∈ history.stored.runs := by
    rw [runs_stored]
    exact List.mem_map_of_mem h
  cases hfound : history.stored.runs.find? fun run ↦
      run.id = arrival.run.id ∧ run.orgId = orgId with
  | none =>
    have hother : arrival.run.orgId ≠ orgId := by
      simpa using List.find?_eq_none.1 hfound _ hrun
    rw [if_neg hother]
  | some run =>
    have hmatch : run.id = arrival.run.id ∧ run.orgId = orgId := by
      simpa using List.find?_some hfound
    have hmem := List.mem_of_find?_eq_some hfound
    rw [runs_stored] at hmem
    obtain ⟨other, hother, rfl⟩ := List.mem_map.1 hmem
    obtain rfl := List.inj_on_of_nodup_map history.nodup_ids hother h hmatch.1
    rw [if_pos hmatch.2]

private theorem records_eq {arrival : Arrival} (h : arrival ∈ history.arrivals) :
    arrival.hosts.filterMap (fun host ↦
      (history.stored.runs.find? fun run ↦ run.id = host.runId ∧ run.orgId = orgId).map
        (HostRecord.mk host ·)) =
      if arrival.run.orgId = orgId then arrival.records else [] := by
  have hjoined : ∀ host ∈ arrival.hosts,
      (history.stored.runs.find? fun run ↦ run.id = host.runId ∧ run.orgId = orgId).map
        (HostRecord.mk host ·) =
      if arrival.run.orgId = orgId then some ⟨host, arrival.run⟩ else none := by
    intro host hhost
    rw [arrival.runId_eq host hhost, find?_stored h]
    split <;> rfl
  rw [List.filterMap_congr hjoined]
  split
  · rw [Arrival.records, List.filterMap_eq_map']
  · rw [List.filterMap_none]

/-- The hosts of a tenant are those of its arrivals, each with the run it arrived with. -/
theorem hostsOf_stored (history : History) (orgId : String) :
    history.stored.hostsOf orgId = (history.ofTenant orgId).flatMap Arrival.records := by
  rw [hostsOf, hosts_stored, List.filterMap_flatMap,
    List.flatMap_congr fun _ harrival ↦ records_eq harrival, ofTenant]
  induction history.arrivals with
  | nil => rfl
  | cons arrival arrivals ih =>
    rw [List.flatMap_cons, List.filter_cons, ih]
    by_cases htenant : arrival.run.orgId = orgId
    · simp [htenant]
    · simp [htenant]

end History

end Memory

/-! ## What a tenant is served -/

section Serving

variable {φ κ ρ : Type} [FieldSet φ] [SortKeys κ ρ] [Listable ρ φ κ]

/-- That a page shows rows of the given ones only, each at most as often as it is among them. -/
def ListPage.ShowsAmong (page : ListPage) (params : Params) (now : Instant) (rows : List ρ) :
    Prop :=
  ∃ (request : ListRequest φ κ) (shown : List ρ),
    ListRequest.ofParams (Listable.resource ρ) params = .ok request ∧ shown.Subperm rows ∧
      page.data.map some = shown.map (project? request.fields now)

variable {σ : Type} {fetch : ListQuery κ → StoreAction σ (Option (Listing ρ))}
  {context : ListContext} {state state' : σ} {rows : List ρ}

private theorem serveListing_congr (h : ∀ query, query.orgId = context.orgId →
      (fetch query state).1 = (fetch query state').1) :
    (serveListing fetch context state).1 = (serveListing fetch context state').1 := by
  rw [serveListing, serveListing]
  cases (ListRequest.ofParams (Listable.resource ρ) context.params :
      Except _ (ListRequest φ κ)) with
  | error e => rfl
  | ok request =>
    have hfound := h (request.toQuery context.orgId context.now) rfl
    rcases hfetch : fetch (request.toQuery context.orgId context.now) state with ⟨answer, s⟩
    rcases hfetch' : fetch (request.toQuery context.orgId context.now) state' with ⟨answer', s'⟩
    rw [hfetch, hfetch'] at hfound
    dsimp only at hfound
    subst hfound
    cases answer <;> simp [hfetch, hfetch']

private theorem matching_subperm (query : ListQuery κ) :
    (query.window.slice (Memory.matching query rows)).Subperm rows := by
  have hslice := query.window.slice_sublist (Memory.matching query rows)
  exact hslice.subperm.trans ((Memory.matching_perm query rows).subperm.trans
    List.filter_sublist.subperm)

private theorem showsAmong_of_serveListing
    (hfetch : ∀ query, query.orgId = context.orgId →
      fetch query state = (.ok (Memory.answer? query rows), state))
    {page : ListPage} (hpage : (serveListing fetch context state).1 = .ok (some page)) :
    page.ShowsAmong context.params context.now rows := by
  cases hrequest : (ListRequest.ofParams (Listable.resource ρ) context.params :
      Except _ (ListRequest φ κ)) with
  | error e =>
    rw [serveListing, hrequest] at hpage
    cases hpage
  | ok request =>
    have hfound := hfetch (request.toQuery context.orgId context.now) rfl
    have hstate : (serveListing fetch context state).2 = state := by
      rw [serveListing, hrequest]
      simp only [hfound]
    obtain ⟨-, hshown⟩ := (serveListing_eq_iff hrequest hfound).1 (Prod.ext hpage hstate)
    obtain ⟨hdata, -⟩ := ListPage.of?_eq_some_iff.1 hshown
    exact ⟨request, _, hrequest, matching_subperm (request.toQuery _ _), hdata.symm⟩

end Serving

/-- The listings of a tenant depend only on the arrivals of its own runs, whatever else has been
inserted before, between and after them: histories that agree on these are answered with the same
pages or the same refusals. The pages show rows of these arrivals only. -/
theorem pages_eq_of_ofTenant_eq {history history' : Memory.History} {orgId : String}
    (h : history.ofTenant orgId = history'.ofTenant orgId) (path : String) (params : Params)
    (now : Instant) :
    ((Memory.store.runsPage ⟨orgId, path, params, now⟩ history.stored).1 =
        (Memory.store.runsPage ⟨orgId, path, params, now⟩ history'.stored).1 ∧
      ∀ page, (Memory.store.runsPage ⟨orgId, path, params, now⟩ history.stored).1 =
          .ok (some page) →
        page.ShowsAmong params now ((history.ofTenant orgId).map (·.run))) ∧
    (Memory.store.hostsPage ⟨orgId, path, params, now⟩ history.stored).1 =
        (Memory.store.hostsPage ⟨orgId, path, params, now⟩ history'.stored).1 ∧
      ∀ page, (Memory.store.hostsPage ⟨orgId, path, params, now⟩ history.stored).1 =
          .ok (some page) →
        page.ShowsAmong params now
          ((history.ofTenant orgId).flatMap Memory.Arrival.records) := by
  have hruns : history.stored.runsOf orgId = history'.stored.runsOf orgId := by
    rw [Memory.History.runsOf_stored, Memory.History.runsOf_stored, h]
  have hhosts : history.stored.hostsOf orgId = history'.stored.hostsOf orgId := by
    rw [Memory.History.hostsOf_stored, Memory.History.hostsOf_stored, h]
  refine ⟨⟨?_, ?_⟩, ?_, ?_⟩
  · apply serveListing_congr
    rintro query rfl
    simp only [Memory.store, Memory.listRuns?, hruns]
  · intro page hpage
    rw [← Memory.History.runsOf_stored]
    refine showsAmong_of_serveListing ?_ hpage
    rintro query rfl
    rfl
  · apply serveListing_congr
    rintro query rfl
    simp only [Memory.store, Memory.listHosts?, hhosts]
  · intro page hpage
    rw [← Memory.History.hostsOf_stored]
    refine showsAmong_of_serveListing ?_ hpage
    rintro query rfl
    rfl

private def ownArrival : Memory.Arrival where
  run := minuteRun 3 ⟨0, 0⟩
  hosts := [⟨.ofNat 8, .ofNat 3, "host", none, .running, none, ⟨0, 0⟩, ⟨0, 0⟩⟩]
  runId_eq := by decide

private def foreignArrival (id : Nat) : Memory.Arrival :=
  ⟨{ minuteRun id ⟨0, 0⟩ with orgId := "other" }, [], by simp⟩

private def ownFirst : Memory.History := ⟨[ownArrival, foreignArrival 4], by decide +kernel⟩

private def ownLast : Memory.History :=
  ⟨[foreignArrival 5, foreignArrival 6, ownArrival], by decide +kernel⟩

/-- A tenant with one run is served the same page, with one object, among different arrivals of
others. -/
theorem page_eq_of_ownArrival :
    ownFirst.stored ≠ ownLast.stored ∧ ∃ page,
      (Memory.store.runsPage ⟨"org", "/runs", [], ⟨0, 0⟩⟩ ownFirst.stored).1 =
        .ok (some page) ∧
      (Memory.store.runsPage ⟨"org", "/runs", [], ⟨0, 0⟩⟩ ownLast.stored).1 =
        .ok (some page) ∧
      page.data.length = 1 ∧
      page.ShowsAmong [] ⟨0, 0⟩ ((ownFirst.ofTenant "org").map (·.run)) := by
  have hagree : ownFirst.ofTenant "org" = ownLast.ofTenant "org" := rfl
  obtain ⟨⟨hsame, hown⟩, -⟩ := pages_eq_of_ofTenant_eq hagree "/runs" [] ⟨0, 0⟩
  obtain ⟨page, hpage, hlength⟩ : ∃ page,
      (Memory.store.runsPage ⟨"org", "/runs", [], ⟨0, 0⟩⟩ ownFirst.stored).1 =
        .ok (some page) ∧ page.data.length = 1 := Checked.eq_ok_some_of_map (by decide +kernel)
  exact ⟨by decide +kernel, page, hpage, hsame ▸ hpage, hlength, hown page hpage⟩

end PlaybookRuns
