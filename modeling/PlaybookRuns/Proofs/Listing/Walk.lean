import PlaybookRuns.Listing.Serve
import PlaybookRuns.Proofs.Listing.Projection
import PlaybookRuns.Proofs.Query.Filter
import PlaybookRuns.Proofs.Query.Request
import PlaybookRuns.Proofs.Store.Memory

/-!
# Walking a listing

A client that fetches a page and then follows the links to the next page as long as there is one.
A walk over the store in memory shows every matching row from the requested offset on, once and in
order. Main statements: what the pages of a walk show, and when a walk comes to its end.
-/

namespace PlaybookRuns

open PlaybookRuns.Query PlaybookRuns.Time

/-- Pages that are reached from parameters along the links to the next page, up to the one without
such a link. -/
inductive Walk (serves : Params → ListPage → Prop) : Params → List ListPage → Prop where
  | last {params : Params} {page : ListPage} (hpage : serves params page)
      (hnext : page.links.next = none) : Walk serves params [page]
  | next {params params' : Params} {page : ListPage} {link : String} {pages : List ListPage}
      (hpage : serves params page) (hnext : page.links.next = some link)
      (htarget : targetOf? link = some params') (hrest : Walk serves params' pages) :
      Walk serves params (page :: pages)

variable {φ κ ρ : Type} [FieldSet φ] [SortKeys κ ρ] [Listable ρ φ κ]

/-- What the pages of a walk show: the matching rows from the offset of the request on. -/
structure WalkShows (request : ListRequest φ κ) (now : Instant) (matched : List ρ)
    (pages : List ListPage) : Prop where
  /-- There are as many pages as the rest of the rows fill, and one at least. -/
  length_eq : pages.length =
    max 1 ((matched.length - request.window.start + request.window.size - 1) /
      request.window.size)
  /-- The pages together show each of these rows once, in order. -/
  data_eq : (pages.flatMap (·.data)).map some =
    (matched.drop request.window.start).map (project? request.fields now)
  /-- Every page reports the number of matching rows. -/
  total_eq : ∀ page ∈ pages, page.total.toInt = matched.length
  /-- Every page reports how many objects it holds. -/
  count_eq : ∀ page ∈ pages, page.count.toInt = page.data.length

/-- That walking from accepted parameters loses no row and repeats none. -/
structure WalkCompletes (serves : Params → ListPage → Prop) (params : Params)
    (request : ListRequest φ κ) (orgId : String) (now : Instant) (rows : List ρ) : Prop where
  /-- The matching rows are those the filter holds of. -/
  matching_perm : (Memory.matching (request.toQuery orgId now) rows).Perm
    (rows.filter fun row ↦ Memory.holds? (request.toQuery orgId now) row = some true)
  /-- They are in the requested order. -/
  matching_sorted : (Memory.matching (request.toQuery orgId now) rows).Pairwise
    fun a b ↦ (request.sort.compare a b).isLE
  /-- A walk comes to its end exactly where the filter decides on every row of the tenant and, if
  the status is selected, every row to be shown has one. -/
  exists_iff : (∃ pages, Walk serves params pages) ↔
    (∀ row ∈ rows, ¬request.filter.Undecided (Listable.run row) (Listable.host? row) now) ∧
      ((∃ field ∈ request.fields, FieldSet.name field = "status") →
        ∀ row ∈ (Memory.matching (request.toQuery orgId now) rows).drop request.window.start,
          ¬Listable.LacksDeadline row)
  /-- The pages of a walk show the matching rows. -/
  shows : ∀ pages, Walk serves params pages →
    WalkShows request now (Memory.matching (request.toQuery orgId now) rows) pages

/-! ## One page -/

/-- A page shows the rows of a listing exactly when each of them can be shown. -/
theorem ListPage.of?_eq_some_iff {context : ListContext} {request : ListRequest φ κ}
    {listing : Listing ρ} {page : ListPage} :
    ListPage.of? context request listing = some page ↔
      listing.items.map (project? request.fields context.now) = page.data.map some ∧
        page.count = Int64.ofNat listing.items.length ∧ page.total = listing.total ∧
        page.links = .of context.path context.params request.window listing.total := by
  rw [← Checked.mapM_eq_some_iff]
  constructor
  · intro h
    obtain ⟨data, hdata, hpage⟩ := Option.bind_eq_some_iff.1 h
    obtain rfl := Option.some.inj hpage
    exact ⟨hdata, rfl, rfl, rfl⟩
  · rintro ⟨hdata, hcount, htotal, hlinks⟩
    rw [ListPage.of?, hdata, ← hcount, ← htotal]
    rw [← htotal] at hlinks
    rw [← hlinks]
    rfl

/-- A page is served exactly when the filter decides on every row and every row on the page can be
shown. -/
theorem serveListing_eq_iff {σ : Type} {fetch : ListQuery κ → StoreAction σ (Option (Listing ρ))}
    {context : ListContext} {request : ListRequest φ κ} {state : σ} {rows : List ρ}
    {page : ListPage}
    (hrequest : ListRequest.ofParams (Listable.resource ρ) context.params = .ok request)
    (hfetch : fetch (request.toQuery context.orgId context.now) state =
      (.ok (Memory.answer? (request.toQuery context.orgId context.now) rows), state)) :
    serveListing fetch context state = (.ok (some page), state) ↔
      (∀ row ∈ rows,
        (Memory.holds? (request.toQuery context.orgId context.now) row).isSome) ∧
      ListPage.of? context request
        ⟨request.window.slice
            (Memory.matching (request.toQuery context.orgId context.now) rows),
          Int64.ofNat (Memory.matching (request.toQuery context.orgId context.now) rows).length⟩ =
        some page := by
  rw [serveListing, hrequest]
  simp only [hfetch, Prod.mk.injEq, Except.ok.injEq, and_true]
  simp only [Memory.answer?, List.all_eq_true]
  split
  · next hjudged => exact ⟨fun h ↦ ⟨hjudged, h⟩, And.right⟩
  · next hjudged => exact ⟨fun h ↦ (by cases h), fun h ↦ absurd h.1 hjudged⟩

/-! ## From page to page -/

section Paging

variable {σ : Type} {fetch : ListQuery κ → StoreAction σ (Option (Listing ρ))} {orgId path : String}
  {now : Instant} {state : σ} {rows matched : List ρ} {request : ListRequest φ κ} {params : Params}

private theorem served_page {page : ListPage}
    (hfetch : ∀ query, query.orgId = orgId →
      fetch query state = (.ok (Memory.answer? query rows), state))
    (hrequest : ListRequest.ofParams (Listable.resource ρ) params = .ok request)
    (hmatched : Memory.matching (request.toQuery orgId now) rows = matched) :
    serveListing fetch ⟨orgId, path, params, now⟩ state = (.ok (some page), state) ↔
      (∀ row ∈ rows, (Memory.holds? (request.toQuery orgId now) row).isSome) ∧
        page.data.map some = ((matched.drop request.window.start).take request.window.size).map
          (project? request.fields now) ∧
        page.count = Int64.ofNat page.data.length ∧ page.total = Int64.ofNat matched.length ∧
        page.links = .of path params request.window (Int64.ofNat matched.length) := by
  have hwindow := ListRequest.window_valid_of_ofParams hrequest
  rw [serveListing_eq_iff hrequest (hfetch _ rfl), ListPage.of?_eq_some_iff, hmatched]
  simp only [Window.slice_eq hwindow]
  apply and_congr_right
  intro _
  constructor
  · rintro ⟨hdata, hcount, htotal, hlinks⟩
    have hsize := congrArg List.length hdata
    rw [List.length_map, List.length_map] at hsize
    exact ⟨hdata.symm, hsize ▸ hcount, htotal, hlinks⟩
  · rintro ⟨hdata, hcount, htotal, hlinks⟩
    have hsize := congrArg List.length hdata
    rw [List.length_map, List.length_map] at hsize
    exact ⟨hdata.symm, hsize ▸ hcount, htotal, hlinks⟩

private theorem next_request (hpath : '?' ∉ path.toList)
    (hrequest : ListRequest.ofParams (Listable.resource ρ) params = .ok request)
    (hlength : (matched.length : Int) ≤ Int64.maxValue.toInt) {links : Links}
    (hlinks : links = .of path params request.window (Int64.ofNat matched.length)) :
    (links.next = none ↔ matched.length ≤ request.window.start + request.window.size) ∧
      ∀ link, links.next = some link → ∃ params' window,
        targetOf? link = some params' ∧
        ListRequest.ofParams (Listable.resource ρ) params' = .ok { request with window } ∧
        window.start = request.window.start + request.window.size ∧
        window.size = request.window.size ∧ window.start < matched.length := by
  have hwindow := ListRequest.window_valid_of_ofParams hrequest
  have hnext : links.next = (request.window.nextOffset? (Int64.ofNat matched.length)).map
      (linkTo path params request.window.limit) := by rw [hlinks]; rfl
  rw [hnext, Option.map_eq_none_iff, Window.nextOffset?_ofNat_eq_none_iff hwindow hlength]
  refine ⟨Iff.rfl, fun link hlink ↦ ?_⟩
  obtain ⟨offset, hoffset, rfl⟩ := Option.map_eq_some_iff.1 hlink
  obtain ⟨hvalid, hstart, hbelow⟩ := Window.valid_of_nextOffset?_ofNat hwindow hlength hoffset
  exact ⟨_, ⟨request.window.limit, offset⟩, targetOf?_linkTo hpath params _ offset,
    ListRequest.ofParams_paramsAt hrequest hvalid, hstart, rfl, hstart ▸ hbelow⟩

private theorem pages_of_le {total start size : Nat} (hsize : 0 < size)
    (h : total ≤ start + size) : max 1 ((total - start + size - 1) / size) = 1 := by
  have hlt : (total - start + size - 1) / size < 2 := by
    rw [Nat.div_lt_iff_lt_mul hsize]
    omega
  omega

private theorem pages_of_lt {total start size : Nat} (hsize : 0 < size)
    (h : start + size < total) :
    max 1 ((total - start + size - 1) / size) =
      max 1 ((total - (start + size) + size - 1) / size) + 1 := by
  have hstep : total - start + size - 1 = total - (start + size) + size - 1 + size := by omega
  have hpos : 0 < (total - (start + size) + size - 1) / size :=
    Nat.div_pos (by omega) hsize
  rw [hstep, Nat.add_div_right _ hsize]
  omega

private theorem counts_of_served {page : ListPage} (hlength : (matched.length : Int) ≤ Int64.maxValue.toInt)
    (hdata : page.data.map some = ((matched.drop request.window.start).take
      request.window.size).map (project? request.fields now))
    (hcount : page.count = Int64.ofNat page.data.length)
    (htotal : page.total = Int64.ofNat matched.length) :
    page.total.toInt = matched.length ∧ page.count.toInt = page.data.length := by
  have hsize := congrArg List.length hdata
  rw [List.length_map, List.length_map, List.length_take, List.length_drop] at hsize
  constructor
  · rw [htotal, Window.toInt_ofNat_of_le hlength]
  · rw [hcount, Window.toInt_ofNat_of_le (by omega)]

private theorem WalkShows.singleton {page : ListPage} (hsize : 0 < request.window.size)
    (hend : matched.length ≤ request.window.start + request.window.size)
    (hdata : page.data.map some = ((matched.drop request.window.start).take
      request.window.size).map (project? request.fields now))
    (hcounts : page.total.toInt = matched.length ∧ page.count.toInt = page.data.length) :
    WalkShows request now matched [page] := by
  refine ⟨?_, ?_, ?_, ?_⟩
  · rw [pages_of_le hsize hend]
    rfl
  · rw [List.flatMap_singleton, hdata, List.take_of_length_le]
    rw [List.length_drop]
    omega
  · intro p hp
    exact List.mem_singleton.1 hp ▸ hcounts.1
  · intro p hp
    exact List.mem_singleton.1 hp ▸ hcounts.2

private theorem WalkShows.cons {page : ListPage} {pages : List ListPage} {window : Window}
    (hshows : WalkShows { request with window } now matched pages)
    (hsize : 0 < request.window.size)
    (hstart : window.start = request.window.start + request.window.size)
    (hroom : window.size = request.window.size) (hbelow : window.start < matched.length)
    (hdata : page.data.map some = ((matched.drop request.window.start).take
      request.window.size).map (project? request.fields now))
    (hcounts : page.total.toInt = matched.length ∧ page.count.toInt = page.data.length) :
    WalkShows request now matched (page :: pages) := by
  have hlength := hshows.length_eq
  have hrest := hshows.data_eq
  dsimp only at hlength hrest
  rw [hstart, hroom] at hlength
  rw [hstart] at hrest hbelow
  refine ⟨?_, ?_, ?_, ?_⟩
  · rw [List.length_cons, hlength, pages_of_lt hsize hbelow]
  · rw [List.flatMap_cons, List.map_append, hdata, hrest, ← List.map_append, ← List.drop_drop,
      List.take_append_drop]
  · exact List.forall_mem_cons.2 ⟨hcounts.1, hshows.total_eq⟩
  · exact List.forall_mem_cons.2 ⟨hcounts.2, hshows.count_eq⟩

private theorem shows_of_walk (hpath : '?' ∉ path.toList)
    (hfetch : ∀ query, query.orgId = orgId →
      fetch query state = (.ok (Memory.answer? query rows), state))
    (hlength : (matched.length : Int) ≤ Int64.maxValue.toInt) {pages : List ListPage}
    (hwalk : Walk (fun params page ↦
      serveListing fetch ⟨orgId, path, params, now⟩ state = (.ok (some page), state)) params pages)
    (hrequest : ListRequest.ofParams (Listable.resource ρ) params = .ok request)
    (hmatched : Memory.matching (request.toQuery orgId now) rows = matched) :
    (∀ row ∈ rows, (Memory.holds? (request.toQuery orgId now) row).isSome) ∧
      WalkShows request now matched pages := by
  -- On the walk: each page shows the rows of its window, and the walk after it those that follow.
  induction hwalk generalizing request with
  | @last params page hpage hnext =>
    obtain ⟨hjudged, hdata, hcount, htotal, hlinks⟩ :=
      (served_page hfetch hrequest hmatched).1 hpage
    have hsize := (ListRequest.window_valid_of_ofParams hrequest).size_pos
    have hend := (next_request hpath hrequest hlength hlinks).1.1 hnext
    exact ⟨hjudged, .singleton hsize hend hdata (counts_of_served hlength hdata hcount htotal)⟩
  | @next params params' page link pages hpage hnext htarget hrest ih =>
    obtain ⟨hjudged, hdata, hcount, htotal, hlinks⟩ :=
      (served_page hfetch hrequest hmatched).1 hpage
    have hsize := (ListRequest.window_valid_of_ofParams hrequest).size_pos
    obtain ⟨target, window, htarget', haccepted, hstart, hroom, hbelow⟩ :=
      (next_request hpath hrequest hlength hlinks).2 link hnext
    obtain rfl : target = params' := Option.some.inj (htarget'.symm.trans htarget)
    obtain ⟨-, hshows⟩ := ih haccepted hmatched
    exact ⟨hjudged, hshows.cons hsize hstart hroom hbelow hdata
      (counts_of_served hlength hdata hcount htotal)⟩

private theorem exists_walk (hpath : '?' ∉ path.toList)
    (hfetch : ∀ query, query.orgId = orgId →
      fetch query state = (.ok (Memory.answer? query rows), state))
    (hlength : (matched.length : Int) ≤ Int64.maxValue.toInt)
    (hrequest : ListRequest.ofParams (Listable.resource ρ) params = .ok request)
    (hmatched : Memory.matching (request.toQuery orgId now) rows = matched)
    (hjudged : ∀ row ∈ rows, (Memory.holds? (request.toQuery orgId now) row).isSome)
    (hshown : ∀ row ∈ matched.drop request.window.start,
      (project? request.fields now row).isSome) :
    ∃ pages, Walk (fun params page ↦
      serveListing fetch ⟨orgId, path, params, now⟩ state = (.ok (some page), state))
      params pages := by
  -- On the number of rows that are left: a page that does not reach the last one leaves fewer.
  induction hleft : matched.length - request.window.start using Nat.strongRecOn
    generalizing request params with
  | ind left ih =>
    obtain ⟨data, hdata⟩ := Checked.exists_map_eq_map_some fun row hrow ↦
      hshown row (List.mem_of_mem_take (i := request.window.size) hrow)
    let page : ListPage := ⟨data, Int64.ofNat data.length, Int64.ofNat matched.length,
      .of path params request.window (Int64.ofNat matched.length)⟩
    have hpage : serveListing fetch ⟨orgId, path, params, now⟩ state = (.ok (some page), state) :=
      (served_page hfetch hrequest hmatched).2 ⟨hjudged, hdata.symm, rfl, rfl, rfl⟩
    obtain ⟨-, hfollow⟩ := next_request hpath hrequest hlength
      (show page.links = .of path params request.window (Int64.ofNat matched.length) from rfl)
    cases hnext : page.links.next with
    | none => exact ⟨[page], .last hpage hnext⟩
    | some link =>
      obtain ⟨params', window, htarget, haccepted, hstart, hroom, hbelow⟩ := hfollow link hnext
      have hsize := (ListRequest.window_valid_of_ofParams hrequest).size_pos
      have hrest : ∀ row ∈ matched.drop window.start, (project? request.fields now row).isSome := by
        intro row hrow
        rw [hstart, ← List.drop_drop] at hrow
        exact hshown row (List.mem_of_mem_drop hrow)
      have hless : matched.length - window.start < left := by omega
      obtain ⟨pages, hpages⟩ := ih _ hless haccepted hmatched hjudged hrest rfl
      exact ⟨page :: pages, .next hpage hnext htarget hpages⟩

private theorem walkCompletes_of_fetch (hpath : '?' ∉ path.toList)
    (hfetch : ∀ query, query.orgId = orgId →
      fetch query state = (.ok (Memory.answer? query rows), state))
    (hlength : (rows.length : Int) ≤ Int64.maxValue.toInt)
    (hrequest : ListRequest.ofParams (Listable.resource ρ) params = .ok request)
    [LawfulSortKeys κ ρ] [LawfulFields ρ φ κ] :
    WalkCompletes (fun params page ↦
      serveListing fetch ⟨orgId, path, params, now⟩ state = (.ok (some page), state))
      params request orgId now rows := by
  have hmatched : ((Memory.matching (request.toQuery orgId now) rows).length : Int) ≤
      Int64.maxValue.toInt := by
    have hperm := Memory.matching_perm (request.toQuery orgId now) rows
    have hfilter := List.length_filter_le
      (fun row ↦ decide (Memory.holds? (request.toQuery orgId now) row = some true)) rows
    rw [hperm.length_eq]
    omega
  have hdecided (row : ρ) : (Memory.holds? (request.toQuery orgId now) row).isSome ↔
      ¬request.filter.Undecided (Listable.run row) (Listable.host? row) now :=
    Filter.holds?_isSome_iff
  refine ⟨Memory.matching_perm _ rows,
    Memory.pairwise_matching (request.toQuery orgId now) rows, ⟨?_, ?_⟩, ?_⟩
  · rintro ⟨pages, hwalk⟩
    obtain ⟨hjudged, hshows⟩ := shows_of_walk hpath hfetch hmatched hwalk hrequest rfl
    refine ⟨fun row hrow ↦ (hdecided row).1 (hjudged row hrow), fun hstatus row hrow ↦ ?_⟩
    have hshown := Checked.isSome_of_map_eq_map_some hshows.data_eq.symm hrow
    exact project?_isSome_iff.1 hshown hstatus
  · rintro ⟨hjudged, hshown⟩
    exact exists_walk hpath hfetch hmatched hrequest rfl
      (fun row hrow ↦ (hdecided row).2 (hjudged row hrow))
      fun row hrow ↦ project?_isSome_iff.2 fun hstatus ↦ hshown hstatus row hrow
  · intro pages hwalk
    exact (shows_of_walk hpath hfetch hmatched hwalk hrequest rfl).2

end Paging

/-- Whether a store holds no more runs and hosts than a vector can. -/
def Memory.Bounded (m : Memory) : Prop :=
  (m.runs.length : Int) ≤ Int64.maxValue.toInt ∧ (m.hosts.length : Int) ≤ Int64.maxValue.toInt

/-- Walking the listing of runs or of hosts over a store in memory shows every matching row of the
tenant from the requested offset on, once and in order. -/
theorem walkCompletes_memory (m : Memory) (hbounded : m.Bounded) (orgId path raw : String)
    (now : Instant) (hpath : '?' ∉ path.toList) :
    (∀ request, ListRequest.ofParams .run (Params.ofText raw) = .ok request →
      WalkCompletes (fun params page ↦
        Memory.store.runsPage ⟨orgId, path, params, now⟩ m = (.ok (some page), m))
        (Params.ofText raw) request orgId now (m.runsOf orgId)) ∧
    ∀ request, ListRequest.ofParams .runHost (Params.ofText raw) = .ok request →
      WalkCompletes (fun params page ↦
        Memory.store.hostsPage ⟨orgId, path, params, now⟩ m = (.ok (some page), m))
        (Params.ofText raw) request orgId now (m.hostsOf orgId) := by
  have hruns : ((m.runsOf orgId).length : Int) ≤ Int64.maxValue.toInt :=
    Int.le_trans (Int.ofNat_le.2 (List.length_filter_le _ _)) hbounded.1
  have hhosts : ((m.hostsOf orgId).length : Int) ≤ Int64.maxValue.toInt :=
    Int.le_trans (Int.ofNat_le.2 (List.length_filterMap_le _ _)) hbounded.2
  constructor
  · intro request hrequest
    apply walkCompletes_of_fetch hpath _ hruns hrequest
    rintro query rfl
    rfl
  · intro request hrequest
    apply walkCompletes_of_fetch hpath _ hhosts hrequest
    rintro query rfl
    rfl

private def allRuns (limit : Int64) : ListRequest RunField RunSortKey :=
  ⟨FieldSet.defaults, ⟨[]⟩, SortOrder.initial, ⟨limit, 0⟩⟩

private def twoRuns : Memory := ⟨[minuteRun 3 ⟨0, 0⟩, minuteRun 4 ⟨50, 0⟩], []⟩

/-- Two runs at one run a page are walked in two pages. -/
theorem exists_walk_of_two_pages :
    ∃ pages, Walk (fun params page ↦
      Memory.store.runsPage ⟨"org", "/runs", params, ⟨100, 0⟩⟩ twoRuns = (.ok (some page), twoRuns))
      (Params.ofText "limit=1") pages ∧ pages.length = 2 := by
  have hparams : Params.ofText "limit=1" = [("limit", "1")] := by decide +kernel
  have hrequest : ListRequest.ofParams .run (Params.ofText "limit=1") = .ok (allRuns 1) := by
    rw [hparams, ListRequest.ofParams_eq_ok_iff]
    exact ⟨by decide +kernel, rfl, rfl, rfl, rfl⟩
  have hcompletes := (walkCompletes_memory twoRuns (by unfold Memory.Bounded; decide) "org" "/runs"
    "limit=1" ⟨100, 0⟩ (by decide)).1 _ hrequest
  have hrows : ∀ run ∈ twoRuns.runsOf "org", ¬Listable.LacksDeadline run := by
    unfold Listable.LacksDeadline
    decide +kernel
  have hdecided : ∀ run ∈ twoRuns.runsOf "org",
      ¬(allRuns 1).filter.Undecided (Listable.run run) (Listable.host? run) ⟨100, 0⟩ :=
    fun _ _ ↦ Filter.holds?_isSome_iff.1 rfl
  obtain ⟨pages, hwalk⟩ := hcompletes.exists_iff.2 ⟨hdecided, fun _ row hrow ↦
    hrows row (List.mem_of_mem_filter (hcompletes.matching_perm.subset (List.mem_of_mem_drop hrow)))⟩
  have hlength := (hcompletes.shows pages hwalk).length_eq
  rw [hcompletes.matching_perm.length_eq] at hlength
  exact ⟨pages, hwalk, hlength.trans (by decide +kernel)⟩

private def endingStore : Memory := ⟨[minuteRun 3 lastMinute], []⟩

/-- A run that was created in the last minute of the calendar, and would time out after it, keeps
the listing of its tenant from being walked. -/
theorem not_exists_walk_of_lastMinute :
    endingStore.Bounded ∧
    (∃ request : ListRequest RunField RunSortKey,
      ListRequest.ofParams .run (Params.ofText "") = .ok request) ∧
    ¬∃ pages, Walk (fun params page ↦
      Memory.store.runsPage ⟨"org", "/runs", params, ⟨0, 0⟩⟩ endingStore =
        (.ok (some page), endingStore)) (Params.ofText "") pages := by
  have hrequest : ListRequest.ofParams .run (Params.ofText "") = .ok (allRuns 50) := rfl
  refine ⟨by unfold Memory.Bounded; decide, ⟨_, hrequest⟩, ?_⟩
  rintro ⟨pages, hwalk⟩
  have hmatched : Memory.matching ((allRuns 50).toQuery "org" ⟨0, 0⟩) (endingStore.runsOf "org") =
      [minuteRun 3 lastMinute] := List.mergeSort_singleton _
  have hshows := (shows_of_walk (by decide) (fun _ h ↦ by rw [← h]; rfl)
    (by decide) hwalk hrequest hmatched).2
  have hshown := Checked.isSome_of_map_eq_map_some hshows.data_eq.symm List.mem_cons_self
  exact absurd hshown (by decide +kernel)

end PlaybookRuns
