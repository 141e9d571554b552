import PlaybookRuns.Proofs.Http.Reachable
import PlaybookRuns.Proofs.Listing.Walk

/-!
# Created runs in listings

Whether a tenant finds a run that was created for it. A batch names the tenant as it stands there,
while a listing takes the tenant from a header, where only printable text counts and white space
around it is dropped. Main statement: a created run is found by its identifier exactly where the name
of its tenant comes through a header unchanged.
-/

namespace PlaybookRuns.Http

open PlaybookRuns.Query PlaybookRuns.Time

/-- Whether a text comes through a header unchanged: it is printable, and has no white space around
it. -/
def PassesHeader (s : String) : Prop := s.toList.all isHeaderChar ∧ Text.trim s = s

/-- Whether a request asks for a listing of runs with given parameters, and names a tenant. -/
structure Request.AsksRuns (request : Request) (orgId : String) (params : Params) : Prop where
  method_eq : request.method = "GET"
  path_eq : (splitTarget request.target).1 = runsPath
  orgId_eq : (request.headers.find? fun h ↦ h.1.toLower = orgIdHeader).map (·.2) = some orgId
  params_eq : Params.ofText (splitTarget request.target).2 = params

/-- Whether an answer is a page that shows one object, and reports that there is no other. -/
def ShowsOnly (answer : Option Response) (object : JsonObject) : Prop :=
  ∃ page : ListPage, answer = some ⟨200, .json page.toJson⟩ ∧ page.data = [object] ∧
    page.count = 1 ∧ page.total = 1

/-! ## The tenant of a request -/

/-- The text of a header is what it holds without white space around it, if that is printable and
not blank. -/
theorem trimmedHeader?_eq_some_iff {headers : List Header} {name value trimmed : String}
    (h : (headers.find? fun h ↦ h.1.toLower = name).map (·.2) = some value) :
    trimmedHeader? headers name = some trimmed ↔
      value.toList.all isHeaderChar ∧ Text.trim value = trimmed ∧ trimmed ≠ "" := by
  rw [trimmedHeader?, header?, h]
  simp only [Option.filter_eq_some_iff, Option.map_eq_some_iff, Option.some.injEq,
    decide_eq_true_eq]
  constructor
  · rintro ⟨⟨_, ⟨rfl, hprintable⟩, rfl⟩, hne⟩
    exact ⟨hprintable, rfl, hne⟩
  · rintro ⟨hprintable, rfl, hne⟩
    exact ⟨⟨value, ⟨rfl, hprintable⟩, rfl⟩, hne⟩

/-- A request names a tenant exactly where its header does. -/
theorem orgIdOf_eq_ok_iff {headers : List Header} {orgId : String} :
    orgIdOf headers = .ok orgId ↔ trimmedHeader? headers orgIdHeader = some orgId := by
  rw [orgIdOf]
  cases trimmedHeader? headers orgIdHeader <;> simp

/-! ## Requests for one run -/

private def requestOf (fields : List RunField) (id : Uuid) : ListRequest RunField RunSortKey :=
  ⟨fields, ⟨[.anyOf .runId [.uuid id]]⟩, SortOrder.initial, ⟨Window.defaultLimit, 0⟩⟩

private theorem filterOfTree_id (id : Uuid) :
    Filter.ofTree [("id", .leaf [id.toText])] .run = .ok ⟨[.anyOf .runId [.uuid id]]⟩ := by
  have hvalues : [id.toText].mapM (operand .runId "id") = .ok [.uuid id] := by
    rw [Checked.mapM_eq_ok_iff, List.map_singleton, operand, Uuid.ofText?_toText]
    rfl
  have hslot : slotPredicates "id" (.leaf [id.toText]) (.column .runId) =
      .ok [.anyOf .runId [.uuid id]] := by
    rw [slotPredicates, Node.values, Checked.bind_eq_ok_iff]
    refine ⟨[id.toText], rfl, ?_⟩
    rw [hvalues]
    rfl
  have hflat : flatPredicates .run none [("id", .leaf [id.toText])] =
      .ok [.anyOf .runId [.uuid id]] := by
    rw [flatPredicates, Checked.bind_eq_ok_iff]
    refine ⟨[[.anyOf .runId [.uuid id]]], ?_, rfl⟩
    rw [Checked.mapM_eq_ok_iff]
    exact congrArg (fun x ↦ [x]) hslot
  rw [Filter.ofTree, hflat]
  rfl

private theorem objectsOf (id fields : String) :
    DeepObject.ofParams [("filter[id]", id)] "filter" = ⟨[("id", .leaf [id])], []⟩ ∧
    DeepObject.ofParams [("filter[id]", id)] "fields" = ⟨[], []⟩ ∧
    DeepObject.ofParams [("filter[id]", id), ("fields[data]", fields)] "filter" =
      ⟨[("id", .leaf [id])], []⟩ ∧
    DeepObject.ofParams [("filter[id]", id), ("fields[data]", fields)] "fields" =
      ⟨[("data", .leaf [fields])], []⟩ := by
  have hfilter : suffix? "filter" "filter[id]" = some "[id]".toList := by decide
  have hnoFilter : suffix? "filter" "fields[data]" = none := by decide
  have hfields : suffix? "fields" "fields[data]" = some "[data]".toList := by decide
  have hnoFields : suffix? "fields" "filter[id]" = none := by decide
  have hid : path? "[id]".toList = some ["id"] := by decide
  have hdata : path? "[data]".toList = some ["data"] := by decide
  simp only [DeepObject.ofParams, List.foldl_cons, List.foldl_nil, DeepObject.add, hfilter,
    hnoFilter, hfields, hnoFields, hid, hdata]
  exact ⟨rfl, rfl, rfl, rfl⟩

private theorem ofParams_id (id : Uuid) :
    ListRequest.ofParams .run [("filter[id]", id.toText)] =
      .ok (requestOf FieldSet.defaults id) := by
  obtain ⟨hfilter, hfields, -⟩ := objectsOf id.toText ""
  rw [ListRequest.ofParams_eq_ok_iff, hfilter, hfields]
  exact ⟨⟨rfl, rfl⟩, rfl, filterOfTree_id id, rfl, rfl⟩

private theorem ofParams_id_fields (id : Uuid) :
    ListRequest.ofParams .run [("filter[id]", id.toText),
        ("fields[data]", "id,service,timeout,url,labels,recipient")] =
      .ok (requestOf [.id, .service, .timeout, .url, .labels, .recipient] id) := by
  obtain ⟨-, -, hfilter, hfields⟩ :=
    objectsOf id.toText "id,service,timeout,url,labels,recipient"
  have hselected : fieldsOfTree [("data", .leaf ["id,service,timeout,url,labels,recipient"])] =
      .ok [RunField.id, .service, .timeout, .url, .labels, .recipient] := by decide +kernel
  rw [ListRequest.ofParams_eq_ok_iff, hfilter, hfields]
  exact ⟨⟨rfl, rfl⟩, hselected, filterOfTree_id id, rfl, rfl⟩

/-! ## Listing one run -/

section Listing

variable {m : Memory} {run : Run} {before after : List Run}

private theorem holds?_requestOf (fields : List RunField) (id : Uuid) (tenant : String)
    (now : Instant) (other : Run) :
    Memory.holds? ((requestOf fields id).toQuery tenant now) other =
      some (decide (other.id = id)) := by
  have hpredicate : Predicate.holds? (.anyOf .runId [.uuid id]) other none now =
      some (decide (other.id = id)) := by
    simp [Predicate.holds?, Column.value?]
  change List.allM (Predicate.holds? · other none now) [.anyOf .runId [.uuid id]] = _
  rw [List.allM, hpredicate]
  cases decide (other.id = id) <;> rfl

private theorem matching_requestOf (hruns : m.runs = before ++ run :: after)
    (hunique : ∀ other ∈ before ++ after, other.id ≠ run.id) (fields : List RunField)
    (tenant : String) (now : Instant) :
    Memory.matching ((requestOf fields run.id).toQuery tenant now) (m.runsOf tenant) =
      if run.orgId = tenant then [run] else [] := by
  have hnone (others : List Run) (hothers : ∀ other ∈ others, other.id ≠ run.id) :
      others.filter (·.id = run.id) = [] := by
    rw [List.filter_eq_nil_iff]
    intro other hother
    simpa using hothers other hother
  have hself : m.runs.filter (·.id = run.id) = [run] := by
    rw [hruns, List.filter_append, List.filter_cons_of_pos (by simp),
      hnone before fun other hother ↦ hunique other (List.mem_append_left _ hother),
      hnone after fun other hother ↦ hunique other (List.mem_append_right _ hother)]
    rfl
  have hfilter : ((m.runsOf tenant).filter fun other ↦
      Memory.holds? ((requestOf fields run.id).toQuery tenant now) other = some true) =
      if run.orgId = tenant then [run] else [] := by
    have hcomm : ((m.runsOf tenant).filter fun other ↦
        Memory.holds? ((requestOf fields run.id).toQuery tenant now) other = some true) =
        (m.runs.filter (·.id = run.id)).filter (·.orgId = tenant) := by
      simp only [holds?_requestOf, Memory.runsOf, List.filter_filter, Option.some.injEq,
        decide_eq_true_eq, Bool.and_comm]
    rw [hcomm, hself, List.filter_singleton]
    simp
  rw [Memory.matching, hfilter]
  split
  · exact List.mergeSort_singleton _
  · exact List.mergeSort_nil

private theorem runsPage_requestOf_iff (hruns : m.runs = before ++ run :: after)
    (hunique : ∀ other ∈ before ++ after, other.id ≠ run.id) {params : Params}
    {fields : List RunField}
    (hparams : ListRequest.ofParams .run params = .ok (requestOf fields run.id))
    (tenant path : String) (now : Instant) (object : JsonObject) :
    (∃ page, Memory.store.runsPage ⟨tenant, path, params, now⟩ m = (.ok (some page), m) ∧
      page.data = [object] ∧ page.count = 1 ∧ page.total = 1) ↔
      run.orgId = tenant ∧ project? fields now run = some object := by
  have hmatching : Memory.matching ((requestOf fields run.id).toQuery tenant now)
      (m.runsOf ((requestOf fields run.id).toQuery tenant now).orgId) =
      if run.orgId = tenant then [run] else [] := matching_requestOf hruns hunique fields tenant now
  have hserved (page : ListPage) :
      Memory.store.runsPage ⟨tenant, path, params, now⟩ m = (.ok (some page), m) ↔
        ListPage.of? ⟨tenant, path, params, now⟩ (requestOf fields run.id)
          ⟨(requestOf fields run.id).window.slice (if run.orgId = tenant then [run] else []),
            Int64.ofNat (if run.orgId = tenant then [run] else []).length⟩ = some page := by
    rw [← hmatching]
    refine (serveListing_eq_iff hparams rfl).trans (and_iff_right fun row _ ↦ ?_)
    rw [holds?_requestOf]
    rfl
  simp only [hserved, ListPage.of?_eq_some_iff]
  by_cases htenant : run.orgId = tenant
  · have hslice : (requestOf fields run.id).window.slice [run] = [run] := rfl
    simp only [htenant, if_true, true_and, hslice, List.map_singleton]
    constructor
    · rintro ⟨page, ⟨hdata, -⟩, hobject, -⟩
      rw [hobject] at hdata
      exact (List.cons.inj hdata).1
    · intro hobject
      refine ⟨⟨[object], 1, 1, _⟩, ⟨?_, rfl, rfl, rfl⟩, rfl, rfl, rfl⟩
      exact congrArg (fun x ↦ [x]) hobject
  · simp only [htenant, if_false, false_and, iff_false]
    rintro ⟨page, ⟨hdata, -⟩, hobject, -⟩
    rw [hobject] at hdata
    cases hdata

end Listing

private theorem page_eq_of_toJson {page page' : ListPage} (h : page.toJson = page'.toJson) :
    page.data = page'.data ∧ page.count = page'.count ∧ page.total = page'.total := by
  have hmembers (page : ListPage) :
      page.toJson.member? "data" = some (.array (page.data.map .object)) ∧
        page.toJson.member? "meta" = some (.object
          [("count", .integer page.count.toInt), ("total", .integer page.total.toInt)]) :=
    ⟨rfl, rfl⟩
  obtain ⟨hdata, hmeta⟩ := hmembers page
  obtain ⟨hdata', hmeta'⟩ := hmembers page'
  rw [h, hdata'] at hdata
  rw [h, hmeta'] at hmeta
  refine ⟨?_, ?_, ?_⟩
  · have hobjects := Json.array.inj (Option.some.inj hdata)
    exact (List.map_injective_iff.2 (fun _ _ ↦ Json.object.inj) hobjects).symm
  · simp only [Option.some.injEq, Json.object.injEq, List.cons.injEq, Prod.mk.injEq,
      Json.integer.injEq, true_and, and_true, Int64.toInt_inj] at hmeta
    exact hmeta.1.symm
  · simp only [Option.some.injEq, Json.object.injEq, List.cons.injEq, Prod.mk.injEq,
      Json.integer.injEq, true_and, and_true, Int64.toInt_inj] at hmeta
    exact hmeta.2.symm

variable {κ : Type} {around : Surroundings Memory κ} {config : Config} {server : Server Memory κ}

private theorem handle_of_asks (around : Surroundings Memory κ) (config : Config) (now : Instant)
    {get : Request} {orgId : String} {params : Params} (hget : get.AsksRuns orgId params)
    (server : Server Memory κ) :
    server.handle around config now get =
      server.list around.store.runsPage runsPath (splitTarget get.target).2 now get.headers := by
  have hroute : Route.ofPath? runsPath = some .runs := by decide
  have hpath := hget.path_eq
  rcases htarget : splitTarget get.target with ⟨path, query⟩
  rw [htarget] at hpath
  obtain rfl : path = runsPath := hpath
  unfold Server.handle
  rw [htarget]
  dsimp only
  rw [hroute, hget.method_eq]
  rfl

private theorem not_showsOnly_response (e : ApiError) (object : JsonObject) :
    ¬ShowsOnly (some e.response) object := by
  rintro ⟨page, hanswer, -⟩
  have hbody : e.body = page.toJson :=
    Body.json.inj (congrArg Response.body (Option.some.inj hanswer))
  have hdata : none = page.toJson.member? "data" := congrArg (Json.member? "data") hbody
  cases hdata

private theorem showsOnly_iff (hstore : around.store = Memory.store) (config : Config)
    (now : Instant) {get : Request} {orgId : String} {params : Params}
    (hget : get.AsksRuns orgId params) (server : Server Memory κ) (object : JsonObject) :
    ShowsOnly (server.handle around config now get).1 object ↔
      ∃ tenant, orgIdOf get.headers = .ok tenant ∧ ∃ page,
        Memory.store.runsPage ⟨tenant, runsPath, params, now⟩ server.store =
          (.ok (some page), server.store) ∧
        page.data = [object] ∧ page.count = 1 ∧ page.total = 1 := by
  rw [handle_of_asks around config now hget, hstore, Server.list, hget.params_eq]
  cases orgIdOf get.headers with
  | error e =>
    refine iff_of_false (not_showsOnly_response e object) ?_
    rintro ⟨_, horgId, -⟩
    cases horgId
  | ok tenant =>
    have hkept : (Memory.store.runsPage ⟨tenant, runsPath, params, now⟩ server.store).2 =
        server.store := serveListing_snd (fun _ ↦ rfl) _
    simp only [Except.ok.injEq, exists_eq_left']
    rcases hserved : Memory.store.runsPage ⟨tenant, runsPath, params, now⟩ server.store with
      ⟨answer, kept⟩
    rw [hserved] at hkept
    obtain rfl : kept = server.store := hkept
    cases answer with
    | error e =>
      refine iff_of_false (not_showsOnly_response (.ofListing e) object) ?_
      rintro ⟨page, hpage, -⟩
      cases congrArg Prod.fst hpage
    | ok page? =>
      constructor
      · rintro ⟨page, hanswer, hdata, hcount, htotal⟩
        obtain ⟨page', rfl, hresponse⟩ := Option.map_eq_some_iff.1 hanswer
        obtain ⟨hdata', hcount', htotal'⟩ :=
          page_eq_of_toJson (Body.json.inj (congrArg Response.body hresponse))
        exact ⟨page', rfl, hdata'.trans hdata, hcount'.trans hcount, htotal'.trans htotal⟩
      · rintro ⟨page, hpage, hdata, hcount, htotal⟩
        obtain rfl : page? = some page := Except.ok.inj (congrArg Prod.fst hpage)
        exact ⟨page, rfl, hdata, hcount, htotal⟩

/-! ## Created runs -/

private theorem showsOnly_run_iff (hstore : around.store = Memory.store) (config : Config)
    {server : Server Memory κ} {run : Run} {before after : List Run}
    (hruns : server.store.runs = before ++ run :: after)
    (hunique : ∀ other ∈ before ++ after, other.id ≠ run.id) (hblank : run.orgId ≠ "")
    {params : Params} {fields : List RunField}
    (hparams : ListRequest.ofParams .run params = .ok (requestOf fields run.id)) (now : Instant)
    {get : Request} (hget : get.AsksRuns run.orgId params) (object : JsonObject) :
    ShowsOnly (server.handle around config now get).1 object ↔
      PassesHeader run.orgId ∧ project? fields now run = some object := by
  simp only [showsOnly_iff hstore config now hget, runsPage_requestOf_iff hruns hunique hparams,
    orgIdOf_eq_ok_iff, trimmedHeader?_eq_some_iff hget.orgId_eq, PassesHeader]
  constructor
  · rintro ⟨tenant, ⟨hprintable, htrim, -⟩, rfl, hobject⟩
    exact ⟨⟨hprintable, htrim⟩, hobject⟩
  · rintro ⟨⟨hprintable, htrim⟩, hobject⟩
    exact ⟨run.orgId, ⟨hprintable, htrim, hblank⟩, rfl, hobject⟩

/-- What is shown of a run where its identifier, service, timeout, address, labels and recipient are
selected. -/
def shownSelection (id : Uuid) (service : String) (timeout : Int32) (item : RunRequest) :
    JsonObject :=
  Keyed.ofList [("id", id.toJson), ("service", .string service),
    ("timeout", .integer timeout.toInt), ("url", .string item.url),
    ("labels", item.labels.toJson), ("recipient", item.recipient.toJson)]

private theorem exists_project?_defaults_iff {run : Run} (hstatus : run.status = .running)
    (now : Instant) :
    (∃ object, project? FieldSet.defaults now run = some object) ↔
      (DisplayedStatus.deadline? run.createdAt run.timeout).isSome := by
  have hselected : ∃ field ∈ (FieldSet.defaults : List RunField), FieldSet.name field = "status" :=
    ⟨.status, by decide, rfl⟩
  have hlacks : Listable.LacksDeadline run ↔
      DisplayedStatus.deadline? run.createdAt run.timeout = none :=
    and_iff_right hstatus
  rw [← Option.isSome_iff_exists, project?_isSome_iff, hlacks, Option.isSome_iff_ne_none]
  exact ⟨fun h ↦ h hselected, fun h _ ↦ h⟩

/-- Every run that a dispatch reports as created is found by its identifier afterwards, for its
tenant and with what was asked for, exactly where the tenant's name comes through a header unchanged.
Where its status is to be shown it needs a deadline besides. -/
theorem created_listed_iff (hstore : around.store = Memory.store) {config : Config} {seed : Memory}
    {taken : κ} {server later : Server Memory κ} {now : Instant} {post : Request}
    {items : List Json} (hreach : Server.Reaches around config (.start config seed taken) server)
    (hmethod : post.method = "POST") (hpath : (splitTarget post.target).1 = dispatchPath)
    (hanswer : (server.handle around config now post).1 = some ⟨207, .json (.array items)⟩)
    (hlater : Server.Reaches around config (server.handle around config now post).2 later)
    (hunused : ∀ run ∈ seed.runs, ∀ n < later.sent.length, run.id ≠ around.runId n)
    (hfresh : ∀ m n, m < n → n < later.sent.length → around.runId m ≠ around.runId n) :
    ∃ requests service, readBatch post = .ok requests ∧ serviceOf post.headers = .ok service ∧
      ∀ (i : Nat) (item : RunRequest) (id : Uuid), requests[i]? = some item →
        items[i]? = some (ItemResult.created id).toJson →
        ∃ place, around.runId place = id ∧ server.sent.length ≤ place ∧
          place < (server.handle around config now post).2.sent.length ∧
          ∀ (moment : Instant) (get : Request),
          (get.AsksRuns item.orgId [("filter[id]", id.toText)] →
            ((∃ object, ShowsOnly (later.handle around config moment get).1 object) ↔
              PassesHeader item.orgId ∧
                (DisplayedStatus.deadline? (around.createdAt place)
                  (item.timeout.getD config.defaultRunTimeout)).isSome)) ∧
          (get.AsksRuns item.orgId [("filter[id]", id.toText),
              ("fields[data]", "id,service,timeout,url,labels,recipient")] →
            (ShowsOnly (later.handle around config moment get).1
                (shownSelection id service (item.timeout.getD config.defaultRunTimeout) item) ↔
              PassesHeader item.orgId)) := by
  obtain ⟨requests, service, hbatch, hservice, hcreated⟩ :=
    Server.adds_of_handle hstore hmethod hpath hanswer
  refine ⟨requests, service, hbatch, hservice, fun i item id hitem hresult ↦ ?_⟩
  obtain ⟨place, run, hmade, rfl, hadds⟩ := hcreated i item id hitem hresult
  obtain ⟨before, after, hruns, hunique⟩ :=
    ((hadds.of_grows (hreach.grows hstore)).grows (hlater.grows hstore)).exists_only hmade.id_eq
      hunused hfresh
  obtain ⟨message, correlationId, ⟨targets, hvalid⟩, hid, rfl⟩ := hmade
  obtain ⟨-, hblank, -, htimeout, -⟩ := RunRequest.validate_eq_ok_iff.1 hvalid
  have hne : item.orgId ≠ "" := by
    rintro hempty
    rw [hempty] at hblank
    exact hblank rfl
  refine ⟨place, hid.symm, hadds.le_place, hadds.place_lt,
    fun moment get ↦ ⟨fun hget ↦ ?_, fun hget ↦ ?_⟩⟩
  · rw [htimeout]
    simp only [showsOnly_run_iff hstore config hruns hunique hne (ofParams_id _) moment hget]
    rw [exists_and_left, exists_project?_defaults_iff rfl]
    rfl
  · rw [showsOnly_run_iff hstore config hruns hunique hne (ofParams_id_fields _) moment hget,
      htimeout]
    exact and_iff_left rfl

private def itemFor (orgId : String) : RunRequest where
  recipient := ⟨1⟩
  orgId
  url := "https://example.com/playbook"
  timeout := none
  labels := ∅
  hosts := []
  name := none
  webConsoleUrl := none
  satelliteId := none
  satelliteOrgId := none

private def postFor (orgId : String) : Request where
  method := "POST"
  target := "/internal/dispatch"
  headers := [("content-type", "application/json"), ("x-dispatcher-service", "remediations")]
  body := "[[\"00000000-0000-0000-0000-000000000001\",\"" ++ orgId ++
    "\",\"https://example.com/playbook\"]]"

private def getFor (orgId : String) : Request where
  method := "GET"
  target := "/api/playbook-dispatcher/v1/runs?filter%5Bid%5D=00000000-0000-0000-0000-000000000000"
  headers := [("x-org-id", orgId)]
  body := ""

private def idleServer : Server Memory Unit := .start .initial ∅ ()

private theorem handle_postFor {orgId : String}
    (hbatch : readBatch (postFor orgId) = .ok [itemFor orgId])
    (hserved : (DispatchState.dispatch .counting Config.initial.dispatchSettings "remediations"
      [itemFor orgId] idleServer).1 = .ok [.created (.ofNat 0)]) (now : Instant) :
    ∃ after, (DispatchState.dispatch .counting Config.initial.dispatchSettings "remediations"
        [itemFor orgId] idleServer).2 = after ∧
      idleServer.handle .counting .initial now (postFor orgId) =
        (some ⟨207, .json (.array [(ItemResult.created (.ofNat 0)).toJson])⟩, after) := by
  have hservice : serviceOf (postFor orgId).headers = .ok "remediations" := by
    dsimp only [postFor]
    decide +kernel
  have hpath : (splitTarget (postFor orgId).target).1 = dispatchPath := by
    dsimp only [postFor]
    decide +kernel
  rcases hanswer : DispatchState.dispatch .counting Config.initial.dispatchSettings "remediations"
    [itemFor orgId] idleServer with ⟨answer, after⟩
  rw [hanswer] at hserved
  obtain rfl : answer = .ok [.created (.ofNat 0)] := hserved
  refine ⟨after, rfl, ?_⟩
  rw [Server.handle_of_dispatchPath .counting .initial now idleServer rfl hpath,
    Server.dispatch_of_served hbatch hservice hanswer]
  rfl

/-- The run of a tenant whose name comes through a header is found. -/
theorem created_listed_of_digits :
    ∃ object, ShowsOnly
      ((idleServer.handle .counting .initial ⟨0, 0⟩ (postFor "5318290")).2.handle .counting .initial
        ⟨100, 0⟩ (getFor "5318290")).1 object := by
  have hbatch : readBatch (postFor "5318290") = .ok [itemFor "5318290"] := by decide +kernel
  have hserved : (DispatchState.dispatch .counting Config.initial.dispatchSettings "remediations"
      [itemFor "5318290"] idleServer).1 = .ok [.created (.ofNat 0)] := by decide +kernel
  have hsent : (DispatchState.dispatch .counting Config.initial.dispatchSettings "remediations"
      [itemFor "5318290"] idleServer).2.sent.length = 1 := by decide +kernel
  obtain ⟨after, hafter, hpost⟩ := handle_postFor hbatch hserved ⟨0, 0⟩
  rw [hafter] at hsent
  have hreach : Server.Reaches .counting .initial (.start .initial ∅ ()) idleServer := .refl _
  have hget : (getFor "5318290").AsksRuns "5318290" [("filter[id]", (Uuid.ofNat 0).toText)] :=
    ⟨by decide +kernel, by decide +kernel, by decide +kernel, by decide +kernel⟩
  have hfresh : ∀ m n, m < n → n < after.sent.length →
      Surroundings.counting.runId m ≠ Surroundings.counting.runId n := by
    intro m n hlt hn
    omega
  have hdeadline : (DisplayedStatus.deadline? ⟨0, 0⟩ 3600).isSome := by decide +kernel
  obtain ⟨requests, service, hrequests, -, hlisted⟩ := created_listed_iff rfl hreach rfl
    (by decide +kernel) (congrArg Prod.fst hpost) (.refl _) nofun (by rw [hpost]; exact hfresh)
  obtain rfl : [itemFor "5318290"] = requests := Except.ok.inj (hbatch.symm.trans hrequests)
  obtain ⟨place, -, -, -, hshown⟩ := hlisted 0 _ _ rfl rfl
  exact ((hshown ⟨100, 0⟩ _).1 hget).2 ⟨⟨by decide, by decide⟩, hdeadline⟩

/-- The run of a tenant whose name starts with a blank is reported as created, but not found for this
tenant. -/
theorem not_listed_of_blankFirst :
    readBatch (postFor " 5318290") = .ok [itemFor " 5318290"] ∧
      (idleServer.handle .counting .initial ⟨0, 0⟩ (postFor " 5318290")).1 =
        some ⟨207, .json (.array [(ItemResult.created (.ofNat 0)).toJson])⟩ ∧
      (getFor " 5318290").AsksRuns " 5318290" [("filter[id]", (Uuid.ofNat 0).toText)] ∧
      ¬∃ object, ShowsOnly
        ((idleServer.handle .counting .initial ⟨0, 0⟩ (postFor " 5318290")).2.handle .counting
          .initial ⟨100, 0⟩ (getFor " 5318290")).1 object := by
  have hbatch : readBatch (postFor " 5318290") = .ok [itemFor " 5318290"] := by decide +kernel
  have hserved : (DispatchState.dispatch .counting Config.initial.dispatchSettings "remediations"
      [itemFor " 5318290"] idleServer).1 = .ok [.created (.ofNat 0)] := by decide +kernel
  have hruns : (DispatchState.dispatch .counting Config.initial.dispatchSettings "remediations"
      [itemFor " 5318290"] idleServer).2.store.runs = [] ++ (itemFor " 5318290").toRun
        ⟨" 5318290", ⟨1⟩, .ofNat 0, "https://example.com/playbook", 3600, []⟩ ⟨7⟩ "remediations"
        ⟨0, 0⟩ :: [] := by decide +kernel
  obtain ⟨after, hafter, hpost⟩ := handle_postFor hbatch hserved ⟨0, 0⟩
  rw [hafter] at hruns
  have hget : (getFor " 5318290").AsksRuns " 5318290" [("filter[id]", (Uuid.ofNat 0).toText)] :=
    ⟨by decide +kernel, by decide +kernel, by decide +kernel, by decide +kernel⟩
  rw [hpost]
  refine ⟨hbatch, rfl, hget, ?_⟩
  rintro ⟨object, hshown⟩
  obtain ⟨⟨-, htrim⟩, -⟩ := (showsOnly_run_iff rfl .initial hruns nofun (by decide)
    (ofParams_id _) ⟨100, 0⟩ hget object).1 hshown
  exact absurd htrim (by decide)

end PlaybookRuns.Http
