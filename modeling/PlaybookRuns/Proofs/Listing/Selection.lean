import Mathlib.Data.List.Forall2
import PlaybookRuns.Listing.Serve
import PlaybookRuns.Proofs.Listing.Projection
import PlaybookRuns.Proofs.Query.FieldParams
import PlaybookRuns.Proofs.Query.Filter
import PlaybookRuns.Proofs.Query.Request
import PlaybookRuns.Store.Memory

/-!
# Fields selected by a request

What the objects of a page hold. Main statement: every object has a member for each field asked for
by name and no other, and holds there what is known of its row under that name, whatever else is
asked for; so requests that differ in how they ask for the same fields are answered with the same
objects.
-/

namespace PlaybookRuns

open PlaybookRuns.Query PlaybookRuns.Time

/-! ## Objects -/

section Objects

variable {φ κ ρ : Type} [FieldSet φ] [SortKeys κ ρ] [Listable ρ φ κ] [LawfulNames φ]
  {fields fields' : List φ} {now : Instant} {row : ρ} {object object' : JsonObject}

/-- A row is shown under fields that it has, and then with these as members. -/
theorem project?_eq_some_iff :
    project? fields now row = some object ↔
      (∀ field ∈ fields, (Listable.member? now row field).isSome) ∧ Keyed.Sorted object ∧
        ∀ e, e ∈ object ↔ ∃ field ∈ fields, Listable.member? now row field = some e := by
  have hmem {members : List (String × Json)}
      (hmembers : fields.map (Listable.member? now row) = members.map some) (e : String × Json) :
      e ∈ Keyed.ofList members ↔ ∃ field ∈ fields, Listable.member? now row field = some e := by
    have hfield (e : String × Json) :
        e ∈ members ↔ ∃ field ∈ fields, Listable.member? now row field = some e := by
      rw [← List.mem_map, hmembers]
      simp
    rw [Keyed.mem_ofList_iff, hfield]
    -- a field may be selected twice, but then it shows the same twice
    intro e he e' he' hkey
    obtain ⟨field, -, hvalue⟩ := (hfield e).1 he
    obtain ⟨field', -, hvalue'⟩ := (hfield e').1 he'
    obtain rfl : field = field' := LawfulNames.eq_of_name_eq
      ((Listable.member?_eq_some_iff.1 hvalue).1.trans
        (hkey.trans (Listable.member?_eq_some_iff.1 hvalue').1.symm))
    rw [Option.some.inj (hvalue.symm.trans hvalue')]
  rw [project?_eq, Option.map_eq_some_iff]
  simp only [Checked.mapM_eq_some_iff]
  constructor
  · rintro ⟨members, hmembers, rfl⟩
    exact ⟨fun field ↦ Checked.isSome_of_map_eq_map_some hmembers, Keyed.sorted_ofList members,
      hmem hmembers⟩
  · rintro ⟨hsome, hsorted, hobject⟩
    obtain ⟨members, hmembers⟩ := Checked.exists_map_eq_map_some hsome
    refine ⟨members, hmembers, (Keyed.sorted_ofList members).eq_of_mem_iff hsorted fun e ↦ ?_⟩
    rw [hmem hmembers, hobject]

/-- The names of an object are those of the fields it is shown under. -/
theorem mem_map_fst_iff_of_project? (h : project? fields now row = some object) {name : String} :
    name ∈ object.map Prod.fst ↔ name ∈ fields.map FieldSet.name := by
  obtain ⟨hsome, -, hobject⟩ := project?_eq_some_iff.1 h
  simp only [List.mem_map, hobject]
  constructor
  · rintro ⟨e, ⟨field, hfield, hmember⟩, rfl⟩
    exact ⟨field, hfield, (Listable.member?_eq_some_iff.1 hmember).1⟩
  · rintro ⟨field, hfield, rfl⟩
    obtain ⟨e, hmember⟩ := Option.isSome_iff_exists.1 (hsome field hfield)
    exact ⟨e, ⟨field, hfield, hmember⟩, (Listable.member?_eq_some_iff.1 hmember).1.symm⟩

/-- Selections of the same fields show the same. -/
theorem project?_eq_of_mem_iff (h : ∀ field, field ∈ fields ↔ field ∈ fields') :
    project? fields now row = project? fields' now row := by
  refine Option.ext fun object ↦ ?_
  rw [project?_eq_some_iff, project?_eq_some_iff]
  simp only [h]

end Objects

/-! ## What is known of rows -/

/-- What is known of a run under a name: its status is the one that is shown, and everything else
stands in the run as it is written. -/
def Run.recorded? (run : Run) (now : Instant) (name : String) : Option Json :=
  if name = "status" then (run.displayedStatus? now).map DisplayedStatus.toJson
  else run.toJson.member? name

/-- What is known of a host under a name: its status is the one that is shown, its run is shown in
part, and everything else stands in the host as it is written. -/
def HostRecord.recorded? (record : HostRecord) (now : Instant) (name : String) : Option Json :=
  if name = "status" then (record.displayedStatus? now).map DisplayedStatus.toJson
  else if name = "run" then
    some (.ofPresent (["id", "labels", "service"].map fun key ↦
      (key, record.run.toJson.member? key)))
  else record.host.toJson.member? name

/-- An object made of members with different keys holds each under its key. -/
theorem Json.member?_ofMembers {members : List (String × Json)}
    (h : (members.map Prod.fst).Nodup) (key : String) :
    (Json.ofMembers members).member? key = members.lookup key := Keyed.find?_ofList h key

/-- The fields of a run show what is recorded of it under their names. -/
theorem Run.value?_eq (field : RunField) (run : Run) (now : Instant) :
    Listable.value? field run now = run.recorded? now (FieldSet.name field) := by
  rw [recorded?, toJson, Json.member?_ofMembers (by simp)]
  cases field <;> simp [Listable.value?, FieldSet.name, List.lookup_cons]

/-- Under the name of a field other than its status, a run as it is written has what is shown of
it. -/
theorem Run.member?_toJson (run : Run) (field : RunField) (h : FieldSet.name field ≠ "status")
    (now : Instant) :
    run.toJson.member? (FieldSet.name field) = Listable.value? field run now := by
  rw [Run.value?_eq, recorded?, if_neg h]

/-- The fields of a host show what is recorded of it under their names. -/
theorem HostRecord.value?_eq (field : HostField) (record : HostRecord) (now : Instant) :
    Listable.value? field record now = record.recorded? now (FieldSet.name field) := by
  have hid : record.run.toJson.member? "id" = some record.run.id.toJson :=
    record.run.member?_toJson .id (by decide) now
  have hlabels : record.run.toJson.member? "labels" = some record.run.labels.toJson :=
    record.run.member?_toJson .labels (by decide) now
  have hservice : record.run.toJson.member? "service" = some (.string record.run.service) :=
    record.run.member?_toJson .service (by decide) now
  rw [recorded?, Host.toJson, Json.member?_ofMembers (by simp)]
  cases field <;>
    simp [Listable.value?, FieldSet.name, List.lookup_cons, Json.ofPresent, hid, hlabels, hservice]

/-! ## Pages -/

/-- Whether an object shows what is known under the names asked for, and nothing else. -/
structure Shows (recorded? : String → Option Json) (asked : String → Prop) (object : JsonObject) :
    Prop where
  sorted : Keyed.Sorted object
  names : ∀ name, name ∈ object.map Prod.fst ↔ asked name
  values : ∀ name value, (name, value) ∈ object → recorded? name = some value

/-- The objects of the page in an answer, if there is one. -/
def dataOf (answer : Except ListingError (Option ListPage)) :
    Except ListingError (Option (List JsonObject)) := answer.map (·.map (·.data))

/-- How fields are selected by name where `recorded?` is what is known of a row under a name. -/
structure SelectsByName (ρ : Type) {φ κ : Type} [FieldSet φ] [SortKeys κ ρ] [Listable ρ φ κ]
    (recorded? : ρ → Instant → String → Option Json) : Prop where
  /-- A tree is refused where there is another key than `data`, or brackets below that, or there a
  name that no field has. -/
  refused_iff : ∀ tree : Tree, Keyed.Sorted tree →
    ((∃ e, (fieldsOfTree tree : Except QueryError (List φ)) = .error e) ↔
      (∃ entry ∈ tree, entry.1 ≠ "data") ∨ (∃ children, ("data", .branch children) ∈ tree) ∨
        ∃ values, ("data", .leaf values) ∈ tree ∧
          ∃ name, IsRequested values name ∧ ¬IsFieldName φ name)
  /-- If there are only lists of names, it is for the first name that no field has. -/
  refused_first : ∀ values e,
    (fieldsOfTree [("data", .leaf values)] : Except QueryError (List φ)) = .error e ↔
      ∃ before name after, requestedNames values = before ++ name :: after ∧
        (∀ n ∈ before, IsFieldName φ n) ∧ ¬IsFieldName φ name ∧ e = .unknownField name
  /-- A page has an object for each of its rows, which shows what is known of the row under the
  names that the parameters ask for. There are no other parameters for fields. -/
  shown : ∀ {σ : Type} (fetch : ListQuery κ → StoreAction σ (Option (Listing ρ)))
      (context : ListContext) (state : σ) (page : ListPage),
    (serveListing fetch context state).1 = .ok (some page) →
      (∀ param ∈ context.params, DeepObject.Under "fields" param.1 → param.1 = "fields[data]") ∧
      ∃ (request : ListRequest φ κ) (listing : Listing ρ),
        ListRequest.ofParams (Listable.resource ρ) context.params = .ok request ∧
        (fetch (request.toQuery context.orgId context.now) state).1 = .ok (some listing) ∧
        List.Forall₂ (fun row object ↦
            Shows (recorded? row context.now) (context.params.AsksFor φ) object)
          listing.items page.data
  /-- A page is served with the rows that are found, unless a status is asked for that one of them
  does not have. -/
  served : ∀ {σ : Type} (fetch : ListQuery κ → StoreAction σ (Option (Listing ρ)))
      (context : ListContext) (state : σ) (request : ListRequest φ κ) (listing : Listing ρ),
    ListRequest.ofParams (Listable.resource ρ) context.params = .ok request →
    (fetch (request.toQuery context.orgId context.now) state).1 = .ok (some listing) →
      ((∃ page, (serveListing fetch context state).1 = .ok (some page)) ↔
        (context.params.AsksFor φ "status" →
          ∀ row ∈ listing.items, ¬Listable.LacksDeadline row))
  /-- What is shown of a row under a name does not depend on what else is selected. -/
  value_eq : ∀ (fields fields' : List φ) (now : Instant) (row : ρ) (object object' : JsonObject),
    project? fields now row = some object → project? fields' now row = some object' →
      ∀ name value value', (name, value) ∈ object → (name, value') ∈ object' → value = value'
  /-- Requests that differ only in how they ask for the same names are answered with the same
  objects. -/
  data_eq : ∀ params params' : Params,
    params.filter (·.1 ≠ "fields[data]") = params'.filter (·.1 ≠ "fields[data]") →
    (∀ name, params.AsksFor φ name ↔ params'.AsksFor φ name) →
    ∀ request : ListRequest φ κ, ListRequest.ofParams (Listable.resource ρ) params = .ok request →
      (∃ fields : List φ, ListRequest.ofParams (Listable.resource ρ) params' =
        .ok { request with fields }) ∧
      ∀ {σ : Type} (fetch : ListQuery κ → StoreAction σ (Option (Listing ρ)))
          (orgId path path' : String) (now : Instant) (state : σ),
        dataOf (serveListing fetch ⟨orgId, path, params, now⟩ state).1 =
          dataOf (serveListing fetch ⟨orgId, path', params', now⟩ state).1

section Pages

variable {φ κ ρ : Type} [FieldSet φ] [SortKeys κ ρ] [Listable ρ φ κ]

private theorem forall₂_of_mapM {α β : Type} {f : α → Option β} {as : List α} {bs : List β}
    (h : as.mapM f = some bs) : List.Forall₂ (fun a b ↦ f a = some b) as bs := by
  have hequal : List.Forall₂ (· = ·) (as.map f) (bs.map some) := by
    rw [List.forall₂_eq_eq_eq]
    exact Checked.mapM_eq_some_iff.1 h
  rwa [List.forall₂_map_left_iff, List.forall₂_map_right_iff] at hequal

private theorem exists_of_served {σ : Type}
    {fetch : ListQuery κ → StoreAction σ (Option (Listing ρ))} {context : ListContext} {state : σ}
    {page : ListPage} (h : (serveListing fetch context state).1 = .ok (some page)) :
    ∃ (request : ListRequest φ κ) (listing : Listing ρ),
      ListRequest.ofParams (Listable.resource ρ) context.params = .ok request ∧
      (fetch (request.toQuery context.orgId context.now) state).1 = .ok (some listing) ∧
      List.Forall₂ (fun row object ↦ project? request.fields context.now row = some object)
        listing.items page.data := by
  unfold serveListing at h
  split at h
  · cases h
  · next request hrequest =>
    split at h
    · cases h
    · next listing? state' hfetch =>
      obtain ⟨listing, rfl, hpage⟩ := Option.bind_eq_some_iff.1 (Except.ok.inj h)
      obtain ⟨data, hdata, hpage⟩ := Option.bind_eq_some_iff.1 hpage
      obtain rfl := Option.some.inj hpage
      exact ⟨request, listing, hrequest, by rw [hfetch], forall₂_of_mapM hdata⟩

private theorem dataOf_serveListing {σ : Type}
    (fetch : ListQuery κ → StoreAction σ (Option (Listing ρ))) {context : ListContext}
    {request : ListRequest φ κ}
    (h : ListRequest.ofParams (Listable.resource ρ) context.params = .ok request) (state : σ) :
    dataOf (serveListing fetch context state).1 =
      match (fetch (request.toQuery context.orgId context.now) state).1 with
      | .error e => .error (.store e)
      | .ok listing? => .ok (listing?.bind fun listing ↦
          listing.items.mapM (project? request.fields context.now)) := by
  unfold serveListing
  rw [h]
  dsimp only
  rcases fetch (request.toQuery context.orgId context.now) state with ⟨_ | listing?, state'⟩
  · rfl
  · cases listing? with
    | none => rfl
    | some listing =>
      simp only [dataOf, Except.map, Option.bind_some, ListPage.of?]
      cases listing.items.mapM (project? request.fields context.now) <;> rfl

private theorem exists_page_iff {answer : Except ListingError (Option ListPage)} :
    (∃ page, answer = .ok (some page)) ↔ ∃ data, dataOf answer = .ok (some data) := by
  rcases answer with e | _ | page <;> simp [dataOf, Except.map]

private theorem exists_mapM_project?_iff [LawfulFields ρ φ κ] {fields : List φ} (now : Instant)
    {rows : List ρ} :
    (∃ data, rows.mapM (project? fields now) = some data) ↔
      ("status" ∈ fields.map FieldSet.name → ∀ row ∈ rows, ¬Listable.LacksDeadline row) := by
  have hall : (∃ data, rows.mapM (project? fields now) = some data) ↔
      ∀ row ∈ rows, (project? fields now row).isSome := by
    simp only [Checked.mapM_eq_some_iff]
    exact ⟨fun ⟨data, hdata⟩ row ↦ Checked.isSome_of_map_eq_map_some hdata,
      Checked.exists_map_eq_map_some⟩
  rw [hall]
  simp only [project?_isSome_iff, List.mem_map]
  exact ⟨fun h hstatus row hrow ↦ h row hrow hstatus, fun h row hrow hstatus ↦ h hstatus row hrow⟩

variable [LawfulNames φ] {recorded? : ρ → Instant → String → Option Json}

private theorem shows_of_project?
    (hvalue : ∀ (field : φ) row now, Listable.value? field row now =
      recorded? row now (FieldSet.name field))
    {fields : List φ} {now : Instant} {row : ρ} {object : JsonObject} {asked : String → Prop}
    (hasked : ∀ name, name ∈ fields.map FieldSet.name ↔ asked name)
    (h : project? fields now row = some object) : Shows (recorded? row now) asked object := by
  obtain ⟨-, hsorted, hobject⟩ := project?_eq_some_iff.1 h
  refine ⟨hsorted, fun name ↦ ?_, fun name value hmem ↦ ?_⟩
  · rw [mem_map_fst_iff_of_project? h, hasked]
  · obtain ⟨field, -, hmember⟩ := (hobject _).1 hmem
    obtain ⟨rfl, hshown⟩ := Listable.member?_eq_some_iff.1 hmember
    rw [← hvalue, hshown]

private theorem selectsByName_of_value?_eq [LawfulFields ρ φ κ]
    (hvalue : ∀ (field : φ) row now, Listable.value? field row now =
      recorded? row now (FieldSet.name field)) : SelectsByName ρ recorded? where
  refused_iff tree hsorted := fieldsOfTree_eq_error_iff hsorted
  refused_first values e := fieldsOfTree_leaf_eq_error_iff
  shown fetch context state page hpage := by
    obtain ⟨request, listing, hrequest, hlisting, hdata⟩ := exists_of_served hpage
    obtain ⟨⟨-, hwell⟩, hfields, -⟩ := ListRequest.ofParams_eq_ok_iff.1 hrequest
    obtain ⟨hkeys, -⟩ := fields_accepted_iff.1 ⟨hwell, hfields⟩
    refine ⟨hkeys, request, listing, hrequest, hlisting, ?_⟩
    exact hdata.imp fun row object ↦
      shows_of_project? hvalue fun name ↦ mem_map_name_iff_of_accepted hwell hfields
  served fetch context state request listing hrequest hlisting := by
    obtain ⟨⟨-, hwell⟩, hfields, -⟩ := ListRequest.ofParams_eq_ok_iff.1 hrequest
    rw [exists_page_iff, dataOf_serveListing fetch hrequest, hlisting,
      ← mem_map_name_iff_of_accepted hwell hfields, ← exists_mapM_project?_iff context.now]
    simp only [Option.bind_some, Except.ok.injEq]
  value_eq fields fields' now row object object' h h' name value value' hmem hmem' := by
    have hshows := shows_of_project? hvalue (fun _ ↦ Iff.rfl) h
    have hshows' := shows_of_project? hvalue (fun _ ↦ Iff.rfl) h'
    exact Option.some.inj ((hshows.values _ _ hmem).symm.trans (hshows'.values _ _ hmem'))
  data_eq params params' hothers hnames request hrequest := by
    obtain ⟨fields, hrequest', hsame⟩ := exists_ofParams_of_asksFor hothers hnames hrequest
    refine ⟨⟨fields, hrequest'⟩, fun fetch orgId path path' now state ↦ ?_⟩
    have hproject : (project? request.fields now : ρ → Option JsonObject) = project? fields now :=
      funext fun row ↦ project?_eq_of_mem_iff hsame
    rw [dataOf_serveListing fetch hrequest, dataOf_serveListing fetch hrequest']
    simp only [hproject]
    rfl

end Pages

/-- The fields of runs and of hosts are selected by name: a page shows under each name asked for
what is known of the run, or of the host and its run, and nothing else. -/
theorem selects_by_name :
    SelectsByName Run Run.recorded? ∧ SelectsByName HostRecord HostRecord.recorded? :=
  ⟨selectsByName_of_value?_eq fun field run now ↦ Run.value?_eq field run now,
    selectsByName_of_value?_eq fun field record now ↦ HostRecord.value?_eq field record now⟩

private def repeatedFields : Params := [("fields[data]", " status,,id"), ("fields[data]", "id ")]

private def repeatedFieldsRequest : ListRequest RunField RunSortKey :=
  ⟨[.status, .id, .id], ⟨[]⟩, SortOrder.initial, ⟨50, 0⟩⟩

/-- The first unknown of several names is refused, and a run that timed out is shown with its status
and its identifier, however these are asked for. -/
theorem selects_by_name_of_repeated :
    (fieldsOfTree [("data", .leaf ["id, color ,x"])] : Except QueryError (List RunField)) =
        .error (.unknownField "color") ∧
      (∃ page, (serveListing Memory.store.listRuns ⟨"org", "/runs", repeatedFields, ⟨70, 0⟩⟩
          ⟨[minuteRun 3 ⟨0, 0⟩], []⟩).1 = .ok (some page) ∧
        List.Forall₂ (fun row object ↦
            Shows (Run.recorded? row ⟨70, 0⟩) (repeatedFields.AsksFor RunField) object)
          [minuteRun 3 ⟨0, 0⟩] page.data) ∧
      dataOf (serveListing Memory.store.listRuns ⟨"org", "/runs", repeatedFields, ⟨70, 0⟩⟩
          ⟨[minuteRun 3 ⟨0, 0⟩], []⟩).1 =
        dataOf (serveListing Memory.store.listRuns
          ⟨"org", "/", [("fields[data]", "id,status")], ⟨70, 0⟩⟩ ⟨[minuteRun 3 ⟨0, 0⟩], []⟩).1 := by
  obtain ⟨hruns, -⟩ := selects_by_name
  have hrequest : ListRequest.ofParams .run repeatedFields = .ok repeatedFieldsRequest := by
    rw [ListRequest.ofParams_eq_ok_iff]
    exact ⟨by decide +kernel, by decide +kernel, by decide +kernel, by decide +kernel,
      by decide +kernel⟩
  refine ⟨(hruns.refused_first _ _).2 ⟨["id"], "color", ["x"], by decide +kernel, by decide,
    by decide, rfl⟩, ?_, ?_⟩
  · obtain ⟨page, hpage, -⟩ := Checked.eq_ok_some_of_map
      (x := (serveListing Memory.store.listRuns ⟨"org", "/runs", repeatedFields, ⟨70, 0⟩⟩
        ⟨[minuteRun 3 ⟨0, 0⟩], []⟩).1) (f := ListPage.total) (b := 1) (by decide +kernel)
    obtain ⟨-, request, listing, hrequest', hlisting, hshows⟩ := hruns.shown _ _ _ page hpage
    obtain rfl : repeatedFieldsRequest = request :=
      Except.ok.inj (hrequest.symm.trans hrequest')
    have hfound : (Memory.listRuns? ⟨[minuteRun 3 ⟨0, 0⟩], []⟩
        (repeatedFieldsRequest.toQuery "org" ⟨70, 0⟩)).map (·.items) =
          some [minuteRun 3 ⟨0, 0⟩] := by decide +kernel
    rw [show Memory.listRuns? _ _ = some listing from Except.ok.inj hlisting] at hfound
    exact ⟨page, hpage, Option.some.inj hfound ▸ hshows⟩
  · have hasked (name : String) : repeatedFields.AsksFor RunField name ↔
        Params.AsksFor RunField [("fields[data]", "id,status")] name := by
      have hrepeated : requestedNames repeatedFields.fieldLists = ["status", "id", "id"] := by
        decide +kernel
      have honce : requestedNames (Params.fieldLists [("fields[data]", "id,status")]) =
          ["id", "status"] := by decide +kernel
      rw [Params.AsksFor, Params.AsksFor, if_neg (by decide), if_neg (by decide),
        ← mem_requestedNames_iff, ← mem_requestedNames_iff, hrepeated, honce]
      simp [or_comm]
    obtain ⟨-, hdata⟩ :=
      hruns.data_eq repeatedFields [("fields[data]", "id,status")] rfl hasked _ hrequest
    exact hdata _ _ _ _ _ _

end PlaybookRuns
