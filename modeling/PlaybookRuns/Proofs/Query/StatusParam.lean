import PlaybookRuns.Proofs.Query.Filter
import PlaybookRuns.Proofs.Query.ParamOrder

/-!
# Filtering by status

What `filter[status]` adds to parameters that are accepted without it. Main statement: the request
stays the same, with one more condition on the status of the resource after all others, none of
which is about a status.
-/

namespace PlaybookRuns.Query

/-- Whose status the status filter of a resource is about. -/
def Resource.subject : Resource → Subject
  | .run => .run
  | .runHost => .host

/-- A filter with a condition on the status of a resource after all others. -/
def Filter.withStatus (f : Filter) (resource : Resource) (shown : List DisplayedStatus) : Filter :=
  ⟨f.predicates ++ [.status resource.subject shown.eraseDups]⟩

/-! ## Conditions of other keys -/

private theorem entryPredicates_cases {resource : Resource} {key : String} {node : Node}
    {part : List Predicate} (h : entryPredicates resource (key, node) = .ok part) :
    (key < "status" ∧ ∀ p ∈ part, ¬p.IsStatus) ∨
      key = "status" ∧ ∃ values, node = .leaf values := by
  obtain ⟨slot, hkey, ⟨-, path, hpart⟩ | ⟨rfl, children, -, hflat⟩⟩ :=
    exists_slot_of_entryPredicates h
  · rcases slot?_cases hkey with ⟨hbefore, hother⟩ | ⟨rfl, -, s, rfl⟩
    · exact .inl ⟨hbefore, fun p hp ↦
        not_isStatus_of_asks hother (asks_of_slotPredicates hpart p hp).2⟩
    · cases node with
      | leaf values => exact .inr ⟨rfl, values, rfl⟩
      | branch children => cases hpart
  · rcases slot?_cases hkey with ⟨hbefore, -⟩ | ⟨-, -, s, hs⟩
    · exact .inl ⟨hbefore, not_isStatus_of_runOfHost hflat⟩
    · cases hs

private theorem entryPredicates_status (resource : Resource) (shown : List DisplayedStatus) :
    entryPredicates resource ("status", .leaf (shown.map (·.name))) =
      .ok [.status resource.subject shown.eraseDups] := by
  have hshown (path : String) :
      (shown.map (·.name)).mapM (shownStatus path) = .ok shown := by
    rw [Checked.mapM_eq_ok_iff, List.map_map]
    apply List.map_congr_left
    intro s _
    rw [Function.comp_apply, shownStatus, DisplayedStatus.ofName?_name]
  have hslot (path : String) (subject : Subject) :
      slotPredicates path (.leaf (shown.map (·.name))) (.status subject) =
        .ok [.status subject shown.eraseDups] := by
    rw [slotPredicates, Node.values, Checked.bind_eq_ok_iff]
    refine ⟨_, rfl, ?_⟩
    rw [hshown]
    rfl
  cases resource <;> exact hslot _ _

-- Filters that are compiled without a status have none after `status`, and no condition on one.
private theorem before_status_of_ofTree {tree : Tree} {resource : Resource} {f : Filter}
    (h : Filter.ofTree tree resource = .ok f) (hnone : ∀ values, ("status", .leaf values) ∉ tree) :
    (∀ e ∈ tree, e.1 < "status") ∧ ∀ p ∈ f.predicates, ¬p.IsStatus := by
  obtain ⟨parts, hparts, rfl⟩ := Filter.ofTree_eq_ok_iff.1 h
  have hentry : ∀ e ∈ tree, ∀ part, entryPredicates resource e = .ok part →
      e.1 < "status" ∧ ∀ p ∈ part, ¬p.IsStatus := by
    rintro ⟨key, node⟩ he part hpart
    rcases entryPredicates_cases hpart with hbefore | ⟨rfl, values, rfl⟩
    · exact hbefore
    · exact absurd he (hnone values)
  constructor
  · intro e he
    have hmem : entryPredicates resource e ∈ parts.map .ok := hparts ▸ List.mem_map_of_mem he
    obtain ⟨part, -, hpart⟩ := List.mem_map.1 hmem
    exact (hentry e he part hpart.symm).1
  · intro p hp
    obtain ⟨part, hpart, hp⟩ := List.mem_flatten.1 hp
    have hmem : Except.ok part ∈ tree.map (entryPredicates resource) :=
      hparts ▸ List.mem_map_of_mem hpart
    obtain ⟨e, he, hcompiled⟩ := List.mem_map.1 hmem
    exact (hentry e he part hcompiled).2 p hp

private theorem ofTree_append_status {tree : Tree} {resource : Resource} {f : Filter}
    (h : Filter.ofTree tree resource = .ok f) (shown : List DisplayedStatus) :
    Filter.ofTree (tree ++ [("status", .leaf (shown.map (·.name)))]) resource =
      .ok (f.withStatus resource shown) := by
  obtain ⟨parts, hparts, rfl⟩ := Filter.ofTree_eq_ok_iff.1 h
  rw [Filter.ofTree_eq_ok_iff]
  refine ⟨parts ++ [[.status resource.subject shown.eraseDups]], ?_, ?_⟩
  · rw [List.map_append, List.map_append, hparts, List.map_singleton, entryPredicates_status]
    rfl
  · rw [Filter.withStatus, List.flatten_append, List.flatten_singleton]

/-! ## Added statuses -/

/-- Parameters that filter by the given statuses. -/
def statusParams (shown : List DisplayedStatus) : Params :=
  shown.map (("filter[status]", ·.name))

/-- Whether parameters are others with statuses to filter by added, wherever they stand. -/
structure Params.AddsStatuses (params params' : Params) (shown : List DisplayedStatus) : Prop where
  others_eq : params'.filter (·.1 ≠ "filter[status]") = params
  statuses_eq : params'.filter (·.1 = "filter[status]") = statusParams shown

section AddedStatuses

variable {params params' : Params} {shown : List DisplayedStatus}

private theorem filter_statusParams {name : String} (h : name ≠ "filter[status]")
    (shown : List DisplayedStatus) : (statusParams shown).filter (·.1 = name) = [] := by
  rw [List.filter_eq_nil_iff]
  intro p hp
  obtain ⟨s, -, rfl⟩ := List.mem_map.1 hp
  simpa using h.symm

/-- Added statuses are the only ones. -/
theorem Params.AddsStatuses.ne_status (h : params.AddsStatuses params' shown) :
    ∀ p ∈ params, p.1 ≠ "filter[status]" := by
  intro p hp
  rw [← h.others_eq] at hp
  exact of_decide_eq_true (List.mem_filter.1 hp).2

private theorem sameByName_of_addsStatuses (h : params.AddsStatuses params' shown) :
    (params ++ statusParams shown).SameByName params' := by
  intro name
  rw [List.filter_append]
  by_cases hname : name = "filter[status]"
  · subst hname
    have hnone : params.filter (·.1 = "filter[status]") = [] := by
      rw [List.filter_eq_nil_iff]
      intro p hp
      simpa using h.ne_status p hp
    rw [hnone, List.nil_append, ← h.statuses_eq, List.filter_filter]
    simp
  · rw [filter_statusParams hname, List.append_nil, ← h.others_eq, List.filter_filter]
    apply List.filter_congr
    intro p _
    by_cases hp : p.1 = name
    · simp [hp, hname]
    · simp [hp]

private theorem filter_append_statusParams {name : String} (h : name ≠ "filter[status]")
    (params : Params) (shown : List DisplayedStatus) :
    (params ++ statusParams shown).filter (·.1 = name) = params.filter (·.1 = name) := by
  rw [List.filter_append, filter_statusParams h, List.append_nil]

private theorem suffix?_status : suffix? "filter" "filter[status]" = some "[status]".toList := by
  decide

private theorem path?_status : path? "[status]".toList = some ["status"] := by
  decide

variable {φ κ ρ : Type} [FieldSet φ] [SortKeys κ ρ] {resource : Resource}
  {request : ListRequest φ κ}

private theorem before_status_of_ofParams (hnone : ∀ p ∈ params, p.1 ≠ "filter[status]")
    (hrequest : ListRequest.ofParams resource params = .ok request) :
    (∀ e ∈ (DeepObject.ofParams params "filter").tree, e.1 < "status") ∧
      ∀ p ∈ request.filter.predicates, ¬p.IsStatus := by
  obtain ⟨-, -, hfilter, -⟩ := ListRequest.ofParams_eq_ok_iff.1 hrequest
  apply before_status_of_ofTree hfilter
  intro values hleaf
  obtain ⟨p, hp, rest, hrest, hpath⟩ := DeepObject.exists_of_leaf_mem hleaf
  exact hnone p hp (eq_of_path?_eq hrest suffix?_status hpath path?_status)

/-- A request without statuses among its parameters has no condition on a status. -/
theorem not_isStatus_of_ofParams (hnone : ∀ p ∈ params, p.1 ≠ "filter[status]")
    (hrequest : ListRequest.ofParams resource params = .ok request) :
    ∀ p ∈ request.filter.predicates, ¬p.IsStatus :=
  (before_status_of_ofParams hnone hrequest).2

private theorem ofParams_filter_append (hshown : shown ≠ [])
    (hbefore : ∀ e ∈ (DeepObject.ofParams params "filter").tree, e.1 < "status") :
    DeepObject.ofParams (params ++ statusParams shown) "filter" =
      { DeepObject.ofParams params "filter" with
        tree := (DeepObject.ofParams params "filter").tree ++
          [("status", .leaf (shown.map (·.name)))] } := by
  have hstatuses : statusParams shown = (shown.map (·.name)).map ("filter[status]", ·) := by
    rw [List.map_map]
    rfl
  rw [DeepObject.ofParams, List.foldl_append, ← DeepObject.ofParams, hstatuses,
    DeepObject.foldl_add_new_leaf suffix?_status path?_status (by simpa using hshown)
      (Keyed.find?_eq_none hbefore), Keyed.insert_eq_append hbefore]

private theorem ofParams_fields_append
    (hwell : (DeepObject.ofParams params "fields").malformed = []) (shown : List DisplayedStatus) :
    DeepObject.ofParams (params ++ statusParams shown) "fields" =
      DeepObject.ofParams params "fields" := by
  apply DeepObject.ofParams_eq_of_filter_eq _ hwell
  intro key hkey
  symm
  apply filter_append_statusParams
  rintro rfl
  cases hkey

private theorem first?_append_statusParams {name : String} (h : name ≠ "filter[status]") :
    (params ++ statusParams shown).first? name = params.first? name := by
  rw [Params.first?_eq_head?, Params.first?_eq_head?, filter_append_statusParams h]

/-- Adding statuses to accepted parameters adds one condition, after all others. -/
theorem ofParams_of_addsStatuses (h : params.AddsStatuses params' shown) (hshown : shown ≠ [])
    (hrequest : ListRequest.ofParams resource params = .ok request) :
    ListRequest.ofParams resource params' =
      .ok { request with filter := request.filter.withStatus resource shown } := by
  obtain ⟨⟨hfilters, hfieldKeys⟩, hfields, hfilter, hsort, hwindow⟩ :=
    ListRequest.ofParams_eq_ok_iff.1 hrequest
  have hfilterObject := ofParams_filter_append hshown
    (before_status_of_ofParams h.ne_status hrequest).1
  have hfieldObject := ofParams_fields_append hfieldKeys shown
  have hwell : firstMalformed? (params ++ statusParams shown) = none := by
    rw [firstMalformed?_eq_none_iff, hfilterObject, hfieldObject]
    exact ⟨hfilters, hfieldKeys⟩
  rw [(sameByName_of_addsStatuses h).ofParams_eq hwell, ListRequest.ofParams_eq_ok_iff,
    hfilterObject, hfieldObject, first?_append_statusParams (by decide),
    first?_append_statusParams (by decide), first?_append_statusParams (by decide)]
  exact ⟨⟨hfilters, hfieldKeys⟩, hfields, ofTree_append_status hfilter shown, hsort, hwindow⟩

end AddedStatuses

end PlaybookRuns.Query
