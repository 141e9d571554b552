import PlaybookRuns.Proofs.Query.Request

/-!
# Order of parameters

Parameters that differ only in how those of different names stand to each other. Main statement:
they ask for the same, and pages are linked alike under them; where they are refused, it is for the
same reason, but that of several malformed keys another one may be named.
-/

namespace PlaybookRuns.Query

/-- Whether each name has the same values in the same order. -/
def Params.SameByName (params params' : Params) : Prop :=
  ∀ name, params.filter (·.1 = name) = params'.filter (·.1 = name)

namespace Params.SameByName

variable {params params' : Params}

/-- Agreement by name goes both ways. -/
theorem symm (h : params.SameByName params') : params'.SameByName params :=
  fun name ↦ (h name).symm

/-- Only the names that occur have to be compared. -/
theorem iff_forall_mem : params.SameByName params' ↔
    ∀ p ∈ params ++ params', params.filter (·.1 = p.1) = params'.filter (·.1 = p.1) := by
  constructor
  · exact fun h p _ ↦ h p.1
  · intro h name
    by_cases hname : ∃ p ∈ params ++ params', p.1 = name
    · obtain ⟨p, hp, rfl⟩ := hname
      exact h p hp
    · have hnone (ps : Params) (hps : ∀ p ∈ ps, p ∈ params ++ params') :
          ps.filter (·.1 = name) = [] := by
        rw [List.filter_eq_nil_iff]
        intro p hp hpname
        exact hname ⟨p, hps p hp, of_decide_eq_true hpname⟩
      rw [hnone params fun p hp ↦ List.mem_append_left _ hp,
        hnone params' fun p hp ↦ List.mem_append_right _ hp]

/-- Only the names that occur are compared. -/
instance (params params' : Params) : Decidable (params.SameByName params') :=
  decidable_of_iff _ iff_forall_mem.symm

/-- Each name has the same first value. -/
theorem first?_eq (h : params.SameByName params') (name : String) :
    params'.first? name = params.first? name := by
  rw [Params.first?_eq_head?, Params.first?_eq_head?, h name]

/-- The same is gathered under a root, if no key is malformed. -/
theorem deepObject_eq (h : params.SameByName params') {root : String}
    (hwell : (DeepObject.ofParams params root).malformed = []) :
    DeepObject.ofParams params' root = DeepObject.ofParams params root :=
  DeepObject.ofParams_eq_of_filter_eq (fun key _ ↦ h key) hwell

/-- If no key is malformed in one order, none is in the other. -/
theorem firstMalformed?_eq_none (h : params.SameByName params')
    (hwell : firstMalformed? params = none) : firstMalformed? params' = none := by
  rw [firstMalformed?_eq_none_iff] at hwell ⊢
  rw [h.deepObject_eq hwell.1, h.deepObject_eq hwell.2]
  exact hwell

variable {φ κ ρ : Type} [FieldSet φ] [SortKeys κ ρ]

/-- If no key is malformed, parameters are accepted or refused alike. -/
theorem ofParams_eq (h : params.SameByName params') (hwell : firstMalformed? params = none)
    (resource : Resource) : (ListRequest.ofParams resource params' :
      Except QueryError (ListRequest φ κ)) = ListRequest.ofParams resource params := by
  obtain ⟨hfilters, hfields⟩ := firstMalformed?_eq_none_iff.1 hwell
  rw [ListRequest.ofParams, ListRequest.ofParams, h.firstMalformed?_eq_none hwell, hwell,
    h.deepObject_eq hfilters, h.deepObject_eq hfields, h.first?_eq, h.first?_eq, h.first?_eq]

/-- Pages are linked alike. -/
theorem links_eq (h : params.SameByName params') (path : String) (window : Window)
    (total : Int64) : Links.of path params window total = Links.of path params' window total := by
  have hlink : linkTo path params = linkTo path params' := by
    funext limit offset
    rw [linkTo, linkTo, paramsAt, paramsAt, carried_eq_of_filter_eq h]
  rw [Links.of, Links.of, hlink]

end Params.SameByName

variable {φ κ ρ : Type} [FieldSet φ] [SortKeys κ ρ]

/-- How parameters of different names stand to each other does not matter: they are accepted as the
same request, or refused for the same cause, but that of several malformed keys another one may be
named; and the pages of a listing are linked alike under them. -/
theorem ofParams_of_sameByName {params params' : Params} (h : params.SameByName params')
    (resource : Resource) :
    ((∃ request : ListRequest φ κ, ListRequest.ofParams resource params = .ok request ∧
        ListRequest.ofParams resource params' = .ok request) ∨
      ∃ e e', (ListRequest.ofParams resource params : Except _ (ListRequest φ κ)) = .error e ∧
        (ListRequest.ofParams resource params' : Except _ (ListRequest φ κ)) = .error e' ∧
        e.kind = e'.kind ∧
        (e = e' ∨ (∃ key, e = .malformedKey key) ∧ ∃ key', e' = .malformedKey key')) ∧
    ∀ path window total,
      Links.of path params window total = Links.of path params' window total := by
  refine ⟨?_, h.links_eq⟩
  cases hwell : firstMalformed? params with
  | none =>
    rw [h.ofParams_eq hwell]
    cases (ListRequest.ofParams resource params : Except _ (ListRequest φ κ)) with
    | ok request => exact .inl ⟨request, rfl, rfl⟩
    | error e => exact .inr ⟨e, e, rfl, rfl, rfl, .inl rfl⟩
  | some key =>
    cases hwell' : firstMalformed? params' with
    | none =>
      rw [h.symm.firstMalformed?_eq_none hwell'] at hwell
      cases hwell
    | some key' =>
      refine .inr ⟨.malformedKey key, .malformedKey key', ?_, ?_, rfl,
        .inr ⟨⟨key, rfl⟩, key', rfl⟩⟩
      · exact ListRequest.ofParams_of_malformed hwell resource
      · exact ListRequest.ofParams_of_malformed hwell' resource

private def statusesApart : Params :=
  [("filter[status]", "running"), ("limit", "5"), ("filter[labels][env]", "prod"),
    ("sort_by", "timeout"), ("filter[status]", "failure")]

private def statusesTogether : Params :=
  [("filter[labels][env]", "prod"), ("filter[status]", "running"), ("filter[status]", "failure"),
    ("sort_by", "timeout"), ("limit", "5")]

/-- Statuses given apart ask for what statuses given together do, and are linked alike. -/
theorem ofParams_of_statusesTogether :
    statusesApart.SameByName statusesTogether ∧
    (∃ request : ListRequest RunField RunSortKey,
      ListRequest.ofParams .run statusesApart = .ok request ∧
      ListRequest.ofParams .run statusesTogether = .ok request) ∧
    ∀ path window total, Links.of path statusesApart window total =
      Links.of path statusesTogether window total := by
  have hsame : statusesApart.SameByName statusesTogether := by decide +kernel
  obtain ⟨hparams, hlinks⟩ :=
    ofParams_of_sameByName (φ := RunField) (κ := RunSortKey) hsame .run
  refine ⟨hsame, ?_, hlinks⟩
  obtain hok | ⟨e, e', hrefused, -⟩ := hparams
  · exact hok
  · have hok : (ListRequest.ofParams .run statusesApart :
        Except _ (ListRequest RunField RunSortKey)).toOption.isSome := by decide +kernel
    rw [hrefused] at hok
    cases hok

/-- Of two keys that contradict each other, the later one is named. -/
example :
    firstMalformed? [("filter[run]", "a"), ("filter[run][id]", "b")] = some "filter[run][id]" ∧
      firstMalformed? [("filter[run][id]", "b"), ("filter[run]", "a")] = some "filter[run]" := by
  decide +kernel

end PlaybookRuns.Query
