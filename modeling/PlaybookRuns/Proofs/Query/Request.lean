import PlaybookRuns.Proofs.Query.DeepObject
import PlaybookRuns.Proofs.Query.Links
import PlaybookRuns.Proofs.Query.Window
import PlaybookRuns.Query.Request

/-!
# Requests of links

When parameters are accepted as a list request. Main statement: the parameters of a link ask for
what the request they were carried from asked for, with the window that the link leads to.
-/

namespace PlaybookRuns.Query

/-- No key is named as malformed exactly when none of filters and fields is. -/
theorem firstMalformed?_eq_none_iff {params : Params} :
    firstMalformed? params = none ↔
      (DeepObject.ofParams params "filter").malformed = [] ∧
        (DeepObject.ofParams params "fields").malformed = [] := by
  rw [firstMalformed?, Option.or_eq_none_iff, List.head?_eq_none_iff, List.head?_eq_none_iff]

namespace ListRequest

variable {φ κ ρ : Type} [FieldSet φ] [SortKeys κ ρ]

/-- A malformed key is refused before all else. -/
theorem ofParams_of_malformed {params : Params} {key : String}
    (h : firstMalformed? params = some key) (resource : Resource) :
    (ofParams resource params : Except _ (ListRequest φ κ)) = .error (.malformedKey key) := by
  rw [ofParams, h]
  rfl

/-- Parameters are accepted exactly when no key is malformed and each of their parts is
understood. -/
theorem ofParams_eq_ok_iff {resource : Resource} {params : Params}
    {request : ListRequest φ κ} :
    ofParams resource params = .ok request ↔
      ((DeepObject.ofParams params "filter").malformed = [] ∧
        (DeepObject.ofParams params "fields").malformed = []) ∧
      fieldsOfTree (DeepObject.ofParams params "fields").tree = .ok request.fields ∧
      Filter.ofTree (DeepObject.ofParams params "filter").tree resource = .ok request.filter ∧
      SortOrder.ofParam (params.first? "sort_by") = .ok request.sort ∧
      Window.ofParams (params.first? "limit") (params.first? "offset") = .ok request.window := by
  rw [← firstMalformed?_eq_none_iff]
  cases hmalformed : firstMalformed? params with
  | some key =>
    rw [ofParams_of_malformed hmalformed]
    simp only [reduceCtorEq, false_and]
  | none =>
    rw [ofParams, hmalformed]
    simp only [Checked.bind_eq_ok_iff, Checked.pure_eq_ok_iff, true_and]
    constructor
    · rintro ⟨fields, hfields, filter, hfilter, sort, hsort, window, hwindow, rfl⟩
      exact ⟨hfields, hfilter, hsort, hwindow⟩
    · rintro ⟨hfields, hfilter, hsort, hwindow⟩
      exact ⟨_, hfields, _, hfilter, _, hsort, _, hwindow, rfl⟩

/-- The parameters of a link ask for what the request asked for, with the window it leads to. -/
theorem ofParams_paramsAt {resource : Resource} {params : Params} {request : ListRequest φ κ}
    (h : ofParams resource params = .ok request) {window : Window} (hwindow : window.Valid) :
    ofParams resource (paramsAt params window.limit window.offset) =
      .ok { request with window } := by
  obtain ⟨⟨hfilters, hfieldKeys⟩, hfields, hfilter, hsort, -⟩ := ofParams_eq_ok_iff.1 h
  have hsame (root : String) (hlimit : suffix? root "limit" = none)
      (hoffset : suffix? root "offset" = none)
      (hwell : (DeepObject.ofParams params root).malformed = []) :
      DeepObject.ofParams (paramsAt params window.limit window.offset) root =
        DeepObject.ofParams params root := by
    apply DeepObject.ofParams_eq_of_filter_eq _ hwell
    intro key hkey
    symm
    apply filter_paramsAt
    · rintro rfl
      rw [hlimit] at hkey
      cases hkey
    · rintro rfl
      rw [hoffset] at hkey
      cases hkey
  have hfilterTree := hsame "filter" (by decide) (by decide) hfilters
  have hfieldTree := hsame "fields" (by decide) (by decide) hfieldKeys
  have hsortParam : (paramsAt params window.limit window.offset).first? "sort_by" =
      params.first? "sort_by" := by
    rw [Params.first?_eq_head?, Params.first?_eq_head?,
      filter_paramsAt (by decide) (by decide)]
  rw [ofParams_eq_ok_iff, hfilterTree, hfieldTree, hsortParam, first?_limit_paramsAt,
    first?_offset_paramsAt]
  exact ⟨⟨hfilters, hfieldKeys⟩, hfields, hfilter, hsort, Window.ofParams_decimal hwindow⟩

/-- Every accepted request has a valid window. -/
theorem window_valid_of_ofParams {resource : Resource} {params : Params}
    {request : ListRequest φ κ} (h : ofParams resource params = .ok request) :
    request.window.Valid := by
  obtain ⟨-, -, -, -, hwindow⟩ := ofParams_eq_ok_iff.1 h
  exact (Window.ofParams_eq_ok_iff.1 hwindow).2.2

end ListRequest

end PlaybookRuns.Query
