import PlaybookRuns.Proofs.Client.Query
import PlaybookRuns.Proofs.Query.LabelFilter
import PlaybookRuns.Proofs.Query.Request

/-!
# Queries of a client for labels

What a server takes a query for that was built from labels alone. Main statement: it is accepted
exactly when there is no dot in the key of a label, and then holds of the runs with all the labels.
-/

namespace PlaybookRuns.Client.QueryBuilder

open PlaybookRuns.Query

/-- Calls that ask for labels, one for each key and value. -/
def labelCalls (pairs : List (String × String)) : List Call := pairs.map fun p ↦ .label p.1 p.2

private theorem filters_labelCalls (pairs : List (String × String)) :
    filters (labelCalls pairs) = pairs.map fun p ↦ ("labels." ++ p.1, p.2) := by
  rw [filters, labelCalls, List.filterMap_map, ← List.filterMap_eq_map]
  rfl

private theorem splitText_label (key : String) :
    Text.splitText '.' ("labels." ++ key) = "labels" :: Text.splitText '.' key := by
  have hkey : ("labels." ++ key).toList = "labels".toList ++ '.' :: key.toList := by simp
  rw [Text.splitText, hkey, Text.splitAll_append_cons (by decide)]
  rfl

private abbrev gathered (pairs : List (String × String)) : DeepObject :=
  DeepObject.ofParams ((labelCalls pairs).map Call.param) "filter"

section Labels

variable {pairs : List (String × String)}

private theorem pathOf?_label {key : String} (h : BracketFree key) {path : List String} :
    DeepObject.pathOf? "filter" (filterName ("labels." ++ key)) = some path ↔
      path = "labels" :: Text.splitText '.' key ∧
        ∀ segment ∈ Text.splitText '.' key, segment ≠ "" := by
  have hsegments : ∀ segment ∈ Text.splitText '.' ("labels." ++ key), BracketFree segment := by
    rw [splitText_label, List.forall_mem_cons]
    refine ⟨by decide, fun segment hs ↦ ⟨fun hc ↦ h.1 ?_, fun hc ↦ h.2 ?_⟩⟩
    · exact Text.mem_of_mem_splitText hs hc
    · exact Text.mem_of_mem_splitText hs hc
  rw [pathOf?_filterName_eq_some_iff hsegments, splitText_label, List.forall_mem_cons]
  exact and_congr_right' (and_iff_right (by decide))

private theorem map_param_labelCalls (pairs : List (String × String)) :
    (labelCalls pairs).map Call.param =
      pairs.map fun p ↦ (filterName ("labels." ++ p.1), p.2) := by
  rw [labelCalls, List.map_map]
  rfl

private theorem exists_hasLeaf_iff (hkeys : ∀ p ∈ pairs, BracketFree p.1)
    (h : (gathered pairs).malformed = []) {path : List String} {v : String} :
    (∃ values, (gathered pairs).tree.HasLeaf path values ∧ v ∈ values) ↔
      ∃ p ∈ pairs, path = "labels" :: Text.splitText '.' p.1 ∧ v = p.2 := by
  have hpath (p : String × String) (hp : p ∈ pairs) :
      DeepObject.pathOf? "filter" (filterName ("labels." ++ p.1)) =
        some ("labels" :: Text.splitText '.' p.1) := by
    have hmem : (filterName ("labels." ++ p.1), p.2) ∈ (labelCalls pairs).map Call.param := by
      rw [map_param_labelCalls]
      exact List.mem_map_of_mem hp
    have hsome := DeepObject.isSome_pathOf? h hmem (by rw [suffix?_filterName]; rfl)
    obtain ⟨path, hpath⟩ := Option.isSome_iff_exists.1 hsome
    rw [hpath, ((pathOf?_label (hkeys p hp)).1 hpath).1]
  have hvalues : v ∈ DeepObject.valuesOf ((labelCalls pairs).map Call.param) "filter" path ↔
      ∃ p ∈ pairs, path = "labels" :: Text.splitText '.' p.1 ∧ v = p.2 := by
    simp only [DeepObject.valuesOf, map_param_labelCalls, List.mem_map, List.mem_filter,
      decide_eq_true_eq]
    constructor
    · rintro ⟨_, ⟨⟨p, hp, rfl⟩, hp'⟩, rfl⟩
      rw [hpath p hp, Option.some_inj] at hp'
      exact ⟨p, hp, hp'.symm, rfl⟩
    · rintro ⟨p, hp, rfl, rfl⟩
      exact ⟨_, ⟨⟨p, hp, rfl⟩, hpath p hp⟩, rfl⟩
  rw [← hvalues]
  simp only [DeepObject.hasLeaf_ofParams_iff h]
  constructor
  · rintro ⟨_, ⟨-, rfl⟩, hv⟩
    exact hv
  · exact fun hv ↦ ⟨_, ⟨List.ne_nil_of_mem hv, rfl⟩, hv⟩

private theorem path_of_hasLeaf (hkeys : ∀ p ∈ pairs, BracketFree p.1)
    (h : (gathered pairs).malformed = []) {path values : List String}
    (hleaf : (gathered pairs).tree.HasLeaf path values) :
    ∃ p ∈ pairs, path = "labels" :: Text.splitText '.' p.1 := by
  obtain ⟨v, hv⟩ :=
    List.exists_mem_of_ne_nil values ((DeepObject.hasLeaf_ofParams_iff h).1 hleaf).1
  obtain ⟨p, hp, hpath, -⟩ := (exists_hasLeaf_iff hkeys h).1 ⟨values, hleaf, hv⟩
  exact ⟨p, hp, hpath⟩

private theorem onlyLabels (hkeys : ∀ p ∈ pairs, BracketFree p.1)
    (h : (gathered pairs).malformed = []) : (gathered pairs).tree.OnlyLabels := by
  intro path values hleaf
  obtain ⟨p, -, rfl⟩ := path_of_hasLeaf hkeys h hleaf
  rfl

private theorem exists_ofTree_iff (hkeys : ∀ p ∈ pairs, BracketFree p.1)
    (h : (gathered pairs).malformed = []) :
    (∃ f, Filter.ofTree (gathered pairs).tree .run = .ok f) ↔
      ∀ p ∈ pairs, '.' ∉ p.1.toList := by
  rw [exists_ofTree_labels_iff (DeepObject.grown_ofParams _ _) (onlyLabels hkeys h)]
  constructor
  · intro hpaths p hp
    obtain ⟨values, hleaf, -⟩ := (exists_hasLeaf_iff hkeys h).2 ⟨p, hp, rfl, rfl⟩
    obtain ⟨key, hpath⟩ := hpaths _ _ hleaf
    exact Text.not_mem_of_splitText_eq_singleton (List.cons.inj hpath).2
  · intro hdots path values hleaf
    obtain ⟨p, hp, rfl⟩ := path_of_hasLeaf hkeys h hleaf
    exact ⟨p.1, by rw [Text.splitText_of_not_mem (hdots p hp)]⟩

private theorem mem_predicates_iff (hkeys : ∀ p ∈ pairs, BracketFree p.1)
    (h : (gathered pairs).malformed = []) {f : Filter}
    (hf : Filter.ofTree (gathered pairs).tree .run = .ok f) (p : Predicate) :
    p ∈ f.predicates ↔ ∃ q ∈ pairs, p = .label q.1 q.2 := by
  have hdots := (exists_ofTree_iff hkeys h).1 ⟨f, hf⟩
  rw [mem_predicates_of_labels_iff (DeepObject.grown_ofParams _ _) (onlyLabels hkeys h) hf]
  constructor
  · rintro ⟨key, values, hleaf, v, hv, rfl⟩
    obtain ⟨q, hq, hpath, rfl⟩ := (exists_hasLeaf_iff hkeys h).1 ⟨values, hleaf, hv⟩
    rw [Text.splitText_of_not_mem (hdots q hq)] at hpath
    obtain rfl := (List.cons.inj (List.cons.inj hpath).2).1
    exact ⟨q, hq, rfl⟩
  · rintro ⟨q, hq, rfl⟩
    obtain ⟨values, hleaf, hv⟩ := (exists_hasLeaf_iff hkeys h).2 ⟨q, hq, rfl, rfl⟩
    rw [Text.splitText_of_not_mem (hdots q hq)] at hleaf
    exact ⟨q.1, values, hleaf, q.2, hv, rfl⟩

private theorem separate_labelCalls (hkeys : ∀ p ∈ pairs, p.1 ≠ "" ∧ BracketFree p.1)
    (hdots : ∀ p ∈ pairs, '.' ∉ p.1.toList) : Separate (labelCalls pairs) := by
  have hsplit (p : String × String) (hp : p ∈ pairs) :
      Text.splitText '.' ("labels." ++ p.1) = ["labels", p.1] := by
    rw [splitText_label, Text.splitText_of_not_mem (hdots p hp)]
  constructor
  · rw [filters_labelCalls, List.forall_mem_map]
    intro p hp
    rw [hsplit p hp, List.forall_mem_cons, List.forall_mem_singleton]
    exact ⟨by decide, hkeys p hp⟩
  · simp only [filters_labelCalls, List.forall_mem_map]
    intro p hp q hq hprefix
    rw [hsplit p hp, hsplit q hq] at hprefix
    have hsame := hprefix.eq_of_length rfl
    rw [(List.cons.inj (List.cons.inj hsame).2).1]

private theorem first?_labelCalls {name : String} (h : name.toList.head? ≠ some 'f') :
    Params.first? ((labelCalls pairs).map Call.param) name = none := by
  rw [Params.first?, Option.map_eq_none_iff, List.find?_eq_none, map_param_labelCalls]
  intro param hparam
  obtain ⟨p, -, rfl⟩ := List.mem_map.1 hparam
  simp only [decide_eq_true_eq]
  rintro rfl
  rw [toList_filterName] at h
  exact h rfl

private theorem holds?_of_labels {f : Filter}
    (h : ∀ p, p ∈ f.predicates ↔ ∃ q ∈ pairs, p = .label q.1 q.2) (run : Run) (now : Time.Instant) :
    f.holds? run none now = some (decide (∀ p ∈ pairs, run.labels.get? p.1 = some p.2)) := by
  have hnone : ∀ p ∈ f.predicates, ¬p.IsStatus := by
    intro p hp
    obtain ⟨q, -, rfl⟩ := (h p).1 hp
    exact id
  have htrue : f.holds? run none now = some true ↔
      ∀ p ∈ pairs, run.labels.get? p.1 = some p.2 := by
    rw [Filter.holds?_eq_some_true_iff]
    constructor
    · intro hall p hp
      simpa [Predicate.holds?] using hall _ ((h _).2 ⟨p, hp, rfl⟩)
    · intro hall p hp
      obtain ⟨q, hq, rfl⟩ := (h p).1 hp
      simpa [Predicate.holds?] using hall q hq
  obtain ⟨b, hb⟩ := Filter.exists_holds?_eq hnone run none
  rw [hb now] at htrue ⊢
  cases b <;> simpa using htrue

/-- What a server takes the text of a query for runs for. -/
def runsRequest (query : QueryBuilder) : Except QueryError (ListRequest RunField RunSortKey) :=
  ListRequest.ofParams .run (Params.ofText query.toText)

/-- A query for labels is accepted exactly when no key has a dot in it, and then its filter holds of
the runs that have all the labels. -/
theorem labels_accepted_iff (hkeys : ∀ p ∈ pairs, p.1 ≠ "" ∧ BracketFree p.1) :
    ((∃ request, runsRequest (build (labelCalls pairs)) = .ok request) ↔
        ∀ p ∈ pairs, '.' ∉ p.1.toList) ∧
      ∀ request, runsRequest (build (labelCalls pairs)) = .ok request → ∀ run now,
        request.filter.holds? run none now =
          some (decide (∀ p ∈ pairs, run.labels.get? p.1 = some p.2)) := by
  have hfree : ∀ p ∈ pairs, BracketFree p.1 := fun p hp ↦ (hkeys p hp).2
  have haccepted : (∃ request, runsRequest (build (labelCalls pairs)) = .ok request) ↔
      ∀ p ∈ pairs, '.' ∉ p.1.toList := by
    rw [runsRequest, ofText_build]
    constructor
    · rintro ⟨request, hrequest⟩
      obtain ⟨⟨hmalformed, -⟩, -, hfilter, -⟩ := ListRequest.ofParams_eq_ok_iff.1 hrequest
      exact (exists_ofTree_iff hfree hmalformed).1 ⟨_, hfilter⟩
    · intro hdots
      have hmalformed := (filters_gathered (separate_labelCalls hkeys hdots)).1
      obtain ⟨f, hf⟩ := (exists_ofTree_iff hfree hmalformed).2 hdots
      have hnoFields : fieldLists (labelCalls pairs) = [] := by
        rw [fieldLists, labelCalls, List.filterMap_map]
        exact List.filterMap_eq_nil_iff.2 fun _ _ ↦ rfl
      have hfields := ofParams_fields_eq_empty hnoFields
      refine ⟨⟨FieldSet.defaults, f, .initial, ⟨50, 0⟩⟩, ListRequest.ofParams_eq_ok_iff.2 ?_⟩
      rw [hfields, first?_labelCalls (by decide), first?_labelCalls (by decide),
        first?_labelCalls (by decide)]
      exact ⟨⟨hmalformed, rfl⟩, rfl, hf, rfl, rfl⟩
  refine ⟨haccepted, fun request hrequest run now ↦ ?_⟩
  rw [runsRequest, ofText_build] at hrequest
  obtain ⟨⟨hmalformed, -⟩, -, hfilter, -⟩ := ListRequest.ofParams_eq_ok_iff.1 hrequest
  exact holds?_of_labels (mem_predicates_iff hfree hmalformed hfilter) run now

end Labels

/-- Spaces and separators in a key are kept, and so are two values for one key. -/
theorem labels_accepted_team :
    let pairs := [("my team", "a.b"), ("env", "x&y=z"), ("env", "prod")]
    ∃ request, runsRequest (build (labelCalls pairs)) = .ok request ∧ ∀ run now,
      request.filter.holds? run none now =
        some (decide (∀ p ∈ pairs, run.labels.get? p.1 = some p.2)) := by
  intro pairs
  have hkeys : ∀ p ∈ pairs, p.1 ≠ "" ∧ BracketFree p.1 := by decide +kernel
  obtain ⟨haccepted, hholds⟩ := labels_accepted_iff hkeys
  obtain ⟨request, hrequest⟩ := haccepted.2 (by decide +kernel)
  exact ⟨request, hrequest, hholds request hrequest⟩

/-- A key with dots in it is not the key of a label to the server. -/
theorem labels_refused_dotted :
    let pairs := [("app.kubernetes.io/name", "db")]
    (∀ p ∈ pairs, p.1 ≠ "" ∧ BracketFree p.1) ∧
      runsRequest (build (labelCalls pairs)) = .error (.notAValue "labels.app") := by
  intro pairs
  refine ⟨by decide +kernel, ?_⟩
  rw [runsRequest, ofText_build]
  rfl

end PlaybookRuns.Client.QueryBuilder
