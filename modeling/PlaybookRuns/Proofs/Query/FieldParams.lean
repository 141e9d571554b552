import PlaybookRuns.Proofs.Query.Fields
import PlaybookRuns.Proofs.Query.Gathering
import PlaybookRuns.Proofs.Query.Request

/-!
# Parameters that select fields

Which fields the parameters of a request select. Main statements: the parameters for fields are
understood exactly where all are named `fields[data]` and every name in them is that of a field, and
select the fields with these names, or the defaults where there are none; and parameters that differ
only in how they ask for the same names are accepted alike.
-/

namespace PlaybookRuns.Query

open DeepObject

namespace Params

/-- The lists of names of fields among parameters, in order. -/
def fieldLists (params : Params) : List String :=
  (params.filter (·.1 = "fields[data]")).map (·.2)

/-- Whether parameters ask for the field with a name: it stands in their lists of names, or is that
of a default where there are no lists. -/
def AsksFor (φ : Type) [FieldSet φ] (params : Params) (name : String) : Prop :=
  if params.fieldLists = [] then name ∈ (FieldSet.defaults : List φ).map FieldSet.name
  else IsRequested params.fieldLists name

end Params

variable {params : Params}

private theorem names_fields_iff {key : String} :
    Names "fields" key ["data"] ↔ key = "fields[data]" := by
  constructor
  · intro h
    exact String.toList_inj.1 h.written
  · rintro rfl
    exact ⟨by decide, by decide, by decide⟩

/-- Where all parameters for fields are named `fields[data]`, there is nothing but a leaf with the
lists of names, if there are any. -/
theorem ofParams_fields (h : ∀ param ∈ params, Under "fields" param.1 → param.1 = "fields[data]") :
    ofParams params "fields" =
      if params.fieldLists = [] then empty else ⟨[("data", .leaf params.fieldLists)], []⟩ := by
  have hbelongs (param : Text.Form.Pair) (hparam : param ∈ params) :
      belongs "fields" param = decide (param.1 = "fields[data]") := by
    rw [Bool.eq_iff_iff, decide_eq_true_eq]
    refine ⟨fun hunder ↦ h param hparam (isSome_suffix?_iff.1 hunder), fun hkey ↦ ?_⟩
    rw [belongs, hkey]
    decide
  have hgathered : params.filter (belongs "fields") =
      params.fieldLists.map ("fields[data]", ·) := by
    rw [List.filter_congr hbelongs, Params.fieldLists, List.map_map]
    refine (List.map_id' _).symm.trans (List.map_congr_left fun param hparam ↦ ?_)
    have hkey : param.1 = "fields[data]" := of_decide_eq_true (List.mem_filter.1 hparam).2
    exact Prod.ext hkey rfl
  have hsuffix : suffix? "fields" "fields[data]" = some "[data]".toList := by decide
  have hpath : path? "[data]".toList = some ["data"] := by decide
  rw [ofParams_eq_foldl_filter, hgathered]
  split
  · next hnone => rw [hnone]; rfl
  · next hsome => exact foldl_add_new_leaf hsuffix hpath hsome rfl

variable {φ : Type} [FieldSet φ] [LawfulNames φ] {fields : List φ}

private theorem key_eq_of_accepted (hwell : (ofParams params "fields").malformed = [])
    (hfields : fieldsOfTree (ofParams params "fields").tree = .ok fields) :
    ∀ param ∈ params, Under "fields" param.1 → param.1 = "fields[data]" := by
  intro param hparam hunder
  obtain ⟨hnames, -⟩ := holds_of_malformed_eq_nil hwell
  obtain ⟨path, hpath⟩ := hnames param hparam hunder
  have hvalue : param.2 ∈ valuesOf params "fields" path :=
    List.mem_map_of_mem (List.mem_filter.2 ⟨hparam, decide_eq_true (pathOf?_eq_some_iff.2 hpath)⟩)
  have hleaf : (ofParams params "fields").tree.HasLeaf path (valuesOf params "fields" path) :=
    (hasLeaf_ofParams_iff hwell).2 ⟨List.ne_nil_of_mem hvalue, rfl⟩
  obtain ⟨key, rest, child, rfl, hchild, hbelow⟩ := Node.hasLeaf_branch_iff.1 hleaf
  rcases (fieldsOfTree_eq_ok_iff (grown_ofParams params "fields").sorted).1 hfields with
    ⟨htree, -⟩ | ⟨values, htree, -⟩
  · rw [htree] at hchild
    cases hchild
  · rw [htree] at hchild
    obtain ⟨rfl, rfl⟩ := Prod.mk.inj (List.mem_singleton.1 hchild)
    obtain ⟨rfl, -⟩ := Node.hasLeaf_leaf_iff.1 hbelow
    exact names_fields_iff.1 hpath

/-- Parameters for fields are understood exactly where all are named `fields[data]`, and there are
fields with the names in them, or there are no lists of names. -/
theorem fields_accepted_iff :
    (ofParams params "fields").malformed = [] ∧
        fieldsOfTree (ofParams params "fields").tree = .ok fields ↔
      (∀ param ∈ params, Under "fields" param.1 → param.1 = "fields[data]") ∧
        if params.fieldLists = [] then fields = FieldSet.defaults
        else fields.map FieldSet.name = requestedNames params.fieldLists := by
  have hselected (hkeys : ∀ param ∈ params, Under "fields" param.1 → param.1 = "fields[data]") :
      fieldsOfTree (ofParams params "fields").tree = .ok fields ↔
        if params.fieldLists = [] then fields = FieldSet.defaults
        else fields.map FieldSet.name = requestedNames params.fieldLists := by
    have hsorted := (grown_ofParams params "fields").sorted
    rw [fieldsOfTree_eq_ok_iff hsorted, ofParams_fields hkeys]
    split
    · simp [empty]
    · simp
  constructor
  · rintro ⟨hwell, hfields⟩
    have hkeys := key_eq_of_accepted hwell hfields
    exact ⟨hkeys, (hselected hkeys).1 hfields⟩
  · rintro ⟨hkeys, hfields⟩
    refine ⟨?_, (hselected hkeys).2 hfields⟩
    rw [ofParams_fields hkeys]
    split <;> rfl

/-- The fields that are selected are those asked for. -/
theorem mem_map_name_iff_of_accepted (hwell : (ofParams params "fields").malformed = [])
    (hfields : fieldsOfTree (ofParams params "fields").tree = .ok fields) {name : String} :
    name ∈ fields.map FieldSet.name ↔ params.AsksFor φ name := by
  obtain ⟨-, hselected⟩ := fields_accepted_iff.1 ⟨hwell, hfields⟩
  rw [Params.AsksFor]
  split at hselected
  · next hnone => rw [if_pos hnone, hselected]
  · next hsome => rw [if_neg hsome, hselected, mem_requestedNames_iff]

/-! ## Selections of the same fields -/

private theorem mem_iff_of_names {fields' : List φ}
    (h : ∀ name, name ∈ fields.map FieldSet.name ↔ name ∈ fields'.map FieldSet.name) (field : φ) :
    field ∈ fields ↔ field ∈ fields' := by
  have hmem (fields : List φ) : FieldSet.name field ∈ fields.map FieldSet.name ↔ field ∈ fields :=
    List.mem_map_of_injective fun _ _ ↦ LawfulNames.eq_of_name_eq
  rw [← hmem, h, hmem]

private theorem exists_selection_of_asksFor
    (h : ∀ name, params.AsksFor φ name → IsFieldName φ name) :
    ∃ fields : List φ, if params.fieldLists = [] then fields = FieldSet.defaults
      else fields.map FieldSet.name = requestedNames params.fieldLists := by
  split
  · exact ⟨_, rfl⟩
  · next hsome =>
    refine exists_map_name_eq_iff.2 fun name hname ↦ h name ?_
    rw [Params.AsksFor, if_neg hsome]
    exact mem_requestedNames_iff.1 hname

section Alike

variable {params' : Params}
  (hothers : params.filter (·.1 ≠ "fields[data]") = params'.filter (·.1 ≠ "fields[data]"))
include hothers

private theorem filter_eq_of_others {q : Text.Form.Pair → Bool}
    (h : ∀ param, q param = true → param.1 ≠ "fields[data]") :
    params.filter q = params'.filter q := by
  have hcut (params : Params) :
      params.filter q = (params.filter (·.1 ≠ "fields[data]")).filter q := by
    rw [List.filter_filter]
    apply List.filter_congr
    intro param _
    cases hq : q param with
    | false => rfl
    | true => rw [Bool.true_and, decide_eq_true (h param hq)]
  rw [hcut, hothers, ← hcut]

private theorem ofParams_filter_eq_of_others :
    ofParams params' "filter" = ofParams params "filter" := by
  rw [ofParams_eq_foldl_filter, ofParams_eq_foldl_filter params,
    filter_eq_of_others hothers fun param hbelongs hkey ↦ ?_]
  rw [belongs, hkey] at hbelongs
  exact absurd hbelongs (by decide)

private theorem first?_eq_of_others {name : String} (hname : name ≠ "fields[data]") :
    params'.first? name = params.first? name := by
  have hsame : params.filter (·.1 = name) = params'.filter (·.1 = name) := by
    refine filter_eq_of_others hothers fun param hkey ↦ ?_
    rwa [of_decide_eq_true hkey]
  rw [Params.first?_eq_head?, Params.first?_eq_head?, hsame]

private theorem under_fields_of_others
    (hkeys : ∀ param ∈ params, Under "fields" param.1 → param.1 = "fields[data]") :
    ∀ param ∈ params', Under "fields" param.1 → param.1 = "fields[data]" := by
  intro param hparam hunder
  by_contra hne
  have hother : param ∈ params.filter (·.1 ≠ "fields[data]") :=
    hothers ▸ List.mem_filter.2 ⟨hparam, decide_eq_true hne⟩
  exact hne (hkeys param (List.mem_filter.1 hother).1 hunder)

/-- Parameters that differ from accepted ones only in how they ask for the same names are accepted
as well, with a selection of the same fields. -/
theorem exists_ofParams_of_asksFor {κ ρ : Type} [SortKeys κ ρ] {resource : Resource}
    (hnames : ∀ name, params.AsksFor φ name ↔ params'.AsksFor φ name)
    {request : ListRequest φ κ} (h : ListRequest.ofParams resource params = .ok request) :
    ∃ fields : List φ, ListRequest.ofParams resource params' = .ok { request with fields } ∧
      ∀ field, field ∈ request.fields ↔ field ∈ fields := by
  obtain ⟨⟨hfilters, hwell⟩, hfields, hfilter, hsort, hwindow⟩ := ListRequest.ofParams_eq_ok_iff.1 h
  obtain ⟨hkeys, -⟩ := fields_accepted_iff.1 ⟨hwell, hfields⟩
  have hasked (name : String) :
      name ∈ request.fields.map FieldSet.name ↔ params'.AsksFor φ name :=
    (mem_map_name_iff_of_accepted hwell hfields).trans (hnames name)
  have hknown (name : String) (hname : params'.AsksFor φ name) : IsFieldName φ name :=
    exists_map_name_eq_iff.1 ⟨request.fields, rfl⟩ name ((hasked name).2 hname)
  obtain ⟨fields, hselected⟩ := exists_selection_of_asksFor hknown
  obtain ⟨hwell', hfields'⟩ :=
    fields_accepted_iff.2 ⟨under_fields_of_others hothers hkeys, hselected⟩
  refine ⟨fields, ?_, mem_iff_of_names fun name ↦ ?_⟩
  · rw [ListRequest.ofParams_eq_ok_iff, ofParams_filter_eq_of_others hothers,
      first?_eq_of_others hothers (by decide), first?_eq_of_others hothers (by decide),
      first?_eq_of_others hothers (by decide)]
    exact ⟨⟨hfilters, hwell'⟩, hfields', hfilter, hsort, hwindow⟩
  · rw [hasked, mem_map_name_iff_of_accepted hwell' hfields']

end Alike

end PlaybookRuns.Query
