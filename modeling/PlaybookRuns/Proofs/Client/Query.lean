import PlaybookRuns.Client.Query
import PlaybookRuns.Proofs.Query.Fields
import PlaybookRuns.Proofs.Query.Gathering
import PlaybookRuns.Proofs.Text.Form

/-!
# Queries of a client as a server reads them

What is found in the text of a query that was built call by call. Main statement: the parameters of
the calls in their order, of which the filters make a tree with a leaf at each path, and the fields
a selection.
-/

namespace PlaybookRuns.Client.QueryBuilder

open PlaybookRuns.Query

/-! ## Calls -/

/-- A call that adds a parameter to a query. -/
inductive Call where
  | filter (path value : String)
  | label (key value : String)
  | fields (names : List String)
  | sortBy (order : String)
  | limit (n : Int64)
  | offset (n : Int64)
  deriving DecidableEq, Repr

namespace Call

/-- The query after a call. -/
def run (query : QueryBuilder) : Call → QueryBuilder
  | filter path value => query.filter path value
  | label key value => query.label key value
  | fields names => query.fields names
  | sortBy order => query.sortBy order
  | limit n => query.limit n
  | offset n => query.offset n

/-- The parameter that a call adds. -/
def param : Call → Text.Form.Pair
  | filter path value => (filterName path, value)
  | label key value => (filterName ("labels." ++ key), value)
  | fields names => ("fields[data]", ",".intercalate names)
  | sortBy order => ("sort_by", order)
  | limit n => ("limit", toString n.toInt)
  | offset n => ("offset", toString n.toInt)

/-- The dotted path and the value of a call that asks for a filter. -/
def filter? : Call → Option (String × String)
  | filter path value => some (path, value)
  | label key value => some ("labels." ++ key, value)
  | _ => none

/-- The names of a call that asks for fields. -/
def fields? : Call → Option (List String)
  | fields names => some names
  | _ => none

end Call

/-- The query that calls build. -/
def build (calls : List Call) : QueryBuilder := calls.foldl Call.run empty

/-- The dotted paths and the values of the filters that calls ask for, in order. -/
def filters (calls : List Call) : List (String × String) := calls.filterMap Call.filter?

/-- The lists of names of the fields that calls ask for, in order. -/
def fieldLists (calls : List Call) : List (List String) := calls.filterMap Call.fields?

/-- A query holds the parameters of its calls, in order. -/
theorem params_build (calls : List Call) : (build calls).params = calls.map Call.param := by
  suffices h : ∀ query : QueryBuilder,
      (calls.foldl Call.run query).params = query.params ++ calls.map Call.param from h empty
  induction calls with
  | nil => exact fun query ↦ (List.append_nil _).symm
  | cons call calls ih =>
    intro query
    have hcall : (call.run query).params = query.params ++ [call.param] := by cases call <;> rfl
    rw [List.foldl_cons, ih, hcall, List.append_assoc, List.map_cons, List.singleton_append]

/-- The text of a query reads as the parameters of its calls, in order. -/
theorem ofText_build (calls : List Call) :
    Params.ofText (build calls).toText = calls.map Call.param := by
  rw [toText, params_build]
  exact Text.Form.decode_encode _

/-! ## Filters -/

/-- The name of a filter is its root and the segments of its path in brackets. -/
theorem toList_filterName (path : String) :
    (filterName path).toList = "filter".toList ++ brackets (Text.splitText '.' path) := by
  rw [filterName, String.toList_append, String.toList_join, List.flatMap_map, brackets]
  simp

/-- What belongs to the root of filters in the name of one are the brackets. -/
theorem suffix?_filterName (path : String) :
    suffix? "filter" (filterName path) = some (brackets (Text.splitText '.' path)) := by
  have hhead : (brackets (Text.splitText '.' path)).head? = some '[' := by
    obtain ⟨segment, segments, hsegments⟩ :=
      List.exists_cons_of_ne_nil (Text.splitText_ne_nil '.' path)
    simp [hsegments, brackets]
  exact suffix?_eq_some_iff.2 ⟨toList_filterName path, .inr hhead⟩

/-- A filter has its path in the tree where no segment of the path is empty. -/
theorem pathOf?_filterName_eq_some_iff {path : String} {segments : List String}
    (h : ∀ segment ∈ Text.splitText '.' path, BracketFree segment) :
    DeepObject.pathOf? "filter" (filterName path) = some segments ↔
      segments = Text.splitText '.' path ∧ ∀ segment ∈ Text.splitText '.' path, segment ≠ "" := by
  rw [DeepObject.pathOf?, suffix?_filterName, Option.bind_some, path?, Option.filter_eq_some_iff,
    readSegments_brackets_eq_some_iff h]
  constructor
  · exact And.left
  · rintro ⟨rfl, hsegments⟩
    exact ⟨⟨rfl, hsegments⟩, by simpa using Text.splitText_ne_nil '.' path⟩

/-- That the paths of filters make a tree: their segments can stand in brackets, and no path leads
on from another. -/
structure Separate (calls : List Call) : Prop where
  segments : ∀ f ∈ filters calls, ∀ segment ∈ Text.splitText '.' f.1,
    segment ≠ "" ∧ BracketFree segment
  apart : ∀ f ∈ filters calls, ∀ g ∈ filters calls,
    Text.splitText '.' f.1 <+: Text.splitText '.' g.1 → f.1 = g.1

/-- The parameter of a filter is its name and its value. -/
theorem Call.param_of_filter? {call : Call} {f : String × String} (h : call.filter? = some f) :
    call.param = (filterName f.1, f.2) := by
  cases call <;> cases h <;> rfl

/-- No other call adds to the root of filters. -/
theorem Call.suffix?_param_of_filter? {call : Call} (h : call.filter? = none) :
    suffix? "filter" call.param.1 = none := by
  have hnames : ∀ name ∈ ["fields[data]", "sort_by", "limit", "offset"],
      suffix? "filter" name = none := by decide
  cases call with
  | filter path value => cases h
  | label key value => cases h
  | _ => exact hnames _ (by simp [param])

variable {calls : List Call}

private theorem pathOf?_param (h : Separate calls) {call : Call} (hcall : call ∈ calls) :
    DeepObject.pathOf? "filter" call.param.1 = call.filter?.map (Text.splitText '.' ·.1) := by
  cases hfilter : call.filter? with
  | none => rw [DeepObject.pathOf?, call.suffix?_param_of_filter? hfilter]; rfl
  | some f =>
    have hsegments := h.segments f (List.mem_filterMap.2 ⟨call, hcall, hfilter⟩)
    rw [call.param_of_filter? hfilter, Option.map_some,
      pathOf?_filterName_eq_some_iff fun segment hs ↦ (hsegments segment hs).2]
    exact ⟨rfl, fun segment hs ↦ (hsegments segment hs).1⟩

private theorem valuesOf_params {path : List String} (h : ∀ call ∈ calls,
      DeepObject.pathOf? "filter" call.param.1 = call.filter?.map (Text.splitText '.' ·.1)) :
    DeepObject.valuesOf (calls.map Call.param) "filter" path =
      ((filters calls).filter (Text.splitText '.' ·.1 = path)).map (·.2) := by
  induction calls with
  | nil => rfl
  | cons call calls ih =>
    obtain ⟨hcall, hcalls⟩ := List.forall_mem_cons.1 h
    have hrest := ih hcalls
    rw [DeepObject.valuesOf, filters] at hrest ⊢
    rw [List.map_cons, List.filter_cons, hcall, List.filterMap_cons]
    cases hfilter : call.filter? with
    | none => simpa using hrest
    | some f =>
      by_cases hf : Text.splitText '.' f.1 = path
      · simp [hf, hrest, call.param_of_filter? hfilter]
      · simp [hf, hrest]

private theorem malformed_filters_eq_nil (h : Separate calls) :
    (DeepObject.ofParams (calls.map Call.param) "filter").malformed = [] := by
  apply DeepObject.malformed_eq_nil
  · rw [List.forall_mem_map]
    intro call hcall hbelongs
    rw [pathOf?_param h hcall, Option.isSome_map]
    cases hfilter : call.filter? with
    | none => simp [call.suffix?_param_of_filter? hfilter] at hbelongs
    | some f => rfl
  · simp only [List.forall_mem_map]
    intro call hcall other hother path hpath path' hpath' hprefix
    rw [pathOf?_param h hcall] at hpath
    rw [pathOf?_param h hother] at hpath'
    obtain ⟨f, hf, rfl⟩ := Option.map_eq_some_iff.1 hpath
    obtain ⟨g, hg, rfl⟩ := Option.map_eq_some_iff.1 hpath'
    rw [h.apart f (List.mem_filterMap.2 ⟨call, hcall, hf⟩) g
      (List.mem_filterMap.2 ⟨other, hother, hg⟩) hprefix]

/-- The filters of calls with separate paths are gathered without a fault, in a tree with a leaf at
the path of each, which holds its values in order, and no other. -/
theorem filters_gathered (h : Separate calls) :
    (DeepObject.ofParams (calls.map Call.param) "filter").malformed = [] ∧ ∀ path values,
      (DeepObject.ofParams (calls.map Call.param) "filter").tree.HasLeaf path values ↔
        ∃ f ∈ filters calls, path = Text.splitText '.' f.1 ∧
          values = ((filters calls).filter (·.1 = f.1)).map (·.2) := by
  have hmalformed := malformed_filters_eq_nil h
  refine ⟨hmalformed, fun path values ↦ ?_⟩
  rw [DeepObject.hasLeaf_ofParams_iff hmalformed, valuesOf_params fun call ↦ pathOf?_param h]
  constructor
  · rintro ⟨hne, rfl⟩
    obtain ⟨value, hvalue⟩ := List.exists_mem_of_ne_nil _ hne
    obtain ⟨f, hf, -⟩ := List.mem_map.1 hvalue
    obtain ⟨hmem, hpath⟩ := List.mem_filter.1 hf
    obtain rfl := of_decide_eq_true hpath
    exact ⟨f, hmem, rfl, by simp only [Text.splitText_inj]⟩
  · rintro ⟨f, hf, rfl, rfl⟩
    simp only [Text.splitText_inj, and_true]
    exact List.ne_nil_of_mem (List.mem_map_of_mem (List.mem_filter.2 ⟨hf, decide_eq_true rfl⟩))

/-! ## Fields -/

/-- No filter belongs to the root of fields. -/
theorem suffix?_fields_filterName (path : String) : suffix? "fields" (filterName path) = none := by
  cases h : suffix? "fields" (filterName path) with
  | none => rfl
  | some rest =>
    have hname := (suffix?_eq_some_iff.1 h).1
    rw [toList_filterName] at hname
    cases hname

private theorem filter_belongs_fields (calls : List Call) :
    (calls.map Call.param).filter (DeepObject.belongs "fields") =
      (fieldLists calls).map fun names ↦ ("fields[data]", ",".intercalate names) := by
  have hnames : suffix? "fields" "fields[data]" = some "[data]".toList ∧
      suffix? "fields" "sort_by" = none ∧ suffix? "fields" "limit" = none ∧
      suffix? "fields" "offset" = none := by decide
  induction calls with
  | nil => rfl
  | cons call calls ih =>
    cases call <;>
      simpa [Call.param, DeepObject.belongs, suffix?_fields_filterName, hnames, fieldLists,
        List.filterMap_cons, Call.fields?] using ih

/-- Where no fields are asked for, nothing is gathered for them. -/
theorem ofParams_fields_eq_empty (h : fieldLists calls = []) :
    DeepObject.ofParams (calls.map Call.param) "fields" = .empty := by
  rw [DeepObject.ofParams_eq_foldl_filter, filter_belongs_fields, h]
  rfl

/-- One list of names of fields selects these fields, in order. -/
theorem fields_selected {φ : Type} [FieldSet φ] [LawfulNames φ] {selected : List φ}
    (h : fieldLists calls = [selected.map FieldSet.name]) :
    fieldsOfTree (DeepObject.ofParams (calls.map Call.param) "fields").tree = .ok selected := by
  have hsuffix : suffix? "fields" "fields[data]" = some "[data]".toList := by decide
  have hpath : path? "[data]".toList = some ["data"] := by decide
  have hgathered (list : String) : [("fields[data]", list)].foldl (DeepObject.add "fields") .empty =
      ⟨[("data", .leaf [list])], []⟩ :=
    DeepObject.foldl_add_new_leaf hsuffix hpath (List.cons_ne_nil list []) rfl
  have htree (list : String) :
      fieldsOfTree (φ := φ) [("data", .leaf [list])] = selectFields (some [list]) := by
    simp [fieldsOfTree, requestedLists, Node.values, bind, Except.bind]
  rw [DeepObject.ofParams_eq_foldl_filter, filter_belongs_fields, h, List.map_singleton,
    ← selectFields_names selected, ← htree]
  exact congrArg (fun object : DeepObject ↦ fieldsOfTree object.tree) (hgathered _)

/-! ## Reading -/

/-- A server reads in the text of a query the parameters of the calls that built it. Filters with
separate paths it gathers without a fault, each at its path with its values in order, and in one
list of names of fields it finds these fields, in order. -/
theorem read_build (calls : List Call) :
    Params.ofText (build calls).toText = calls.map Call.param ∧
    (Separate calls →
      (DeepObject.ofParams (Params.ofText (build calls).toText) "filter").malformed = [] ∧
      ∀ path values, (DeepObject.ofParams (Params.ofText (build calls).toText)
          "filter").tree.HasLeaf path values ↔
        ∃ f ∈ filters calls, path = Text.splitText '.' f.1 ∧
          values = ((filters calls).filter (·.1 = f.1)).map (·.2)) ∧
    (∀ selected : List RunField, fieldLists calls = [selected.map FieldSet.name] →
      fieldsOfTree (DeepObject.ofParams (Params.ofText (build calls).toText) "fields").tree =
        .ok selected) ∧
    ∀ selected : List HostField, fieldLists calls = [selected.map FieldSet.name] →
      fieldsOfTree (DeepObject.ofParams (Params.ofText (build calls).toText) "fields").tree =
        .ok selected := by
  rw [ofText_build]
  exact ⟨rfl, filters_gathered, fun _ ↦ fields_selected, fun _ ↦ fields_selected⟩

/-- Two values at one path, with a list of fields and another filter between them. -/
theorem read_build_interleaved :
    let calls : List Call := [.filter "run.id" "a&b=+%", .fields ["status", "host"],
      .label "env" "", .filter "run.id" "[é]", .limit 5]
    let params := Params.ofText (build calls).toText
    (DeepObject.ofParams params "filter").malformed = [] ∧
      (DeepObject.ofParams params "filter").tree.HasLeaf ["run", "id"] ["a&b=+%", "[é]"] ∧
      fieldsOfTree (DeepObject.ofParams params "fields").tree =
        .ok [HostField.status, HostField.host] := by
  intro calls params
  obtain ⟨-, hfilters, -, hfields⟩ := read_build calls
  obtain ⟨hmalformed, hleaves⟩ := hfilters ⟨by decide +kernel, by decide +kernel⟩
  exact ⟨hmalformed, (hleaves _ _).2 ⟨("run.id", "a&b=+%"), by decide +kernel⟩,
    hfields [.status, .host] (by decide +kernel)⟩

end PlaybookRuns.Client.QueryBuilder
