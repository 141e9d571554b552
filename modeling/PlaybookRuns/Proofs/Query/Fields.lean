import PlaybookRuns.Proofs.Checked
import PlaybookRuns.Proofs.Keyed
import PlaybookRuns.Proofs.Text.Split
import PlaybookRuns.Query.Fields

/-!
# Fields selected by name

A list of names with commas between them selects the fields with these names, in their order. Main
statements: a tree selects fields exactly where it is empty or has nothing but names of fields at
`data`, and is refused for the first other name there.
-/

namespace PlaybookRuns.Query

/-- Fields that are told apart by names which can stand in a list. -/
class LawfulNames (φ : Type) [FieldSet φ] : Prop where
  ofName?_name (field : φ) : FieldSet.ofName? (FieldSet.name field) = some field
  name_ne_empty (field : φ) : FieldSet.name field ≠ ""
  not_mem_name (field : φ) : ',' ∉ (FieldSet.name field).toList
  trim_name (field : φ) : Text.trim (FieldSet.name field) = FieldSet.name field

/-- The names of the fields of runs are told apart. -/
instance : LawfulNames RunField where
  ofName?_name field := by cases field <;> rfl
  name_ne_empty field := by cases field <;> decide
  not_mem_name field := by cases field <;> decide
  trim_name field := by cases field <;> decide

/-- The names of the fields of hosts are told apart. -/
instance : LawfulNames HostField where
  ofName?_name field := by cases field <;> rfl
  name_ne_empty field := by cases field <;> decide
  not_mem_name field := by cases field <;> decide
  trim_name field := by cases field <;> decide

/-! ## Names -/

/-- Whether a name stands in lists of names with commas between them, white space around it
dropped. -/
def IsRequested (lists : List String) (name : String) : Prop :=
  name ≠ "" ∧ ∃ list ∈ lists, ∃ part ∈ Text.splitText ',' list, Text.trim part = name

/-- Whether a field of a resource has a name. -/
def IsFieldName (φ : Type) [FieldSet φ] (name : String) : Prop :=
  name ∈ (FieldSet.all : List φ).map FieldSet.name

/-- A name is looked for among those of all fields. -/
instance (φ : Type) [FieldSet φ] (name : String) : Decidable (IsFieldName φ name) :=
  inferInstanceAs (Decidable (_ ∈ _))

/-- The requested names are those that stand in a list. -/
theorem mem_requestedNames_iff {lists : List String} {name : String} :
    name ∈ requestedNames lists ↔ IsRequested lists name := by
  simp only [requestedNames, List.mem_filter, List.mem_map, List.mem_flatMap, decide_eq_true_eq,
    IsRequested]
  constructor
  · rintro ⟨⟨part, ⟨list, hlist, hpart⟩, rfl⟩, hne⟩
    exact ⟨hne, list, hlist, part, hpart, rfl⟩
  · rintro ⟨hne, list, hlist, part, hpart, rfl⟩
    exact ⟨⟨part, ⟨list, hlist, hpart⟩, rfl⟩, hne⟩

variable {φ : Type} [FieldSet φ]

/-- A name is read as a field exactly where it is that of one. -/
theorem exists_ofName?_iff {name : String} :
    (∃ field : φ, FieldSet.ofName? name = some field) ↔ IsFieldName φ name := by
  rw [← Option.isSome_iff_exists, FieldSet.ofName?, List.find?_isSome, IsFieldName, List.mem_map]
  simp only [decide_eq_true_eq]

/-- The field with a name. -/
def fieldOfName (φ : Type) [FieldSet φ] (name : String) : Except QueryError φ :=
  match FieldSet.ofName? name with
  | some field => .ok field
  | none => .error (.unknownField name)

/-- Names are read one after the other. -/
theorem fieldsOfNames_eq (names : List String) :
    (fieldsOfNames names : Except QueryError (List φ)) = names.mapM (fieldOfName φ) := rfl

/-- A name is refused where no field has it. -/
theorem refusal?_fieldOfName (name : String) :
    Checked.refusal? (fieldOfName φ name) =
      if IsFieldName φ name then none else some (.unknownField name) := by
  rw [fieldOfName]
  cases h : (FieldSet.ofName? name : Option φ) with
  | some field => rw [if_pos (exists_ofName?_iff.1 ⟨field, h⟩)]; rfl
  | none =>
    rw [if_neg fun hname ↦ ?_]
    · rfl
    · obtain ⟨field, hfield⟩ := exists_ofName?_iff.2 hname
      cases h.symm.trans hfield

/-- Names are refused for the first that no field has. -/
theorem fieldsOfNames_eq_error_iff {names : List String} {e : QueryError} :
    (fieldsOfNames names : Except QueryError (List φ)) = .error e ↔
      ∃ before name after, names = before ++ name :: after ∧ (∀ n ∈ before, IsFieldName φ n) ∧
        ¬IsFieldName φ name ∧ e = .unknownField name := by
  rw [fieldsOfNames_eq, ← Checked.refusal?_eq_some_iff, Checked.refusal?_mapM,
    List.findSome?_eq_some_iff]
  simp only [refusal?_fieldOfName, ite_eq_left_iff, reduceCtorEq, imp_false, not_not]
  constructor
  · rintro ⟨before, name, after, rfl, hname, hbefore⟩
    split at hname
    · cases hname
    · next hunknown =>
      exact ⟨before, name, after, rfl, hbefore, hunknown, (Option.some.inj hname).symm⟩
  · rintro ⟨before, name, after, rfl, hbefore, hunknown, rfl⟩
    exact ⟨before, name, after, rfl, if_neg hunknown, hbefore⟩

/-- Where there are lists of names at `data` and nothing else, a tree is refused for the first name
that no field has. -/
theorem fieldsOfTree_leaf_eq_error_iff {values : List String} {e : QueryError} :
    (fieldsOfTree [("data", .leaf values)] : Except QueryError (List φ)) = .error e ↔
      ∃ before name after, requestedNames values = before ++ name :: after ∧
        (∀ n ∈ before, IsFieldName φ n) ∧ ¬IsFieldName φ name ∧ e = .unknownField name :=
  fieldsOfNames_eq_error_iff

variable [LawfulNames φ]

/-- The names in a list of names of fields are these, and none where there are none. -/
theorem requestedNames_intercalate (fields : List φ) :
    requestedNames [",".intercalate (fields.map FieldSet.name)] = fields.map FieldSet.name := by
  by_cases hne : fields = []
  · subst hne
    rfl
  · have hsplit : Text.splitText ',' (",".intercalate (fields.map FieldSet.name)) =
        fields.map FieldSet.name := by
      apply Text.splitText_intercalate (by simpa using hne)
      simpa using fun field _ ↦ LawfulNames.not_mem_name field
    simp [requestedNames, hsplit, Function.comp_def, LawfulNames.trim_name,
      LawfulNames.name_ne_empty]

/-- A list of names of fields selects these fields, in order. -/
theorem selectFields_names (fields : List φ) :
    selectFields (some [",".intercalate (fields.map FieldSet.name)]) = .ok fields := by
  rw [selectFields, requestedNames_intercalate, fieldsOfNames, Checked.mapM_eq_ok_iff,
    List.map_map]
  apply List.map_congr_left
  intro field _
  simp [LawfulNames.ofName?_name]

/-- The field that is found by a name has that name. -/
theorem ofName?_eq_some_iff {name : String} {field : φ} :
    FieldSet.ofName? name = some field ↔ FieldSet.name field = name := by
  constructor
  · intro h
    rw [FieldSet.ofName?] at h
    simpa using List.find?_some h
  · rintro rfl
    exact LawfulNames.ofName?_name field

/-- Fields with one name are the same. -/
theorem LawfulNames.eq_of_name_eq {field field' : φ}
    (h : FieldSet.name field = FieldSet.name field') : field = field' :=
  Option.some.inj ((ofName?_eq_some_iff.2 rfl).symm.trans (ofName?_eq_some_iff.2 h.symm))

/-- A name is read as the field that has it. -/
theorem fieldOfName_eq_ok_iff {name : String} {field : φ} :
    fieldOfName φ name = .ok field ↔ FieldSet.name field = name := by
  rw [fieldOfName, ← ofName?_eq_some_iff]
  cases (FieldSet.ofName? name : Option φ) <;> simp

/-- Names select the fields that have them, in their order. -/
theorem fieldsOfNames_eq_ok_iff {names : List String} {fields : List φ} :
    fieldsOfNames names = .ok fields ↔ fields.map FieldSet.name = names := by
  rw [fieldsOfNames_eq, Checked.mapM_eq_ok_iff]
  induction names generalizing fields with
  | nil => cases fields <;> simp
  | cons name names ih =>
    cases fields with
    | nil => simp
    | cons field fields =>
      simp only [List.map_cons, List.cons.injEq, fieldOfName_eq_ok_iff, ih]

/-- The names of fields are the names that a field has. -/
theorem isFieldName_iff {name : String} :
    IsFieldName φ name ↔ ∃ field : φ, FieldSet.name field = name := by
  simp only [← exists_ofName?_iff, ofName?_eq_some_iff]

/-- There are fields for names exactly where each is the name of one. -/
theorem exists_map_name_eq_iff {names : List String} :
    (∃ fields : List φ, fields.map FieldSet.name = names) ↔ ∀ name ∈ names, IsFieldName φ name := by
  induction names with
  | nil => exact iff_of_true ⟨[], rfl⟩ nofun
  | cons name names ih =>
    rw [List.forall_mem_cons, ← ih, isFieldName_iff]
    constructor
    · rintro ⟨fields, hfields⟩
      obtain ⟨field, fields, rfl, hfield, hrest⟩ := List.map_eq_cons_iff.1 hfields
      exact ⟨⟨field, hfield⟩, fields, hrest⟩
    · rintro ⟨⟨field, rfl⟩, fields, rfl⟩
      exact ⟨field :: fields, rfl⟩

/-! ## Trees -/

private theorem key_eq_of_requestedLists {soFar lists : Option (List String)} {tree : Tree}
    (h : requestedLists soFar tree = .ok lists) : ∀ e ∈ tree, e.1 = "data" := by
  induction tree generalizing soFar with
  | nil => exact nofun
  | cons e tree ih =>
    obtain ⟨key, node⟩ := e
    simp only [requestedLists, Checked.throw_bind, Checked.ite_throw_eq_ok_iff,
      Checked.bind_eq_ok_iff, not_not] at h
    obtain ⟨rfl, values, -, hrest⟩ := h
    exact List.forall_mem_cons.2 ⟨rfl, ih hrest⟩

private theorem eq_nil_or_singleton {key : String} {tree : Tree} (hsorted : Keyed.Sorted tree)
    (hkeys : ∀ e ∈ tree, e.1 = key) : tree = [] ∨ ∃ node, tree = [(key, node)] := by
  match tree with
  | [] => exact .inl rfl
  | [(_, node)] =>
    obtain rfl := hkeys _ List.mem_cons_self
    exact .inr ⟨node, rfl⟩
  | e :: e' :: _ =>
    have hlt : e.1 < e'.1 := (List.pairwise_cons.1 hsorted).1 e' List.mem_cons_self
    rw [hkeys e (by simp), hkeys e' (by simp)] at hlt
    exact absurd hlt (Std.lt_irrefl)

/-- Lists of names are found where there is nothing, or values at `data` and nothing else. -/
theorem requestedLists_eq_ok_iff {tree : Tree} (hsorted : Keyed.Sorted tree)
    {lists : Option (List String)} :
    requestedLists none tree = .ok lists ↔
      tree = [] ∧ lists = none ∨
        ∃ values, tree = [("data", .leaf values)] ∧ lists = some values := by
  constructor
  · intro h
    have hkeys := key_eq_of_requestedLists h
    rcases eq_nil_or_singleton hsorted hkeys with rfl | ⟨node, rfl⟩
    · exact .inl ⟨rfl, (Except.ok.inj h).symm⟩
    · cases node with
      | leaf values => exact .inr ⟨values, rfl, (Except.ok.inj h).symm⟩
      | branch children => cases h
  · rintro (⟨rfl, rfl⟩ | ⟨values, rfl, rfl⟩) <;> rfl

/-- A tree selects the defaults where there is nothing in it, and the fields that are named where
there are lists of names at `data` and nothing else. -/
theorem fieldsOfTree_eq_ok_iff {tree : Tree} (hsorted : Keyed.Sorted tree) {fields : List φ} :
    fieldsOfTree tree = .ok fields ↔
      tree = [] ∧ fields = FieldSet.defaults ∨
        ∃ values, tree = [("data", .leaf values)] ∧
          fields.map FieldSet.name = requestedNames values := by
  simp only [fieldsOfTree, Checked.bind_eq_ok_iff, requestedLists_eq_ok_iff hsorted]
  constructor
  · rintro ⟨lists, ⟨rfl, rfl⟩ | ⟨values, rfl, rfl⟩, hselected⟩
    · exact .inl ⟨rfl, (Except.ok.inj hselected).symm⟩
    · exact .inr ⟨values, rfl, fieldsOfNames_eq_ok_iff.1 hselected⟩
  · rintro (⟨rfl, rfl⟩ | ⟨values, rfl, hnames⟩)
    · exact ⟨none, .inl ⟨rfl, rfl⟩, rfl⟩
    · exact ⟨some values, .inr ⟨values, rfl, rfl⟩, fieldsOfNames_eq_ok_iff.2 hnames⟩

private theorem exists_fieldsOfTree_of_sound {tree : Tree} (hsorted : Keyed.Sorted tree)
    (hkeys : ∀ entry ∈ tree, entry.1 = "data")
    (hbranch : ∀ children, ("data", .branch children) ∉ tree)
    (hnames : ∀ values, ("data", .leaf values) ∈ tree →
      ∀ name, IsRequested values name → IsFieldName φ name) :
    ∃ fields : List φ, fieldsOfTree tree = .ok fields := by
  rcases eq_nil_or_singleton hsorted hkeys with rfl | ⟨node, rfl⟩
  · exact ⟨_, (fieldsOfTree_eq_ok_iff hsorted).2 (.inl ⟨rfl, rfl⟩)⟩
  · cases node with
    | branch children => exact absurd List.mem_cons_self (hbranch children)
    | leaf values =>
      have hknown : ∀ name ∈ requestedNames values, IsFieldName φ name := fun name hname ↦
        hnames values List.mem_cons_self name (mem_requestedNames_iff.1 hname)
      obtain ⟨fields, hfields⟩ := exists_map_name_eq_iff.2 hknown
      exact ⟨fields, (fieldsOfTree_eq_ok_iff hsorted).2 (.inr ⟨values, rfl, hfields⟩)⟩

/-- A tree is refused where it has another key than `data`, or brackets below that, or there a name
that no field has. -/
theorem fieldsOfTree_eq_error_iff {tree : Tree} (hsorted : Keyed.Sorted tree) :
    (∃ e, (fieldsOfTree tree : Except QueryError (List φ)) = .error e) ↔
      (∃ entry ∈ tree, entry.1 ≠ "data") ∨ (∃ children, ("data", .branch children) ∈ tree) ∨
        ∃ values, ("data", .leaf values) ∈ tree ∧
          ∃ name, IsRequested values name ∧ ¬IsFieldName φ name := by
  have hrefused : (∃ e, (fieldsOfTree tree : Except QueryError (List φ)) = .error e) ↔
      ¬∃ fields, (fieldsOfTree tree : Except QueryError (List φ)) = .ok fields := by
    cases (fieldsOfTree tree : Except QueryError (List φ)) <;> simp
  rw [hrefused]
  constructor
  · intro hnone
    by_contra hsound
    push Not at hsound
    obtain ⟨hkeys, hbranch, hnames⟩ := hsound
    exact hnone (exists_fieldsOfTree_of_sound hsorted hkeys hbranch hnames)
  · rintro hfault ⟨fields, hfields⟩
    rcases (fieldsOfTree_eq_ok_iff hsorted).1 hfields with ⟨rfl, -⟩ | ⟨values, rfl, hnames⟩
    · rcases hfault with ⟨_, hentry, -⟩ | ⟨_, hentry⟩ | ⟨_, hentry, -⟩ <;> cases hentry
    · rcases hfault with ⟨entry, hentry, hkey⟩ | ⟨children, hentry⟩ |
        ⟨values', hentry, name, hname, hunknown⟩
      · exact hkey (by rw [List.mem_singleton.1 hentry])
      · cases List.mem_singleton.1 hentry
      · obtain rfl : values' = values := by simpa using hentry
        exact hunknown (exists_map_name_eq_iff.1 ⟨fields, hnames⟩ name
          (mem_requestedNames_iff.2 hname))

end PlaybookRuns.Query
