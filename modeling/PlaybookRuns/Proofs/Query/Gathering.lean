import PlaybookRuns.Proofs.Query.DeepObject
import PlaybookRuns.Proofs.Query.Leaves

/-!
# Gathered parameters

What becomes of every parameter under a root. Main statements: parameters are taken or refused one
after another, each by its own key and the paths taken before it alone; the leaves are at the paths
that were taken, with all values given there; and none is refused where each key has a path and no
path leads on from another.
-/

namespace PlaybookRuns.Query.DeepObject

/-! ## Keys -/

/-- Whether a key is a root itself, or leads on from it by an opening bracket. -/
def Under (root key : String) : Prop :=
  key = root ∨ ∃ rest, key.toList = root.toList ++ '[' :: rest

/-- That a key is well-formed and stands for a path: after the root, each segment is written in
brackets of its own. -/
structure Names (root key : String) (path : List String) : Prop where
  ne_nil : path ≠ []
  segments : ∀ segment ∈ path, segment ≠ "" ∧ BracketFree segment
  written : key.toList = root.toList ++ brackets path

/-- Whether one of two paths leads on from the other. -/
def Conflict (p q : List String) : Prop := p ≠ q ∧ (p <+: q ∨ q <+: p)

/-- The path at which a key belongs to a root. -/
def pathOf? (root key : String) : Option (List String) := (suffix? root key).bind path?

/-- Just the keys under a root have a suffix after it. -/
theorem isSome_suffix?_iff {root key : String} : (suffix? root key).isSome ↔ Under root key := by
  simp only [Option.isSome_iff_exists, suffix?_eq_some_iff, List.head?_eq_some_iff, Under]
  constructor
  · rintro ⟨rest, htext, rfl | ⟨rest, rfl⟩⟩
    · exact .inl (String.toList_inj.1 (by simpa using htext))
    · exact .inr ⟨rest, htext⟩
  · rintro (rfl | ⟨rest, htext⟩)
    · exact ⟨[], by simp, .inl rfl⟩
    · exact ⟨'[' :: rest, htext, .inr ⟨rest, rfl⟩⟩

/-- The path of a key is read from it exactly where the key stands for it. -/
theorem pathOf?_eq_some_iff {root key : String} {path : List String} :
    pathOf? root key = some path ↔ Names root key path := by
  simp only [pathOf?, Option.bind_eq_some_iff, suffix?_eq_some_iff, path?_eq_some_iff]
  constructor
  · rintro ⟨_, ⟨htext, -⟩, hne, hsegments, rfl⟩
    exact ⟨hne, hsegments, htext⟩
  · rintro ⟨hne, hsegments, htext⟩
    refine ⟨_, ⟨htext, .inr ?_⟩, hne, hsegments, rfl⟩
    obtain ⟨segment, path, rfl⟩ := List.exists_cons_of_ne_nil hne
    rfl

/-- A key that stands for a path is under the root. -/
theorem Names.under {root key : String} {path : List String} (h : Names root key path) :
    Under root key := by
  obtain ⟨rest, hrest, -⟩ := Option.bind_eq_some_iff.1 (pathOf?_eq_some_iff.2 h)
  exact isSome_suffix?_iff.1 (Option.isSome_of_eq_some hrest)

/-- A key stands for one path at most. -/
theorem Names.unique {root key : String} {path path' : List String} (h : Names root key path)
    (h' : Names root key path') : path = path' :=
  Option.some.inj ((pathOf?_eq_some_iff.2 h).symm.trans (pathOf?_eq_some_iff.2 h'))

/-! ## One parameter after another -/

/-- The values taken at a path, in the order in which they were given. -/
def valuesTakenAt (path : List String) (taken : List (List String × String)) : List String :=
  (taken.filter (·.1 = path)).map (·.2)

/-- What becomes of parameters under a root once values have been taken `before` them: those that
are taken, each with its path, and the keys of those that are refused. -/
inductive Gathers (root : String) :
    (before : List (List String × String)) → Params → (taken : List (List String × String)) →
      (refused : List String) → Prop
  | done {before : List (List String × String)} : Gathers root before [] [] []
  | pass {before taken : List (List String × String)} {key value : String} {params : Params}
      {refused : List String} (hunder : ¬Under root key)
      (hrest : Gathers root before params taken refused) :
      Gathers root before ((key, value) :: params) taken refused
  | take {before taken : List (List String × String)} {key value : String} {params : Params}
      {refused path : List String} (hnames : Names root key path)
      (hfree : ∀ p ∈ before.map (·.1), ¬Conflict p path)
      (hrest : Gathers root (before ++ [(path, value)]) params taken refused) :
      Gathers root before ((key, value) :: params) ((path, value) :: taken) refused
  | refuse {before taken : List (List String × String)} {key value : String} {params : Params}
      {refused : List String} (hunder : Under root key)
      (hrefused : ∀ path, Names root key path → ∃ p ∈ before.map (·.1), Conflict p path)
      (hrest : Gathers root before params taken refused) :
      Gathers root before ((key, value) :: params) taken (key :: refused)

namespace Gathers

/-- Every parameter is passed over, taken or refused. -/
theorem exists_gathers (root : String) (before : List (List String × String)) (params : Params) :
    ∃ taken refused, Gathers root before params taken refused := by
  induction params generalizing before with
  | nil => exact ⟨_, _, .done⟩
  | cons param params ih =>
    obtain ⟨key, value⟩ := param
    by_cases hunder : Under root key
    · by_cases htaken : ∃ path, Names root key path ∧ ∀ p ∈ before.map (·.1), ¬Conflict p path
      · obtain ⟨path, hnames, hfree⟩ := htaken
        obtain ⟨taken, refused, hrest⟩ := ih (before ++ [(path, value)])
        exact ⟨_, _, .take hnames hfree hrest⟩
      · push Not at htaken
        obtain ⟨taken, refused, hrest⟩ := ih before
        exact ⟨_, _, .refuse hunder htaken hrest⟩
    · obtain ⟨taken, refused, hrest⟩ := ih before
      exact ⟨_, _, .pass hunder hrest⟩

/-- No parameter is both taken and refused, or taken at two paths. -/
theorem unique {root : String} {before taken taken' : List (List String × String)} {params : Params}
    {refused refused' : List String} (h : Gathers root before params taken refused)
    (h' : Gathers root before params taken' refused') : taken' = taken ∧ refused' = refused := by
  -- the root tells what is passed over, and the paths before what is taken, so the rules exclude
  -- each other
  induction h generalizing taken' refused' with
  | done =>
    cases h'
    exact ⟨rfl, rfl⟩
  | pass hunder _ ih =>
    cases h' with
    | pass _ hrest => exact ih hrest
    | take hnames _ _ => exact absurd hnames.under hunder
    | refuse hunder' _ _ => exact absurd hunder' hunder
  | take hnames hfree _ ih =>
    cases h' with
    | pass hunder' _ => exact absurd hnames.under hunder'
    | take hnames' _ hrest =>
      obtain rfl := hnames.unique hnames'
      obtain ⟨rfl, rfl⟩ := ih hrest
      exact ⟨rfl, rfl⟩
    | refuse _ hrefused _ =>
      obtain ⟨p, hp, hconflict⟩ := hrefused _ hnames
      exact absurd hconflict (hfree p hp)
  | refuse hunder hrefused _ ih =>
    cases h' with
    | pass hunder' _ => exact absurd hunder hunder'
    | take hnames hfree _ =>
      obtain ⟨p, hp, hconflict⟩ := hrefused _ hnames
      exact absurd hconflict (hfree p hp)
    | refuse _ _ hrest =>
      obtain ⟨rfl, rfl⟩ := ih hrest
      exact ⟨rfl, rfl⟩

end Gathers

/-! ## The tree so far -/

/-- That a tree holds just the values that have been taken. -/
structure Holds (tree : Tree) (taken : List (List String × String)) : Prop where
  grown : tree.Grown
  valuesAt_eq : ∀ path, Node.valuesAt path (some (.branch tree)) = valuesTakenAt path taken

namespace Holds

variable {tree : Tree} {taken : List (List String × String)}

/-- An empty tree holds nothing. -/
theorem nil : Holds [] [] := by
  refine ⟨⟨.nil, nofun⟩, fun path ↦ ?_⟩
  cases path with
  | nil => rfl
  | cons key path => exact Node.valuesAt_none path

/-- There are values where some have been taken, and nowhere else. -/
theorem valuesAt_ne_nil_iff (h : Holds tree taken) {path : List String} :
    Node.valuesAt path (some (.branch tree)) ≠ [] ↔ path ∈ taken.map (·.1) := by
  rw [h.valuesAt_eq, valuesTakenAt]
  simp only [ne_eq, List.map_eq_nil_iff, List.filter_eq_nil_iff, decide_eq_true_eq, not_forall,
    not_not, exists_prop, List.mem_map]

/-- A path in conflict with one that was taken is not taken. -/
theorem insert_of_conflict (h : Holds tree taken) {p path : List String}
    (hp : p ∈ taken.map (·.1)) (hconflict : Conflict p path) (value : String) :
    tree.insert value path = (tree, false) := by
  rcases hinsert : tree.insert value path with ⟨tree', _ | _⟩
  · rw [Tree.eq_of_insert hinsert]
  · have hplace := Tree.insert_eq_iff.1 hinsert
    have heq := Node.eq_of_place hplace (h.valuesAt_ne_nil_iff.2 hp) hconflict.2
    exact absurd heq hconflict.1

/-- A path in conflict with none that was taken is taken. -/
theorem exists_insert (h : Holds tree taken) {path : List String} (hne : path ≠ [])
    (hfree : ∀ p ∈ taken.map (·.1), ¬Conflict p path) (value : String) :
    ∃ tree', tree.insert value path = (tree', true) ∧ Holds tree' (taken ++ [(path, value)]) := by
  obtain ⟨tree', hinsert⟩ := h.grown.exists_insert value hne fun p hp hcomparable ↦
    not_not.1 fun hpath ↦ hfree p (h.valuesAt_ne_nil_iff.1 hp) ⟨hpath, hcomparable⟩
  refine ⟨tree', hinsert, h.grown.insert hinsert, fun p ↦ ?_⟩
  rw [Node.valuesAt_place (Tree.insert_eq_iff.1 hinsert), h.valuesAt_eq, valuesTakenAt]
  by_cases hp : p = path
  · subst hp
    simp [valuesTakenAt]
  · simp [valuesTakenAt, hp, Ne.symm hp]

/-- The leaves are at the paths that were taken, with all values given there. -/
theorem hasLeaf_iff (h : Holds tree taken) {path values : List String} :
    tree.HasLeaf path values ↔
      path ∈ taken.map (·.1) ∧ values = valuesTakenAt path taken := by
  rw [h.grown.hasLeaf_iff, ← h.valuesAt_ne_nil_iff, h.valuesAt_eq]
  constructor
  · rintro ⟨hne, rfl⟩
    exact ⟨hne, rfl⟩
  · rintro ⟨hne, rfl⟩
    exact ⟨hne, rfl⟩

end Holds

/-! ## Gathering as it runs -/

variable {root : String} {object : DeepObject} {key : String}

private theorem add_of_names {path : List String} (h : Names root key path) (value : String) :
    add root object (key, value) =
      ⟨(object.tree.insert value path).1, if (object.tree.insert value path).2 then
        object.malformed else object.malformed ++ [key]⟩ := by
  obtain ⟨rest, hrest, hpath⟩ := Option.bind_eq_some_iff.1 (pathOf?_eq_some_iff.2 h)
  rw [add, hrest]
  dsimp only
  rw [hpath]

private theorem add_of_no_path (hunder : Under root key) (h : ∀ path, ¬Names root key path)
    (value : String) :
    add root object (key, value) = ⟨object.tree, object.malformed ++ [key]⟩ := by
  obtain ⟨rest, hrest⟩ := Option.isSome_iff_exists.1 (isSome_suffix?_iff.2 hunder)
  have hpath : path? rest = none := by
    rw [Option.eq_none_iff_forall_ne_some]
    intro path hpath
    exact h path (pathOf?_eq_some_iff.1 (by rw [pathOf?, hrest, Option.bind_some, hpath]))
  rw [add, hrest]
  dsimp only
  rw [hpath]

/-- Whatever has been gathered before, gathering goes on with what is taken and refused. -/
theorem Gathers.foldl_add {before taken : List (List String × String)} {params : Params}
    {refused : List String} (h : Gathers root before params taken refused)
    (hbefore : Holds object.tree before) :
    Holds (params.foldl (add root) object).tree (before ++ taken) ∧
      (params.foldl (add root) object).malformed = object.malformed ++ refused := by
  induction h generalizing object with
  | done => simpa using hbefore
  | @pass _ _ key value _ _ hunder _ ih =>
    have hnot : ¬belongs root (key, value) = true := fun h ↦ hunder (isSome_suffix?_iff.1 h)
    rw [List.foldl_cons, add_of_not_belongs hnot]
    exact ih hbefore
  | @take _ taken key value _ _ path hnames hfree _ ih =>
    -- the tree holds what was taken before, so it has room for what does not conflict with that
    obtain ⟨tree, hinsert, hholds⟩ := hbefore.exists_insert hnames.ne_nil hfree value
    have hrest := @ih ⟨tree, object.malformed⟩ hholds
    rw [List.append_assoc] at hrest
    rw [List.foldl_cons, add_of_names hnames, hinsert]
    exact hrest
  | @refuse _ _ key value _ _ hunder hrefused _ ih =>
    have hadd : add root object (key, value) = ⟨object.tree, object.malformed ++ [key]⟩ := by
      by_cases hnames : ∃ path, Names root key path
      · obtain ⟨path, hnames⟩ := hnames
        obtain ⟨p, hp, hconflict⟩ := hrefused path hnames
        rw [add_of_names hnames, hbefore.insert_of_conflict hp hconflict]
        rfl
      · exact add_of_no_path hunder (not_exists.1 hnames) value
    obtain ⟨hholds, hmalformed⟩ := @ih ⟨object.tree, object.malformed ++ [key]⟩ hbefore
    rw [List.foldl_cons, hadd]
    refine ⟨hholds, ?_⟩
    rw [hmalformed, List.append_assoc]
    rfl

/-- What is gathered holds what is taken, and reports what is refused. -/
theorem holds_ofParams {params : Params} {taken : List (List String × String)}
    {refused : List String} (h : Gathers root [] params taken refused) :
    Holds (ofParams params root).tree taken ∧ (ofParams params root).malformed = refused :=
  h.foldl_add (show Holds empty.tree [] from .nil)

/-- Parameters are gathered one after another: a parameter is taken if its key is the root followed
by a path in brackets, and no path taken before it conflicts with that path. The keys of the others
under the root are reported in their order. There is a leaf at each path that was taken, with all
values given there in their order, there is no other, and there is a value under every node. -/
theorem ofParams_iff_gathers (params : Params) (root : String) :
    ∃ taken,
      (∀ taken' refused, Gathers root [] params taken' refused ↔
        taken' = taken ∧ refused = (ofParams params root).malformed) ∧
      (∀ path values, (ofParams params root).tree.HasLeaf path values ↔
        path ∈ taken.map (·.1) ∧ values = valuesTakenAt path taken) ∧
      (ofParams params root).tree.Grown := by
  obtain ⟨taken, refused, hgathers⟩ := Gathers.exists_gathers root [] params
  obtain ⟨hholds, hmalformed⟩ := holds_ofParams hgathers
  refine ⟨taken, fun taken' refused' ↦ ?_, fun path values ↦ hholds.hasLeaf_iff, hholds.grown⟩
  rw [hmalformed]
  constructor
  · exact hgathers.unique
  · rintro ⟨rfl, rfl⟩
    exact hgathers

example :
    (ofParams [("filter[a]", "1"), ("filter[a][b]", "2"), ("filter", "3"), ("filters[a]", "4"),
      ("filter[a]", "5")] "filter").malformed = ["filter[a][b]", "filter"] := by decide +kernel

/-! ## Without conflicts -/

/-- The values that parameters give at a path under a root, in order. -/
def valuesOf (params : Params) (root : String) (path : List String) : List String :=
  (params.filter (pathOf? root ·.1 = some path)).map (·.2)

/-- If no parameter is refused, each that belongs to the root has a path and is taken there. -/
theorem Gathers.of_refused_eq_nil {before taken : List (List String × String)} {params : Params}
    {refused : List String} (h : Gathers root before params taken refused) (hnone : refused = []) :
    (∀ param ∈ params, Under root param.1 → ∃ path, Names root param.1 path) ∧
      ∀ path, valuesTakenAt path taken = valuesOf params root path := by
  induction h with
  | done => exact ⟨nofun, fun _ ↦ rfl⟩
  | pass hunder _ ih =>
    obtain ⟨hnames, hvalues⟩ := ih hnone
    refine ⟨List.forall_mem_cons.2 ⟨fun h ↦ absurd h hunder, hnames⟩, fun path ↦ ?_⟩
    rw [hvalues, valuesOf, valuesOf, List.filter_cons_of_neg]
    exact fun h ↦ hunder (pathOf?_eq_some_iff.1 (of_decide_eq_true h)).under
  | @take _ taken key value params _ path hpath _ _ ih =>
    obtain ⟨hnames, hvalues⟩ := ih hnone
    refine ⟨List.forall_mem_cons.2 ⟨fun _ ↦ ⟨path, hpath⟩, hnames⟩, fun p ↦ ?_⟩
    have hkey := pathOf?_eq_some_iff.2 hpath
    have hrest := hvalues p
    rw [valuesTakenAt, valuesOf] at hrest ⊢
    by_cases hp : path = p
    · simp [hkey, hp, hrest]
    · simp [hkey, hp, hrest]
  | refuse _ _ _ _ => cases hnone

/-- No parameter is refused if each that belongs to the root has a path, and no paths are in
conflict. -/
theorem Gathers.refused_eq_nil {before taken : List (List String × String)} {params : Params}
    {refused : List String} (h : Gathers root before params taken refused)
    (hnames : ∀ param ∈ params, Under root param.1 → ∃ path, Names root param.1 path)
    (hbefore : ∀ p ∈ before.map (·.1), ∀ param ∈ params, ∀ path, Names root param.1 path →
      ¬Conflict p path)
    (hfree : ∀ param ∈ params, ∀ param' ∈ params, ∀ path path', Names root param.1 path →
      Names root param'.1 path' → ¬Conflict path path') : refused = [] := by
  induction h with
  | done => rfl
  | pass hunder _ ih =>
    exact ih (List.forall_mem_cons.1 hnames).2
      (fun p hp param hparam ↦ hbefore p hp param (List.mem_cons_of_mem _ hparam))
      fun p hp q hq ↦ hfree p (List.mem_cons_of_mem _ hp) q (List.mem_cons_of_mem _ hq)
  | @take before _ key value params _ path hpath _ _ ih =>
    refine ih (List.forall_mem_cons.1 hnames).2 ?_
      fun p hp q hq ↦ hfree p (List.mem_cons_of_mem _ hp) q (List.mem_cons_of_mem _ hq)
    intro p hp param hparam path' hpath'
    rw [List.map_append, List.mem_append, List.map_singleton, List.mem_singleton] at hp
    have hmem : param ∈ (key, value) :: params := List.mem_cons_of_mem _ hparam
    rcases hp with hp | rfl
    · exact hbefore p hp param hmem path' hpath'
    · exact hfree _ List.mem_cons_self param hmem _ _ hpath hpath'
  | refuse hunder hrefused _ _ =>
    obtain ⟨path, hpath⟩ := (List.forall_mem_cons.1 hnames).1 hunder
    obtain ⟨p, hp, hconflict⟩ := hrefused path hpath
    exact absurd hconflict (hbefore p hp _ List.mem_cons_self path hpath)

variable {params : Params}

/-- Where no key is malformed, each that belongs to the root has a path, and the values at each path
are those given there. -/
theorem holds_of_malformed_eq_nil (h : (ofParams params root).malformed = []) :
    (∀ param ∈ params, Under root param.1 → ∃ path, Names root param.1 path) ∧
      ∃ taken, Holds (ofParams params root).tree taken ∧
        ∀ path, valuesTakenAt path taken = valuesOf params root path := by
  obtain ⟨taken, refused, hgathers⟩ := Gathers.exists_gathers root [] params
  obtain ⟨hholds, hmalformed⟩ := holds_ofParams hgathers
  obtain ⟨hnames, hvalues⟩ := hgathers.of_refused_eq_nil (hmalformed.symm.trans h)
  exact ⟨hnames, taken, hholds, hvalues⟩

/-- There is a value under every node that has been gathered. -/
theorem grown_ofParams (params : Params) (root : String) : (ofParams params root).tree.Grown := by
  obtain ⟨taken, refused, hgathers⟩ := Gathers.exists_gathers root [] params
  exact (holds_ofParams hgathers).1.grown

/-- Where no key is malformed, there is a leaf at each path at which values are given, with these
values, and no other. -/
theorem hasLeaf_ofParams_iff (h : (ofParams params root).malformed = [])
    {path values : List String} :
    (ofParams params root).tree.HasLeaf path values ↔
      values ≠ [] ∧ values = valuesOf params root path := by
  obtain ⟨-, taken, hholds, hvalues⟩ := holds_of_malformed_eq_nil h
  rw [hholds.grown.hasLeaf_iff, hholds.valuesAt_eq, hvalues]

/-- Where no key is malformed, each that belongs to the root has a path. -/
theorem isSome_pathOf? (h : (ofParams params root).malformed = []) {param : Text.Form.Pair}
    (hmem : param ∈ params) (hbelongs : (suffix? root param.1).isSome) :
    (pathOf? root param.1).isSome := by
  have hunder := isSome_suffix?_iff.1 hbelongs
  obtain ⟨path, hpath⟩ := (holds_of_malformed_eq_nil h).1 param hmem hunder
  exact Option.isSome_of_eq_some (pathOf?_eq_some_iff.2 hpath)

/-- No key is malformed where each has a path, and no path leads on from another. -/
theorem malformed_eq_nil
    (hread : ∀ param ∈ params, (suffix? root param.1).isSome → (pathOf? root param.1).isSome)
    (hfree : ∀ p ∈ params, ∀ q ∈ params, ∀ path ∈ pathOf? root p.1, ∀ path' ∈ pathOf? root q.1,
      path <+: path' → path = path') : (ofParams params root).malformed = [] := by
  obtain ⟨taken, refused, hgathers⟩ := Gathers.exists_gathers root [] params
  rw [(holds_ofParams hgathers).2]
  refine hgathers.refused_eq_nil (fun param hmem hunder ↦ ?_) nofun ?_
  · simp only [← pathOf?_eq_some_iff, ← Option.isSome_iff_exists]
    exact hread param hmem (isSome_suffix?_iff.2 hunder)
  · rintro p hp q hq path path' hpath hpath' ⟨hne, hle | hle⟩
    · exact hne (hfree p hp q hq path (pathOf?_eq_some_iff.2 hpath) path'
        (pathOf?_eq_some_iff.2 hpath') hle)
    · exact hne (hfree q hq p hp path' (pathOf?_eq_some_iff.2 hpath') path
        (pathOf?_eq_some_iff.2 hpath) hle).symm

end PlaybookRuns.Query.DeepObject
