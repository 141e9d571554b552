import PlaybookRuns.Proofs.Query.Tree

/-!
# Leaves of parameter trees

Where the values given in a tree stand. Main statements: a value that is taken comes last in the
leaf at its path and changes no other, and it is taken exactly where no value stands on the way to
its path or beyond.
-/

namespace PlaybookRuns.Query

/-- That a node has a leaf with these values at a path. -/
inductive Node.HasLeaf : Node → (path values : List String) → Prop
  | leaf (values : List String) : HasLeaf (.leaf values) [] values
  | branch {children : List (String × Node)} {key : String} {child : Node}
      {path values : List String} (hmem : (key, child) ∈ children)
      (hleaf : HasLeaf child path values) : HasLeaf (.branch children) (key :: path) values

/-- That a tree has a leaf with these values at a path. -/
def Tree.HasLeaf (tree : Tree) (path values : List String) : Prop :=
  Node.HasLeaf (.branch tree) path values

namespace Node

/-- The nodes that values have been given in: the keys of a branch ascend, and there is a value
under every node. -/
inductive Grown : Node → Prop
  | leaf {values : List String} (hne : values ≠ []) : Grown (.leaf values)
  | branch {children : List (String × Node)} (hne : children ≠ []) (hsorted : Keyed.Sorted children)
      (hchildren : ∀ e ∈ children, Grown e.2) : Grown (.branch children)

/-- The values in the leaf at a path, none where there is no leaf. -/
def valuesAt : (path : List String) → Option Node → List String
  | [], some (.leaf values) => values
  | key :: path, some (.branch children) => valuesAt path (Keyed.find? key children)
  | _, _ => []

/-- Where there is no node, there are no values. -/
@[simp] theorem valuesAt_none (path : List String) : valuesAt path none = [] := by
  cases path <;> rfl

/-- The only leaf of a leaf is itself. -/
theorem hasLeaf_leaf_iff {given path values : List String} :
    (leaf given).HasLeaf path values ↔ path = [] ∧ values = given := by
  constructor
  · rintro ⟨⟩
    exact ⟨rfl, rfl⟩
  · rintro ⟨rfl, rfl⟩
    exact .leaf values

/-- A branch has the leaves of its children, each a segment further. -/
theorem hasLeaf_branch_iff {children : List (String × Node)} {path values : List String} :
    (branch children).HasLeaf path values ↔
      ∃ key rest child, path = key :: rest ∧ (key, child) ∈ children ∧
        child.HasLeaf rest values := by
  constructor
  · rintro (_ | ⟨hmem, hleaf⟩)
    exact ⟨_, _, _, rfl, hmem, hleaf⟩
  · rintro ⟨key, rest, child, rfl, hmem, hleaf⟩
    exact .branch hmem hleaf

/-- There is a value under every grown node. -/
theorem Grown.exists_hasLeaf {node : Node} (h : node.Grown) :
    ∃ path values, node.HasLeaf path values := by
  induction h with
  | leaf _ => exact ⟨_, _, .leaf _⟩
  | branch hne _ _ ih =>
    obtain ⟨e, children, rfl⟩ := List.exists_cons_of_ne_nil hne
    obtain ⟨path, values, hleaf⟩ := ih e List.mem_cons_self
    exact ⟨_, _, .branch List.mem_cons_self hleaf⟩

/-- The leaves of a grown node are where values are found. -/
theorem Grown.hasLeaf_iff {node : Node} (h : node.Grown) {path values : List String} :
    node.HasLeaf path values ↔ values ≠ [] ∧ values = valuesAt path (some node) := by
  induction h generalizing path with
  | leaf hne =>
    rw [hasLeaf_leaf_iff]
    cases path with
    | nil =>
      rw [valuesAt]
      exact ⟨fun h ↦ ⟨h.2 ▸ hne, h.2⟩, fun h ↦ ⟨rfl, h.2⟩⟩
    | cons key path => simp [valuesAt]
  | @branch children hne hsorted hchildren ih =>
    rw [hasLeaf_branch_iff]
    cases path with
    | nil => simp [valuesAt]
    | cons key path =>
      rw [valuesAt]
      cases hfind : Keyed.find? key children with
      | none =>
        simp only [valuesAt_none]
        refine iff_of_false ?_ fun h ↦ h.1 h.2
        rintro ⟨_, _, child, ⟨⟩, hmem, -⟩
        rw [(Keyed.find?_eq_some_iff hsorted).2 hmem] at hfind
        cases hfind
      | some child =>
        -- keys ascend, so no other child has the key of the one that is found
        have hmem := (Keyed.find?_eq_some_iff hsorted).1 hfind
        rw [← ih _ hmem]
        constructor
        · rintro ⟨_, _, other, ⟨⟩, hother, hleaf⟩
          rw [(Keyed.find?_eq_some_iff hsorted).2 hother, Option.some_inj] at hfind
          exact hfind ▸ hleaf
        · exact fun hleaf ↦ ⟨key, path, child, rfl, hmem, hleaf⟩

private theorem valuesAt_eq_of_getD {node : Option Node} {children : List (String × Node)}
    (h : node.getD (.branch []) = .branch children) (path : List String) :
    valuesAt path node = valuesAt path (some (.branch children)) := by
  cases node with
  | none =>
    cases h
    cases path with
    | nil => rfl
    | cons key path => exact (valuesAt_none path).symm
  | some node => rw [show node = .branch children from h]

/-- A value that is taken comes last at its path, and changes nothing at others. -/
theorem valuesAt_place {value : String} {path : List String} {node : Option Node} {node' : Node}
    (h : place value path node = some node') (p : List String) :
    valuesAt p (some node') =
      if p = path then valuesAt p node ++ [value] else valuesAt p node := by
  induction path generalizing node node' p with
  | nil =>
    match node, h with
    | none, h =>
      obtain rfl := Option.some.inj h
      cases p <;> simp [valuesAt]
    | some (.leaf values), h =>
      obtain rfl := Option.some.inj h
      cases p <;> simp [valuesAt]
  | cons key path ih =>
    obtain ⟨children, child, hnode, hchild, rfl⟩ := place_cons_eq_some_iff.1 h
    rw [valuesAt_eq_of_getD hnode]
    cases p with
    | nil => simp [valuesAt]
    | cons k p =>
      rw [valuesAt, valuesAt, Keyed.find?_insert]
      by_cases hk : k = key
      · subst hk
        rw [if_pos rfl, ih hchild p]
        simp
      · simp [hk]

end Node

/-- Whether values have been given under every node of a tree, the keys of which ascend. -/
structure Tree.Grown (tree : Tree) : Prop where
  sorted : Keyed.Sorted tree
  grown : ∀ e ∈ tree, e.2.Grown

namespace Tree.Grown

variable {tree : Tree}

/-- A branch is grown where its children are and there are some. -/
theorem branch (h : tree.Grown) (hne : tree ≠ []) : (Node.branch tree).Grown :=
  .branch hne h.sorted h.grown

/-- The nodes of a grown tree are grown. -/
theorem of_mem_find? (h : tree.Grown) {key : String} {node : Node}
    (hnode : node ∈ Keyed.find? key tree) : node.Grown :=
  h.grown _ ((Keyed.find?_eq_some_iff h.sorted).1 hnode)

/-- A grown tree stays grown with a grown node in it. -/
theorem keyedInsert (h : tree.Grown) {node : Node} (hnode : node.Grown) (key : String) :
    Tree.Grown (Keyed.insert key node tree) where
  sorted := h.sorted.insert key node
  grown e he := by
    rcases Keyed.eq_or_mem_of_mem_insert he with rfl | he
    · exact hnode
    · exact h.grown e he

/-- The leaves of a grown tree are where values are found. -/
theorem hasLeaf_iff (h : tree.Grown) {path values : List String} :
    tree.HasLeaf path values ↔
      values ≠ [] ∧ values = Node.valuesAt path (some (.branch tree)) := by
  by_cases hne : tree = []
  · subst hne
    rw [Tree.HasLeaf, Node.hasLeaf_branch_iff]
    cases path with
    | nil => simp [Node.valuesAt]
    | cons key path => simp [Node.valuesAt, Keyed.find?]
  · exact (h.branch hne).hasLeaf_iff

end Tree.Grown

namespace Node

private theorem grown_of_getD {node : Option Node} {children : List (String × Node)}
    (hnode : ∀ n ∈ node, n.Grown) (h : node.getD (.branch []) = .branch children) :
    Tree.Grown children := by
  cases node with
  | none =>
    cases h
    exact ⟨.nil, nofun⟩
  | some node =>
    obtain rfl : node = .branch children := h
    cases hnode _ rfl with
    | branch _ hsorted hchildren => exact ⟨hsorted, hchildren⟩

/-- A node is grown after a value is taken under it. -/
theorem grown_place {value : String} {path : List String} {node : Option Node} {node' : Node}
    (hnode : ∀ n ∈ node, n.Grown) (h : place value path node = some node') : node'.Grown := by
  induction path generalizing node node' with
  | nil =>
    match node, h with
    | none, h => exact Option.some.inj h ▸ .leaf (by simp)
    | some (.leaf values), h => exact Option.some.inj h ▸ .leaf (by simp)
  | cons key path ih =>
    obtain ⟨children, child, hbranch, hchild, rfl⟩ := place_cons_eq_some_iff.1 h
    have hgrown := grown_of_getD hnode hbranch
    have hinserted := hgrown.keyedInsert (ih (fun n ↦ hgrown.of_mem_find?) hchild) key
    refine hinserted.branch fun hempty ↦ ?_
    have hfound := Keyed.find?_insert key key child children
    rw [hempty, if_pos rfl] at hfound
    cases hfound

/-- A value is taken where no other has been given on the way to its path or beyond. -/
theorem exists_place (value : String) {path : List String} {node : Option Node}
    (hnode : ∀ n ∈ node, n.Grown)
    (hfree : ∀ p, valuesAt p node ≠ [] → p <+: path ∨ path <+: p → p = path) :
    ∃ node', place value path node = some node' := by
  induction path generalizing node with
  | nil =>
    match node with
    | none => exact ⟨_, rfl⟩
    | some (.leaf values) => exact ⟨_, rfl⟩
    | some (.branch children) =>
      -- some value has been given under the branch, and the path is on the way to it
      have hgrown := hnode _ rfl
      obtain ⟨p, values, hleaf⟩ := hgrown.exists_hasLeaf
      obtain ⟨hvalues, rfl⟩ := hgrown.hasLeaf_iff.1 hleaf
      obtain rfl := hfree p hvalues (.inr p.nil_prefix)
      exact absurd rfl hvalues
  | cons key path ih =>
    have hbranch : ∃ children, node.getD (.branch []) = .branch children := by
      match node with
      | none => exact ⟨_, rfl⟩
      | some (.branch children) => exact ⟨_, rfl⟩
      | some (.leaf values) =>
        -- the values of a leaf have been given on the way
        cases hnode _ rfl with
        | leaf hne => cases hfree [] hne (.inl List.nil_prefix)
    obtain ⟨children, hbranch⟩ := hbranch
    have hgrown := grown_of_getD hnode hbranch
    have hbelow (p : List String) (hp : valuesAt p (Keyed.find? key children) ≠ [])
        (hcomparable : p <+: path ∨ path <+: p) : p = path := by
      have hwhole : valuesAt (key :: p) node ≠ [] := by rwa [valuesAt_eq_of_getD hbranch]
      have hsame := hfree (key :: p) hwhole (by simpa using hcomparable)
      exact (List.cons.inj hsame).2
    obtain ⟨child, hchild⟩ := ih (fun n ↦ hgrown.of_mem_find?) hbelow
    exact ⟨_, place_cons_eq_some_iff.2 ⟨children, child, hbranch, hchild, rfl⟩⟩

/-- A value is taken only where no other has been given on the way to its path or beyond. -/
theorem eq_of_place {value : String} {path p : List String} {node : Option Node} {node' : Node}
    (h : place value path node = some node') (hp : valuesAt p node ≠ [])
    (hcomparable : p <+: path ∨ path <+: p) : p = path := by
  induction path generalizing p node node' with
  | nil =>
    match node, h with
    | none, _ => exact absurd (valuesAt_none p) hp
    | some (.leaf values), _ =>
      cases p with
      | nil => rfl
      | cons k p => exact absurd rfl hp
  | cons key path ih =>
    obtain ⟨children, child, hnode, hchild, rfl⟩ := place_cons_eq_some_iff.1 h
    rw [valuesAt_eq_of_getD hnode] at hp
    cases p with
    | nil => exact absurd rfl hp
    | cons k p =>
      rw [List.cons_prefix_cons, List.cons_prefix_cons] at hcomparable
      obtain ⟨rfl, hbelow⟩ : k = key ∧ (p <+: path ∨ path <+: p) := by
        rcases hcomparable with ⟨hk, hle⟩ | ⟨hk, hle⟩
        · exact ⟨hk, .inl hle⟩
        · exact ⟨hk.symm, .inr hle⟩
      rw [ih hchild hp hbelow]

end Node

namespace Tree.Grown

variable {tree : Tree} {path : List String}

/-- A tree is grown after a value is taken in it. -/
theorem insert (h : tree.Grown) {value : String} {tree' : Tree}
    (htaken : tree.insert value path = (tree', true)) : tree'.Grown := by
  rw [Tree.insert_eq_iff] at htaken
  cases path with
  | nil => cases htaken
  | cons key path =>
    obtain ⟨children, child, hchildren, hchild, htree⟩ := Node.place_cons_eq_some_iff.1 htaken
    obtain rfl := Node.branch.inj hchildren
    obtain rfl := Node.branch.inj htree
    exact h.keyedInsert (Node.grown_place (fun n ↦ h.of_mem_find?) hchild) key

/-- A tree takes a value where no other has been given on the way to its path or beyond. -/
theorem exists_insert (h : tree.Grown) (value : String) (hne : path ≠ [])
    (hfree : ∀ p, Node.valuesAt p (some (.branch tree)) ≠ [] → p <+: path ∨ path <+: p →
      p = path) : ∃ tree', tree.insert value path = (tree', true) := by
  obtain ⟨key, path, rfl⟩ := List.exists_cons_of_ne_nil hne
  have hbelow (p : List String) (hp : Node.valuesAt p (Keyed.find? key tree) ≠ [])
      (hcomparable : p <+: path ∨ path <+: p) : p = path := by
    have hsame := hfree (key :: p) hp (by simpa using hcomparable)
    exact (List.cons.inj hsame).2
  obtain ⟨child, hchild⟩ := Node.exists_place value (fun n ↦ h.of_mem_find?) hbelow
  exact ⟨_, insert_eq_iff.2 (Node.place_cons_eq_some_iff.2 ⟨_, child, rfl, hchild, rfl⟩)⟩

end Tree.Grown

end PlaybookRuns.Query
