import PlaybookRuns.Proofs.Query.Leaves

/-!
# What an insertion changes

The nodes of a tree before and after a value is given. Main statements: a value that is taken comes
last in the leaf at its path, the nodes above are branches then, and no other node changes; and
every tree that values have been given in, taken or not, has a value under each of its nodes.
-/

namespace PlaybookRuns.Query

namespace Node

/-- The node at a path below a node, if there is one. -/
def at? : (path : List String) → Option Node → Option Node
  | [], node => node
  | key :: path, some (.branch children) => at? path (Keyed.find? key children)
  | _ :: _, _ => none

/-- Where there is no node, there is none below. -/
@[simp] theorem at?_none (path : List String) : at? path none = none := by
  cases path <;> rfl

/-- Below a branch are the nodes below its children. -/
theorem at?_branch (key : String) (path : List String) (children : List (String × Node)) :
    at? (key :: path) (some (.branch children)) = at? path (Keyed.find? key children) := rfl

private theorem at?_cons_of_getD {node : Option Node} {children : List (String × Node)}
    (h : node.getD (.branch []) = .branch children) (key : String) (path : List String) :
    at? (key :: path) node = at? path (Keyed.find? key children) := by
  cases node with
  | none =>
    cases h
    exact (at?_none path).symm
  | some node => rw [show node = .branch children from h, at?_branch]

/-- Whether one node is another after a value is given at a path below it, and nothing else. -/
structure Extends (value : String) (path : List String) (node node' : Option Node) : Prop where
  /-- At the path there is a leaf, or nothing yet, and then a leaf where the value comes last. -/
  leaf : ∃ values, (at? path node = some (.leaf values) ∨ at? path node = none ∧ values = []) ∧
    at? path node' = some (.leaf (values ++ [value]))
  /-- Above the path there are branches, or nothing yet, and then branches. -/
  above : ∀ p, p <+: path → p ≠ path →
    (at? p node = none ∨ ∃ children, at? p node = some (.branch children)) ∧
      ∃ children, at? p node' = some (.branch children)
  /-- All other nodes stay as they are. -/
  elsewhere : ∀ p, ¬p <+: path → at? p node' = at? p node

private theorem leaf_of_place_nil {value : String} {node : Option Node} {node' : Node}
    (h : place value [] node = some node') :
    ∃ values, (node = some (.leaf values) ∨ node = none ∧ values = []) ∧
      node' = .leaf (values ++ [value]) := by
  match node, h with
  | none, h => exact ⟨[], .inr ⟨rfl, rfl⟩, (Option.some.inj h).symm⟩
  | some (.leaf values), h => exact ⟨values, .inl rfl, (Option.some.inj h).symm⟩

private theorem Extends.branch {value key : String} {path : List String} {node : Option Node}
    {children : List (String × Node)} {child : Node}
    (hnode : node.getD (.branch []) = .branch children)
    (h : Extends value path (Keyed.find? key children) (some child)) :
    Extends value (key :: path) node (some (.branch (Keyed.insert key child children))) := by
  have hbefore := at?_cons_of_getD hnode
  have hafter (p : List String) :
      at? (key :: p) (some (.branch (Keyed.insert key child children))) = at? p (some child) := by
    rw [at?_branch, Keyed.find?_insert, if_pos rfl]
  refine ⟨?_, fun p hp hne ↦ ?_, fun p hp ↦ ?_⟩
  · rw [hbefore, hafter]
    exact h.leaf
  · cases p with
    | nil =>
      refine ⟨?_, _, rfl⟩
      cases node with
      | none => exact .inl rfl
      | some node => exact .inr ⟨children, congrArg some hnode⟩
    | cons k p =>
      obtain ⟨rfl, hbelow⟩ := List.cons_prefix_cons.1 hp
      rw [hbefore, hafter]
      exact h.above p hbelow fun hsame ↦ hne (hsame ▸ rfl)
  · cases p with
    | nil => exact absurd List.nil_prefix hp
    | cons k p =>
      -- below this node only one child is new
      by_cases hk : k = key
      · subst hk
        rw [hbefore, hafter]
        exact h.elsewhere p fun hle ↦ hp (List.cons_prefix_cons.2 ⟨rfl, hle⟩)
      · rw [hbefore, at?_branch, Keyed.find?_insert, if_neg hk]

/-- A value that is taken comes last in the leaf at its path, and changes no other. -/
theorem Extends.of_place {value : String} {path : List String} {node : Option Node} {node' : Node}
    (h : place value path node = some node') : Extends value path node (some node') := by
  induction path generalizing node node' with
  | nil =>
    obtain ⟨values, hnode, rfl⟩ := leaf_of_place_nil h
    refine ⟨⟨values, hnode, rfl⟩, fun p hp hne ↦ absurd (List.prefix_nil.1 hp) hne, fun p hp ↦ ?_⟩
    cases p with
    | nil => exact absurd List.nil_prefix hp
    | cons key p => rcases hnode with rfl | ⟨rfl, -⟩ <;> rfl
  | cons key path ih =>
    obtain ⟨children, child, hnode, hchild, rfl⟩ := place_cons_eq_some_iff.1 h
    exact .branch hnode (ih hchild)

end Node

namespace Tree

/-- The trees that values have been given in one after another, whether they were taken or not. -/
inductive Reachable : Tree → Prop
  | empty : Reachable []
  | insert {tree : Tree} (value : String) (path : List String) (h : Reachable tree) :
    Reachable (tree.insert value path).1

/-- The tree after a value is taken is the one before with that value. -/
theorem extends_of_insert {value : String} {path : List String} {tree : Tree}
    (h : (tree.insert value path).2 = true) :
    Node.Extends value path (some (.branch tree)) (some (.branch (tree.insert value path).1)) :=
  .of_place (insert_eq_iff.1 (Prod.ext rfl h))

/-- A value that is not taken leaves no trace. -/
theorem insert_of_not_taken {value : String} {path : List String} {tree : Tree}
    (h : (tree.insert value path).2 = false) : (tree.insert value path).1 = tree :=
  eq_of_insert (Prod.ext rfl h)

/-- Every tree that values have been given in has a value under each of its nodes. -/
theorem Reachable.grown {tree : Tree} (h : tree.Reachable) : tree.Grown := by
  induction h with
  | empty => exact ⟨.nil, nofun⟩
  | @insert tree value path _ ih =>
    cases htaken : (tree.insert value path).2 with
    | false => rwa [insert_of_not_taken htaken]
    | true => exact ih.insert (Prod.ext rfl htaken)

end Tree

end PlaybookRuns.Query
