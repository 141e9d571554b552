import PlaybookRuns.Proofs.Keyed
import PlaybookRuns.Query.Tree

/-!
# Order of insertions

When the order in which values are given does not matter to a tree. Main statement: of two values
given at different paths and both taken, either may come first.
-/

namespace PlaybookRuns.Query

/-- The node at a place after a value is given at a path below it, if the value is taken. Where
there is no node yet, one is made. -/
def Node.place (value : String) : (path : List String) → Option Node → Option Node
  | [], node =>
    match node.getD (.leaf []) with
    | .leaf values => some (.leaf (values ++ [value]))
    | .branch _ => none
  | key :: path, node =>
    match node.getD (.branch []) with
    | .leaf _ => none
    | .branch children =>
      (place value path (Keyed.find? key children)).map fun child ↦
        .branch (Keyed.insert key child children)

namespace Node

/-- A value is taken one segment further where the node is a branch, or none yet. -/
theorem place_cons_eq_some_iff {value key : String} {path : List String} {node : Option Node}
    {node' : Node} :
    place value (key :: path) node = some node' ↔
      ∃ children child, node.getD (.branch []) = .branch children ∧
        place value path (Keyed.find? key children) = some child ∧
        node' = .branch (Keyed.insert key child children) := by
  rw [place]
  cases node.getD (.branch []) with
  | leaf values => simp
  | branch children =>
    simp only [Option.map_eq_some_iff, Node.branch.injEq, exists_and_left, exists_eq_left',
      eq_comm (b := node')]

/-- A value given at the place itself leaves a leaf there. -/
theorem place_nil_eq_some {value : String} {node : Option Node} {node' : Node}
    (h : place value [] node = some node') : ∃ values, node' = .leaf values := by
  rw [place] at h
  split at h
  · exact ⟨_, (Option.some.inj h).symm⟩
  · cases h

/-- Of two values given at different paths and both taken, either may come first. -/
theorem place_comm {value value' : String} {path path' : List String} (hne : path ≠ path')
    {node : Option Node} {node₁ node₂ : Node} (h₁ : place value path node = some node₁)
    (h₂ : place value' path' (some node₁) = some node₂) :
    ∃ node₁', place value' path' node = some node₁' ∧
      place value path (some node₁') = some node₂ := by
  induction path generalizing path' node node₁ node₂ with
  | nil =>
    obtain ⟨values, rfl⟩ := place_nil_eq_some h₁
    cases path' with
    | nil => exact absurd rfl hne
    | cons key' path' => simp [place] at h₂
  | cons key path ih =>
    obtain ⟨children, child, hnode, hchild, rfl⟩ := place_cons_eq_some_iff.1 h₁
    cases path' with
    | nil => simp [place] at h₂
    | cons key' path' =>
      obtain ⟨_, child', hbranch, hchild', rfl⟩ := place_cons_eq_some_iff.1 h₂
      rw [Option.getD_some, Node.branch.injEq] at hbranch
      subst hbranch
      rw [Keyed.find?_insert] at hchild'
      by_cases hkey : key' = key
      · -- both paths go on below the same child
        subst hkey
        rw [if_pos rfl] at hchild'
        have hpaths : path ≠ path' := fun heq ↦ hne (heq ▸ rfl)
        obtain ⟨first, hfirst, hsecond⟩ := ih hpaths hchild hchild'
        refine ⟨_, place_cons_eq_some_iff.2 ⟨children, first, hnode, hfirst, rfl⟩,
          place_cons_eq_some_iff.2 ⟨_, child', rfl, ?_, ?_⟩⟩
        · rw [Keyed.find?_insert, if_pos rfl]
          exact hsecond
        · rw [Keyed.insert_insert_self, Keyed.insert_insert_self]
      · -- the paths part here, and neither child is touched by the other value
        rw [if_neg hkey] at hchild'
        refine ⟨_, place_cons_eq_some_iff.2 ⟨children, child', hnode, hchild', rfl⟩,
          place_cons_eq_some_iff.2 ⟨_, child, rfl, ?_, ?_⟩⟩
        · rw [Keyed.find?_insert, if_neg (Ne.symm hkey)]
          exact hchild
        · rw [Keyed.insert_comm hkey]

end Node

namespace Tree

/-- A tree takes a value exactly where its root, seen as a branch, does. -/
theorem insert_eq_iff {value : String} {path : List String} {tree tree' : Tree} :
    insert value path tree = (tree', true) ↔
      Node.place value path (some (.branch tree)) = some (.branch tree') := by
  induction path generalizing tree tree' with
  | nil => simp [insert, Node.place]
  | cons key path ih =>
    simp only [Node.place_cons_eq_some_iff, Option.getD_some, Node.branch.injEq, exists_and_left,
      exists_eq_left']
    cases path with
    | nil =>
      rw [insert, Node.place]
      cases (Keyed.find? key tree).getD (.leaf []) <;> simp [eq_comm]
    | cons next path =>
      rw [insert]
      cases hnode : (Keyed.find? key tree).getD (.branch []) with
      | leaf values => simp [Node.place, hnode]
      | branch children =>
        have hplace : Node.place value (next :: path) (Keyed.find? key tree) =
            Node.place value (next :: path) (some (.branch children)) := by
          rw [Node.place, Node.place, hnode, Option.getD_some]
        rw [hplace]
        dsimp only
        constructor
        · intro h
          obtain ⟨htree, htaken⟩ := Prod.mk.inj h
          exact ⟨_, ih.1 (Prod.ext rfl htaken), htree.symm⟩
        · rintro ⟨child, hchild, rfl⟩
          obtain ⟨children', child', -, -, rfl⟩ := Node.place_cons_eq_some_iff.1 hchild
          rw [ih.2 hchild]

private theorem insert_nil (value key : String) (path : List String) :
    ((insert value (key :: path) []).2) = true := by
  induction path generalizing key with
  | nil => rfl
  | cons next path ih => exact ih next

/-- A tree that does not take a value stays as it is. -/
theorem eq_of_insert {value : String} {path : List String} {tree tree' : Tree}
    (h : insert value path tree = (tree', false)) : tree' = tree := by
  induction path generalizing tree tree' with
  | nil => exact (Prod.mk.inj h).1.symm
  | cons key path ih =>
    cases path with
    | nil =>
      rw [insert] at h
      split at h
      · cases (Prod.mk.inj h).2
      · exact (Prod.mk.inj h).1.symm
    | cons next path =>
      rw [insert] at h
      cases hnode : Keyed.find? key tree with
      | none =>
        -- branches are made on the way only where the value is taken in them
        simp only [hnode, Option.getD_none] at h
        have hfresh := insert_nil value next path
        rw [(Prod.mk.inj h).2] at hfresh
        cases hfresh
      | some node =>
        cases node with
        | leaf values =>
          simp only [hnode, Option.getD_some] at h
          exact (Prod.mk.inj h).1.symm
        | branch children =>
          simp only [hnode, Option.getD_some] at h
          obtain ⟨htree, htaken⟩ := Prod.mk.inj h
          have hbelow := congrArg (fun c ↦ Keyed.insert key (.branch c) tree)
            (ih (Prod.ext rfl htaken))
          exact htree.symm.trans (hbelow.trans (Keyed.insert_of_find? hnode))

/-- Of two values given at different paths and both taken, either may come first. -/
theorem insert_comm {value value' : String} {path path' : List String} (hne : path ≠ path')
    {tree tree₁ tree₂ : Tree} (h₁ : insert value path tree = (tree₁, true))
    (h₂ : insert value' path' tree₁ = (tree₂, true)) :
    ∃ tree₁', insert value' path' tree = (tree₁', true) ∧
      insert value path tree₁' = (tree₂, true) := by
  rw [insert_eq_iff] at h₁ h₂
  obtain ⟨node, hfirst, hsecond⟩ := Node.place_comm hne h₁ h₂
  cases path' with
  | nil => simp [Node.place] at h₂
  | cons key path' =>
    obtain ⟨children, child, -, -, rfl⟩ := Node.place_cons_eq_some_iff.1 hfirst
    exact ⟨_, insert_eq_iff.2 hfirst, insert_eq_iff.2 hsecond⟩

/-- Every leaf at the top of a tree after a value is given was there, or is where it was given. -/
theorem leaf_mem_insert {value : String} {path : List String} {tree : Tree} {key : String}
    {values : List String} (h : (key, .leaf values) ∈ (insert value path tree).1) :
    path = [key] ∨ (key, .leaf values) ∈ tree := by
  match path with
  | [] => exact .inr h
  | [first] =>
    rw [insert] at h
    split at h
    · rcases Keyed.eq_or_mem_of_mem_insert h with heq | hmem
      · exact .inl (congrArg (fun e ↦ [e.1]) heq.symm)
      · exact .inr hmem
    · exact .inr h
  | first :: next :: path =>
    rw [insert] at h
    split at h
    · exact .inr h
    · rcases Keyed.eq_or_mem_of_mem_insert h with heq | hmem
      · cases congrArg Prod.snd heq
      · exact .inr hmem

end Tree

end PlaybookRuns.Query
