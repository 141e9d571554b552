import PlaybookRuns.Proofs.Query.Filter
import PlaybookRuns.Proofs.Query.Leaves

/-!
# Filters of labels

Trees in which only labels are asked for. Main statements: such a tree is compiled exactly when each
label is named by a single segment, and then into one predicate for each value of a label.
-/

namespace PlaybookRuns.Query

private theorem exists_labelPredicates_iff {node : Node} (h : node.Grown) (path : String) :
    (∃ ps, labelPredicates path node = .ok ps) ↔
      ∀ rest values, node.HasLeaf rest values → ∃ key, rest = [key] := by
  cases h with
  | @leaf values hne =>
    refine iff_of_false nofun fun hpaths ↦ ?_
    obtain ⟨key, hkey⟩ := hpaths [] values (.leaf values)
    cases hkey
  | @branch children hne hsorted hchildren =>
    rw [labelPredicates_branch, Checked.exists_flatten_eq_ok_iff]
    constructor
    · intro hparts rest values hleaf
      obtain ⟨key, rest, child, rfl, hmem, hchild⟩ := Node.hasLeaf_branch_iff.1 hleaf
      obtain ⟨part, hpart⟩ := hparts _ hmem
      obtain ⟨given, rfl, -⟩ := labelPart_eq_ok_iff.1 hpart
      exact ⟨key, by rw [(Node.hasLeaf_leaf_iff.1 hchild).1]⟩
    · rintro hpaths ⟨key, child⟩ hmem
      obtain ⟨rest, values, hleaf⟩ := (hchildren _ hmem).exists_hasLeaf
      obtain ⟨_, hkey⟩ := hpaths _ _ (.branch hmem hleaf)
      obtain ⟨rfl, rfl⟩ := List.cons.inj hkey
      cases hleaf with
      | leaf _ => exact ⟨_, labelPart_eq_ok_iff.2 ⟨values, rfl, rfl⟩⟩

private theorem mem_labelPredicates_iff {path : String} {node : Node} {ps : List Predicate}
    (h : labelPredicates path node = .ok ps) {p : Predicate} :
    p ∈ ps ↔ ∃ key values, node.HasLeaf [key] values ∧ ∃ v ∈ values, p = .label key v := by
  cases node with
  | leaf values => cases h
  | branch children =>
    rw [labelPredicates_branch] at h
    rw [Checked.mem_flatten_iff h]
    constructor
    · rintro ⟨⟨key, child⟩, hmem, part, hpart, hp⟩
      obtain ⟨values, rfl, rfl⟩ := labelPart_eq_ok_iff.1 hpart
      obtain ⟨v, hv, rfl⟩ := List.mem_map.1 hp
      exact ⟨key, values, .branch hmem (.leaf values), v, hv, rfl⟩
    · rintro ⟨key, values, hleaf, v, hv, rfl⟩
      obtain ⟨_, _, child, ⟨⟩, hmem, hchild⟩ := Node.hasLeaf_branch_iff.1 hleaf
      cases hchild with
      | leaf _ =>
        exact ⟨_, hmem, _, labelPart_eq_ok_iff.2 ⟨values, rfl, rfl⟩, List.mem_map_of_mem hv⟩

section Labels

variable {tree : Tree}

/-- That a tree asks for nothing but labels. -/
def Tree.OnlyLabels (tree : Tree) : Prop :=
  ∀ path values, tree.HasLeaf path values → path.head? = some "labels"

private theorem key_eq_labels (hgrown : tree.Grown) (honly : tree.OnlyLabels) {key : String}
    {node : Node} (h : (key, node) ∈ tree) : key = "labels" := by
  obtain ⟨path, values, hleaf⟩ := (hgrown.grown _ h).exists_hasLeaf
  exact Option.some.inj (honly _ _ (.branch h hleaf))

/-- A tree of labels is compiled where each label is named by one segment. -/
theorem exists_ofTree_labels_iff (hgrown : tree.Grown) (honly : tree.OnlyLabels) :
    (∃ f, Filter.ofTree tree .run = .ok f) ↔
      ∀ path values, tree.HasLeaf path values → ∃ key, path = ["labels", key] := by
  have hcompiled : (∃ f, Filter.ofTree tree .run = .ok f) ↔
      ∀ e ∈ tree, ∃ part, labelPredicates "labels" e.2 = .ok part := by
    have hmap : (∃ f, Filter.ofTree tree .run = .ok f) ↔
        ∃ ps, flatPredicates .run none tree = .ok ps := by
      simp [Filter.ofTree, Checked.map_eq_ok_iff]
    rw [hmap, flatPredicates, Checked.exists_flatten_eq_ok_iff]
    refine forall₂_congr fun e he ↦ ?_
    obtain ⟨key, node⟩ := e
    obtain rfl := key_eq_labels hgrown honly he
    rfl
  rw [hcompiled]
  constructor
  · intro hparts path values hleaf
    obtain ⟨key, rest, node, rfl, hmem, hnode⟩ := Node.hasLeaf_branch_iff.1 hleaf
    obtain rfl := key_eq_labels hgrown honly hmem
    obtain ⟨label, rfl⟩ :=
      (exists_labelPredicates_iff (hgrown.grown _ hmem) _).1 (hparts _ hmem) _ _ hnode
    exact ⟨label, rfl⟩
  · rintro hpaths ⟨key, node⟩ hmem
    refine (exists_labelPredicates_iff (hgrown.grown _ hmem) _).2 fun rest values hleaf ↦ ?_
    obtain ⟨label, hpath⟩ := hpaths _ _ (.branch hmem hleaf)
    exact ⟨label, (List.cons.inj hpath).2⟩

/-- A tree of labels is compiled into the predicates of their values. -/
theorem mem_predicates_of_labels_iff (hgrown : tree.Grown) (honly : tree.OnlyLabels) {f : Filter}
    (h : Filter.ofTree tree .run = .ok f) {p : Predicate} :
    p ∈ f.predicates ↔
      ∃ key values, tree.HasLeaf ["labels", key] values ∧ ∃ v ∈ values, p = .label key v := by
  obtain ⟨ps, hps, rfl⟩ := Checked.map_eq_ok_iff.1 h
  rw [Checked.mem_flatten_iff hps]
  constructor
  · rintro ⟨⟨key, node⟩, hmem, part, hpart, hp⟩
    obtain rfl := key_eq_labels hgrown honly hmem
    obtain ⟨label, values, hleaf, hv⟩ := (mem_labelPredicates_iff hpart).1 hp
    exact ⟨label, values, .branch hmem hleaf, hv⟩
  · rintro ⟨label, values, hleaf, hv⟩
    obtain ⟨_, _, node, ⟨⟩, hmem, hnode⟩ := Node.hasLeaf_branch_iff.1 hleaf
    obtain ⟨part, hpart⟩ := Checked.exists_flatten_eq_ok_iff.1 ⟨ps, hps⟩ _ hmem
    exact ⟨_, hmem, part, hpart, (mem_labelPredicates_iff hpart).2 ⟨label, values, hnode, hv⟩⟩

end Labels

end PlaybookRuns.Query
