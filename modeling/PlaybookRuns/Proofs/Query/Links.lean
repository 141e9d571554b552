import PlaybookRuns.Proofs.Reordering
import PlaybookRuns.Proofs.Text.Form
import PlaybookRuns.Query.Links

/-!
# Parameters of links

What is found in the parameters that a link carries. Main statements: a link reads as the
parameters it was written from, and those have the values of the request under every name but
`limit` and `offset`, each name's values in their order.
-/

namespace PlaybookRuns.Query

/-- The first value of a name, among those of that name. -/
theorem Params.first?_eq_head? (params : Params) (name : String) :
    params.first? name = (params.filter (·.1 = name)).head?.map (·.2) := by
  rw [first?, List.head?_filter]

private theorem name_le_trans (a b c : Text.Form.Pair) (hab : decide (a.1 ≤ b.1) = true)
    (hbc : decide (b.1 ≤ c.1) = true) : decide (a.1 ≤ c.1) = true := by
  rw [decide_eq_true_eq] at hab hbc ⊢
  exact String.le_trans hab hbc

private theorem name_le_total (a b : Text.Form.Pair) :
    (decide (a.1 ≤ b.1) || decide (b.1 ≤ a.1)) = true := by
  rw [Bool.or_eq_true, decide_eq_true_eq, decide_eq_true_eq]
  exact String.le_total a.1 b.1

private theorem filter_mergeSort (params : Params) (name : String) :
    (params.mergeSort fun a b ↦ a.1 ≤ b.1).filter (·.1 = name) =
      params.filter (·.1 = name) := by
  have hequal : (params.filter (·.1 = name)).Pairwise fun a b ↦ decide (a.1 ≤ b.1) = true := by
    rw [List.pairwise_iff_forall_sublist]
    intro a b hab
    have ha := List.mem_filter.1 (hab.subset List.mem_cons_self)
    have hb := List.mem_filter.1 (hab.subset (List.mem_cons_of_mem _ List.mem_cons_self))
    rw [decide_eq_true_eq] at ha hb ⊢
    have hname : a.1 = b.1 := ha.2.trans hb.2.symm
    exact hname ▸ String.le_refl a.1
  rw [← Reordering.mergeSort_filter name_le_trans name_le_total, List.mergeSort_of_pairwise hequal]

private theorem filter_carried (params : Params) (name : String) :
    (carried params).filter (·.1 = name) =
      if name ≠ "limit" ∧ name ≠ "offset" then params.filter (·.1 = name) else [] := by
  rw [carried, filter_mergeSort, List.filter_filter]
  split
  · next hname =>
    apply List.filter_congr
    intro p _
    by_cases hp : p.1 = name
    · simp [hp, hname]
    · simp [hp]
  · next hname =>
    rw [List.filter_eq_nil_iff]
    intro p _
    by_cases hp : p.1 = name
    · simpa [hp] using hname
    · simp [hp]

/-- Links carry the same over from parameters with the same values of each name. -/
theorem carried_eq_of_filter_eq {params params' : Params}
    (h : ∀ name, params.filter (·.1 = name) = params'.filter (·.1 = name)) :
    carried params = carried params' := by
  have hsorted (ps : Params) : (carried ps).Pairwise fun a b ↦ a.1 ≤ b.1 := by
    refine (List.pairwise_mergeSort name_le_trans name_le_total _).imp ?_
    intro a b hab
    rwa [decide_eq_true_eq] at hab
  apply Reordering.eq_of_filter_eq Prod.fst (fun _ _ ↦ String.le_antisymm)
    (hsorted params) (hsorted params')
  intro name
  rw [filter_carried, filter_carried, h name]

/-- A link has the values of the request under every name but those of the window. -/
theorem filter_paramsAt {name : String} (hlimit : name ≠ "limit") (hoffset : name ≠ "offset")
    (params : Params) (limit offset : Int64) :
    (paramsAt params limit offset).filter (·.1 = name) = params.filter (·.1 = name) := by
  rw [paramsAt, List.filter_append, filter_carried, if_pos ⟨hlimit, hoffset⟩]
  simp [hlimit.symm, hoffset.symm]

/-- What links carry over is carried over by the links of the pages they lead to. -/
theorem carried_paramsAt (params : Params) (limit offset : Int64) :
    carried (paramsAt params limit offset) = carried params := by
  have hkept : (carried params).filter (fun p ↦ p.1 ≠ "limit" ∧ p.1 ≠ "offset") =
      carried params := by
    rw [List.filter_eq_self]
    intro p hp
    exact (List.mem_filter.1 (List.mem_mergeSort.1 hp)).2
  have hsorted : (carried params).mergeSort (fun a b ↦ a.1 ≤ b.1) = carried params :=
    List.mergeSort_of_pairwise (List.pairwise_mergeSort name_le_trans name_le_total _)
  rw [carried, paramsAt, List.filter_append, hkept]
  simpa using hsorted

/-- Links are written alike from a request and from a link of its page. -/
theorem linkTo_paramsAt (path : String) (params : Params) (limit offset limit' offset' : Int64) :
    linkTo path (paramsAt params limit offset) limit' offset' =
      linkTo path params limit' offset' := by
  have hparams : paramsAt (paramsAt params limit offset) limit' offset' =
      paramsAt params limit' offset' := by
    rw [paramsAt, carried_paramsAt]
    rfl
  rw [linkTo, hparams]
  rfl

/-- A link has the limit of the page it leads to. -/
theorem first?_limit_paramsAt (params : Params) (limit offset : Int64) :
    (paramsAt params limit offset).first? "limit" = some (decimal limit) := by
  rw [Params.first?_eq_head?, paramsAt, List.filter_append, filter_carried]
  rfl

/-- A link has the offset of the page it leads to. -/
theorem first?_offset_paramsAt (params : Params) (limit offset : Int64) :
    (paramsAt params limit offset).first? "offset" = some (decimal offset) := by
  rw [Params.first?_eq_head?, paramsAt, List.filter_append, filter_carried]
  rfl

/-- The parameters after the first question mark of a link. -/
def targetOf? (link : String) : Option Params :=
  (Text.splitFirst? '?' link.toList).map fun (_, query) ↦ Params.ofText (String.ofList query)

/-- A link reads as the parameters it was written from. -/
theorem targetOf?_linkTo {path : String} (h : '?' ∉ path.toList) (params : Params)
    (limit offset : Int64) :
    targetOf? (linkTo path params limit offset) = some (paramsAt params limit offset) := by
  have hlink : (linkTo path params limit offset).toList =
      path.toList ++ '?' :: (Text.Form.encode (paramsAt params limit offset)).toList := by
    rw [linkTo, String.toList_append, String.toList_append, List.append_assoc]
    rfl
  rw [targetOf?, hlink, Text.splitFirst?_append_cons h, Option.map_some]
  simp only [String.ofList_toList, Params.ofText, Text.Form.decode_encode]

end PlaybookRuns.Query
