import PlaybookRuns.Proofs.Query.SortOrder
import PlaybookRuns.Store.Memory

/-!
# Rows of the store in memory

What a listing over the store in memory finds: the rows its filter holds of, each as often as it is
stored, in the requested order, as long as the filter decides on every row.
-/

namespace PlaybookRuns.Memory

open PlaybookRuns.Query

/-- What is stored after insertions is what was stored before, and then what each of them brings. -/
theorem foldl_insert {α : Type} (run : α → Run) (hosts : α → List Host) (as : List α) (m : Memory) :
    as.foldl (fun m a ↦ m.insert (run a) (hosts a)) m =
      ⟨m.runs ++ as.map run, m.hosts ++ as.flatMap hosts⟩ := by
  induction as generalizing m with
  | nil => simp
  | cons a as ih => rw [List.foldl_cons, ih]; simp [insert]

variable {φ κ ρ : Type} [FieldSet φ] [SortKeys κ ρ] [Listable ρ φ κ]

/-- The matching rows are those the filter holds of. -/
theorem matching_perm (query : ListQuery κ) (rows : List ρ) :
    (matching query rows).Perm (rows.filter fun row ↦ holds? query row = some true) :=
  query.sort.apply_perm _

/-- The matching rows are in the requested order. -/
theorem pairwise_matching [LawfulSortKeys κ ρ] (query : ListQuery κ) (rows : List ρ) :
    (matching query rows).Pairwise fun a b ↦ (query.sort.compare a b).isLE :=
  query.sort.pairwise_apply _

/-- The matching rows are those the filter holds of. -/
theorem mem_matching {query : ListQuery κ} {rows : List ρ} {row : ρ} :
    row ∈ matching query rows ↔ row ∈ rows ∧ holds? query row = some true := by
  rw [(matching_perm query rows).mem_iff, List.mem_filter, decide_eq_true_eq]

/-- A query is answered where its filter decides on every row, whatever its window is. -/
theorem answer?_of_decided {query : ListQuery κ} {rows : List ρ}
    (h : ∀ row ∈ rows, (holds? query row).isSome) (window : Window) :
    answer? { query with window } rows =
      some ⟨window.slice (matching query rows), Int64.ofNat (matching query rows).length⟩ :=
  if_pos (List.all_eq_true.2 h)

/-- A query is not answered where its filter does not decide on every row. -/
theorem answer?_of_undecided {query : ListQuery κ} {rows : List ρ}
    (h : ¬∀ row ∈ rows, (holds? query row).isSome) (window : Window) :
    answer? { query with window } rows = none :=
  if_neg fun hall ↦ h (List.all_eq_true.1 hall)

/-- A query is answered exactly where its filter is undecided about no row. -/
theorem answer?_isSome_iff {query : ListQuery κ} {rows : List ρ} :
    (answer? query rows).isSome ↔ ∀ row ∈ rows, (holds? query row).isSome := by
  rw [answer?, Option.isSome_ite, List.all_eq_true]

/-- Rows that match and stand in order already are listed as they are. -/
theorem answer?_of_sorted {query : ListQuery κ} {rows : List ρ}
    (hmatch : ∀ row ∈ rows, holds? query row = some true)
    (hsorted : rows.Pairwise fun a b ↦ (query.sort.compare a b).isLE) :
    answer? query rows = some ⟨query.window.slice rows, Int64.ofNat rows.length⟩ := by
  have hmatching : matching query rows = rows := by
    rw [matching, List.filter_eq_self.2 fun row hrow ↦ decide_eq_true (hmatch row hrow)]
    exact List.mergeSort_of_pairwise hsorted
  have hdecided : ∀ row ∈ rows, (holds? query row).isSome := fun row hrow ↦ by
    rw [hmatch row hrow]
    rfl
  rw [answer?_of_decided hdecided query.window, hmatching]

/-- Rows with identifiers of their own are listed alike, however they come. -/
theorem answer?_eq_of_perm [LawfulSortKeys κ ρ] {query : ListQuery κ} {rows rows' : List ρ}
    (h : rows'.Perm rows) (hids : (rows.map (SortKeys.id κ)).Nodup) :
    answer? query rows' = answer? query rows := by
  have hmatching : matching query rows' = matching query rows :=
    query.sort.apply_eq_of_perm (h.filter _) (hids.sublist (List.filter_sublist.map _))
  rw [answer?, answer?, h.all_eq, hmatching]

end PlaybookRuns.Memory
