import PlaybookRuns.Proofs.Query.Filter
import PlaybookRuns.Proofs.Query.Gathering
import PlaybookRuns.Proofs.Query.Insertion
import PlaybookRuns.Proofs.Query.Request
import PlaybookRuns.Proofs.Sql.Statement
import PlaybookRuns.Sql.Condition

/-!
# Choices among nothing

A choice among no values is written `FALSE`. Main statement: no request asks for one, since a
parameter tree has a value under each of its nodes.
-/

namespace PlaybookRuns

namespace Query

/-! ## Operands of filters -/

/-- Whether a predicate that offers a choice has something to choose from. -/
def Predicate.HasOperands : Predicate → Prop
  | anyOf _ values => values ≠ []
  | status _ shown => shown ≠ []
  | label _ _ => True

private theorem ne_nil_of_mapM {ε α β : Type} {f : α → Except ε β} {as : List α} {bs : List β}
    (h : as.mapM f = .ok bs) (hne : as ≠ []) : bs ≠ [] := by
  rintro rfl
  exact hne (List.map_eq_nil_iff.1 (Checked.mapM_eq_ok_iff.1 h))

private theorem hasOperands_of_slotPredicates {path : String} {node : Node} (hnode : node.Grown)
    {slot : Slot} {ps : List Predicate} (h : slotPredicates path node slot = .ok ps) :
    ∀ p ∈ ps, p.HasOperands := by
  intro p hp
  cases slot with
  | column c =>
    cases hnode with
    | leaf hne =>
      rw [slotPredicates_column_leaf] at h
      obtain ⟨operands, hoperands, hpure⟩ := Checked.bind_eq_ok_iff.1 h
      obtain rfl := Checked.pure_eq_ok_iff.1 hpure
      obtain rfl := List.mem_singleton.1 hp
      exact ne_nil_of_mapM hoperands hne
    | branch => cases h
  | status s =>
    cases hnode with
    | leaf hne =>
      rw [slotPredicates_status_leaf] at h
      obtain ⟨shown, hshown, hpure⟩ := Checked.bind_eq_ok_iff.1 h
      obtain rfl := Checked.pure_eq_ok_iff.1 hpure
      obtain rfl := List.mem_singleton.1 hp
      obtain ⟨first, rest, rfl⟩ := List.exists_cons_of_ne_nil (ne_nil_of_mapM hshown hne)
      exact List.ne_nil_of_mem (List.mem_eraseDups.2 List.mem_cons_self)
    | branch => cases h
  | labels =>
    obtain ⟨-, hasks⟩ := asks_of_slotPredicates h p hp
    cases p with
    | label key value => trivial
    | anyOf => exact hasks.elim
    | status => exact hasks.elim
  | run => cases h

private theorem hasOperands_of_flatPredicates {scope : Scope} (hscope : scope ≠ .host)
    {above : Option String} {tree : Tree} (hgrown : ∀ e ∈ tree, e.2.Grown) {ps : List Predicate}
    (h : flatPredicates scope above tree = .ok ps) : ∀ p ∈ ps, p.HasOperands := by
  intro p hp
  rw [flatPredicates_eq] at h
  obtain ⟨⟨key, node⟩, hentry, part, hpart, hp⟩ := (Checked.mem_flatten_iff h).1 hp
  obtain ⟨slot, -, -, hslot⟩ := exists_slot_of_flatEntry hscope hpart
  exact hasOperands_of_slotPredicates (hgrown _ hentry) hslot p hp

/-- What a tree of filters with a value under each node is compiled into has operands. -/
theorem Filter.hasOperands_of_ofTree {tree : Tree} (hgrown : tree.Grown) {resource : Resource}
    {filter : Filter} (h : Filter.ofTree tree resource = .ok filter) :
    ∀ p ∈ filter.predicates, p.HasOperands := by
  intro p hp
  rw [Filter.ofTree_eq] at h
  obtain ⟨ps, hps, rfl⟩ := Checked.map_eq_ok_iff.1 h
  obtain ⟨⟨key, node⟩, hentry, part, hpart, hp⟩ := (Checked.mem_flatten_iff hps).1 hp
  have hnode : node.Grown := hgrown.grown _ hentry
  obtain ⟨slot, -, ⟨-, path, hslot⟩ | ⟨-, children, rfl, hflat⟩⟩ :=
    exists_slot_of_entryPredicates hpart
  · exact hasOperands_of_slotPredicates hnode hslot p hp
  · cases hnode with
    | branch _ _ hchildren => exact hasOperands_of_flatPredicates (by decide) hchildren hflat p hp

/-- What an accepted request filters by has operands. -/
theorem ListRequest.hasOperands_of_ofParams {φ κ ρ : Type} [FieldSet φ] [SortKeys κ ρ]
    {resource : Resource} {params : Params} {request : ListRequest φ κ}
    (h : ListRequest.ofParams resource params = .ok request) :
    ∀ p ∈ request.filter.predicates, p.HasOperands := by
  obtain ⟨-, -, hfilter, -⟩ := ListRequest.ofParams_eq_ok_iff.1 h
  exact Filter.hasOperands_of_ofTree (DeepObject.grown_ofParams params "filter") hfilter

end Query

namespace Sql

open PlaybookRuns.Query PlaybookRuns.Time

/-! ## Conditions as written -/

private theorem word_ne_false (c : ColumnRef) : c.word ≠ "FALSE" := by
  intro h
  have hletters := congrArg String.toList h
  obtain ⟨table, name⟩ := c
  cases table <;> simp [ColumnRef.word, Table.alias] at hletters

private theorem false_not_mem_term (t : Term) : Token.word "FALSE" ∉ t.statement := by
  cases t with
  | column c => simpa [Term.statement] using (word_ne_false c).symm
  | bound v => simp [Term.statement]
  | literal s =>
    simp only [Term.statement, List.mem_singleton, Token.word.injEq]
    intro h
    have hletters := congrArg String.toList h
    simp at hletters
  | secondsAfter instant seconds =>
    simp [Term.statement, parenthesized, words, (word_ne_false instant).symm,
      (word_ne_false seconds).symm]

private theorem false_not_mem_comparison (a b : Term) {operator : String}
    (h : operator ≠ "FALSE") : Token.word "FALSE" ∉ Condition.comparison a operator b := by
  simp [Condition.comparison, false_not_mem_term, h.symm]

private theorem false_mem_joined_iff {connective : String} (h : connective ≠ "FALSE")
    (conditions : List Condition) :
    Token.word "FALSE" ∈ Condition.joined connective conditions ↔
      ∃ c ∈ conditions, Token.word "FALSE" ∈ c.operand := by
  induction conditions with
  | nil => simp [Condition.joined]
  | cons c conditions ih => simp [Condition.joined, h.symm, ih]

private theorem false_not_mem_shownCondition (column : ColumnRef) (now : Instant)
    (shown : DisplayedStatus) :
    Token.word "FALSE" ∉ (shownCondition column now shown).operand := by
  cases shown <;>
    simp [shownCondition, Condition.operand, Condition.joined, parenthesized,
      false_not_mem_comparison]

private theorem false_not_mem_values (values : List Value) :
    Token.word "FALSE" ∉ commaSeparated (values.map ([.bind ·])) := by
  intro h
  rcases mem_commaSeparated h with hcomma | ⟨part, hpart, hmem⟩
  · exact absurd hcomma (by decide)
  · obtain ⟨v, -, rfl⟩ := List.mem_map.1 hpart
    exact absurd (List.mem_singleton.1 hmem) nofun

/-- A predicate is written with `FALSE` exactly where it offers a choice among nothing. -/
theorem false_mem_predicateCondition_iff (now : Instant) (p : Predicate) :
    Token.word "FALSE" ∈ (predicateCondition now p).operand ↔ ¬p.HasOperands := by
  cases p with
  | anyOf column values =>
    cases values with
    | nil => exact iff_of_true List.mem_cons_self fun h ↦ h rfl
    | cons value values =>
      have hvalues := false_not_mem_values ((value :: values).map operandValue)
      refine iff_of_false ?_ fun h ↦ h (List.cons_ne_nil _ _)
      rw [predicateCondition, List.map_cons, Condition.operand]
      simpa [parenthesized, false_not_mem_term] using hvalues
  | status subject shown =>
    cases shown with
    | nil => exact iff_of_true List.mem_cons_self fun h ↦ h rfl
    | cons first shown =>
      refine iff_of_false ?_ fun h ↦ h (List.cons_ne_nil _ _)
      simp [predicateCondition, Condition.operand, parenthesized, false_not_mem_shownCondition,
        false_mem_joined_iff]
  | label key value =>
    exact iff_of_false (false_not_mem_comparison _ _ (by decide)) fun h ↦ h trivial

/-- The rows of a listing are selected with `FALSE` exactly where its filter offers a choice among
nothing. -/
theorem false_mem_whereClause_iff {orgId : String} {filter : Filter} {now : Instant} :
    Token.word "FALSE" ∈ whereClause orgId filter now ↔
      ∃ p ∈ filter.predicates, ¬p.HasOperands := by
  have htenant : Token.word "FALSE" ∉ (tenantCondition orgId).operand :=
    false_not_mem_comparison _ _ (by decide)
  simp [whereClause, htenant, false_mem_joined_iff, false_mem_predicateCondition_iff]

/-- A value that a tree does not take leaves it as it is, and one that it takes comes last at its
path and changes nothing else. So trees that values have been given in have one under each node, and
no accepted request filters by a choice among nothing, nor is written as one. -/
theorem no_choice_among_nothing {φ κ ρ : Type} [FieldSet φ] [SortKeys κ ρ] :
    (∀ (tree : Tree) (value : String) (path : List String),
      ((tree.insert value path).2 = false → (tree.insert value path).1 = tree) ∧
      ((tree.insert value path).2 = true → Node.Extends value path (some (.branch tree))
        (some (.branch (tree.insert value path).1)))) ∧
    (∀ tree : Tree, tree.Reachable → tree.Grown) ∧
    ∀ (resource : Resource) (params : Params) (request : ListRequest φ κ),
      ListRequest.ofParams resource params = .ok request →
        (∀ p ∈ request.filter.predicates, p.HasOperands) ∧
          ∀ orgId now, Token.word "FALSE" ∉ whereClause orgId request.filter now := by
  refine ⟨fun tree value path ↦ ⟨Tree.insert_of_not_taken, Tree.extends_of_insert⟩,
    fun tree ↦ Tree.Reachable.grown, fun resource params request hrequest ↦ ?_⟩
  have hoperands := ListRequest.hasOperands_of_ofParams hrequest
  refine ⟨hoperands, fun orgId now hfalse ↦ ?_⟩
  obtain ⟨p, hp, hnothing⟩ := false_mem_whereClause_iff.1 hfalse
  exact hnothing (hoperands p hp)

private def repeatedStatus : Params :=
  [("filter[status]", "timeout"), ("filter[service]", "a"), ("filter[status]", "timeout"),
    ("filter[service]", "FALSE")]

private def repeatedStatusRequest : ListRequest RunField RunSortKey :=
  ⟨FieldSet.defaults, ⟨[.anyOf .service [.text "a", .text "FALSE"], .status .run [.timeout]]⟩,
    SortOrder.initial, ⟨50, 0⟩⟩

/-- A tree with one value refuses one below it and takes one beside it, and a request with repeated
values asks for no choice among nothing. -/
theorem no_choice_among_nothing_repeated :
    let tree := (Tree.insert "x" ["run"] []).1
    (tree.insert "y" ["run", "id"]).2 = false ∧ (tree.insert "y" ["run", "id"]).1 = tree ∧
      (tree.insert "y" ["host", "id"]).2 = true ∧
      Node.Extends "y" ["host", "id"] (some (.branch tree))
        (some (.branch (tree.insert "y" ["host", "id"]).1)) ∧
      tree.Grown ∧
      ListRequest.ofParams .run repeatedStatus = .ok repeatedStatusRequest ∧
      (∀ p ∈ repeatedStatusRequest.filter.predicates, p.HasOperands) ∧
      Token.word "FALSE" ∉ whereClause "org" repeatedStatusRequest.filter ⟨0, 0⟩ := by
  intro tree
  obtain ⟨hatomic, hgrown, hrequests⟩ :=
    no_choice_among_nothing (φ := RunField) (κ := RunSortKey) (ρ := Run)
  have hrequest : ListRequest.ofParams .run repeatedStatus = .ok repeatedStatusRequest := by
    rw [ListRequest.ofParams_eq_ok_iff]
    exact ⟨by decide +kernel, by decide +kernel, by decide +kernel, by decide +kernel,
      by decide +kernel⟩
  obtain ⟨hoperands, hwritten⟩ := hrequests .run repeatedStatus repeatedStatusRequest hrequest
  have hrefused : (tree.insert "y" ["run", "id"]).2 = false := rfl
  have htaken : (tree.insert "y" ["host", "id"]).2 = true := rfl
  exact ⟨hrefused, (hatomic tree "y" ["run", "id"]).1 hrefused, htaken,
    (hatomic tree "y" ["host", "id"]).2 htaken, hgrown tree (.insert "x" ["run"] .empty), hrequest,
    hoperands, hwritten "org" ⟨0, 0⟩⟩

end Sql

end PlaybookRuns
