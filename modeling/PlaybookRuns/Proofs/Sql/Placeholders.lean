import PlaybookRuns.Proofs.Sql.Statement
import PlaybookRuns.Sql.Listing

/-!
# Listing statements and their values

What a listing puts into the text of its statements, and what it sends apart from it. Main
statement: the texts are the same for all queries of one shape and one order, whatever their values,
and number the values sent with them: the tenant, the operands of the filter, and in the end the
window.
-/

namespace PlaybookRuns.Sql

open PlaybookRuns.Query PlaybookRuns.Time

/-! ## Placeholders of a text -/

/-- The placeholders in a text: every dollar sign, with the digits after it. -/
def placeholders : List Char → List String
  | [] => []
  | c :: cs =>
    if c = '$' then String.ofList ('$' :: cs.takeWhile Char.isDigit) :: placeholders cs
    else placeholders cs

private theorem placeholders_append {cs : List Char} (h : '$' ∉ cs) (rest : List Char) :
    placeholders (cs ++ rest) = placeholders rest := by
  induction cs with
  | nil => rfl
  | cons c cs ih =>
    have hc : c ≠ '$' := fun hc ↦ h (hc ▸ List.mem_cons_self)
    rw [List.cons_append, placeholders, if_neg hc]
    exact ih fun hcs ↦ h (List.mem_cons_of_mem c hcs)

private theorem placeholders_number (n : Nat) {rest : List Char}
    (h : ∀ c ∈ rest.head?, c.isDigit = false) :
    placeholders (("$" ++ toString n).toList ++ rest) =
      ("$" ++ toString n) :: placeholders rest := by
  have hdigits : ∀ c ∈ (toString n).toList, c.isDigit = true := by
    intro c hc
    rw [Nat.toString_eq_repr, Nat.toList_repr] at hc
    exact Nat.isDigit_of_mem_toDigits (by decide) (by decide) hc
  have hnumber : ((toString n).toList ++ rest).takeWhile Char.isDigit = (toString n).toList := by
    rw [List.takeWhile_append_of_pos hdigits]
    cases rest with
    | nil => simp
    | cons c rest => simp [h c rfl]
  have hdollar : '$' ∉ (toString n).toList := fun hc ↦ absurd (hdigits _ hc) (by decide)
  have htext : ("$" ++ toString n).toList = '$' :: (toString n).toList := by simp
  rw [htext, List.cons_append, placeholders, if_pos rfl, hnumber, placeholders_append hdollar,
    ← htext, String.ofList_toList]

/-! ## Texts of statements -/

namespace Statement

/-- Statements with the same words, and values in the same places, are numbered alike. -/
theorem numbered_eq_of_skeleton_eq {s s' : Statement} (h : s.skeleton = s'.skeleton)
    (count : Nat) : numbered count s = numbered count s' := by
  fun_induction numbered count s generalizing s' with
  | case1 count => rw [List.map_eq_nil_iff.1 h.symm, numbered]
  | case2 count w s ih =>
    obtain ⟨t', s', rfl, ht, hs⟩ := List.map_eq_cons_iff.1 h.symm
    cases t' with
    | word w' => rw [numbered, ih hs.symm, Option.some.inj ht]
    | bind v => cases ht
  | case3 count v s ih =>
    obtain ⟨t', s', rfl, ht, hs⟩ := List.map_eq_cons_iff.1 h.symm
    cases t' with
    | word w => cases ht
    | bind v' => rw [numbered, ih hs.symm]

/-- Whether no word of a statement has a dollar sign in it. -/
def Plain (s : Statement) : Prop := ∀ w ∈ s.skeleton, '$' ∉ (w.getD "").toList

/-- Dollar signs are looked for in each word. -/
instance (s : Statement) : Decidable s.Plain :=
  inferInstanceAs (Decidable (∀ w ∈ s.skeleton, '$' ∉ (w.getD "").toList))

/-- The empty statement is plain. -/
@[simp] theorem plain_nil : Plain [] := nofun

/-- A word without a dollar sign keeps a statement plain. -/
@[simp] theorem plain_word_cons {w : String} {s : Statement} :
    Plain (.word w :: s) ↔ '$' ∉ w.toList ∧ s.Plain := List.forall_mem_cons

/-- A value keeps a statement plain. -/
@[simp] theorem plain_bind_cons {v : Value} {s : Statement} :
    Plain (.bind v :: s) ↔ s.Plain := by
  have hempty : '$' ∉ "".toList := by decide
  exact List.forall_mem_cons.trans (and_iff_right hempty)

/-- Statements one after the other are plain where each is. -/
@[simp] theorem plain_append {s s' : Statement} : Plain (s ++ s') ↔ s.Plain ∧ s'.Plain := by
  rw [Plain, skeleton_append, List.forall_mem_append]
  rfl

/-- A statement in parentheses is plain where it is so without. -/
@[simp] theorem plain_parenthesized {s : Statement} : (parenthesized s).Plain ↔ s.Plain := by
  simp [parenthesized]

private theorem plain_flatMap {α : Type} {as : List α} {piece : α → Statement}
    (h : ∀ a ∈ as, (piece a).Plain) : Plain (as.flatMap piece) := by
  rw [Plain, skeleton, List.map_flatMap, List.forall_mem_flatMap]
  exact h

private theorem exists_spaced_cons (w : String) (ws : List String) :
    ∃ gap : String, spaced (w :: ws) = w ++ (gap ++ spaced ws) ∧ '$' ∉ gap.toList ∧
      (w ≠ "(" → ∀ c ∈ (gap ++ spaced ws).toList.head?, c.isDigit = false) := by
  induction ws generalizing w with
  | nil => exact ⟨"", by simp [spaced], by simp, by simp [spaced]⟩
  | cons next ws ih =>
    by_cases h : w = "(" ∨ next = ")" ∨ next = ","
    · refine ⟨"", by simp [spaced, h], by simp, fun hw ↦ ?_⟩
      obtain ⟨gap, hspaced, -⟩ := ih next
      rcases h.resolve_left hw with rfl | rfl <;> simp [hspaced]
    · exact ⟨" ", by simp [spaced, h, String.append_assoc], by simp, by simp⟩

/-- The text of a plain statement holds a placeholder for each value, numbered in order. -/
theorem placeholders_spaced {s : Statement} (h : s.Plain) (count : Nat) :
    placeholders (spaced (numbered count s)).toList =
      (List.range s.binds.length).map fun k ↦ "$" ++ toString (count + k + 1) := by
  induction s generalizing count with
  | nil => rfl
  | cons t s ih =>
    cases t with
    | word w =>
      obtain ⟨hw, hs⟩ := plain_word_cons.1 h
      obtain ⟨gap, hspaced, hgap, -⟩ := exists_spaced_cons w (numbered count s)
      rw [numbered, hspaced, String.toList_append, String.toList_append, placeholders_append hw,
        placeholders_append hgap, ih hs]
      rfl
    | bind v =>
      have hs := plain_bind_cons.1 h
      obtain ⟨gap, hspaced, hgap, hdigit⟩ :=
        exists_spaced_cons ("$" ++ toString (count + 1)) (numbered (count + 1) s)
      -- no digit follows the number of the placeholder, or it would be read as a part of it
      have hopening : "$" ++ toString (count + 1) ≠ "(" := by
        intro heq
        simpa using congrArg (·.toList.head?) heq
      have hlater (k : Nat) : count + 1 + k + 1 = count + (k + 1) + 1 := by omega
      rw [numbered, hspaced, String.toList_append, placeholders_number _ (hdigit hopening),
        String.toList_append, placeholders_append hgap, ih hs, binds, List.length_cons,
        List.range_succ_eq_map, List.map_cons, List.map_map]
      simp only [hlater, Function.comp_def, Nat.succ_eq_add_one, Nat.add_zero]

end Statement

/-! ## Conditions -/

namespace Condition

open Statement

/-- Every connected condition has the connective before it. -/
theorem joined_eq_flatMap (connective : String) (conditions : List Condition) :
    joined connective conditions = conditions.flatMap fun c ↦ .word connective :: c.operand := by
  induction conditions with
  | nil => rfl
  | cons c conditions ih => rw [joined, ih, List.flatMap_cons, List.cons_append]

private theorem skeleton_joined (connective : String) (conditions : List Condition) :
    (joined connective conditions).skeleton =
      (conditions.map (·.operand.skeleton)).flatMap (some connective :: ·) := by
  rw [joined_eq_flatMap, skeleton, List.map_flatMap, List.flatMap_map]
  rfl

private theorem plain_joined {connective : String} (hconnective : '$' ∉ connective.toList)
    {conditions : List Condition} (h : ∀ c ∈ conditions, c.operand.Plain) :
    (joined connective conditions).Plain := by
  rw [joined_eq_flatMap]
  exact plain_flatMap fun c hc ↦ plain_word_cons.2 ⟨hconnective, h c hc⟩

private theorem binds_joined (connective : String) (conditions : List Condition) :
    (joined connective conditions).binds = conditions.flatMap (·.operand.binds) := by
  rw [joined_eq_flatMap, binds_flatMap]
  rfl

private theorem isIn_cons (a : Term) (v : Value) (values : List Value) :
    (isIn a (v :: values)).operand = a.statement ++ .word "IN" :: parenthesized
      (.bind v :: values.flatMap fun v ↦ [.word ",", .bind v]) := by
  rw [operand, List.map_cons, commaSeparated_cons, List.flatMap_map]
  rfl

/-- A choice among values is written alike for so many values. -/
theorem skeleton_isIn {a : Term} {values values' : List Value}
    (h : values.length = values'.length) :
    (isIn a values).operand.skeleton = (isIn a values').operand.skeleton := by
  have hvalues (vs : List Value) : skeleton (vs.flatMap fun v ↦ [.word ",", .bind v]) =
      (List.replicate vs.length [some ",", none]).flatten := by
    rw [skeleton, List.map_flatMap, ← List.map_const', ← List.flatMap_def]
    rfl
  match values, values', h with
  | [], [], _ => rfl
  | v :: values, v' :: values', h =>
    have hlength : values.length = values'.length := Nat.succ.inj h
    simp only [isIn_cons, skeleton_append, parenthesized, skeleton_word_cons, List.cons_append,
      skeleton_bind_cons, hvalues, hlength]

private theorem binds_isIn (c : ColumnRef) (values : List Value) :
    (isIn (.column c) values).operand.binds = values := by
  cases values with
  | nil => rfl
  | cons v values => simp [isIn_cons, Term.statement, binds, binds_flatMap]

private theorem plain_isIn {c : ColumnRef} (hc : '$' ∉ c.word.toList) (values : List Value) :
    (isIn (.column c) values).operand.Plain := by
  cases values with
  | nil => simp [operand]
  | cons v values =>
    have hvalues : Plain (values.flatMap fun v ↦ [.word ",", .bind v]) :=
      plain_flatMap fun v _ ↦ by simp
    rw [isIn_cons, plain_append, plain_word_cons, plain_parenthesized, plain_bind_cons]
    exact ⟨plain_word_cons.2 ⟨hc, plain_nil⟩, by decide, hvalues⟩

private theorem binds_any (conditions : List Condition) :
    (any conditions).operand.binds = conditions.flatMap (·.operand.binds) := by
  cases conditions with
  | nil => rfl
  | cons c conditions => rw [operand, binds_parenthesized, binds_append, binds_joined]; rfl

private theorem skeleton_any_congr {conditions conditions' : List Condition}
    (h : conditions.map (·.operand.skeleton) = conditions'.map (·.operand.skeleton)) :
    (any conditions).operand.skeleton = (any conditions').operand.skeleton := by
  match conditions, conditions', h with
  | [], [], _ => rfl
  | c :: conditions, c' :: conditions', h =>
    obtain ⟨hc, hrest⟩ := List.cons.inj h
    simp only [operand, parenthesized, skeleton_word_cons, skeleton_append, skeleton_joined, hc,
      hrest]

private theorem plain_any {conditions : List Condition} (h : ∀ c ∈ conditions, c.operand.Plain) :
    (any conditions).operand.Plain := by
  cases conditions with
  | nil => decide
  | cons c conditions =>
    obtain ⟨hc, hrest⟩ := List.forall_mem_cons.1 h
    rw [operand, plain_parenthesized, plain_append]
    exact ⟨hc, plain_joined (by decide) hrest⟩

end Condition

/-! ## Shapes -/

/-- What a predicate asks about, without the values it asks for. -/
inductive PredicateShape where
  /-- A column has one of so many values. -/
  | anyOf (column : Column) (count : Nat)
  /-- The shown status of the subject is one of these. -/
  | status (subject : Subject) (anyOf : List DisplayedStatus)
  /-- The run has a label. -/
  | label
  deriving DecidableEq, Repr

/-- The shape of a predicate. -/
def predicateShape : Predicate → PredicateShape
  | .anyOf column values => .anyOf column values.length
  | .status subject shown => .status subject shown
  | .label _ _ => .label

/-- The shape of a filter. -/
def filterShape (filter : Filter) : List PredicateShape := filter.predicates.map predicateShape

/-- The value that the condition for a shown status compares with. -/
def shownValue (now : Instant) : DisplayedStatus → Value
  | .timeout | .running => .instant now
  | status => .text status.name

/-- The values that the condition for a predicate compares with, in order. -/
def predicateValues (now : Instant) : Predicate → List Value
  | .anyOf _ values => values.map operandValue
  | .status _ shown => shown.map (shownValue now)
  | .label key value => [.labels (.ofList [(key, value)])]

section Predicates

open Condition Statement

variable (now now' : Instant)

private theorem skeleton_shownCondition (column : ColumnRef) (shown : DisplayedStatus) :
    (shownCondition column now shown).operand.skeleton =
      (shownCondition column now' shown).operand.skeleton := by
  cases shown <;> rfl

private theorem plain_shownCondition (subject : Subject) (shown : DisplayedStatus) :
    (shownCondition (statusColumn subject) now shown).operand.Plain := by
  rw [Plain, skeleton_shownCondition now ⟨0, 0⟩]
  cases subject <;> cases shown <;> decide +kernel

private theorem binds_shownCondition (column : ColumnRef) (shown : DisplayedStatus) :
    (shownCondition column now shown).operand.binds = [shownValue now shown] := by
  cases shown <;> rfl

private theorem skeleton_predicateCondition {p p' : Predicate}
    (h : predicateShape p = predicateShape p') :
    (predicateCondition now p).operand.skeleton =
      (predicateCondition now' p').operand.skeleton := by
  match p, p', h with
  | .anyOf column values, .anyOf _ values', h =>
    obtain ⟨rfl, hlength⟩ := PredicateShape.anyOf.inj h
    exact skeleton_isIn (by rw [List.length_map, List.length_map, hlength])
  | .status subject shown, .status _ _, h =>
    obtain ⟨rfl, rfl⟩ := PredicateShape.status.inj h
    apply skeleton_any_congr
    simp [skeleton_shownCondition now now']
  | .label _ _, .label _ _, _ => rfl

private theorem plain_predicateCondition (p : Predicate) :
    (predicateCondition now p).operand.Plain := by
  cases p with
  | anyOf column values => exact plain_isIn (by cases column <;> decide) _
  | status subject shown =>
    apply plain_any
    rw [List.forall_mem_map]
    exact fun status _ ↦ plain_shownCondition now subject status
  | label key value =>
    have hlabels : '$' ∉ (runColumn "labels").word.toList := by decide
    simp [predicateCondition, Condition.operand, comparison, Term.statement, hlabels]

private theorem binds_predicateCondition (p : Predicate) :
    (predicateCondition now p).operand.binds = predicateValues now p := by
  cases p with
  | anyOf column values => exact binds_isIn _ _
  | status subject shown =>
    rw [predicateCondition, binds_any, List.flatMap_map, predicateValues, List.map_eq_flatMap]
    simp only [binds_shownCondition]
  | label key value => rfl

private theorem map_eq_map_of_shapes {α : Type} {f g : Predicate → α}
    (hfg : ∀ {p p' : Predicate}, predicateShape p = predicateShape p' → f p = g p')
    {ps ps' : List Predicate} (h : ps.map predicateShape = ps'.map predicateShape) :
    ps.map f = ps'.map g := by
  induction ps generalizing ps' with
  | nil => rw [List.map_eq_nil_iff.1 h.symm]; rfl
  | cons p ps ih =>
    obtain ⟨p', ps', rfl, hp, hps⟩ := List.map_eq_cons_iff.1 h.symm
    rw [List.map_cons, List.map_cons, hfg hp.symm, ih hps.symm]

/-- The clauses for filters of one shape are written alike, for all tenants and at all times. -/
theorem skeleton_whereClause (orgId orgId' : String) {filter filter' : Filter}
    (h : filterShape filter = filterShape filter') :
    (whereClause orgId filter now).skeleton = (whereClause orgId' filter' now').skeleton := by
  have hpredicates : filter.predicates.map (fun p ↦ (predicateCondition now p).operand.skeleton) =
      filter'.predicates.map (fun p ↦ (predicateCondition now' p).operand.skeleton) :=
    map_eq_map_of_shapes (skeleton_predicateCondition now now') h
  rw [whereClause, whereClause, skeleton_word_cons, skeleton_word_cons, skeleton_append,
    skeleton_append, skeleton_joined, skeleton_joined, List.map_map, List.map_map]
  exact congrArg (fun parts ↦ some "WHERE" :: ([some "r.org_id", some "=", none] ++
    parts.flatMap (some "AND" :: ·))) hpredicates

/-- The clause of a filter is plain. -/
theorem plain_whereClause (orgId : String) (filter : Filter) :
    (whereClause orgId filter now).Plain := by
  have htenant : (tenantCondition orgId).operand.Plain := by
    have hcolumn : '$' ∉ (runColumn "org_id").word.toList := by decide
    simp [tenantCondition, Condition.operand, comparison, Term.statement, hcolumn]
  rw [whereClause, plain_word_cons, plain_append]
  refine ⟨by decide, htenant, plain_joined (by decide) ?_⟩
  rw [List.forall_mem_map]
  exact fun p _ ↦ plain_predicateCondition now p

/-- The clause of a filter binds the tenant and then the values of its predicates. -/
theorem binds_whereClause (orgId : String) (filter : Filter) :
    (whereClause orgId filter now).binds =
      .text orgId :: filter.predicates.flatMap (predicateValues now) := by
  rw [whereClause, binds, binds_append, binds_joined, List.flatMap_map]
  simp only [binds_predicateCondition]
  rfl

end Predicates

/-! ## Statements of listings -/

/-- That statements for queries keep the values of the queries out of their texts, and send them
in the order in which the texts number them. -/
structure Parametrized {κ : Type} (statement : ListQuery κ → Statement)
    (closing : ListQuery κ → List Value) : Prop where
  /-- The text depends on the shape of the filter and on the order. -/
  text_eq : ∀ query query' : ListQuery κ, filterShape query.filter = filterShape query'.filter →
    query.sort = query'.sort → (statement query).toText = (statement query').toText
  /-- The placeholders are numbered from one on, and there are as many as values. -/
  placeholders_eq : ∀ query : ListQuery κ, placeholders (statement query).toText.toList =
    (List.range (statement query).binds.length).map fun k ↦ "$" ++ toString (k + 1)
  /-- The values are the tenant, those of the predicates in order, and the closing ones. -/
  binds_eq : ∀ query : ListQuery κ, (statement query).binds =
    .text query.orgId :: query.filter.predicates.flatMap (predicateValues query.now) ++
      closing query

/-- The values with which the window of a query is cut out. -/
def windowValues {κ : Type} (query : ListQuery κ) : List Value :=
  [.int8 query.window.limit, .int8 query.window.offset]

section Parametrized

open Statement

variable {κ : Type} {source : Statement}

private theorem parametrized_of_parts {statement : ListQuery κ → Statement} {front : Statement}
    {back : ListQuery κ → Statement} {closing : ListQuery κ → List Value}
    (hstatement : ∀ query, statement query =
      front ++ whereClause query.orgId query.filter query.now ++ back query)
    (hplain : front.Plain ∧ ∀ query, (back query).Plain)
    (hvalues : front.binds = [] ∧ ∀ query, (back query).binds = closing query)
    (hback : ∀ query query', query.sort = query'.sort →
      (back query).skeleton = (back query').skeleton) : Parametrized statement closing where
  text_eq query query' hshape hsort := by
    refine congrArg spaced (numbered_eq_of_skeleton_eq ?_ 0)
    simp only [hstatement, skeleton_append]
    rw [skeleton_whereClause query.now query'.now query.orgId query'.orgId hshape,
      hback _ _ hsort]
  placeholders_eq query := by
    have hwhole : (statement query).Plain := by
      rw [hstatement, plain_append, plain_append]
      exact ⟨⟨hplain.1, plain_whereClause _ _ _⟩, hplain.2 query⟩
    simpa only [toText, Nat.zero_add] using placeholders_spaced hwhole 0
  binds_eq query := by
    rw [hstatement, binds_append, binds_append, hvalues.1, hvalues.2, binds_whereClause,
      List.nil_append]

private theorem parametrized_count (hplain : source.Plain) (hvalues : source.binds = []) :
    Parametrized (countStatement (κ := κ) source) fun _ ↦ [] := by
  have hparts (query : ListQuery κ) : countStatement source query =
      (words ["SELECT", "COUNT(*)"] ++ source) ++
        whereClause query.orgId query.filter query.now ++ [] := (List.append_nil _).symm
  refine parametrized_of_parts hparts ⟨plain_append.2 ⟨by decide, hplain⟩, fun _ ↦ plain_nil⟩
    ⟨?_, fun _ ↦ rfl⟩ fun _ _ _ ↦ rfl
  rw [binds_append, hvalues]
  rfl

private theorem parametrized_select {output : List OutputColumn}
    {terms : SortOrder κ → List OrderTerm}
    (hplain : Plain
      (.word "SELECT" :: commaSeparated (output.map OutputColumn.statement) ++ source))
    (hvalues : binds
      (.word "SELECT" :: commaSeparated (output.map OutputColumn.statement) ++ source) = [])
    (hterms : ∀ sort, (orderClause (terms sort)).Plain ∧ (orderClause (terms sort)).binds = []) :
    Parametrized (fun query ↦ selectStatement output source (terms query.sort) query)
      windowValues := by
  have hwindow (window : Window) : (windowClause window).Plain := by
    simp [windowClause]
  refine parametrized_of_parts (fun _ ↦ List.append_assoc _ _ _) ⟨hplain, fun query ↦ ?_⟩
    ⟨hvalues, fun query ↦ ?_⟩ fun query query' hsort ↦ ?_
  · exact plain_append.2 ⟨(hterms query.sort).1, hwindow query.window⟩
  · rw [binds_append, (hterms query.sort).2]
    rfl
  · rw [skeleton_append, skeleton_append, hsort]
    rfl

end Parametrized

/-- The statements that count and fetch, for runs and for hosts, keep all values out of their
texts. Only those that fetch have values of their own, which come last: the limit and the offset. -/
theorem listings_parametrized :
    Parametrized countRuns (fun _ ↦ []) ∧ Parametrized selectRuns windowValues ∧
      Parametrized countHosts (fun _ ↦ []) ∧ Parametrized selectHosts windowValues := by
  have hruns (sort : SortOrder RunSortKey) :
      (orderClause (runOrder sort)).Plain ∧ (orderClause (runOrder sort)).binds = [] := by
    obtain ⟨key, direction⟩ := sort
    cases key <;> cases direction <;> decide
  have hhosts (sort : SortOrder HostSortKey) :
      (orderClause (hostOrder sort)).Plain ∧ (orderClause (hostOrder sort)).binds = [] := by
    obtain ⟨key, direction⟩ := sort
    cases key <;> cases direction <;> decide
  exact ⟨parametrized_count (by decide) rfl, parametrized_select (by decide +kernel) rfl hruns,
    parametrized_count (by decide) rfl, parametrized_select (by decide +kernel) rfl hhosts⟩

/-- A quote in a service ends no text of the statement. -/
example : (countRuns ⟨"5318290", ⟨[.anyOf .service [.text "' OR 'a' = 'a", .text "$1"],
    .status .run [.timeout]]⟩, .initial, ⟨50, 0⟩, ⟨0, 0⟩⟩).toText =
      "SELECT COUNT(*) FROM runs r WHERE r.org_id = $1 AND r.service IN ($2, $3) " ++
        "AND ((r.status = 'running' AND " ++
          "(r.created_at + r.timeout * INTERVAL '1 second') <= $4))" := by
  decide +kernel

end PlaybookRuns.Sql
