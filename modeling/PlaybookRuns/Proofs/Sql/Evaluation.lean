import PlaybookRuns.Proofs.Sql.Reading

/-!
# Evaluating conditions

What conjunctions, disjunctions and choices among values evaluate to. A conjunction is true exactly
where all of its parts are, whatever is unknown; where every part of a disjunction is known, so is
the disjunction.
-/

namespace PlaybookRuns.Sql

variable {row : JoinedRow}

/-- Whether an expression evaluates to a truth value, which may be unknown. -/
def EvalsTo (row : JoinedRow) (e : Expr) (l : Option Bool) : Prop :=
  e.eval? row = some (.ofLogical l)

/-- An expression has one truth value at most. -/
theorem EvalsTo.iff_eq {e : Expr} {l m : Option Bool} (h : EvalsTo row e l) :
    EvalsTo row e m ↔ l = m := by
  unfold EvalsTo at *
  rw [h, Option.some_inj]
  cases l <;> cases m <;> simp [Datum.ofLogical]

/-- An operator is applied to what its sides evaluate to. -/
theorem eval?_binary {op : Operator} {a b : Expr} {x y : Datum} (ha : a.eval? row = some x)
    (hb : b.eval? row = some y) : (Expr.binary op a b).eval? row = op.result? x y := by
  rw [Expr.eval?, ha, hb]
  rfl

private theorem logical?_ofLogical (l : Option Bool) : (Datum.ofLogical l).logical? = some l := by
  cases l <;> rfl

/-- A conjunction is true exactly where both parts are. -/
theorem conjunction_eq_some_true_iff {a b : Option Bool} :
    conjunction a b = some true ↔ a = some true ∧ b = some true := by
  rcases a with _ | _ | _ <;> rcases b with _ | _ | _ <;> decide

/-- A conjunction is evaluated from both sides. -/
theorem EvalsTo.and {a b : Expr} {l m : Option Bool} (ha : EvalsTo row a l)
    (hb : EvalsTo row b m) : EvalsTo row (.binary .and a b) (conjunction l m) := by
  rw [EvalsTo, eval?_binary ha hb, Operator.result?, logical?_ofLogical, logical?_ofLogical]
  rfl

/-- A disjunction is evaluated from both sides. -/
theorem EvalsTo.or {a b : Expr} {x y : Bool} (ha : EvalsTo row a (some x))
    (hb : EvalsTo row b (some y)) : EvalsTo row (.binary .or a b) (some (x || y)) := by
  rw [EvalsTo, eval?_binary ha hb]
  cases x <;> cases y <;> rfl

section Chains

variable {α : Type} {condition : α → Condition} {as : List α} {first : Expr}

/-- A chain of conjunctions is true exactly where its first part and all others are. -/
theorem evalsTo_chain_and (h : ∀ a ∈ as, ∃ l, EvalsTo row (condition a).expr l) {l : Option Bool}
    (hfirst : EvalsTo row first l) :
    ∃ m, EvalsTo row (Condition.chain .and first (as.map condition)) m ∧
      (m = some true ↔ l = some true ∧ ∀ a ∈ as, EvalsTo row (condition a).expr (some true)) := by
  induction as generalizing first l with
  | nil => exact ⟨l, hfirst, by simp⟩
  | cons a as ih =>
    obtain ⟨x, hx⟩ := h a List.mem_cons_self
    obtain ⟨m, hm, hiff⟩ := ih (fun a' ha' ↦ h a' (List.mem_cons_of_mem _ ha')) (hfirst.and hx)
    refine ⟨m, hm, hiff.trans ?_⟩
    rw [conjunction_eq_some_true_iff, List.forall_mem_cons, and_assoc, hx.iff_eq]

/-- A chain of disjunctions whose parts are known holds exactly where one of them does. -/
theorem evalsTo_chain_or {verdict : α → Bool}
    (h : ∀ a ∈ as, EvalsTo row (condition a).expr (some (verdict a))) {x : Bool}
    (hfirst : EvalsTo row first (some x)) :
    EvalsTo row (Condition.chain .or first (as.map condition)) (some (x || as.any verdict)) := by
  induction as generalizing first x with
  | nil =>
    rw [List.any_nil, Bool.or_false]
    exact hfirst
  | cons a as ih =>
    have hboth := hfirst.or (h a List.mem_cons_self)
    rw [List.any_cons, ← Bool.or_assoc]
    exact ih (fun a' ha' ↦ h a' (List.mem_cons_of_mem _ ha')) hboth

/-- A choice among conditions that are known holds exactly where one of them does. -/
theorem evalsTo_any {verdict : α → Bool}
    (h : ∀ a ∈ as, EvalsTo row (condition a).expr (some (verdict a))) :
    EvalsTo row (Condition.any (as.map condition)).expr (some (as.any verdict)) := by
  cases as with
  | nil => rfl
  | cons a as =>
    exact evalsTo_chain_or (fun a' ha' ↦ h a' (List.mem_cons_of_mem _ ha'))
      (h a List.mem_cons_self)

end Chains

/-- A conjunction of two conditions that are known holds exactly where both do. -/
theorem evalsTo_all_pair {c d : Condition} {x y : Bool} (hc : EvalsTo row c.expr (some x))
    (hd : EvalsTo row d.expr (some y)) :
    EvalsTo row (Condition.all [c, d]).expr (some (x && y)) := by
  have hboth := hc.and hd
  cases x <;> cases y <;> exact hboth

/-! ## Choices among values -/

/-- A value is among those of a list exactly where it equals one of them. -/
theorem evalsTo_isIn {α : Type} {a : Term} {datum : Datum} (ha : a.expr.eval? row = some datum)
    {value : α → Value} {same : α → Bool} {as : List α}
    (hsame : ∀ x ∈ as,
      Operator.equal.result? datum (.ofValue (value x)) = some (.truth (same x))) :
    EvalsTo row (Condition.isIn a (as.map value)).expr (some (as.any same)) := by
  have hfold (found : Bool) : (as.map value).foldlM (orEqual? datum) (.truth found) =
      some (.truth (found || as.any same)) := by
    induction as generalizing found with
    | nil => simp
    | cons x as ih =>
      have hstep : orEqual? datum (.truth found) (value x) = some (.truth (found || same x)) := by
        rw [orEqual?, hsame x List.mem_cons_self]
        cases found <;> cases same x <;> rfl
      have hrest := ih (fun y hy ↦ hsame y (List.mem_cons_of_mem _ hy)) (found || same x)
      rw [List.map_cons, List.foldlM_cons, hstep, Option.bind_eq_bind, Option.bind_some, hrest,
        List.any_cons, Bool.or_assoc]
  cases as with
  | nil => rfl
  | cons x as =>
    rw [List.map_cons] at hfold ⊢
    rw [EvalsTo, Condition.expr, Expr.eval?, ha, Option.bind_eq_bind, Option.bind_some, hfold]
    rfl

/-- A missing value is not known to be among those of a list, and is not where there are none. -/
theorem evalsTo_isIn_null {a : Term} (ha : a.expr.eval? row = some .null) (values : List Value) :
    ∃ l, EvalsTo row (Condition.isIn a values).expr l ∧ l ≠ some true := by
  have hfold (l : Option Bool) (hl : l ≠ some true) : ∃ m : Option Bool, m ≠ some true ∧
      values.foldlM (orEqual? .null) (.ofLogical l) = some (Datum.ofLogical m) := by
    induction values generalizing l with
    | nil => exact ⟨l, hl, rfl⟩
    | cons v values ih =>
      obtain ⟨m, hm, hrest⟩ := ih none (by simp)
      refine ⟨m, hm, ?_⟩
      rw [← hrest, List.foldlM_cons]
      rcases l with _ | b
      · rfl
      · cases b with
        | false => rfl
        | true => exact absurd rfl hl
  cases values with
  | nil => exact ⟨some false, rfl, by simp⟩
  | cons v values =>
    obtain ⟨m, hm, hvalues⟩ := hfold (some false) (by simp)
    refine ⟨m, ?_, hm⟩
    rw [EvalsTo, Condition.expr, Expr.eval?, ha, Option.bind_eq_bind, Option.bind_some]
    exact hvalues

/-! ## Columns -/

/-- A chain refers to the columns of its parts. -/
theorem columns_chain {op : Operator} {first : Expr} {conditions : List Condition}
    {c : ColumnRef} :
    c ∈ (Condition.chain op first conditions).columns ↔
      c ∈ first.columns ∨ ∃ condition ∈ conditions, c ∈ condition.expr.columns := by
  induction conditions generalizing first with
  | nil => simp [Condition.chain]
  | cons condition conditions ih =>
    rw [Condition.chain, ih, Expr.columns, List.mem_append, or_assoc]
    simp

end PlaybookRuns.Sql
