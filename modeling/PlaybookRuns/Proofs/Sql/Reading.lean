import PlaybookRuns.Proofs.Sql.Expression

/-!
# Reading written conditions

The tokens in which a condition is written are read as the expression it stands for, whatever is
open around them: comparisons bind tighter than the connectives between them, and a compound
condition stands in parentheses. Main statement: a `WHERE` clause reads as the conjunction of its
conditions.
-/

namespace PlaybookRuns.Sql

/-! ## Conditions as expressions -/

/-- The expression that a term stands for. -/
def Term.expr : Term → Expr
  | column c => .column c
  | bound v => .value v
  | literal s => .text s
  | secondsAfter instant seconds =>
    .binary .plus (.column instant) (.binary .times (.column seconds) .second)

namespace Condition

mutual

/-- The expression that a condition stands for. -/
def expr : Condition → Expr
  | equal a b => .binary .equal a.expr b.expr
  | atMost a b => .binary .atMost a.expr b.expr
  | above a b => .binary .above a.expr b.expr
  | includes a b => .binary .includes a.expr b.expr
  | isIn _ [] => .truth false
  | isIn a (v :: values) => .isIn a.expr (v :: values)
  | all [] => .truth true
  | all (c :: conditions) => chain .and c.expr conditions
  | any [] => .truth false
  | any (c :: conditions) => chain .or c.expr conditions

/-- The expression of further conditions after `first`, a connective before each. -/
def chain (op : Operator) (first : Expr) : List Condition → Expr
  | [] => first
  | c :: conditions => chain op (.binary op first c.expr) conditions

end

end Condition

/-! ## Steps -/

namespace Reading

/-- Tokens are read one after the other. -/
theorem steps_cons (r : Reading) (t : Token) (ts : Statement) :
    r.steps (t :: ts) = (r.step t).bind (·.steps ts) := List.foldlM_cons

/-- Statements in a row are read one after the other. -/
theorem steps_append (r : Reading) (ts ts' : Statement) :
    r.steps (ts ++ ts') = (r.steps ts).bind (·.steps ts') := List.foldlM_append

end Reading

/-- Whether an operand may follow what is open. -/
def Receptive : List Frame → Prop
  | .interval :: _ | .among _ :: _ => False
  | _ => True

/-- Whether a condition may follow what is open: no operator waits that binds as tightly as a
comparison. -/
def Ready : List Frame → Prop
  | .interval :: _ | .among _ :: _ => False
  | .operator _ op :: _ => op.precedence ≤ 2
  | _ => True

/-- Whether no operator waits for its right side. -/
def Closed : List Frame → Prop
  | [] | .parenthesis :: _ | .list _ _ :: _ => True
  | _ => False

/-- Where a condition may follow, an operand may. -/
theorem Ready.receptive {stack : List Frame} (h : Ready stack) : Receptive stack := by
  cases stack with
  | nil => trivial
  | cons frame stack => cases frame <;> trivial

/-- Where an operand may follow, so may one in parentheses. -/
theorem Receptive.step_opening {stack : List Frame} (h : Receptive stack) :
    (Reading.mk stack none).step (.word "(") = some ⟨.parenthesis :: stack, none⟩ := by
  cases stack with
  | nil => rfl
  | cons frame stack =>
    cases frame with
    | interval => exact h.elim
    | among a => exact h.elim
    | _ => rfl

/-- What is ready for a condition keeps an operand of a comparison as it is. -/
theorem Ready.settle_eq {stack : List Frame} (h : Ready stack) {precedence : Nat}
    (hp : 3 ≤ precedence) (e : Expr) : settle precedence stack e = (stack, e) := by
  cases stack with
  | nil => rfl
  | cons frame stack =>
    cases frame with
    | operator a op =>
      have hop : op.precedence ≤ 2 := h
      rw [settle, if_neg (by omega)]
    | _ => rfl

/-- Where no operator waits, an expression is kept as it is. -/
theorem Closed.settle_eq {stack : List Frame} (h : Closed stack) (precedence : Nat) (e : Expr) :
    settle precedence stack e = (stack, e) := by
  cases stack with
  | nil => rfl
  | cons frame stack =>
    cases frame with
    | operator a op => exact h.elim
    | _ => rfl

/-- Tokens that are read as an operand. -/
def ReadsAsTerm (ts : Statement) (e : Expr) : Prop :=
  ∀ stack, Receptive stack → (Reading.mk stack none).steps ts = some ⟨stack, some e⟩

/-- Tokens that are read as a condition: what they leave open settles before a connective. -/
def ReadsAsCondition (ts : Statement) (e : Expr) : Prop :=
  ∀ stack, Ready stack → ∃ stack' e', (Reading.mk stack none).steps ts = some ⟨stack', some e'⟩ ∧
    ∀ precedence ≤ 2, settle precedence stack' e' = settle precedence stack e

/-! ## Terms -/

private theorem step_operand {t : Token} {e : Expr} (h : lexeme? t = some (.operand e))
    {stack : List Frame} (hstack : Receptive stack) :
    (Reading.mk stack none).step t = some ⟨stack, some e⟩ := by
  unfold Reading.step
  simp only [h]
  split
  · exact hstack.elim
  · exact hstack.elim
  · rfl

/-- A token that is an operand is read as that. -/
theorem readsAsTerm_operand {t : Token} {e : Expr} (h : lexeme? t = some (.operand e)) :
    ReadsAsTerm [t] e := by
  intro stack hstack
  rw [Reading.steps_cons, step_operand h hstack]
  rfl

/-- A bound value is an operand. -/
theorem readsAsTerm_bound (v : Value) : ReadsAsTerm (Term.bound v).statement (Term.bound v).expr :=
  readsAsTerm_operand rfl

/-- The word of a column is an operand. -/
theorem readsAsTerm_column {c : ColumnRef}
    (h : lexeme? (.word c.word) = some (.operand (.column c))) :
    ReadsAsTerm (Term.column c).statement (Term.column c).expr :=
  readsAsTerm_operand h

/-- The sum of an instant and a number of seconds, in its parentheses, is an operand. -/
theorem readsAsTerm_secondsAfter {instant seconds : ColumnRef}
    (hinstant : lexeme? (.word instant.word) = some (.operand (.column instant)))
    (hseconds : lexeme? (.word seconds.word) = some (.operand (.column seconds))) :
    ReadsAsTerm (Term.secondsAfter instant seconds).statement
      (Term.secondsAfter instant seconds).expr := by
  intro stack hstack
  simp only [Term.statement, parenthesized, words, List.map_cons, List.map_nil, List.cons_append,
    List.nil_append, Reading.steps_cons, hstack.step_opening, Option.bind_some]
  rw [step_operand hinstant (show Receptive (.parenthesis :: stack) from trivial),
    Option.bind_some]
  change ((Reading.mk (.operator (.column instant) .plus :: .parenthesis :: stack) none).step
    (.word seconds.word)).bind _ = _
  rw [step_operand hseconds (show Receptive (.operator _ _ :: _) from trivial), Option.bind_some]
  rfl

/-! ## Conditions -/

/-- A comparison is read as a condition. -/
theorem readsAsCondition_comparison {a b : Term} {word : String} {op : Operator}
    (hop : lexeme? (.word word) = some (.operator op)) (hprecedence : 3 ≤ op.precedence)
    (ha : ReadsAsTerm a.statement a.expr) (hb : ReadsAsTerm b.statement b.expr) :
    ReadsAsCondition (Condition.comparison a word b) (.binary op a.expr b.expr) := by
  intro stack hstack
  have hstep : (Reading.mk stack (some a.expr)).step (.word word) =
      some ⟨.operator a.expr op :: stack, none⟩ := by
    simp only [Reading.step, hop, hstack.settle_eq hprecedence]
  refine ⟨.operator a.expr op :: stack, b.expr, ?_, fun precedence hle ↦ ?_⟩
  · rw [Condition.comparison, Reading.steps_append, ha stack hstack.receptive, Option.bind_some,
      Reading.steps_cons, hstep, Option.bind_some,
      hb _ (show Receptive (.operator a.expr op :: stack) from trivial)]
  · rw [settle, if_pos (by omega)]

private theorem readsAsCondition_of_term {ts : Statement} {e : Expr} (h : ReadsAsTerm ts e) :
    ReadsAsCondition ts e := fun stack hstack ↦
  ⟨stack, e, h stack hstack.receptive, fun _ _ ↦ rfl⟩

private theorem steps_values (a : Expr) (stack : List Frame) (read : List Value) (v : Value)
    (values : List Value) :
    (Reading.mk (.list a read :: stack) none).steps
        (commaSeparated ((v :: values).map ([.bind ·])) ++ [.word ")"]) =
      some ⟨stack, some (.isIn a (read ++ v :: values))⟩ := by
  induction values generalizing read v with
  | nil => rfl
  | cons next values ih =>
    have htokens : commaSeparated ((v :: next :: values).map ([.bind ·])) ++ [Token.word ")"] =
        .bind v :: .word "," ::
          (commaSeparated ((next :: values).map ([.bind ·])) ++ [.word ")"]) := rfl
    have hnext := ih (read ++ [v]) next
    rw [List.append_assoc, List.singleton_append] at hnext
    rw [htokens, Reading.steps_cons, ← hnext]
    rfl

/-- A choice among values is read as a condition. -/
theorem readsAsCondition_isIn {a : Term} (ha : ReadsAsTerm a.statement a.expr)
    (values : List Value) :
    ReadsAsCondition (Condition.isIn a values).operand (Condition.isIn a values).expr := by
  cases values with
  | nil => exact readsAsCondition_of_term (readsAsTerm_operand rfl)
  | cons v values =>
    intro stack hstack
    refine ⟨stack, .isIn a.expr (v :: values), ?_, fun _ _ ↦ rfl⟩
    have hin : (Reading.mk stack (some a.expr)).step (.word "IN") =
        some ⟨.among a.expr :: stack, none⟩ := by
      have hlexeme : lexeme? (.word "IN") = some .isIn := rfl
      simp only [Reading.step, hlexeme, hstack.settle_eq (show 3 ≤ 5 by decide)]
    have hvalues := steps_values a.expr stack [] v values
    rw [Condition.operand, Reading.steps_append, ha stack hstack.receptive, Option.bind_some,
      Reading.steps_cons, hin, Option.bind_some, parenthesized, Reading.steps_cons]
    exact hvalues

/-- Whether every one of a list of conditions is read as it stands for. -/
def AllRead (conditions : List Condition) : Prop :=
  ∀ c ∈ conditions, ReadsAsCondition c.operand c.expr

/-- Further conditions are read after a first one, a connective before each. -/
theorem steps_joined {word : String} {op : Operator}
    (hop : lexeme? (.word word) = some (.operator op)) (hprecedence : op.precedence ≤ 2)
    {conditions : List Condition} (hread : AllRead conditions) {base : List Frame}
    (hbase : Closed base) {first : Expr} {stack : List Frame} {e : Expr}
    (hsettle : ∀ precedence ≤ op.precedence, settle precedence stack e = (base, first)) :
    ∃ stack' e', (Reading.mk stack (some e)).steps (Condition.joined word conditions) =
        some ⟨stack', some e'⟩ ∧
      ∀ precedence ≤ op.precedence,
        settle precedence stack' e' = (base, Condition.chain op first conditions) := by
  -- every connective settles what stands before it, so the chain leans to the left
  induction conditions generalizing first stack e with
  | nil => exact ⟨stack, e, rfl, hsettle⟩
  | cons c conditions ih =>
    have hstep : (Reading.mk stack (some e)).step (.word word) =
        some ⟨.operator first op :: base, none⟩ := by
      simp only [Reading.step, hop, hsettle _ (Nat.le_refl _)]
    obtain ⟨stack₁, e₁, hc, hsettled⟩ :=
      hread c List.mem_cons_self (.operator first op :: base) hprecedence
    have hjoined : ∀ precedence ≤ op.precedence,
        settle precedence stack₁ e₁ = (base, .binary op first c.expr) := by
      intro precedence hle
      rw [hsettled precedence (by omega), settle, if_pos hle, hbase.settle_eq]
    obtain ⟨stack₂, e₂, hrest, hsettled₂⟩ :=
      ih (fun c' hc' ↦ hread c' (List.mem_cons_of_mem _ hc')) hjoined
    refine ⟨stack₂, e₂, ?_, hsettled₂⟩
    rw [Condition.joined, Reading.steps_cons, hstep, Option.bind_some, Reading.steps_append, hc,
      Option.bind_some, hrest]

private theorem readsAsCondition_compound {word : String} {op : Operator}
    (hop : lexeme? (.word word) = some (.operator op)) (hprecedence : op.precedence ≤ 2)
    {c : Condition} {conditions : List Condition} (hread : AllRead (c :: conditions)) :
    ReadsAsCondition (parenthesized (c.operand ++ Condition.joined word conditions))
      (Condition.chain op c.expr conditions) := by
  intro stack hstack
  obtain ⟨stack₁, e₁, hc, hsettled⟩ :=
    hread c List.mem_cons_self (.parenthesis :: stack) trivial
  obtain ⟨stack₂, e₂, hrest, hsettled₂⟩ := steps_joined hop hprecedence
    (fun c' hc' ↦ hread c' (List.mem_cons_of_mem _ hc'))
    (show Closed (.parenthesis :: stack) from trivial)
    (fun precedence hle ↦ (hsettled precedence (by omega)).trans rfl)
  have hclose : (Reading.mk stack₂ (some e₂)).step (.word ")") =
      some ⟨stack, some (Condition.chain op c.expr conditions)⟩ := by
    have hlexeme : lexeme? (.word ")") = some .closing := rfl
    simp only [Reading.step, hlexeme, hsettled₂ 0 (Nat.zero_le _)]
  refine ⟨stack, Condition.chain op c.expr conditions, ?_, fun _ _ ↦ rfl⟩
  rw [parenthesized, Reading.steps_cons, hstack.receptive.step_opening, Option.bind_some,
    Reading.steps_append, Reading.steps_append, hc, Option.bind_some, hrest, Option.bind_some,
    Reading.steps_cons, hclose]
  rfl

/-- Conditions that all have to hold are read as such. -/
theorem readsAsCondition_all {conditions : List Condition} (hread : AllRead conditions) :
    ReadsAsCondition (Condition.all conditions).operand (Condition.all conditions).expr := by
  cases conditions with
  | nil => exact readsAsCondition_of_term (readsAsTerm_operand rfl)
  | cons c conditions => exact readsAsCondition_compound rfl (by decide) hread

/-- Two conditions that both have to hold are read as such. -/
theorem readsAsCondition_all_pair {c d : Condition} (hc : ReadsAsCondition c.operand c.expr)
    (hd : ReadsAsCondition d.operand d.expr) :
    ReadsAsCondition (Condition.all [c, d]).operand (Condition.all [c, d]).expr := by
  apply readsAsCondition_all
  intro condition hcondition
  simp only [List.mem_cons, List.not_mem_nil, or_false] at hcondition
  rcases hcondition with rfl | rfl
  · exact hc
  · exact hd

/-- Conditions of which one has to hold are read as such. -/
theorem readsAsCondition_any {conditions : List Condition} (hread : AllRead conditions) :
    ReadsAsCondition (Condition.any conditions).operand (Condition.any conditions).expr := by
  cases conditions with
  | nil => exact readsAsCondition_of_term (readsAsTerm_operand rfl)
  | cons c conditions => exact readsAsCondition_compound rfl (by decide) hread

end PlaybookRuns.Sql
