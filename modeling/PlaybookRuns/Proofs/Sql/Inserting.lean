import PlaybookRuns.Proofs.Checked
import PlaybookRuns.Proofs.Sql.Statement
import PlaybookRuns.Proofs.Text.Split
import PlaybookRuns.Sql.Insertion

/-!
# Reading insertions

What the tokens of an insertion mean to the database, whatever they were written from: a table, the
columns that are named, and a value for each of them in every row. Main statement: an insertion is
read as what it was written from.
-/

namespace PlaybookRuns.Sql

/-! ## Reading -/

/-- The word that tokens consist of. -/
def soleWord? : Statement → Option String
  | [.word w] => some w
  | _ => none

/-- The rows that tokens write, where values of the first have been read before. -/
def readRows? : List Value → Statement → Option (List (List Value))
  | read, [.bind v, .word ")"] => some [read ++ [v]]
  | read, .bind v :: .word "," :: ts => readRows? (read ++ [v]) ts
  | read, .bind v :: .word ")" :: .word "," :: .word "(" :: ts =>
    (readRows? [] ts).map ((read ++ [v]) :: ·)
  | _, _ => none

namespace Insertion

/-- The insertion that tokens write, if every row has a value for each column. -/
def ofTokens? : Statement → Option Insertion
  | .word "INSERT" :: .word "INTO" :: .word table :: .word "(" :: ts => do
    let (names, ts) ← Text.splitFirst? (.word ")") ts
    let columns ← (Text.splitAll (.word ",") names).mapM soleWord?
    match ts with
    | .word "VALUES" :: .word "(" :: ts =>
      let rows ← readRows? [] ts
      if ∀ row ∈ rows, row.length = columns.length then some ⟨table, columns, rows⟩ else none
    | _ => none
  | _ => none

end Insertion

/-! ## Written insertions -/

private theorem readRows?_values (read : List Value) (v : Value) (values : List Value)
    (ts : Statement) :
    readRows? read (commaSeparated ((v :: values).map ([.bind ·])) ++ ts) =
      readRows? (read ++ (v :: values).dropLast)
        (.bind ((v :: values).getLast (List.cons_ne_nil v values)) :: ts) := by
  induction values generalizing read v with
  | nil => simp [commaSeparated]
  | cons next values ih =>
    have htokens : commaSeparated ((v :: next :: values).map ([.bind ·])) ++ ts =
        .bind v :: .word "," :: (commaSeparated ((next :: values).map ([.bind ·])) ++ ts) := rfl
    rw [htokens, readRows?, ih, List.append_assoc]
    rfl

private theorem readRows?_rows {row : List Value} {rows : List (List Value)}
    (h : ∀ values ∈ row :: rows, values ≠ []) :
    readRows? [] (commaSeparated (row.map ([.bind ·])) ++ .word ")" ::
        rows.flatMap fun row ↦ .word "," :: parenthesized (commaSeparated (row.map ([.bind ·])))) =
      some (row :: rows) := by
  induction rows generalizing row with
  | nil =>
    obtain ⟨v, values, rfl⟩ := List.exists_cons_of_ne_nil (h row List.mem_cons_self)
    rw [readRows?_values, List.flatMap_nil, readRows?, List.nil_append,
      List.dropLast_concat_getLast]
  | cons next rows ih =>
    rw [List.forall_mem_cons] at h
    obtain ⟨v, values, rfl⟩ := List.exists_cons_of_ne_nil h.1
    have htokens : (next :: rows).flatMap (fun row ↦
          .word "," :: parenthesized (commaSeparated (row.map ([.bind ·])))) =
        .word "," :: .word "(" :: (commaSeparated (next.map ([.bind ·])) ++ .word ")" ::
          rows.flatMap fun row ↦
            .word "," :: parenthesized (commaSeparated (row.map ([.bind ·])))) := by
      simp [parenthesized]
    rw [htokens, readRows?_values, readRows?, ih h.2, List.nil_append,
      List.dropLast_concat_getLast]
    rfl

private theorem mapM_soleWord?_splitAll {columns : List String} (hne : columns ≠ [])
    (hnames : "," ∉ columns) :
    (Text.splitAll (.word ",") (commaSeparated (columns.map ([.word ·])))).mapM soleWord? =
      some columns := by
  have hsplit : Text.splitAll (.word ",") (commaSeparated (columns.map ([.word ·]))) =
      columns.map ([.word ·]) := by
    apply Text.splitAll_intercalate
    · simpa using hne
    · rw [List.forall_mem_map]
      rintro c hc hcomma
      obtain rfl := Token.word.inj (List.mem_singleton.1 hcomma)
      exact hnames hc
  rw [hsplit, Checked.mapM_eq_some_iff, List.map_map]
  rfl

private theorem closing_not_mem_columns {columns : List String} (hnames : ")" ∉ columns) :
    Token.word ")" ∉ commaSeparated (columns.map ([.word ·])) := by
  intro h
  rcases mem_commaSeparated h with hcomma | ⟨part, hpart, hmem⟩
  · exact absurd hcomma (by decide)
  · obtain ⟨c, hc, rfl⟩ := List.mem_map.1 hpart
    obtain rfl := Token.word.inj (List.mem_singleton.1 hmem)
    exact hnames hc

/-- An insertion is read as what it was written from, provided that its columns have names and its
rows a value for each. -/
theorem Insertion.ofTokens?_statement {i : Insertion} (hne : i.columns ≠ [])
    (hnames : "," ∉ i.columns ∧ ")" ∉ i.columns) (hrows : i.rows ≠ [])
    (hlength : ∀ row ∈ i.rows, row.length = i.columns.length) :
    Insertion.ofTokens? i.statement = some i := by
  obtain ⟨table, columns, rows⟩ := i
  obtain ⟨row, rows, rfl⟩ := List.exists_cons_of_ne_nil hrows
  have hcolumns := mapM_soleWord?_splitAll hne hnames.1
  have hvalues : ∀ values ∈ row :: rows, values ≠ [] := by
    rintro values hmem rfl
    exact hne (List.length_eq_zero_iff.1 (hlength [] hmem).symm)
  have htokens : Insertion.statement ⟨table, columns, row :: rows⟩ =
      .word "INSERT" :: .word "INTO" :: .word table :: .word "(" ::
        (commaSeparated (columns.map ([.word ·])) ++ .word ")" :: .word "VALUES" :: .word "(" ::
          (commaSeparated (row.map ([.bind ·])) ++ .word ")" :: rows.flatMap fun row ↦
            .word "," :: parenthesized (commaSeparated (row.map ([.bind ·]))))) := by
    simp [statement, words, parenthesized, commaSeparated_cons, List.flatMap_map]
  rw [htokens, ofTokens?, Text.splitFirst?_append_cons (closing_not_mem_columns hnames.2)]
  simp only [Option.bind_eq_bind, Option.bind_some, hcolumns, readRows?_rows hvalues]
  exact if_pos hlength

end PlaybookRuns.Sql
