import PlaybookRuns.Proofs.Checked
import PlaybookRuns.Proofs.OctetOrder
import PlaybookRuns.Proofs.Sql.Expression
import PlaybookRuns.Proofs.Sql.Statement
import PlaybookRuns.Proofs.Text.Split
import PlaybookRuns.Sql.Listing

/-!
# Ends of listing statements

What the tokens after the condition of a listing mean to the database, whatever they were written
from: criteria by which rows are put in order, how many rows are passed over, and how many are
yielded at most. Identifiers compare as their octets, texts as the octets of their UTF-8, and a
missing value counts as the greatest where the statement does not say where it goes.
-/

namespace PlaybookRuns.Sql

open PlaybookRuns.Query

/-- The end of a listing statement. -/
structure Ending where
  terms : List OrderTerm
  limit : Value
  offset : Value
  deriving DecidableEq

/-! ## Reading -/

/-- The direction that the words after a column give it, and the words after that. -/
def readDirection : Statement → Direction × Statement
  | .word "ASC" :: ts => (.asc, ts)
  | .word "DESC" :: ts => (.desc, ts)
  | ts => (.asc, ts)

/-- Where the last words of a criterion put missing values. -/
def readNulls? : Statement → Option (Option Bool)
  | [] => some none
  | [.word "NULLS", .word "FIRST"] => some (some true)
  | [.word "NULLS", .word "LAST"] => some (some false)
  | _ => none

/-- The criterion that tokens write. -/
def OrderTerm.ofTokens? : Statement → Option OrderTerm
  | .word w :: ts => do
    let column ← knownColumns.find? (·.word = w)
    let (direction, ts) := readDirection ts
    return ⟨column, direction, ← readNulls? ts⟩
  | _ => none

/-- The end of a statement that tokens write. -/
def Ending.ofTokens? : Statement → Option Ending
  | .word "ORDER" :: .word "BY" :: ts => do
    let (order, window) ← Text.splitFirst? (.word "LIMIT") ts
    let terms ← (Text.splitAll (.word ",") order).mapM OrderTerm.ofTokens?
    match window with
    | [.bind limit, .word "OFFSET", .bind offset] => some ⟨terms, limit, offset⟩
    | _ => none
  | _ => none

/-! ## Evaluation -/

/-- How two data of one type compare. -/
def Datum.compare? : Datum → Datum → Option Ordering
  | uuid a, uuid b => some (compare a.octets b.octets)
  | text a, text b =>
    some (compare (Text.Utf8.encode a.toList) (Text.Utf8.encode b.toList))
  | number a, number b => some (compare a b)
  | instant a, instant b => some (compare a b)
  | _, _ => none

/-- How two data compare by a criterion. -/
def OrderTerm.compare? (t : OrderTerm) (x y : Datum) : Option Ordering :=
  let nullsFirst := t.nullsFirst.getD (t.direction = .desc)
  match x, y with
  | .null, .null => some .eq
  | .null, _ => some (if nullsFirst then .lt else .gt)
  | _, .null => some (if nullsFirst then .gt else .lt)
  | x, y => (x.compare? y).map t.direction.apply

/-- How two rows compare by criteria, of which a later one breaks the ties of those before it. -/
def compareRows? : List OrderTerm → JoinedRow → JoinedRow → Option Ordering
  | [], _, _ => some .eq
  | t :: ts, a, b => do
    let first ← t.compare? (.ofValue (← a.value? t.column)) (.ofValue (← b.value? t.column))
    return first.then (← compareRows? ts a b)

/-- Whether rows are in the order of criteria. It is left open how rows stand to each other that
compare as equal. -/
def InOrder (terms : List OrderTerm) (rows : List JoinedRow) : Prop :=
  rows.Pairwise fun a b ↦ ∃ o, compareRows? terms a b = some o ∧ o.isLE

namespace Ending

/-- The rows that are left of a list by the window at the end of a statement. -/
def cut? (e : Ending) (rows : List JoinedRow) : Option (List JoinedRow) :=
  match e.limit, e.offset with
  | .int8 limit, .int8 offset =>
    if 0 ≤ limit ∧ 0 ≤ offset then
      some ((rows.drop offset.toInt.toNat).take limit.toInt.toNat)
    else none
  | _, _ => none

/-- Whether a statement with this end may yield `shown` where it finds `rows`. -/
def Yields (e : Ending) (rows shown : List JoinedRow) : Prop :=
  ∃ sorted, sorted.Perm rows ∧ InOrder e.terms sorted ∧ e.cut? sorted = some shown

end Ending

/-! ## Written ends -/

/-- A criterion on a known column is read from the words in which it is written. -/
theorem OrderTerm.ofTokens?_statement {t : OrderTerm} (h : t.column ∈ knownColumns) :
    OrderTerm.ofTokens? t.statement = some t := by
  have hword : ∀ c ∈ knownColumns, knownColumns.find? (·.word = c.word) = some c := by
    decide +kernel
  have hcolumn := hword _ h
  obtain ⟨column, direction, nullsFirst⟩ := t
  have hread (ts : Statement) : OrderTerm.ofTokens? (.word column.word :: ts) =
      (readNulls? (readDirection ts).2).map (⟨column, (readDirection ts).1, ·⟩) := by
    rw [ofTokens?, hcolumn]
    cases hnulls : readNulls? (readDirection ts).2 <;> simp [hnulls]
  rcases direction with _ | _ <;> rcases nullsFirst with _ | _ | _ <;> exact hread _

private theorem not_mem_statement {t : OrderTerm} (h : t.column ∈ knownColumns) :
    Token.word "," ∉ t.statement ∧ Token.word "LIMIT" ∉ t.statement := by
  have hknown : ∀ c ∈ knownColumns, "," ≠ c.word ∧ "LIMIT" ≠ c.word := by decide +kernel
  obtain ⟨hcomma, hlimit⟩ := hknown _ h
  obtain ⟨column, direction, nullsFirst⟩ := t
  rcases direction with _ | _ <;> rcases nullsFirst with _ | _ | _ <;>
    simp [OrderTerm.statement, words, hcomma, hlimit]

/-- The clauses at the end of a statement are read as what they were written from. -/
theorem Ending.ofTokens?_clauses {terms : List OrderTerm} (hne : terms ≠ [])
    (hknown : ∀ t ∈ terms, t.column ∈ knownColumns) (window : Window) :
    Ending.ofTokens? (orderClause terms ++ windowClause window) =
      some ⟨terms, .int8 window.limit, .int8 window.offset⟩ := by
  have hlimit : Token.word "LIMIT" ∉ commaSeparated (terms.map OrderTerm.statement) := by
    intro h
    rcases mem_commaSeparated h with hcomma | ⟨part, hpart, hmem⟩
    · exact absurd hcomma (by decide)
    · obtain ⟨t, ht, rfl⟩ := List.mem_map.1 hpart
      exact (not_mem_statement (hknown t ht)).2 hmem
  have hsplit : Text.splitAll (.word ",") (commaSeparated (terms.map OrderTerm.statement)) =
      terms.map OrderTerm.statement := by
    apply Text.splitAll_intercalate
    · simpa using hne
    · simp only [List.forall_mem_map]
      exact fun t ht ↦ (not_mem_statement (hknown t ht)).1
  have hterms : (terms.map OrderTerm.statement).mapM OrderTerm.ofTokens? = some terms := by
    rw [Checked.mapM_eq_some_iff, List.map_map]
    exact List.map_congr_left fun t ht ↦ OrderTerm.ofTokens?_statement (hknown t ht)
  have hclauses : orderClause terms ++ windowClause window =
      .word "ORDER" :: .word "BY" :: (commaSeparated (terms.map OrderTerm.statement) ++
        .word "LIMIT" ::
          [.bind (.int8 window.limit), .word "OFFSET", .bind (.int8 window.offset)]) := rfl
  rw [hclauses, Ending.ofTokens?, Text.splitFirst?_append_cons hlimit, Option.bind_eq_bind,
    Option.bind_some]
  simp only [hsplit, hterms]
  rfl

end PlaybookRuns.Sql
