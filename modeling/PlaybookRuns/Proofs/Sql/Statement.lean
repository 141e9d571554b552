import PlaybookRuns.Sql.Statement

/-!
# Words and values of a statement

Which words and values a statement holds, put together as the statement is from its pieces.
-/

namespace PlaybookRuns.Sql

/-- The value that a token stands for, if it does for one. -/
def Token.value? : Token → Option Value
  | word _ => none
  | bind v => some v

/-- The word that a token is, if it is one. -/
def Token.word? : Token → Option String
  | word w => some w
  | bind _ => none

/-- Every piece after the first has a comma before it. -/
theorem commaSeparated_cons (part : Statement) (parts : List Statement) :
    commaSeparated (part :: parts) = part ++ parts.flatMap (.word "," :: ·) := by
  induction parts generalizing part with
  | nil => simp [commaSeparated]
  | cons next parts ih =>
    rw [commaSeparated, List.intercalate_cons_cons, ← commaSeparated, ih, List.flatMap_cons]
    simp

/-- What stands between commas is a comma or stands in one of the pieces. -/
theorem mem_commaSeparated {t : Token} {parts : List Statement} (h : t ∈ commaSeparated parts) :
    t = .word "," ∨ ∃ part ∈ parts, t ∈ part := by
  cases parts with
  | nil => cases h
  | cons part parts =>
    rw [commaSeparated_cons, List.mem_append, List.mem_flatMap] at h
    rcases h with hpart | ⟨other, hmem, ht⟩
    · exact .inr ⟨part, List.mem_cons_self, hpart⟩
    · exact (List.mem_cons.1 ht).imp_right fun ht ↦ ⟨other, List.mem_cons_of_mem part hmem, ht⟩

namespace Statement

/-- The words of a statement, and where a value stands among them. -/
def skeleton (s : Statement) : List (Option String) := s.map Token.word?

/-- The empty statement has no words. -/
@[simp] theorem skeleton_nil : skeleton [] = [] := rfl

/-- A word stands among the words. -/
@[simp] theorem skeleton_word_cons (w : String) (s : Statement) :
    skeleton (.word w :: s) = some w :: s.skeleton := rfl

/-- A value leaves its place among the words. -/
@[simp] theorem skeleton_bind_cons (v : Value) (s : Statement) :
    skeleton (.bind v :: s) = none :: s.skeleton := rfl

/-- The words of statements one after the other are those of each. -/
@[simp] theorem skeleton_append (s s' : Statement) :
    skeleton (s ++ s') = s.skeleton ++ s'.skeleton := List.map_append

private theorem binds_eq_filterMap (s : Statement) : s.binds = s.filterMap Token.value? := by
  fun_induction binds s with
  | case1 => rfl
  | case2 w s ih => exact ih
  | case3 v s ih => exact congrArg (v :: ·) ih

/-- The values of statements one after the other are those of each. -/
@[simp] theorem binds_append (s s' : Statement) : (s ++ s').binds = s.binds ++ s'.binds := by
  simp only [binds_eq_filterMap, List.filterMap_append]

/-- The values of joined pieces are those of each, in order. -/
theorem binds_flatMap {α : Type} (as : List α) (piece : α → Statement) :
    binds (as.flatMap piece) = as.flatMap fun a ↦ (piece a).binds := by
  simp only [binds_eq_filterMap, List.filterMap_flatMap]

/-- Words bind no values. -/
@[simp] theorem binds_words (ws : List String) : binds (words ws) = [] := by
  rw [binds_eq_filterMap, words, List.filterMap_map]
  exact List.filterMap_eq_nil_iff.2 fun _ _ ↦ rfl

/-- Parentheses bind no values. -/
@[simp] theorem binds_parenthesized (s : Statement) : binds (parenthesized s) = s.binds := by
  rw [parenthesized, binds, binds_append]
  exact List.append_nil _

/-- Commas carry no values. -/
@[simp] theorem binds_commaSeparated (parts : List Statement) :
    binds (commaSeparated parts) = parts.flatMap binds := by
  cases parts with
  | nil => rfl
  | cons part parts =>
    rw [commaSeparated_cons, binds_append, binds_flatMap, List.flatMap_cons]
    rfl

end Statement

end PlaybookRuns.Sql
