/-!
# Splitting at separators

A sequence cut at every occurrence of a separator, or at its first one. Main statement: joining
the parts again gives the sequence back.
-/

namespace PlaybookRuns.Text

universe u

variable {α : Type u} [DecidableEq α]

/-- The stretches between the occurrences of a separator: one more than there are occurrences. -/
def splitAll (sep : α) : List α → List (List α)
  | [] => [[]]
  | a :: as =>
    if a = sep then [] :: splitAll sep as
    else
      match splitAll sep as with
      | [] => [[a]]
      | part :: parts => (a :: part) :: parts

/-- What stands before and after the first occurrence of a separator. -/
def splitFirst? (sep : α) : List α → Option (List α × List α)
  | [] => none
  | a :: as =>
    if a = sep then some ([], as)
    else (splitFirst? sep as).map fun (before, after) ↦ (a :: before, after)

/-- A text cut at every occurrence of a character. -/
def splitText (sep : Char) (s : String) : List String :=
  (splitAll sep s.toList).map String.ofList

/-- A sequence has at least one part. -/
theorem splitAll_ne_nil (sep : α) (as : List α) : splitAll sep as ≠ [] := by
  cases as with
  | nil => simp [splitAll]
  | cons a as =>
    simp only [splitAll]
    split
    · simp
    · split <;> simp

/-- The parts, joined by the separator, are the sequence. -/
theorem intercalate_splitAll (sep : α) (as : List α) :
    [sep].intercalate (splitAll sep as) = as := by
  induction as with
  | nil => rfl
  | cons a as ih =>
    simp only [splitAll]
    split
    · next h =>
      obtain ⟨part, parts, hparts⟩ := List.exists_cons_of_ne_nil (splitAll_ne_nil sep as)
      rw [hparts] at ih ⊢
      simpa [List.intercalate, h] using ih
    · split
      · next h => exact absurd h (splitAll_ne_nil sep as)
      · next part parts hparts =>
        rw [hparts] at ih
        cases parts <;> simp_all [List.intercalate]

end PlaybookRuns.Text
