import PlaybookRuns.Text.Split

/-!
# Cutting joined parts

Parts that are free of a separator come back when their joint text is cut at it. Main statements:
`splitAll` undoes joining, and `splitFirst?` finds the first separator. The same of texts.
-/

namespace PlaybookRuns.Text

universe u

variable {α : Type u} [DecidableEq α]

/-- A sequence without the separator is one part. -/
theorem splitAll_of_not_mem {sep : α} {part : List α} (h : sep ∉ part) :
    splitAll sep part = [part] := by
  induction part with
  | nil => rfl
  | cons a part ih =>
    rw [List.mem_cons, not_or] at h
    obtain ⟨hne, hnot⟩ := h
    simp only [splitAll]
    rw [if_neg (Ne.symm hne), ih hnot]

/-- A part ends at the first separator. -/
theorem splitAll_append_cons {sep : α} {part : List α} (h : sep ∉ part) (rest : List α) :
    splitAll sep (part ++ sep :: rest) = part :: splitAll sep rest := by
  induction part with
  | nil => simp [splitAll]
  | cons a part ih =>
    rw [List.mem_cons, not_or] at h
    obtain ⟨hne, hnot⟩ := h
    rw [List.cons_append, splitAll, if_neg (Ne.symm hne), ih hnot]

/-- Cutting undoes joining. -/
theorem splitAll_intercalate {sep : α} {parts : List (List α)} (hne : parts ≠ [])
    (h : ∀ part ∈ parts, sep ∉ part) : splitAll sep ([sep].intercalate parts) = parts := by
  induction parts with
  | nil => exact absurd rfl hne
  | cons part parts ih =>
    have hpart : sep ∉ part := h part List.mem_cons_self
    cases parts with
    | nil =>
      rw [List.intercalate_singleton]
      exact splitAll_of_not_mem hpart
    | cons next parts =>
      have hrest := ih (List.cons_ne_nil _ _) fun p hp ↦ h p (List.mem_cons_of_mem _ hp)
      rw [List.intercalate_cons_cons, List.append_assoc, List.singleton_append,
        splitAll_append_cons hpart, hrest]

/-- A text has at least one part. -/
theorem splitText_ne_nil (sep : Char) (s : String) : splitText sep s ≠ [] := by
  rw [splitText, ne_eq, List.map_eq_nil_iff]
  exact splitAll_ne_nil sep s.toList

/-- Texts with the same parts are the same. -/
theorem splitText_inj {sep : Char} {s t : String} :
    splitText sep s = splitText sep t ↔ s = t := by
  refine ⟨fun h ↦ ?_, fun h ↦ h ▸ rfl⟩
  have hparts := congrArg (List.map String.toList) h
  simp only [splitText, List.map_map, Function.comp_def, String.toList_ofList,
    List.map_id'] at hparts
  rw [← String.toList_inj, ← intercalate_splitAll sep s.toList, hparts, intercalate_splitAll]

/-- Texts joined by a separator that is in none of them come back when the text is cut. -/
theorem splitText_intercalate {sep : Char} {parts : List String} (hne : parts ≠ [])
    (h : ∀ part ∈ parts, sep ∉ part.toList) :
    splitText sep ((String.singleton sep).intercalate parts) = parts := by
  have hjoined : ((String.singleton sep).intercalate parts).toList =
      [sep].intercalate (parts.map String.toList) := by simp
  rw [splitText, hjoined, splitAll_intercalate (by simpa using hne) (by simpa using h)]
  simp

/-- A text without the separator is one part. -/
theorem splitText_of_not_mem {sep : Char} {s : String} (h : sep ∉ s.toList) :
    splitText sep s = [s] := by
  rw [splitText, splitAll_of_not_mem h, List.map_singleton, String.ofList_toList]

private theorem not_mem_of_splitAll_eq_singleton {sep : α} {as part : List α}
    (h : splitAll sep as = [part]) : sep ∉ as := by
  induction as generalizing part with
  | nil => exact List.not_mem_nil
  | cons a as ih =>
    rw [splitAll] at h
    split at h
    · exact absurd (List.cons.inj h).2 (splitAll_ne_nil sep as)
    · next hne =>
      split at h
      · next hnil => exact absurd hnil (splitAll_ne_nil sep as)
      · next first parts hparts =>
        obtain rfl := (List.cons.inj h).2
        rw [List.mem_cons, not_or]
        exact ⟨Ne.symm hne, ih hparts⟩

/-- A text that is one part is free of the separator. -/
theorem not_mem_of_splitText_eq_singleton {sep : Char} {s t : String}
    (h : splitText sep s = [t]) : sep ∉ s.toList := by
  obtain ⟨part, hpart, -⟩ := List.map_eq_singleton_iff.1 h
  exact not_mem_of_splitAll_eq_singleton hpart

omit [DecidableEq α] in
private theorem mem_intercalate {sep part : List α} {parts : List (List α)} {a : α}
    (hpart : part ∈ parts) (ha : a ∈ part) : a ∈ sep.intercalate parts := by
  induction parts with
  | nil => cases hpart
  | cons first parts ih =>
    cases parts with
    | nil =>
      obtain rfl := List.mem_singleton.1 hpart
      simpa using ha
    | cons next parts =>
      rw [List.intercalate_cons_cons, List.mem_append, List.mem_append]
      rcases List.mem_cons.1 hpart with rfl | hpart
      · exact .inl (.inl ha)
      · exact .inr (ih hpart)

/-- The parts of a text have no character in them that is not in the text. -/
theorem mem_of_mem_splitText {sep c : Char} {s part : String} (hpart : part ∈ splitText sep s)
    (hc : c ∈ part.toList) : c ∈ s.toList := by
  obtain ⟨cs, hcs, rfl⟩ := List.mem_map.1 hpart
  rw [← intercalate_splitAll sep s.toList]
  exact mem_intercalate hcs (by simpa using hc)

/-- What stands before the first separator is free of it. -/
theorem splitFirst?_append_cons {sep : α} {before : List α} (h : sep ∉ before)
    (after : List α) : splitFirst? sep (before ++ sep :: after) = some (before, after) := by
  induction before with
  | nil => simp [splitFirst?]
  | cons a before ih =>
    rw [List.mem_cons, not_or] at h
    obtain ⟨hne, hnot⟩ := h
    rw [List.cons_append, splitFirst?, if_neg (Ne.symm hne), ih hnot]
    rfl

end PlaybookRuns.Text
