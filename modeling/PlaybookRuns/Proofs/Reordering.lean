import Mathlib.Data.List.Basic

/-!
# Reordered lists

Lists that have the same elements of each key, in the same order, and differ only in how the
elements of different keys stand to each other. Main statements: they are permutations of each
other, sorting by the key makes them equal, and a fold whose steps commute for different keys does
not tell them apart. Sorting, being stable, commutes with filtering.
-/

namespace PlaybookRuns.Reordering

variable {σ α β : Type} {key : α → β} {as bs : List α}

/-! ## Elements of each key -/

section Elements

variable [DecidableEq β]

private theorem exists_append_of_filter_eq {a : α}
    (h : ∀ k, (a :: as).filter (key · = k) = bs.filter (key · = k)) :
    ∃ before after, bs = before ++ a :: after ∧ (∀ b ∈ before, key b ≠ key a) ∧
      ∀ k, as.filter (key · = k) = (before ++ after).filter (key · = k) := by
  have hhead := h (key a)
  rw [List.filter_cons_of_pos (by simp)] at hhead
  obtain ⟨before, after, rfl, hbefore, -, hafter⟩ := List.filter_eq_cons_iff.1 hhead.symm
  have hother : ∀ b ∈ before, key b ≠ key a := fun b hb ↦ by
    have := hbefore b hb
    simpa using this
  refine ⟨before, after, rfl, hother, fun k ↦ ?_⟩
  have hk := h k
  rw [List.filter_append] at hk ⊢
  by_cases hka : key a = k
  · have hnone : before.filter (key · = k) = [] := by
      rw [List.filter_eq_nil_iff]
      intro b hb
      rw [decide_eq_true_eq, ← hka]
      exact hother b hb
    rw [List.filter_cons_of_pos (by simpa using hka), List.filter_cons_of_pos (by simpa using hka),
      hnone, List.nil_append] at hk
    rw [hnone, List.nil_append]
    exact (List.cons.inj hk).2
  · rw [List.filter_cons_of_neg (by simpa using hka),
      List.filter_cons_of_neg (by simpa using hka)] at hk
    exact hk

private theorem eq_nil_of_filter_eq
    (h : ∀ k, ([] : List α).filter (key · = k) = bs.filter (key · = k)) : bs = [] := by
  cases bs with
  | nil => rfl
  | cons b bs =>
    have hb := h (key b)
    rw [List.filter_cons_of_pos (by simp)] at hb
    cases hb

/-- Lists with the same elements of each key are permutations of each other. -/
theorem perm_of_filter_eq (h : ∀ k, as.filter (key · = k) = bs.filter (key · = k)) :
    as.Perm bs := by
  induction as generalizing bs with
  | nil => rw [eq_nil_of_filter_eq h]
  | cons a as ih =>
    obtain ⟨before, after, rfl, -, hrest⟩ := exists_append_of_filter_eq h
    exact ((ih hrest).cons a).trans List.perm_middle.symm

variable (key) in
/-- Lists with the same elements of each key are equal if the keys of both ascend. -/
theorem eq_of_filter_eq {le : β → β → Prop} (hanti : ∀ k l, le k l → le l k → k = l)
    (has : as.Pairwise fun a b ↦ le (key a) (key b))
    (hbs : bs.Pairwise fun a b ↦ le (key a) (key b))
    (h : ∀ k, as.filter (key · = k) = bs.filter (key · = k)) : as = bs := by
  induction as generalizing bs with
  | nil => rw [eq_nil_of_filter_eq h]
  | cons a as ih =>
    obtain ⟨before, after, rfl, hbefore, hrest⟩ := exists_append_of_filter_eq h
    rw [List.pairwise_cons] at has
    -- nothing stands before the head, since its key would be below that of the head and above it
    have hfirst : before = [] := by
      rw [List.eq_nil_iff_forall_not_mem]
      intro b hb
      have hle : le (key b) (key a) :=
        (List.pairwise_append.1 hbs).2.2 b hb a List.mem_cons_self
      have hmem : b ∈ as := (perm_of_filter_eq hrest).mem_iff.2 (List.mem_append_left _ hb)
      exact hbefore b hb (hanti _ _ hle (has.1 b hmem))
    subst hfirst
    rw [List.nil_append] at hbs hrest ⊢
    rw [ih has.2 (List.pairwise_cons.1 hbs).2 hrest]

end Elements

/-! ## Folds -/

section Fold

variable {f : σ → α → σ} {P : σ → Prop}

private theorem of_foldl (hgood : ∀ s a, P (f s a) → P s) {s : σ} (h : P (as.foldl f s)) :
    P s := by
  induction as generalizing s with
  | nil => exact h
  | cons a as ih => exact hgood s a (ih h)

-- A step may be made after those with other keys, if all goes well.
private theorem foldl_append_cons (hgood : ∀ s a, P (f s a) → P s)
    (hcomm : ∀ s a b, key a ≠ key b → P (f (f s a) b) → f (f s b) a = f (f s a) b)
    {a : α} {before : List α} (hkey : ∀ b ∈ before, key b ≠ key a) (after : List α) (s : σ)
    (h : P ((before ++ after).foldl f (f s a))) :
    (before ++ a :: after).foldl f s = (before ++ after).foldl f (f s a) := by
  induction before generalizing s with
  | nil => rfl
  | cons b before ih =>
    rw [List.cons_append, List.foldl_cons] at h
    have hswap := hcomm s a b (hkey b List.mem_cons_self).symm (of_foldl hgood h)
    rw [← hswap] at h
    rw [List.cons_append, List.foldl_cons, List.cons_append, List.foldl_cons, ← hswap]
    exact ih (fun c hc ↦ hkey c (List.mem_cons_of_mem _ hc)) (f s b) h

/-- A fold whose steps commute for different keys depends only on the elements of each key, if all
goes well. -/
theorem foldl_eq_of_filter_eq [DecidableEq β] (hgood : ∀ s a, P (f s a) → P s)
    (hcomm : ∀ s a b, key a ≠ key b → P (f (f s a) b) → f (f s b) a = f (f s a) b)
    (h : ∀ k, as.filter (key · = k) = bs.filter (key · = k)) (s : σ)
    (hresult : P (as.foldl f s)) : bs.foldl f s = as.foldl f s := by
  induction as generalizing bs s with
  | nil => rw [eq_nil_of_filter_eq h]
  | cons a as ih =>
    obtain ⟨before, after, rfl, hbefore, hrest⟩ := exists_append_of_filter_eq h
    rw [List.foldl_cons] at hresult ⊢
    have hmoved := ih hrest (f s a) hresult
    rw [← hmoved] at hresult
    rw [foldl_append_cons hgood hcomm hbefore after s hresult, hmoved]

end Fold

/-! ## Sorting -/

section Sorting

variable {le : α → α → Bool}

private theorem append_inj_of_below {a : α} {before after before' after' : List α}
    (h : before ++ after = before' ++ after') (hbefore : ∀ b ∈ before, !le a b)
    (hafter : ∀ b ∈ after, le a b) (hbefore' : ∀ b ∈ before', !le a b)
    (hafter' : ∀ b ∈ after', le a b) : before = before' ∧ after = after' := by
  have hbelow {low high : List α} (hlow : ∀ b ∈ low, !le a b) (hhigh : ∀ b ∈ high, le a b) :
      (low ++ high).filter (fun b ↦ !le a b) = low := by
    rw [List.filter_append, List.filter_eq_self.2 hlow, List.filter_eq_nil_iff.2, List.append_nil]
    intro b hb
    simp [hhigh b hb]
  have hfirst : before = before' := by
    rw [← hbelow hbefore hafter, h, hbelow hbefore' hafter']
  subst hfirst
  exact ⟨rfl, List.append_cancel_left h⟩

/-- Sorting commutes with filtering. -/
theorem mergeSort_filter (htrans : ∀ a b c, le a b → le b c → le a c)
    (htotal : ∀ a b, le a b || le b a) (p : α → Bool) (as : List α) :
    (as.filter p).mergeSort le = (as.mergeSort le).filter p := by
  induction as with
  | nil => simp
  | cons a as ih =>
    -- both sides put the head back into the sorted tail, after the elements below it
    have hafter {before after bs : List α}
        (hsorted : (a :: bs).mergeSort le = before ++ a :: after) : ∀ b ∈ after, le a b := by
      have hpairwise := List.pairwise_mergeSort htrans htotal (a :: bs)
      rw [hsorted] at hpairwise
      exact (List.pairwise_cons.1 (List.pairwise_append.1 hpairwise).2.1).1
    obtain ⟨before, after, hsorted, hrest, hbefore⟩ := List.mergeSort_cons htrans htotal a as
    rw [hrest, List.filter_append] at ih
    rw [hsorted, List.filter_append, List.filter_cons]
    split
    · next ha =>
      obtain ⟨before', after', hsorted', hrest', hbefore'⟩ :=
        List.mergeSort_cons htrans htotal a (as.filter p)
      obtain ⟨rfl, rfl⟩ := append_inj_of_below (hrest'.symm.trans ih) hbefore' (hafter hsorted')
        (fun b hb ↦ hbefore b (List.mem_of_mem_filter hb))
        (fun b hb ↦ hafter hsorted b (List.mem_of_mem_filter hb))
      rw [List.filter_cons_of_pos ha, hsorted']
    · next ha => rw [List.filter_cons_of_neg ha, ih]

end Sorting

end PlaybookRuns.Reordering
