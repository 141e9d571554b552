/-!
# Lists sorted by key

Finite maps from texts, kept as lists of entries in ascending key order. Texts are compared by
code point, which is also the order of their UTF-8 octets. Main statements: `insert` keeps a list
sorted, and changes what `find?` answers at the inserted key alone.
-/

namespace PlaybookRuns.Keyed

universe u

variable {α : Type u}

/-- The value of a key. The search ends at the first greater key. -/
def find? (key : String) : List (String × α) → Option α
  | [] => none
  | (k, v) :: entries => if key = k then some v else if key < k then none else find? key entries

/-- The entries with `value` at `key`, in place of an earlier value. -/
def insert (key : String) (value : α) : List (String × α) → List (String × α)
  | [] => [(key, value)]
  | (k, v) :: entries =>
    if key = k then (key, value) :: entries
    else if key < k then (key, value) :: (k, v) :: entries
    else (k, v) :: insert key value entries

/-- The entries of a list, sorted; a later entry takes the place of an earlier one. -/
def ofList (entries : List (String × α)) : List (String × α) :=
  entries.foldl (fun acc (key, value) ↦ insert key value acc) []

/-- Whether the keys ascend strictly. -/
def Sorted (entries : List (String × α)) : Prop := entries.Pairwise fun a b ↦ a.1 < b.1

/-- Keys are compared two by two. -/
instance (entries : List (String × α)) : Decidable (Sorted entries) :=
  inferInstanceAs (Decidable (entries.Pairwise _))

private theorem lt_of_ne_of_not_lt {a b : String} (hne : a ≠ b) (hlt : ¬a < b) : b < a := by
  rcases Std.lt_trichotomy a b with h | h | h
  · exact absurd h hlt
  · exact absurd h hne
  · exact h

/-- Every entry after an insertion is the inserted one or an earlier one. -/
theorem eq_or_mem_of_mem_insert {key : String} {value : α} {entries : List (String × α)}
    {e : String × α} (h : e ∈ insert key value entries) : e = (key, value) ∨ e ∈ entries := by
  induction entries with
  | nil => exact .inl (List.mem_singleton.1 h)
  | cons head tail ih =>
    obtain ⟨k, v⟩ := head
    simp only [insert] at h
    split at h
    · rcases List.mem_cons.1 h with rfl | h
      · exact .inl rfl
      · exact .inr (List.mem_cons_of_mem _ h)
    · split at h
      · rcases List.mem_cons.1 h with rfl | h
        · exact .inl rfl
        · exact .inr h
      · rcases List.mem_cons.1 h with rfl | h
        · exact .inr List.mem_cons_self
        · exact (ih h).imp_right (List.mem_cons_of_mem _)

/-- Insertion keeps a list sorted. -/
theorem Sorted.insert {entries : List (String × α)} (h : Sorted entries) (key : String)
    (value : α) : Sorted (insert key value entries) := by
  induction entries with
  | nil => simp [Keyed.insert, Sorted]
  | cons head tail ih =>
    obtain ⟨k, v⟩ := head
    have hhead : ∀ e ∈ tail, k < e.1 := (List.pairwise_cons.1 h).1
    have htail : Sorted tail := (List.pairwise_cons.1 h).2
    simp only [Keyed.insert]
    split
    · next hk => exact hk ▸ List.pairwise_cons.2 ⟨hhead, htail⟩
    · next hne =>
      split
      · next hlt =>
        refine List.pairwise_cons.2 ⟨fun e he ↦ ?_, h⟩
        rcases List.mem_cons.1 he with rfl | he
        · exact hlt
        · exact Std.lt_trans hlt (hhead e he)
      · next hnlt =>
        refine List.pairwise_cons.2 ⟨fun e he ↦ ?_, ih htail⟩
        rcases eq_or_mem_of_mem_insert he with rfl | he
        · exact lt_of_ne_of_not_lt hne hnlt
        · exact hhead e he

/-- The entries of a list come out sorted. -/
theorem sorted_ofList (entries : List (String × α)) : Sorted (ofList entries) := by
  suffices ∀ acc : List (String × α), Sorted acc →
      Sorted (entries.foldl (fun acc e ↦ Keyed.insert e.1 e.2 acc) acc) from
    this [] List.Pairwise.nil
  induction entries with
  | nil => exact fun acc h ↦ h
  | cons e entries ih => exact fun acc h ↦ ih _ (h.insert e.1 e.2)

/-- After an insertion, the inserted key has its value and every other key what it had. -/
theorem find?_insert (key key' : String) (value : α) (entries : List (String × α)) :
    find? key' (insert key value entries) =
      if key' = key then some value else find? key' entries := by
  induction entries with
  | nil =>
    simp only [insert, find?]
    split
    · rfl
    · split <;> rfl
  | cons head tail ih =>
    obtain ⟨k, v⟩ := head
    simp only [insert]
    split
    · next hk => subst hk; simp only [find?]; split <;> rfl
    · next hne =>
      split
      · next hlt =>
        simp only [find?]
        split
        · rfl
        · next hne' =>
          split
          · next hlt' =>
            have hlt'' : key' < k := Std.lt_trans hlt' hlt
            have hne'' : key' ≠ k := fun h ↦ Std.lt_irrefl (h ▸ hlt'')
            simp [hne'', hlt'']
          · rfl
      · next hnlt =>
        simp only [find?]
        rw [ih]
        by_cases hk : key' = key
        · subst hk; simp [hne, hnlt]
        · simp [hk]

end PlaybookRuns.Keyed
