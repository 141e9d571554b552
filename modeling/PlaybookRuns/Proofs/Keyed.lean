import Mathlib.Data.List.Nodup
import PlaybookRuns.Keyed

/-!
# Looking up by key

How insertions into a list sorted by key relate to each other, and what is found in it. Main
statement: of entries with keys of their own the sorted list finds what they hold.
-/

namespace PlaybookRuns.Keyed

universe u

variable {α : Type u}

private theorem not_lt_of_gt {a b : String} (h : a < b) : ¬b < a := fun h' ↦
  Std.lt_irrefl (Std.lt_trans h h')

/-- A later insertion takes the place of an earlier one at its key. -/
theorem insert_insert_self (key : String) (value value' : α) (entries : List (String × α)) :
    insert key value (insert key value' entries) = insert key value entries := by
  induction entries with
  | nil => simp [insert]
  | cons head tail ih =>
    obtain ⟨k, v⟩ := head
    by_cases heq : key = k
    · simp [insert, heq]
    · by_cases hlt : key < k
      · simp [insert, heq, hlt]
      · simp [insert, heq, hlt, ih]

/-- A key keeps all as it is when it is given the value that it has. -/
theorem insert_of_find? {key : String} {value : α} {entries : List (String × α)}
    (h : find? key entries = some value) : insert key value entries = entries := by
  induction entries with
  | nil => cases h
  | cons head tail ih =>
    obtain ⟨k, v⟩ := head
    rw [find?] at h
    rw [insert]
    by_cases heq : key = k
    · rw [if_pos heq] at h ⊢
      rw [heq, Option.some.inj h]
    · rw [if_neg heq] at h ⊢
      by_cases hlt : key < k
      · rw [if_pos hlt] at h
        cases h
      · rw [if_neg hlt] at h ⊢
        rw [ih h]

private theorem insert_comm_of_lt {key key' : String} (h : key < key') (value value' : α)
    (entries : List (String × α)) :
    insert key value (insert key' value' entries) =
      insert key' value' (insert key value entries) := by
  have hne : key ≠ key' := fun heq ↦ Std.lt_irrefl (heq ▸ h)
  have hnot : ¬key' < key := not_lt_of_gt h
  induction entries with
  | nil => simp [insert, h, hne, hne.symm, hnot]
  | cons head tail ih =>
    obtain ⟨k, v⟩ := head
    by_cases heq' : key' = k
    · subst heq'
      simp [insert, h, hne, hne.symm, hnot]
    · by_cases hlt' : key' < k
      · have hlt : key < k := Std.lt_trans h hlt'
        have hneq : key ≠ k := fun heq ↦ Std.lt_irrefl (heq ▸ hlt)
        simp [insert, h, hne, hne.symm, hnot, heq', hlt', hlt, hneq]
      · by_cases heq : key = k
        · subst heq
          simp [insert, hne.symm, hnot]
        · by_cases hlt : key < k
          · simp [insert, heq, heq', hlt, hlt', hne.symm, hnot]
          · simp [insert, heq, heq', hlt, hlt', ih]

/-- Insertions at different keys may be made in either order. -/
theorem insert_comm {key key' : String} (h : key ≠ key') (value value' : α)
    (entries : List (String × α)) :
    insert key value (insert key' value' entries) =
      insert key' value' (insert key value entries) := by
  rcases Std.lt_trichotomy key key' with hlt | heq | hlt
  · exact insert_comm_of_lt hlt value value' entries
  · exact absurd heq h
  · exact (insert_comm_of_lt hlt value' value entries).symm

/-- A key above all others is inserted at the end. -/
theorem insert_eq_append {key : String} {entries : List (String × α)}
    (h : ∀ e ∈ entries, e.1 < key) (value : α) :
    insert key value entries = entries ++ [(key, value)] := by
  induction entries with
  | nil => rfl
  | cons head tail ih =>
    obtain ⟨k, v⟩ := head
    obtain ⟨hk, htail⟩ := List.forall_mem_cons.1 h
    have hne : key ≠ k := fun heq ↦ Std.lt_irrefl (heq ▸ hk)
    simp [insert, hne, not_lt_of_gt hk, ih htail]

/-- A key above all others has no value. -/
theorem find?_eq_none {key : String} {entries : List (String × α)}
    (h : ∀ e ∈ entries, e.1 < key) : find? key entries = none := by
  induction entries with
  | nil => rfl
  | cons head tail ih =>
    obtain ⟨k, v⟩ := head
    obtain ⟨hk, htail⟩ := List.forall_mem_cons.1 h
    have hne : key ≠ k := fun heq ↦ Std.lt_irrefl (heq ▸ hk)
    simp [find?, hne, not_lt_of_gt hk, ih htail]

/-- In a sorted list, the value of a key is the one it stands with. -/
theorem find?_eq_some_iff {key : String} {value : α} {entries : List (String × α)}
    (h : Sorted entries) : find? key entries = some value ↔ (key, value) ∈ entries := by
  induction entries with
  | nil => simp [find?]
  | cons head tail ih =>
    obtain ⟨k, v⟩ := head
    obtain ⟨habove, htail⟩ := List.pairwise_cons.1 h
    have hnot : key ≤ k → (key, value) ∉ tail := fun hle hmem ↦
      Std.not_lt.2 hle (habove _ hmem)
    by_cases heq : key = k
    · subst heq
      simp [find?, hnot (Std.le_refl key), eq_comm]
    · by_cases hlt : key < k
      · simp [find?, heq, hlt, hnot (Std.le_of_lt hlt)]
      · simp [find?, heq, hlt, ih htail]

/-- The keys of sorted entries are different. -/
theorem Sorted.nodup {entries : List (String × α)} (h : Sorted entries) :
    (entries.map Prod.fst).Nodup := by
  rw [List.nodup_iff_pairwise_ne, List.pairwise_map]
  refine h.imp fun {a b} hlt heq ↦ ?_
  rw [heq] at hlt
  exact Std.lt_irrefl hlt

/-- Of entries with keys of their own, each is what stands first under its key. -/
theorem lookup_eq_some_iff {key : String} {value : α} {entries : List (String × α)}
    (h : (entries.map Prod.fst).Nodup) :
    entries.lookup key = some value ↔ (key, value) ∈ entries := by
  rw [List.lookup_eq_some_iff]
  constructor
  · rintro ⟨before, after, rfl, -⟩
    exact List.mem_append_right _ List.mem_cons_self
  · intro hmem
    obtain ⟨before, after, rfl⟩ := List.append_of_mem hmem
    rw [List.map_append, List.map_cons] at h
    refine ⟨before, after, rfl, fun e he ↦ bne_iff_ne.2 fun heq ↦ ?_⟩
    exact (List.nodup_append.1 h).2.2 e.1 (List.mem_map_of_mem he) key List.mem_cons_self heq.symm

/-- In a sorted list the search for a key finds what stands first under it. -/
theorem lookup_eq_find? {key : String} {entries : List (String × α)} (h : Sorted entries) :
    entries.lookup key = find? key entries := by
  induction entries with
  | nil => rfl
  | cons head tail ih =>
    obtain ⟨k, v⟩ := head
    obtain ⟨habove, htail⟩ := List.pairwise_cons.1 h
    by_cases heq : key = k
    · simp [find?, heq]
    · have hne : (key == k) = false := beq_eq_false_iff_ne.2 heq
      rw [List.lookup_cons, hne, find?, if_neg heq]
      by_cases hlt : key < k
      · rw [if_pos hlt]
        have hall : ∀ e ∈ tail, key ≠ e.1 := by
          rintro e he rfl
          exact Std.lt_irrefl (Std.lt_trans hlt (habove e he))
        simpa [List.lookup_eq_none_iff] using fun a b hmem ↦ hall (a, b) hmem
      · rw [if_neg hlt]
        exact ih htail

/-- The entries of a list that is sorted already stay as they are. -/
theorem ofList_of_sorted {entries : List (String × α)} (h : Sorted entries) :
    ofList entries = entries := by
  suffices hfold : ∀ acc : List (String × α), Sorted (acc ++ entries) →
      entries.foldl (fun acc e ↦ insert e.1 e.2 acc) acc = acc ++ entries from hfold [] h
  clear h
  induction entries with
  | nil => exact fun acc _ ↦ (List.append_nil acc).symm
  | cons e entries ih =>
    intro acc hsorted
    have hbelow : ∀ e' ∈ acc, e'.1 < e.1 := fun e' he' ↦
      (List.pairwise_append.1 hsorted).2.2 e' he' e List.mem_cons_self
    rw [List.foldl_cons, insert_eq_append hbelow, ih, List.append_assoc, List.singleton_append]
    rwa [List.append_assoc, List.singleton_append]

/-- Every entry of a sorted list comes from the list that was sorted. -/
theorem mem_of_mem_ofList {entries : List (String × α)} {e : String × α} (h : e ∈ ofList entries) :
    e ∈ entries := by
  suffices hfold : ∀ acc : List (String × α),
      e ∈ entries.foldl (fun acc e ↦ insert e.1 e.2 acc) acc → e ∈ acc ∨ e ∈ entries from
    (hfold [] h).resolve_left List.not_mem_nil
  clear h
  induction entries with
  | nil => exact fun acc h ↦ .inl h
  | cons head entries ih =>
    intro acc h
    rcases ih _ h with hmem | hmem
    · rcases eq_or_mem_of_mem_insert hmem with rfl | hmem
      · exact .inr List.mem_cons_self
      · exact .inl hmem
    · exact .inr (List.mem_cons_of_mem _ hmem)

private theorem isSome_find?_foldl {entries acc : List (String × α)} {e : String × α}
    (h : (find? e.1 acc).isSome ∨ e ∈ entries) :
    (find? e.1 (entries.foldl (fun acc e ↦ insert e.1 e.2 acc) acc)).isSome := by
  induction entries generalizing acc with
  | nil => exact h.resolve_right List.not_mem_nil
  | cons head entries ih =>
    apply ih
    rw [find?_insert]
    by_cases hkey : e.1 = head.1
    · exact .inl (by rw [if_pos hkey]; rfl)
    · rw [if_neg hkey]
      refine h.imp_right fun hmem ↦ (List.mem_cons.1 hmem).resolve_left ?_
      exact fun heq ↦ hkey (congrArg Prod.fst heq)

/-- Where entries with one key hold the same, the sorted list has all of them. -/
theorem mem_ofList_iff {entries : List (String × α)}
    (h : ∀ e ∈ entries, ∀ e' ∈ entries, e.1 = e'.1 → e.2 = e'.2) {e : String × α} :
    e ∈ ofList entries ↔ e ∈ entries := by
  refine ⟨mem_of_mem_ofList, fun he ↦ ?_⟩
  obtain ⟨value, hvalue⟩ := Option.isSome_iff_exists.1 (isSome_find?_foldl (.inr he))
  have hmem : (e.1, value) ∈ ofList entries :=
    (find?_eq_some_iff (sorted_ofList entries)).1 hvalue
  have hsame : value = e.2 := h _ (mem_of_mem_ofList hmem) e he rfl
  rwa [hsame] at hmem

/-- Sorted lists with the same entries are the same. -/
theorem Sorted.eq_of_mem_iff {entries entries' : List (String × α)} (h : Sorted entries)
    (h' : Sorted entries') (hmem : ∀ e, e ∈ entries ↔ e ∈ entries') : entries = entries' := by
  have hperm : entries.Perm entries' :=
    (List.perm_ext_iff_of_nodup (.of_map _ h.nodup) (.of_map _ h'.nodup)).2 hmem
  exact hperm.eq_of_pairwise (fun a b _ _ hab hba ↦ absurd hba (not_lt_of_gt hab)) h h'

private theorem find?_foldl {entries : List (String × α)} (h : (entries.map Prod.fst).Nodup)
    (key : String) (acc : List (String × α)) :
    find? key (entries.foldl (fun acc e ↦ insert e.1 e.2 acc) acc) =
      (entries.lookup key).or (find? key acc) := by
  induction entries generalizing acc with
  | nil => rfl
  | cons e entries ih =>
    obtain ⟨k, v⟩ := e
    obtain ⟨habsent, hrest⟩ := List.nodup_cons.1 h
    rw [List.foldl_cons, ih hrest, find?_insert, List.lookup_cons]
    by_cases heq : key = k
    · subst heq
      have hnone : entries.lookup key = none := by
        rw [List.lookup_eq_none_iff]
        intro e he
        rw [bne_iff_ne]
        intro heq
        exact habsent (List.mem_map.2 ⟨e, he, heq.symm⟩)
      simp [hnone]
    · simp [heq, beq_eq_false_iff_ne.2 heq]

/-- Of entries with keys of their own, the sorted list finds what they hold. -/
theorem find?_ofList {entries : List (String × α)} (h : (entries.map Prod.fst).Nodup)
    (key : String) : find? key (ofList entries) = entries.lookup key := by
  rw [ofList, find?_foldl h, find?, Option.or_none]

/-- Of elements with keys of their own, a condition that binds the key finds any that satisfies
it. -/
theorem find?_eq_some_iff_of_nodup {β : Type} {key : α → β} {as : List α}
    (h : (as.map key).Nodup) {k : β} {p : α → Bool} (hp : ∀ a, p a → key a = k) {a : α} :
    as.find? p = some a ↔ a ∈ as ∧ p a := by
  constructor
  · exact fun hfound ↦ ⟨List.mem_of_find?_eq_some hfound, List.find?_some hfound⟩
  · rintro ⟨hmem, ha⟩
    obtain ⟨b, hb⟩ := Option.isSome_iff_exists.1 (List.find?_isSome.2 ⟨a, hmem, ha⟩)
    have hkey : key b = key a := (hp _ (List.find?_some hb)).trans (hp _ ha).symm
    rw [hb, List.inj_on_of_nodup_map h (List.mem_of_find?_eq_some hb) hmem hkey]

end PlaybookRuns.Keyed
