/-!
# Computations that may be refused

When a sequence of checks in `Except` comes to a result. Main statements: a sequence succeeds
exactly when each of its steps does, and a list is mapped exactly when each of its elements is, or
else refused for the first that is not.
-/

namespace PlaybookRuns.Checked

variable {ε α β : Type}

/-- A sequence succeeds exactly when each step does. -/
theorem bind_eq_ok_iff {x : Except ε α} {f : α → Except ε β} {b : β} :
    (x >>= f) = .ok b ↔ ∃ a, x = .ok a ∧ f a = .ok b := by
  cases x <;> simp [bind, Except.bind]

/-- A result is changed exactly when there is one. -/
theorem map_eq_ok_iff {x : Except ε α} {f : α → β} {b : β} :
    f <$> x = .ok b ↔ ∃ a, x = .ok a ∧ f a = b := by
  cases x <;> simp [Functor.map, Except.map]

/-- A value succeeds as itself. -/
theorem pure_eq_ok_iff {a b : α} : (pure a : Except ε α) = .ok b ↔ a = b := by
  simp [pure, Except.pure]

/-- A refusal ends a sequence. -/
theorem throw_bind {e : ε} {f : α → Except ε β} :
    ((throw e : Except ε α) >>= f) = throw e := rfl

/-- A refusal is no result. -/
theorem throw_ne_ok {e : ε} {b : α} : (throw e : Except ε α) ≠ .ok b := by
  simp [throw, throwThe, MonadExceptOf.throw]

/-- A check that may refuse is passed exactly when its condition fails. -/
theorem ite_throw_eq_ok_iff {p : Prop} [Decidable p] {e : ε} {x : Except ε α} {b : α} :
    (if p then throw e else x) = .ok b ↔ ¬p ∧ x = .ok b := by
  by_cases h : p
  · simp [h, throw_ne_ok]
  · simp [h]

/-- A list is mapped exactly when each of its elements is. -/
theorem mapM_eq_ok_iff {f : α → Except ε β} {as : List α} {bs : List β} :
    as.mapM f = .ok bs ↔ as.map f = bs.map .ok := by
  induction as generalizing bs with
  | nil => cases bs <;> simp [pure, Except.pure]
  | cons a as ih =>
    rw [List.mapM_cons, bind_eq_ok_iff]
    constructor
    · rintro ⟨b, hb, hrest⟩
      obtain ⟨bs', hbs', hcons⟩ := bind_eq_ok_iff.1 hrest
      obtain rfl := pure_eq_ok_iff.1 hcons
      rw [List.map_cons, List.map_cons, hb, ih.1 hbs']
    · intro h
      cases bs with
      | nil => cases h
      | cons b bs =>
        obtain ⟨hb, hbs⟩ := List.cons.inj h
        exact ⟨b, hb, bind_eq_ok_iff.2 ⟨bs, ih.2 hbs, rfl⟩⟩

/-- What a list is mapped to is what its elements are mapped to. -/
theorem mem_mapM_iff {f : α → Except ε β} {as : List α} {bs : List β} (h : as.mapM f = .ok bs)
    {b : β} : b ∈ bs ↔ ∃ a ∈ as, f a = .ok b := by
  have hok : Except.ok b ∈ as.map f ↔ ∃ a ∈ as, f a = .ok b := List.mem_map
  rw [← hok, mapM_eq_ok_iff.1 h]
  simp

/-- The elements of a list that is mapped are all mapped. -/
theorem exists_of_mapM {f : α → Except ε β} {as : List α} {bs : List β} (h : as.mapM f = .ok bs)
    {a : α} (ha : a ∈ as) : ∃ b, f a = .ok b := by
  have hmem : f a ∈ bs.map .ok := mapM_eq_ok_iff.1 h ▸ List.mem_map_of_mem ha
  obtain ⟨b, -, hb⟩ := List.mem_map.1 hmem
  exact ⟨b, hb.symm⟩

/-- The elements of a list are mapped and joined where each of them is mapped. -/
theorem exists_flatten_eq_ok_iff {f : α → Except ε (List β)} {as : List α} :
    (∃ bs, (as.mapM f >>= fun parts ↦ pure parts.flatten) = .ok bs) ↔
      ∀ a ∈ as, ∃ part, f a = .ok part := by
  simp only [bind_eq_ok_iff, pure_eq_ok_iff, mapM_eq_ok_iff]
  induction as with
  | nil => exact iff_of_true ⟨[], [], rfl, rfl⟩ nofun
  | cons a as ih =>
    rw [List.forall_mem_cons, ← ih]
    constructor
    · rintro ⟨_, parts, hparts, -⟩
      obtain ⟨part, parts, rfl, hpart, hrest⟩ := List.map_eq_cons_iff.1 hparts.symm
      exact ⟨⟨part, hpart.symm⟩, _, parts, hrest.symm, rfl⟩
    · rintro ⟨⟨part, hpart⟩, _, parts, hparts, -⟩
      exact ⟨_, part :: parts, by rw [List.map_cons, List.map_cons, hpart, hparts], rfl⟩

/-- What the elements of a list are mapped to, joined, is what each of them is mapped to. -/
theorem mem_flatten_iff {f : α → Except ε (List β)} {as : List α} {bs : List β}
    (h : (as.mapM f >>= fun parts ↦ pure parts.flatten) = .ok bs) {b : β} :
    b ∈ bs ↔ ∃ a ∈ as, ∃ part, f a = .ok part ∧ b ∈ part := by
  obtain ⟨parts, hparts, hpure⟩ := bind_eq_ok_iff.1 h
  obtain rfl := pure_eq_ok_iff.1 hpure
  simp only [List.mem_flatten, mem_mapM_iff hparts]
  constructor
  · rintro ⟨part, ⟨a, ha, hfa⟩, hb⟩
    exact ⟨a, ha, part, hfa, hb⟩
  · rintro ⟨a, ha, part, hfa, hb⟩
    exact ⟨part, ⟨a, ha, hfa⟩, hb⟩

/-! ## Refusals -/

/-- Why a computation is refused, if it is. -/
def refusal? : Except ε α → Option ε
  | .error e => some e
  | .ok _ => none

/-- A computation is refused for its error. -/
theorem refusal?_eq_some_iff {x : Except ε α} {e : ε} : refusal? x = some e ↔ x = .error e := by
  cases x <;> simp [refusal?]

/-- A computation that is not refused has a result. -/
theorem refusal?_eq_none_iff {x : Except ε α} : refusal? x = none ↔ ∃ a, x = .ok a := by
  cases x <;> simp [refusal?]

/-- What is made of a result changes no refusal. -/
@[simp] theorem refusal?_map (f : α → β) (x : Except ε α) : refusal? (f <$> x) = refusal? x := by
  cases x <;> rfl

/-- A last step that is never refused changes no refusal. -/
@[simp] theorem refusal?_bind_pure (f : α → β) (x : Except ε α) :
    refusal? (x >>= fun a ↦ pure (f a)) = refusal? x := by
  cases x <;> rfl

/-- A sequence is refused for its first step, or else for the second. -/
theorem refusal?_bind {x : Except ε α} {f : α → Except ε β} {rest : Option ε}
    (h : ∀ a, refusal? (f a) = rest) : refusal? (x >>= f) = (refusal? x).or rest := by
  cases x with
  | error e => rfl
  | ok a => exact h a

/-- A list is refused for the first of its elements that is. -/
theorem refusal?_mapM (f : α → Except ε β) (as : List α) :
    refusal? (as.mapM f) = as.findSome? fun a ↦ refusal? (f a) := by
  induction as with
  | nil => rfl
  | cons a as ih =>
    rw [List.mapM_cons, List.findSome?_cons]
    cases hfa : f a with
    | error e => rfl
    | ok b =>
      rw [show refusal? (.ok b : Except ε β) = none from rfl, ← ih]
      exact refusal?_bind_pure (b :: ·) (as.mapM f)

/-! ## Optional results -/

/-- A list is mapped exactly when each of its elements is. -/
theorem mapM_eq_some_iff {f : α → Option β} {as : List α} {bs : List β} :
    as.mapM f = some bs ↔ as.map f = bs.map some := by
  induction as generalizing bs with
  | nil => cases bs <;> simp
  | cons a as ih =>
    rw [List.mapM_cons]
    constructor
    · intro h
      obtain ⟨b, hb, hrest⟩ := Option.bind_eq_some_iff.1 h
      obtain ⟨bs', hbs', hcons⟩ := Option.bind_eq_some_iff.1 hrest
      obtain rfl := Option.some.inj hcons
      rw [List.map_cons, List.map_cons, hb, ih.1 hbs']
    · intro h
      cases bs with
      | nil => cases h
      | cons b bs =>
        obtain ⟨hb, hbs⟩ := List.cons.inj h
        rw [hb, ih.2 hbs]
        rfl

/-- A list whose elements are all mapped is mapped. -/
theorem exists_map_eq_map_some {f : α → Option β} {as : List α} (h : ∀ a ∈ as, (f a).isSome) :
    ∃ bs : List β, as.map f = bs.map some := by
  induction as with
  | nil => exact ⟨[], rfl⟩
  | cons a as ih =>
    obtain ⟨b, hb⟩ := Option.isSome_iff_exists.1 (h a List.mem_cons_self)
    obtain ⟨bs, hbs⟩ := ih fun a' ha' ↦ h a' (List.mem_cons_of_mem _ ha')
    exact ⟨b :: bs, by rw [List.map_cons, List.map_cons, hb, hbs]⟩

/-- The elements of a list that is mapped are all mapped. -/
theorem isSome_of_map_eq_map_some {f : α → Option β} {as : List α} {bs : List β}
    (h : as.map f = bs.map some) {a : α} (ha : a ∈ as) : (f a).isSome := by
  have hmem : f a ∈ bs.map some := h ▸ List.mem_map_of_mem ha
  obtain ⟨b, -, hb⟩ := List.mem_map.1 hmem
  rw [← hb]
  rfl

/-- A computation succeeds where something can be told of its result. -/
theorem eq_ok_of_map {x : Except ε α} {f : α → β} {b : β} (h : x.toOption.map f = some b) :
    ∃ a, x = .ok a ∧ f a = b := by
  cases x with
  | error e => cases h
  | ok a => exact ⟨a, rfl, Option.some.inj h⟩

/-- A computation comes to a value where something can be told of its value. -/
theorem eq_ok_some_of_map {x : Except ε (Option α)} {f : α → β} {b : β}
    (h : x.toOption.join.map f = some b) : ∃ a, x = .ok (some a) ∧ f a = b := by
  cases x with
  | error e => cases h
  | ok value =>
    obtain ⟨a, rfl, ha⟩ := Option.map_eq_some_iff.1 (show value.map f = some b from h)
    exact ⟨a, rfl, ha⟩

/-- A computation comes to no value where it succeeds without one. -/
theorem eq_ok_none_of_map {x : Except ε (Option α)}
    (h : x.toOption.map Option.isSome = some false) : x = .ok none := by
  cases x with
  | error e => cases h
  | ok value =>
    cases value with
    | none => rfl
    | some a => cases h

end PlaybookRuns.Checked
