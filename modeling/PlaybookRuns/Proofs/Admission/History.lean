import PlaybookRuns.Proofs.Admission.Credit

/-!
# Callers apart

What a limiter has become after a history of calls, and what one caller can tell of it. Main
statement: the answer to a caller hangs on the calls of its own that were admitted. Calls of others
and calls that were refused leave no trace.
-/

namespace PlaybookRuns.Limiter

/-- The outcome of a call: the wait that is granted, or the time after which to come back. -/
def outcome (l : Limiter) (call : Call) : Except Throttled Nat :=
  (l.reserve call.key call.now call.attempt.maxWait).1

/-- The limiter after calls that it serves one after the other. -/
def after : List Call → Limiter → Limiter
  | [], l => l
  | call :: calls, l => after calls (l.serve call).2

/-- The limiter that has met a caller: one that it did not know is expected at once. -/
def meet (key : String) (now : Nat) (l : Limiter) : Limiter :=
  if (Keyed.find? key l.arrivals).isSome then l
  else { l with arrivals := Keyed.insert key now l.arrivals }

/-- The calls of a caller that are admitted. -/
def admitted (key : String) : List Call → Limiter → List Call
  | [], _ => []
  | call :: calls, l =>
    let (granted, l) := l.serve call
    let later := admitted key calls l
    if call.key = key ∧ granted.isSome then call :: later else later

/-! ## One call -/

variable {l l' l'' : Limiter} {call : Call} {key : String} {now : Nat}

/-- As time passes, a caller has so much less to wait. -/
theorem wait_add (l : Limiter) (key : String) (now elapsed : Nat) :
    l.wait key (now + elapsed) = l.wait key now - elapsed := by
  rw [wait, wait, l.arrival_of_le key (Nat.le_add_right now elapsed)]
  omega

/-- A call that would have to wait for too long is throttled. -/
theorem outcome_of_lt (h : call.attempt.maxWait < l.wait call.key call.now) :
    l.outcome call = .error ⟨l.wait call.key call.now⟩ := by
  rw [outcome, reserve, if_pos h]

/-- A call whose wait is put up with is granted it. -/
theorem outcome_of_le (h : l.wait call.key call.now ≤ call.attempt.maxWait) :
    l.outcome call = .ok (l.wait call.key call.now) := by
  rw [outcome, reserve, if_neg (Nat.not_lt.2 h)]

/-- A call that is refused changes nothing. -/
theorem serve_of_lt (h : call.attempt.maxWait < l.wait call.key call.now) :
    l.serve call = (none, l) := by
  rw [serve_eq_reserve, reserve, if_pos h]
  rfl

/-- A call that is admitted claims a slot. -/
theorem serve_of_le (h : l.wait call.key call.now ≤ call.attempt.maxWait) :
    l.serve call = (some (l.wait call.key call.now), l.claimed call.key call.now) := by
  rw [serve_eq_reserve, reserve, if_neg (Nat.not_lt.2 h)]
  rfl

/-- A call is served with the wait that it is granted. -/
theorem serve_fst (l : Limiter) (call : Call) : (l.serve call).1 = (l.outcome call).toOption := by
  rw [serve_eq_reserve]
  rfl

/-- A call that is throttled is not among the admitted ones and changes nothing. -/
theorem admitted_cons_of_lt (h : call.attempt.maxWait < l.wait call.key call.now)
    (calls : List Call) : l.admitted key (call :: calls) = l.admitted key calls := by
  simp [admitted, serve_of_lt h]

/-- A call that is granted is one of its own caller, and claims a slot. -/
theorem admitted_cons_of_le (h : l.wait call.key call.now ≤ call.attempt.maxWait)
    (calls : List Call) :
    l.admitted key (call :: calls) =
      if call.key = key then call :: (l.claimed call.key call.now).admitted key calls
      else (l.claimed call.key call.now).admitted key calls := by
  simp [admitted, serve_of_le h]

/-- Calls of other callers are none of this one. -/
theorem admitted_eq_nil_of_ne {calls : List Call} (h : ∀ call ∈ calls, call.key ≠ key)
    (l : Limiter) : l.admitted key calls = [] := by
  induction calls generalizing l with
  | nil => rfl
  | cons call calls ih =>
    rw [List.forall_mem_cons] at h
    simp only [admitted, ih h.2, h.1, false_and, if_false]

/-- The pace of a limiter stays what it is. -/
theorem pace_after (calls : List Call) (l : Limiter) :
    (l.after calls).interval = l.interval ∧ (l.after calls).tolerance = l.tolerance := by
  induction calls generalizing l with
  | nil => exact ⟨rfl, rfl⟩
  | cons call calls ih =>
    by_cases hlate : call.attempt.maxWait < l.wait call.key call.now
    · rw [after, serve_of_lt hlate]
      exact ih l
    · rw [after, serve_of_le (Nat.not_lt.1 hlate)]
      exact ih (l.claimed call.key call.now)

/-! ## What one caller can tell -/

/-- Whether two limiters have the same pace and, from an instant on, expect a caller alike. -/
structure Alike (key : String) (now : Nat) (l l' : Limiter) : Prop where
  interval_eq : l.interval = l'.interval
  tolerance_eq : l.tolerance = l'.tolerance
  arrival_eq : ∀ later, now ≤ later → l.arrival key later = l'.arrival key later

namespace Alike

/-- A limiter is like itself. -/
theorem refl (key : String) (now : Nat) (l : Limiter) : Alike key now l l :=
  ⟨rfl, rfl, fun _ _ ↦ rfl⟩

/-- Likeness goes both ways. -/
theorem symm (h : Alike key now l l') : Alike key now l' l :=
  ⟨h.interval_eq.symm, h.tolerance_eq.symm, fun later hlater ↦ (h.arrival_eq later hlater).symm⟩

/-- Likeness carries over. -/
theorem trans (h : Alike key now l l') (h' : Alike key now l' l'') : Alike key now l l'' where
  interval_eq := h.interval_eq.trans h'.interval_eq
  tolerance_eq := h.tolerance_eq.trans h'.tolerance_eq
  arrival_eq later hlater := (h.arrival_eq later hlater).trans (h'.arrival_eq later hlater)

/-- Limiters that are alike to a caller let it wait equally long from then on. -/
theorem wait_eq (h : Alike key now l l') {later : Nat} (hlater : now ≤ later) :
    l.wait key later = l'.wait key later := by
  rw [wait, wait, h.arrival_eq later hlater, h.tolerance_eq]

/-- A caller that is expected alike is answered alike. -/
theorem outcome_eq (h : Alike call.key now l l') (hnow : now ≤ call.now) :
    l.outcome call = l'.outcome call := by
  have hwait := h.wait_eq hnow
  by_cases hlate : call.attempt.maxWait < l.wait call.key call.now
  · rw [outcome_of_lt hlate, outcome_of_lt (hwait ▸ hlate), hwait]
  · rw [Nat.not_lt] at hlate
    rw [outcome_of_le hlate, outcome_of_le (hwait ▸ hlate), hwait]

/-- A claim of another caller cannot be told. -/
theorem claimed_of_ne {key' : String} (hkey : key' ≠ key) (l : Limiter) (now moment : Nat) :
    Alike key now (l.claimed key' moment) l :=
  ⟨rfl, rfl, fun later _ ↦ l.arrival_claimed_of_ne hkey.symm moment later⟩

/-- A caller that claims its slot in both is expected alike afterwards. -/
theorem claimed (h : Alike key now l l') {moment : Nat} (hmoment : now ≤ moment) :
    Alike key now (l.claimed key moment) (l'.claimed key moment) where
  interval_eq := h.interval_eq
  tolerance_eq := h.tolerance_eq
  arrival_eq later _ := by
    rw [arrival_claimed_self, arrival_claimed_self, h.arrival_eq moment hmoment, h.interval_eq]

/-- Whether a caller has been met, or another has, cannot be told from then on. -/
theorem meet (key key' : String) (now : Nat) (l : Limiter) :
    Alike key now (l.meet key' now) l := by
  unfold Limiter.meet
  split
  · exact refl key now l
  · next hknown =>
    refine ⟨rfl, rfl, fun later hlater ↦ ?_⟩
    rw [arrival, arrival, Keyed.find?_insert]
    split
    · next hkey =>
      rw [hkey, Option.not_isSome_iff_eq_none.1 hknown, Option.getD_some, Option.getD_none]
      omega
    · rfl

/-- A call of another caller cannot be told. -/
theorem serve_of_ne (hkey : call.key ≠ key) (l : Limiter) (now : Nat) :
    Alike key now (l.serve call).2 l := by
  by_cases hlate : call.attempt.maxWait < l.wait call.key call.now
  · rw [serve_of_lt hlate]
    exact refl key now l
  · rw [serve_of_le (Nat.not_lt.1 hlate)]
    exact claimed_of_ne hkey l now call.now

/-- A call that both limiters serve leaves them alike. -/
theorem serve (h : Alike key now l l') (hnow : call.key = key → now ≤ call.now) :
    Alike key now (l.serve call).2 (l'.serve call).2 := by
  by_cases hkey : call.key = key
  · replace hnow := hnow hkey
    subst hkey
    have hwait := h.wait_eq hnow
    by_cases hlate : call.attempt.maxWait < l.wait call.key call.now
    · rwa [serve_of_lt hlate, serve_of_lt (hwait ▸ hlate)]
    · rw [Nat.not_lt] at hlate
      rw [serve_of_le hlate, serve_of_le (hwait ▸ hlate)]
      exact h.claimed hnow
  · exact ((serve_of_ne hkey l now).trans h).trans (serve_of_ne hkey l' now).symm

/-- Calls that both limiters serve leave them alike. -/
theorem after {calls : List Call} (h : Alike key now l l')
    (hnow : ∀ call ∈ calls, call.key = key → now ≤ call.now) :
    Alike key now (l.after calls) (l'.after calls) := by
  induction calls generalizing l l' with
  | nil => exact h
  | cons call calls ih =>
    rw [List.forall_mem_cons] at hnow
    exact ih (h.serve hnow.1) hnow.2

/-- Calls by which a caller is granted no slot cannot be told. -/
theorem after_of_admitted_eq_nil {calls : List Call} (h : l.admitted key calls = []) (now : Nat) :
    Alike key now (l.after calls) l := by
  induction calls generalizing l with
  | nil => exact refl key now l
  | cons call calls ih =>
    by_cases hlate : call.attempt.maxWait < l.wait call.key call.now
    · rw [admitted_cons_of_lt hlate] at h
      rw [Limiter.after, serve_of_lt hlate]
      exact ih h
    · rw [Nat.not_lt] at hlate
      rw [admitted_cons_of_le hlate] at h
      split at h
      · cases h
      · next hkey =>
        rw [Limiter.after, serve_of_le hlate]
        exact (ih h).trans (claimed_of_ne hkey l now call.now)

/-- A limiter that serves those calls of a caller alone which another limiter admits is left like
that one, and grants them the same slots. -/
theorem after_admitted (h : Alike key 0 l l') (calls : List Call) :
    Alike key 0 (l.after (l'.admitted key calls)) (l'.after calls) ∧
      l.slots key (l'.admitted key calls) = l'.slots key calls := by
  induction calls generalizing l l' with
  | nil => exact ⟨h, rfl⟩
  | cons call calls ih =>
    by_cases hlate : call.attempt.maxWait < l'.wait call.key call.now
    · rw [admitted_cons_of_lt hlate]
      simpa only [Limiter.after, slots, serve_of_lt hlate] using ih h
    · rw [Nat.not_lt] at hlate
      rw [admitted_cons_of_le hlate]
      split
      · next hkey =>
        subst hkey
        have hwait := h.wait_eq (Nat.zero_le call.now)
        have hrest := ih (h.claimed (Nat.zero_le call.now))
        simp only [Limiter.after, slots, serve_of_le hlate, serve_of_le (hwait ▸ hlate), hwait,
          hrest, if_true, and_self]
      · next hkey =>
        -- only the limiter with the full history claims the slot of the other caller
        have hrest := ih (h.trans (claimed_of_ne hkey l' 0 call.now).symm)
        simpa only [Limiter.after, slots, serve_of_le hlate, if_neg hkey] using hrest

end Alike

/-- The outcome of a call is what it would be without any earlier call but those of its own caller
that were admitted, these being at their instants and granted their slots as before; nor does it
hang on when callers were met. -/
theorem outcome_after_admitted (l : Limiter) (calls : List Call) (call : Call) :
    (l.after (l.admitted call.key calls)).outcome call = (l.after calls).outcome call ∧
      ((l.after (l.admitted call.key calls)).serve call).1 = ((l.after calls).serve call).1 ∧
      l.slots call.key (l.admitted call.key calls) = l.slots call.key calls ∧
      ∀ key, ∀ now ≤ call.now,
        ((l.after calls).meet key now).outcome call = (l.after calls).outcome call := by
  obtain ⟨halike, hslots⟩ := (Alike.refl call.key 0 l).after_admitted calls
  have houtcome := halike.outcome_eq (Nat.zero_le call.now)
  refine ⟨houtcome, ?_, hslots, fun key now hnow ↦ ?_⟩
  · rw [serve_fst, serve_fst, houtcome]
  · exact (Alike.meet call.key key now (l.after calls)).outcome_eq hnow

/-- Of a history in which two callers take turns, the calls that count for the first are the two by
which it was granted slots. -/
example : (create 1 1).admitted "a" [⟨0, "b", .allow⟩, ⟨0, "a", .allow⟩, ⟨1, "a", .allow⟩,
    ⟨1, "b", .acquire 5⟩, ⟨2, "a", .acquire 2000000000⟩, ⟨3, "a", .allow⟩] =
      [⟨0, "a", .allow⟩, ⟨2, "a", .acquire 2000000000⟩] := by
  decide

end PlaybookRuns.Limiter
