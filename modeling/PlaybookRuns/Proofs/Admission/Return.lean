import PlaybookRuns.Proofs.Admission.History

/-!
# Coming back

What a limiter answers a caller that comes back. Main statements: a caller that was refused has just
the time before it that it was told, less what has passed since, whatever others did in between; and
one that has been idle for long enough is treated as if it had never called.
-/

namespace PlaybookRuns.Limiter

variable {l : Limiter} {key : String}

/-! ## After a refusal -/

/-- A call is refused exactly where its slot opens too late. -/
theorem outcome_eq_error_iff {call : Call} {refused : Throttled} :
    l.outcome call = .error refused ↔
      call.attempt.maxWait < l.wait call.key call.now ∧
        refused = ⟨l.wait call.key call.now⟩ := by
  by_cases hlate : call.attempt.maxWait < l.wait call.key call.now
  · simp [outcome_of_lt hlate, hlate, eq_comm]
  · simp [outcome_of_le (Nat.not_lt.1 hlate), hlate]

/-- A refused call is told a time longer than it would have waited, and changes nothing. While no
call of its caller is admitted, one at a later instant is admitted exactly where it puts up with what
is left of that time; it is granted a wait of as long, and is told as much otherwise. -/
theorem retryAfter_exact {call : Call} {refused : Throttled}
    (hrefused : l.outcome call = .error refused) :
    call.attempt.maxWait < refused.retryAfter ∧ (l.serve call).2 = l ∧
      ∀ between, l.admitted call.key between = [] → ∀ again : Call, again.key = call.key →
        call.now ≤ again.now →
          let left := refused.retryAfter - (again.now - call.now)
          (l.after between).outcome again =
            if left ≤ again.attempt.maxWait then .ok left else .error ⟨left⟩ := by
  obtain ⟨hlate, rfl⟩ := outcome_eq_error_iff.1 hrefused
  refine ⟨hlate, congrArg Prod.snd (serve_of_lt hlate), ?_⟩
  intro between hbetween again hkey hnow left
  have halike : Alike again.key again.now (l.after between) l :=
    .after_of_admitted_eq_nil (hkey ▸ hbetween) again.now
  have hwait : l.wait again.key again.now = left := by
    rw [hkey, ← Nat.add_sub_of_le hnow, wait_add]
  rw [halike.outcome_eq (Nat.le_refl again.now)]
  split
  · next hleft =>
    rw [outcome_of_le (hwait ▸ hleft), hwait]
  · next hleft =>
    rw [outcome_of_lt (hwait ▸ Nat.not_le.1 hleft), hwait]

/-- Three callers at once share a slot per second: the third is refused for one nanosecond, and
admitted where it comes back with more patience, whatever another caller and a refused call did in
between. -/
theorem retryAfter_exact_third :
    let l := (create 1 1).after [⟨0, "a", .allow⟩, ⟨0, "a", .acquire 1000000000⟩]
    let between : List Call := [⟨5, "b", .allow⟩, ⟨7, "a", .acquire 0⟩]
    l.outcome ⟨0, "a", .acquire 1999999999⟩ = .error ⟨2000000000⟩ ∧
      l.admitted "a" between = [] ∧
      (l.after between).outcome ⟨10, "a", .acquire 1999999990⟩ = .ok 1999999990 := by
  intro l between
  have hrefused : l.outcome ⟨0, "a", .acquire 1999999999⟩ = .error ⟨2000000000⟩ := by decide
  have hbetween : l.admitted "a" between = [] := by decide
  refine ⟨hrefused, hbetween, ?_⟩
  exact (retryAfter_exact hrefused).2.2 between hbetween ⟨10, "a", .acquire 1999999990⟩ rfl
    (by decide)

/-! ## After a rest -/

/-- Whether the arrival of a caller is at most so far ahead of the last of its calls that was
admitted. -/
def Within (l : Limiter) (key : String) (ahead : Nat) (last? : Option Call) : Prop :=
  ∀ known, Keyed.find? key l.arrivals = some known →
    ∃ last, last? = some last ∧ known ≤ last.now + ahead

namespace Within

variable {maxWait : Nat} {last? : Option Call}

/-- A claim of another caller leaves the arrival where it is. -/
theorem claimed_of_ne {ahead : Nat} (h : Within l key ahead last?) {key' : String}
    (hkey : key' ≠ key) (now : Nat) : Within (l.claimed key' now) key ahead last? := by
  intro known hknown
  rw [claimed, Keyed.find?_insert, if_neg hkey.symm] at hknown
  exact h known hknown

/-- A slot that a caller waits for is at most the wait and a burst before the next arrival. -/
theorem claimed_self {call : Call} (hwait : l.wait call.key call.now ≤ maxWait) :
    Within (l.claimed call.key call.now) call.key (maxWait + (l.tolerance + l.interval))
      (some call) := by
  intro known hknown
  rw [claimed, Keyed.find?_insert, if_pos rfl, Option.some.injEq] at hknown
  refine ⟨call, rfl, ?_⟩
  rw [wait] at hwait
  omega

/-- Calls that do not wait for long keep the arrival of a caller close to the last of them that was
admitted. -/
theorem after {calls : List Call}
    (h : Within l key (maxWait + (l.tolerance + l.interval)) last?)
    (hwaits : ∀ call ∈ calls, call.attempt.maxWait ≤ maxWait) :
    Within (l.after calls) key (maxWait + (l.tolerance + l.interval))
      ((l.admitted key calls).getLast?.or last?) := by
  induction calls generalizing l last? with
  | nil => exact h
  | cons call calls ih =>
    rw [List.forall_mem_cons] at hwaits
    by_cases hlate : call.attempt.maxWait < l.wait call.key call.now
    · rw [admitted_cons_of_lt hlate, Limiter.after, serve_of_lt hlate]
      exact ih h hwaits.2
    · rw [Nat.not_lt] at hlate
      rw [admitted_cons_of_le hlate, Limiter.after, serve_of_le hlate]
      split
      · next hkey =>
        subst hkey
        -- this call takes the place of the last one before
        have hlast (later : List Call) :
            (call :: later).getLast?.or last? = later.getLast?.or (some call) := by
          rw [List.getLast?_cons]
          cases later.getLast? <;> rfl
        rw [hlast]
        exact ih (claimed_self (hlate.trans hwaits.1)) hwaits.2
      · next hkey => exact ih (h.claimed_of_ne hkey call.now) hwaits.2

end Within

/-- From its arrival on, a limiter expects a caller like one of the same pace that does not know it.
-/
theorem Alike.of_known_le {unused : Limiter} {rested : Nat}
    (hpace : l.interval = unused.interval ∧ l.tolerance = unused.tolerance)
    (hknown : ∀ known, Keyed.find? key l.arrivals = some known → known ≤ rested)
    (hunused : Keyed.find? key unused.arrivals = none) : Alike key rested l unused := by
  refine ⟨hpace.1, hpace.2, fun later hlater ↦ ?_⟩
  rw [arrival, arrival, hunused, Option.getD_none]
  cases h : Keyed.find? key l.arrivals with
  | none => rfl
  | some known =>
    have := hknown known h
    rw [Option.getD_some]
    omega

/-- A limiter holds for each caller a burst of slots at once. -/
theorem burst_create (perSecond burst : UInt32) :
    (create perSecond burst).tolerance + (create perSecond burst).interval =
      max burst.toNat 1 * (1000000000 / max perSecond.toNat 1) := by
  obtain ⟨b, hb⟩ := Nat.exists_eq_add_of_le' (Nat.le_max_right burst.toNat 1)
  simp only [create, hb, Nat.add_sub_cancel]
  rw [Nat.succ_mul, Nat.mul_comm]

/-- Where callers wait no longer than some time, the arrival of each is at most that time and a burst
of slots after the last of its calls that was admitted. A caller that stays away until then is
answered, whatever calls follow, as by a limiter of the same pace that it has never called. -/
theorem rested_eq_unused (perSecond burst : UInt32) (key : String) {maxWait : Nat}
    {calls : List Call} (hwaits : ∀ call ∈ calls, call.attempt.maxWait ≤ maxWait) :
    let fresh := create perSecond burst
    let last? := (fresh.admitted key calls).getLast?
    let ahead := maxWait + max burst.toNat 1 * (1000000000 / max perSecond.toNat 1)
    (∀ known, Keyed.find? key (fresh.after calls).arrivals = some known →
      ∃ last, last? = some last ∧ known ≤ last.now + ahead) ∧
    ∀ others, (∀ call ∈ others, call.key ≠ key) → ∀ later call, call.key = key →
      (∀ last, last? = some last → ∀ c ∈ later ++ [call], c.key = key →
        last.now + ahead ≤ c.now) →
      ((fresh.after calls).after later).outcome call =
        ((fresh.after others).after later).outcome call := by
  intro fresh last? ahead
  have hwithin : Within (fresh.after calls) key ahead last? := by
    have hfresh : Within fresh key ahead none := fun known hknown ↦ nomatch hknown
    simp only [ahead, ← burst_create] at hfresh ⊢
    simpa only [Option.or_none] using hfresh.after hwaits
  refine ⟨hwithin, fun others hothers later call hkey hrest ↦ ?_⟩
  subst hkey
  -- a caller that was never admitted has rested from the start
  obtain ⟨rested, hknown, hrested⟩ : ∃ rested,
      (∀ known, Keyed.find? call.key (fresh.after calls).arrivals = some known → known ≤ rested) ∧
        ∀ c ∈ later ++ [call], c.key = call.key → rested ≤ c.now := by
    cases hlast : last? with
    | none =>
      refine ⟨0, fun known hknown ↦ ?_, fun _ _ _ ↦ Nat.zero_le _⟩
      obtain ⟨last, hsome, -⟩ := hwithin known hknown
      rw [hlast] at hsome
      cases hsome
    | some last =>
      refine ⟨last.now + ahead, fun known hknown ↦ ?_, hrest last hlast⟩
      obtain ⟨last', hsome, hle⟩ := hwithin known hknown
      rw [hlast, Option.some.injEq] at hsome
      rwa [hsome]
  have hrestedAlike : Alike call.key rested (fresh.after calls) fresh :=
    .of_known_le (pace_after calls fresh) hknown rfl
  have hunused : Alike call.key rested (fresh.after others) fresh :=
    .after_of_admitted_eq_nil (admitted_eq_nil_of_ne hothers fresh) rested
  rw [List.forall_mem_append, List.forall_mem_singleton] at hrested
  exact ((hrestedAlike.trans hunused.symm).after hrested.1).outcome_eq (hrested.2 rfl)

/-- A caller of ten slots per second, at a burst of two and a longest wait of 0.2 s, has run into debt
for two slots. After 0.4 s it is let go twice at once and no third time, as one that has never
called. -/
theorem rested_eq_unused_debtor :
    let calls : List Call := [⟨0, "a", .allow⟩, ⟨0, "a", .allow⟩, ⟨0, "a", .acquire 200000000⟩,
      ⟨0, "b", .allow⟩, ⟨0, "a", .acquire 200000000⟩, ⟨0, "a", .acquire 200000000⟩]
    let again : Call := ⟨400000000, "a", .allow⟩
    (∀ call ∈ calls, call.attempt.maxWait ≤ 200000000) ∧
      ((create 10 2).admitted "a" calls).length = 4 ∧
      (((create 10 2).after calls).after [again, again]).outcome again =
        (((create 10 2).after [⟨0, "b", .allow⟩]).after [again, again]).outcome again ∧
      ((create 10 2).after [again, again]).outcome again = .error ⟨100000000⟩ := by
  intro calls again
  have hwaits : ∀ call ∈ calls, call.attempt.maxWait ≤ 200000000 := by decide
  have hlast : ∀ last ∈ ((create 10 2).admitted "a" calls).getLast?, last.now = 0 := by decide
  refine ⟨hwaits, by decide, ?_, by decide⟩
  apply (rested_eq_unused 10 2 "a" hwaits).2 [⟨0, "b", .allow⟩] (by decide) [again, again] again rfl
  intro last h
  rw [hlast last h]
  decide

end PlaybookRuns.Limiter
