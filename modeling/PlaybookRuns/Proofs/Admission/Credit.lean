import PlaybookRuns.Proofs.Admission.Pacing

/-!
# Credit

Another way to hold callers to a rate: an account of credit for each, in nanoseconds, which fills
as time passes up to a burst, and from which every slot is paid. Main statement: a limiter answers
every history of calls as such accounts would.
-/

namespace PlaybookRuns

open PlaybookRuns.Limiter (Attempt Call)

/-- The credit of a caller as of an instant; a debt where it is negative. -/
structure Account where
  credit : Int
  asOf : Nat
  deriving DecidableEq, Repr

/-- Accounts of credit: the price of a slot, what an account can hold, and the account of every
caller met so far. -/
structure Ledger where
  price : Nat
  capacity : Nat
  accounts : List (String × Account)
  deriving DecidableEq, Repr

namespace Ledger

/-- The ledger of a rate and a burst, in which every account holds the price of a burst; zero counts
as one. -/
def create (perSecond burst : UInt32) : Ledger :=
  let price := 1000000000 / max perSecond.toNat 1
  ⟨price, max burst.toNat 1 * price, []⟩

/-- The credit of a caller at an instant: an account is full when it is opened, and gains a
nanosecond in every nanosecond until it is full again. -/
def credit (ledger : Ledger) (key : String) (now : Nat) : Int :=
  match Keyed.find? key ledger.accounts with
  | none => ledger.capacity
  | some account => min ledger.capacity (account.credit + (now - account.asOf : Nat))

/-- The ledger in which a caller has the given credit as of an instant. -/
def setCredit (ledger : Ledger) (key : String) (now : Nat) (credit : Int) : Ledger :=
  { ledger with accounts := Keyed.insert key ⟨credit, now⟩ ledger.accounts }

/-- Pays for a slot, running into debt if need be, when the credit that is missing comes in within
`maxWait`. -/
def reserve (ledger : Ledger) (key : String) (now maxWait : Nat) :
    Except Throttled Nat × Ledger :=
  let credit := ledger.credit key now
  let wait := (max 0 (ledger.price - credit)).toNat
  if wait ≤ maxWait then (.ok wait, ledger.setCredit key now (credit - ledger.price))
  else (.error ⟨wait⟩, ledger.setCredit key now credit)

/-- Credit changes nothing about the capacity. -/
@[simp] theorem setCredit_capacity (ledger : Ledger) (key : String) (now : Nat) (credit : Int) :
    (ledger.setCredit key now credit).capacity = ledger.capacity := rfl

/-- A caller whose credit is set gains from there on. -/
theorem credit_setCredit_self (ledger : Ledger) (key : String) (now later : Nat) (credit : Int) :
    (ledger.setCredit key now credit).credit key later =
      min (ledger.capacity : Int) (credit + (later - now : Nat)) := by
  rw [Ledger.credit, setCredit, Keyed.find?_insert, if_pos rfl]

/-- The credit of other callers is left alone. -/
theorem credit_setCredit_of_ne (ledger : Ledger) {key key' : String} (h : key' ≠ key)
    (now later : Nat) (credit : Int) :
    (ledger.setCredit key now credit).credit key' later = ledger.credit key' later := by
  rw [Ledger.credit, setCredit, Keyed.find?_insert, if_neg h, Ledger.credit]

end Ledger

namespace Limiter

/-- The longest wait that a caller who asks in this way puts up with. -/
def Attempt.maxWait : Attempt → Nat
  | allow => 0
  | acquire maxWait => maxWait

/-- The outcomes of calls that reserve their slots one after the other: the wait that is granted, or
the time after which to come back. -/
def outcomes {σ : Type} (reserve : σ → String → Nat → Nat → Except Throttled Nat × σ) :
    List Call → σ → List (Except Throttled Nat)
  | [], _ => []
  | call :: calls, state =>
    let served := reserve state call.key call.now call.attempt.maxWait
    served.1 :: outcomes reserve calls served.2

/-- The waits that a limiter grants to calls that it serves one after the other. -/
def grants : List Call → Limiter → List (Option Nat)
  | [], _ => []
  | call :: calls, l =>
    let served := l.serve call
    served.1 :: grants calls served.2

/-- A slot that is granted opens within the longest wait. -/
theorem le_of_reserve_eq_ok {l after : Limiter} {key : String} {now maxWait wait : Nat}
    (h : l.reserve key now maxWait = (.ok wait, after)) : wait ≤ maxWait := by
  simp only [reserve] at h
  split at h
  · cases h
  · next hwait =>
    cases h
    exact Nat.not_lt.1 hwait

/-- A call is served by reserving a slot. -/
theorem serve_eq_reserve (l : Limiter) (call : Call) :
    l.serve call =
      ((l.reserve call.key call.now call.attempt.maxWait).1.toOption,
        (l.reserve call.key call.now call.attempt.maxWait).2) := by
  unfold serve
  cases call.attempt with
  | allow =>
    rw [Attempt.maxWait, allow]
    rcases hreserve : l.reserve call.key call.now 0 with ⟨refused | wait, after⟩
    · rfl
    · rw [Nat.le_zero.1 (le_of_reserve_eq_ok hreserve)]
      rfl
  | acquire maxWait =>
    dsimp only [Attempt.maxWait]
    rcases l.reserve call.key call.now maxWait with ⟨refused | wait, after⟩
    · rfl
    · rfl

/-- The waits that are granted are those of the outcomes. -/
theorem grants_eq_outcomes (calls : List Call) (l : Limiter) :
    l.grants calls = (outcomes reserve calls l).map Except.toOption := by
  induction calls generalizing l with
  | nil => rfl
  | cons call calls ih =>
    rw [grants, outcomes, serve_eq_reserve, ih]
    rfl

/-! ## Arrivals and credit -/

/-- The arrival of a caller who does not call stays until the clock passes it. -/
theorem arrival_of_le (l : Limiter) (key : String) {now later : Nat} (h : now ≤ later) :
    l.arrival key later = max (l.arrival key now) later := by
  unfold arrival
  cases Keyed.find? key l.arrivals with
  | none =>
    rw [Option.getD_none, Option.getD_none]
    omega
  | some known =>
    rw [Option.getD_some, Option.getD_some]
    omega

/-- No slot lies in the past. -/
theorem le_arrival (l : Limiter) (key : String) (now : Nat) : now ≤ l.arrival key now :=
  Nat.le_max_right _ _

/-- The next arrival of a caller that has claimed a slot. -/
theorem arrival_claimed_self (l : Limiter) (key : String) (now later : Nat) :
    (l.claimed key now).arrival key later = max (l.arrival key now + l.interval) later := by
  rw [arrival, claimed, Keyed.find?_insert, if_pos rfl, Option.getD_some]

/-- The arrivals of other callers are left alone. -/
theorem arrival_claimed_of_ne (l : Limiter) {key key' : String} (h : key' ≠ key)
    (now later : Nat) : (l.claimed key now).arrival key' later = l.arrival key' later := by
  rw [arrival, claimed, Keyed.find?_insert, if_neg h, arrival]

/-- Whether a ledger shows from an instant on what a limiter knows: of the credit that an account
can hold, each caller lacks the time to its arrival. -/
structure Matches (l : Limiter) (ledger : Ledger) (now : Nat) : Prop where
  price_eq : ledger.price = l.interval
  capacity_eq : ledger.capacity = l.tolerance + l.interval
  credit_eq : ∀ key later, now ≤ later →
    ledger.credit key later = ledger.capacity - ((l.arrival key later : Int) - later)

namespace Matches

variable {l : Limiter} {ledger : Ledger} {now later : Nat}

/-- At the start every account is full. -/
theorem create (perSecond burst : UInt32) (now : Nat) :
    Matches (create perSecond burst) (.create perSecond burst) now where
  price_eq := rfl
  capacity_eq := by
    obtain ⟨b, hb⟩ := Nat.exists_eq_add_of_le' (Nat.le_max_right burst.toNat 1)
    simp only [Ledger.create, Limiter.create, hb, Nat.add_sub_cancel]
    rw [Nat.succ_mul, Nat.mul_comm]
  credit_eq key later _ := by
    have harrival : (Limiter.create perSecond burst).arrival key later = later := Nat.max_self later
    rw [harrival, Int.sub_self, Int.sub_zero]
    rfl

/-- A limiter and a ledger that match go on to do so as time passes. -/
theorem mono (h : Matches l ledger now) (hlater : now ≤ later) : Matches l ledger later where
  price_eq := h.price_eq
  capacity_eq := h.capacity_eq
  credit_eq key instant hinstant := h.credit_eq key instant (Nat.le_trans hlater hinstant)

/-- The credit that is missing for a slot comes in when the slot opens. -/
theorem wait_eq (h : Matches l ledger now) (key : String) :
    (max 0 ((ledger.price : Int) - ledger.credit key now)).toNat = l.wait key now := by
  have harrival := l.le_arrival key now
  rw [h.credit_eq key now (Nat.le_refl now), h.price_eq, h.capacity_eq, wait]
  omega

/-- Paying for a slot moves the arrival one interval on. -/
theorem claimed (h : Matches l ledger now) (key : String) :
    Matches (l.claimed key now)
      (ledger.setCredit key now (ledger.credit key now - ledger.price)) now where
  price_eq := h.price_eq
  capacity_eq := h.capacity_eq
  credit_eq key' later hlater := by
    rw [Ledger.setCredit_capacity]
    by_cases hkey : key' = key
    · subst hkey
      have hcredit := h.credit_eq key' now (Nat.le_refl now)
      rw [Ledger.credit_setCredit_self, arrival_claimed_self, hcredit, h.price_eq]
      omega
    · rw [Ledger.credit_setCredit_of_ne _ hkey, arrival_claimed_of_ne _ hkey]
      exact h.credit_eq key' later hlater

/-- Counting the credit of a caller anew changes nothing. -/
theorem counted (h : Matches l ledger now) (key : String) :
    Matches l (ledger.setCredit key now (ledger.credit key now)) now where
  price_eq := h.price_eq
  capacity_eq := h.capacity_eq
  credit_eq key' later hlater := by
    rw [Ledger.setCredit_capacity]
    by_cases hkey : key' = key
    · subst hkey
      have hcredit := h.credit_eq key' now (Nat.le_refl now)
      have harrival := l.le_arrival key' now
      rw [Ledger.credit_setCredit_self, l.arrival_of_le key' hlater, hcredit]
      omega
    · rw [Ledger.credit_setCredit_of_ne _ hkey]
      exact h.credit_eq key' later hlater

/-- A slot is reserved with the same outcome, and what is known matches afterwards. -/
theorem reserve (h : Matches l ledger now) (key : String) (maxWait : Nat) :
    (l.reserve key now maxWait).1 = (ledger.reserve key now maxWait).1 ∧
      Matches (l.reserve key now maxWait).2 (ledger.reserve key now maxWait).2 now := by
  simp only [Limiter.reserve, Ledger.reserve, h.wait_eq key]
  by_cases hwait : maxWait < l.wait key now
  · rw [if_pos hwait, if_neg (Nat.not_le.2 hwait)]
    exact ⟨rfl, h.counted key⟩
  · rw [if_neg hwait, if_pos (Nat.not_lt.1 hwait)]
    exact ⟨rfl, h.claimed key⟩

/-- Calls have the same outcomes. -/
theorem outcomes_eq {calls : List Call} (h : Matches l ledger now)
    (hnow : ∀ call ∈ calls, now ≤ call.now) (hclock : calls.Pairwise (·.now ≤ ·.now)) :
    outcomes Limiter.reserve calls l = outcomes Ledger.reserve calls ledger := by
  induction calls generalizing l ledger now with
  | nil => rfl
  | cons call calls ih =>
    rw [List.pairwise_cons] at hclock
    have hcall : Matches l ledger call.now := h.mono (hnow call List.mem_cons_self)
    obtain ⟨houtcome, hmatches⟩ := hcall.reserve call.key call.attempt.maxWait
    rw [outcomes, outcomes, houtcome, ih hmatches hclock.1 hclock.2]

end Matches

/-- While the clock does not run back, a limiter answers every call as accounts of credit would: it
grants the same waits, and names the same times after which to come back. -/
theorem outcomes_create_eq_ledger (perSecond burst : UInt32) (calls : List Call)
    (hclock : calls.Pairwise (·.now ≤ ·.now)) :
    outcomes reserve calls (create perSecond burst) =
        outcomes Ledger.reserve calls (.create perSecond burst) ∧
      (create perSecond burst).grants calls =
        (outcomes Ledger.reserve calls (.create perSecond burst)).map Except.toOption := by
  have houtcomes : outcomes reserve calls (create perSecond burst) =
      outcomes Ledger.reserve calls (.create perSecond burst) :=
    (Matches.create perSecond burst 0).outcomes_eq (fun _ _ ↦ Nat.zero_le _) hclock
  rw [grants_eq_outcomes, houtcomes]
  exact ⟨rfl, rfl⟩

/-- Two callers that share ten slots per second at a burst of two: the first spends its burst, is
refused, and runs into debt for two slots more; after a long time its account holds a burst again. -/
theorem outcomes_debt_and_refill :
    let calls : List Call := [⟨0, "a", .allow⟩, ⟨5, "b", .allow⟩, ⟨10, "a", .allow⟩,
      ⟨20, "a", .allow⟩, ⟨30, "a", .acquire 200000000⟩, ⟨40, "a", .acquire 200000000⟩,
      ⟨50, "a", .acquire 200000000⟩, ⟨9000000000, "a", .allow⟩, ⟨9000000000, "a", .allow⟩,
      ⟨9000000000, "a", .allow⟩]
    calls.Pairwise (·.now ≤ ·.now) ∧
      outcomes Ledger.reserve calls (.create 10 2) =
        [.ok 0, .ok 0, .ok 0, .error ⟨99999980⟩, .ok 99999970, .ok 199999960,
          .error ⟨299999950⟩, .ok 0, .ok 0, .error ⟨100000000⟩] ∧
      outcomes reserve calls (create 10 2) = outcomes Ledger.reserve calls (.create 10 2) ∧
      (create 10 2).grants calls =
        (outcomes Ledger.reserve calls (.create 10 2)).map Except.toOption := by
  intro calls
  have hclock : calls.Pairwise (·.now ≤ ·.now) := by decide
  exact ⟨hclock, by decide, outcomes_create_eq_ledger 10 2 calls hclock⟩

end Limiter

end PlaybookRuns
