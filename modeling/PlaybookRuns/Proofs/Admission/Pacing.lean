import Mathlib.Tactic.Ring
import PlaybookRuns.Admission.Limiter

/-!
# Pacing of callers

The slots that a limiter grants to one caller over a history of calls by any callers. Main
statement: they are granted in order, and in any stretch of them all but a burst are one interval
apart.
-/

namespace PlaybookRuns.Limiter

/-- A way of asking for a slot. -/
inductive Attempt where
  /-- A slot that is open now. -/
  | allow
  /-- A slot that opens in so many nanoseconds at most. -/
  | acquire (maxWait : Nat)
  deriving DecidableEq, Repr

/-- A caller that asks for a slot at an instant. -/
structure Call where
  now : Nat
  key : String
  attempt : Attempt
  deriving DecidableEq, Repr

/-- The wait that a call is granted, if it is admitted. -/
def serve (l : Limiter) (call : Call) : Option Nat × Limiter :=
  match call.attempt with
  | .allow =>
    match l.allow call.key call.now with
    | (true, l) => (some 0, l)
    | (false, l) => (none, l)
  | .acquire maxWait =>
    match l.reserve call.key call.now maxWait with
    | (.ok wait, l) => (some wait, l)
    | (.error _, l) => (none, l)

/-- The slots that a caller is granted over a history of calls: the instants at which it may go on,
in the order in which they are claimed. -/
def slots (key : String) : List Call → Limiter → List Nat
  | [], _ => []
  | call :: calls, l =>
    let (granted, l) := l.serve call
    let later := slots key calls l
    match granted with
    | some wait => if call.key = key then (call.now + wait) :: later else later
    | none => later

/-- Whether slots are in order, and in any stretch of them all but `burst` are an interval apart. -/
def Paced (burst interval : Nat) (slots : List Nat) : Prop :=
  slots.Pairwise (· ≤ ·) ∧ ∀ i j first last : Nat, i ≤ j → slots[i]? = some first →
    slots[j]? = some last →
      ((j : Int) - i + 1 - burst) * interval ≤ (last : Int) - first

/-! ## One call -/

/-- The slot that a caller would be granted next. -/
def nextSlot (l : Limiter) (key : String) (now : Nat) : Nat := now + l.wait key now

/-- The limiter after a caller has claimed its next slot. -/
def claimed (l : Limiter) (key : String) (now : Nat) : Limiter :=
  { l with arrivals := Keyed.insert key (l.arrival key now + l.interval) l.arrivals }

/-- A claimed slot leaves the interval as it is. -/
@[simp] theorem claimed_interval (l : Limiter) (key : String) (now : Nat) :
    (l.claimed key now).interval = l.interval := rfl

/-- A claimed slot leaves the tolerance as it is. -/
@[simp] theorem claimed_tolerance (l : Limiter) (key : String) (now : Nat) :
    (l.claimed key now).tolerance = l.tolerance := rfl

/-- A call is granted the next slot of its caller, or changes nothing. -/
theorem serve_cases (l : Limiter) (call : Call) :
    (∃ wait, l.serve call = (some wait, l.claimed call.key call.now) ∧
        call.now + wait = l.nextSlot call.key call.now) ∨
      l.serve call = (none, l) := by
  unfold serve
  cases call.attempt with
  | allow =>
    simp only [allow, reserve]
    by_cases hwait : 0 < l.wait call.key call.now
    · rw [if_pos hwait]
      exact .inr rfl
    · rw [if_neg hwait]
      refine .inl ⟨0, rfl, ?_⟩
      rw [nextSlot]
      omega
  | acquire maxWait =>
    simp only [reserve]
    by_cases hwait : maxWait < l.wait call.key call.now
    · rw [if_pos hwait]
      exact .inr rfl
    · rw [if_neg hwait]
      exact .inl ⟨_, rfl, rfl⟩

/-- The next slot lies a tolerance before the arrival, but not in the past. -/
theorem nextSlot_eq_max (l : Limiter) (key : String) (now : Nat) :
    l.nextSlot key now = max now (l.arrival key now - l.tolerance) := by
  have harrival : now ≤ l.arrival key now := Nat.le_max_right _ _
  simp only [nextSlot, wait]
  omega

/-- A known arrival counts unless it is in the past. -/
theorem arrival_eq_max {l : Limiter} {key : String} {known : Nat}
    (h : Keyed.find? key l.arrivals = some known) (now : Nat) :
    l.arrival key now = max known now := by
  rw [arrival, h, Option.getD_some]

/-! ## Slots granted so far -/

private theorem getElem?_append_cases {slots : List Nat} {next i slot : Nat}
    (h : (slots ++ [next])[i]? = some slot) :
    slots[i]? = some slot ∨ i = slots.length ∧ slot = next := by
  by_cases hi : i < slots.length
  · rw [List.getElem?_append_left hi] at h
    exact .inl h
  · have hlt := (List.getElem?_eq_some_iff.1 h).1
    rw [List.length_append, List.length_singleton] at hlt
    have hlast : i = slots.length := by omega
    subst hlast
    rw [List.getElem?_concat_length, Option.some.injEq] at h
    exact .inr ⟨rfl, h.symm⟩

/-- One more slot keeps slots paced if it is no earlier than any of them, and an interval later
than each for every slot from there on that is not within the burst. -/
theorem Paced.append {burst interval next : Nat} {slots : List Nat} (h : Paced burst interval slots)
    (hburst : 1 ≤ burst) (hle : ∀ slot ∈ slots, slot ≤ next)
    (happart : ∀ i n slot : Nat, i + n = slots.length → slots[i]? = some slot →
      ((n : Int) + 1 - burst) * interval ≤ (next : Int) - slot) :
    Paced burst interval (slots ++ [next]) := by
  refine ⟨?_, ?_⟩
  · refine List.pairwise_append.2 ⟨h.1, List.pairwise_singleton _ _, ?_⟩
    intro slot hslot last hlast
    rw [List.mem_singleton.1 hlast]
    exact hle slot hslot
  · intro i j first last hij hfirst hlast
    rcases getElem?_append_cases hlast with hlast | ⟨rfl, rfl⟩
    · have hj : j < slots.length := (List.getElem?_eq_some_iff.1 hlast).1
      rw [List.getElem?_append_left (by omega)] at hfirst
      exact h.2 i j first last hij hfirst hlast
    · rcases getElem?_append_cases hfirst with hfirst | ⟨rfl, rfl⟩
      · have hlater := happart i (slots.length - i) first (by omega) hfirst
        rwa [Int.natCast_sub hij] at hlater
      · -- a stretch of one slot is within the burst
        have hnonpos : ((slots.length : Int) - slots.length + 1 - burst) * interval ≤ 0 :=
          Int.mul_nonpos_of_nonpos_of_nonneg (by omega) (by omega)
        omega

/-- What a limiter knows at an instant of the slots that a caller has been granted: its arrival is
as many intervals after each slot as slots were claimed from there on, and the next slot will not be
before any of them. -/
structure Tracks (l : Limiter) (key : String) (now : Nat) (granted : List Nat) : Prop where
  fresh : Keyed.find? key l.arrivals = none → granted = []
  ahead : ∀ known, Keyed.find? key l.arrivals = some known → ∀ i n slot,
    i + n = granted.length → granted[i]? = some slot → slot + n * l.interval ≤ known
  inOrder : ∀ known, Keyed.find? key l.arrivals = some known → ∀ slot ∈ granted,
    slot ≤ max now (known - l.tolerance)

namespace Tracks

variable {l : Limiter} {key : String} {now later : Nat} {granted : List Nat}

/-- A limiter that nobody has called knows of no slots. -/
theorem create (perSecond burst : UInt32) (key : String) (now : Nat) :
    Tracks (create perSecond burst) key now [] where
  fresh _ := rfl
  ahead _ hknown := nomatch hknown
  inOrder _ hknown := nomatch hknown

/-- What a limiter knows stays true as time passes. -/
theorem mono (h : Tracks l key now granted) (hlater : now ≤ later) :
    Tracks l key later granted where
  fresh := h.fresh
  ahead := h.ahead
  inOrder known hknown slot hslot := by
    have := h.inOrder known hknown slot hslot
    omega

/-- The arrival is as many intervals after each slot as slots were claimed from there on. -/
theorem le_arrival (h : Tracks l key now granted) {i n slot : Nat} (hn : i + n = granted.length)
    (hslot : granted[i]? = some slot) : slot + n * l.interval ≤ l.arrival key now := by
  cases hknown : Keyed.find? key l.arrivals with
  | none =>
    rw [h.fresh hknown] at hslot
    exact nomatch hslot
  | some known =>
    have := h.ahead known hknown i n slot hn hslot
    rw [arrival_eq_max hknown]
    omega

/-- The next slot is not before any slot granted. -/
theorem le_nextSlot (h : Tracks l key now granted) {slot : Nat} (hslot : slot ∈ granted) :
    slot ≤ l.nextSlot key now := by
  cases hknown : Keyed.find? key l.arrivals with
  | none =>
    rw [h.fresh hknown] at hslot
    exact nomatch hslot
  | some known =>
    have := h.inOrder known hknown slot hslot
    rw [nextSlot_eq_max, arrival_eq_max hknown]
    omega

private theorem le_arrival_append (h : Tracks l key now granted) {i n slot : Nat}
    (hn : i + n = (granted ++ [l.nextSlot key now]).length)
    (hslot : (granted ++ [l.nextSlot key now])[i]? = some slot) :
    slot + n * l.interval ≤ l.arrival key now + l.interval := by
  rw [List.length_append, List.length_singleton] at hn
  rcases getElem?_append_cases hslot with hslot | ⟨rfl, rfl⟩
  · have hi : i < granted.length := (List.getElem?_eq_some_iff.1 hslot).1
    obtain ⟨m, rfl⟩ : ∃ m, n = m + 1 := ⟨n - 1, by omega⟩
    have hbefore : slot + m * l.interval ≤ l.arrival key now := h.le_arrival (by omega) hslot
    rw [Nat.succ_mul]
    omega
  · obtain rfl : n = 1 := by omega
    have harrival : now ≤ l.arrival key now := Nat.le_max_right _ _
    rw [nextSlot_eq_max, Nat.one_mul]
    omega

/-- A limiter knows of the slot it has just granted. -/
theorem claimed (h : Tracks l key now granted) :
    Tracks (l.claimed key now) key now (granted ++ [l.nextSlot key now]) := by
  have hfind : Keyed.find? key (l.claimed key now).arrivals =
      some (l.arrival key now + l.interval) := by
    rw [Limiter.claimed, Keyed.find?_insert, if_pos rfl]
  refine ⟨?_, ?_, ?_⟩
  · intro hfresh
    rw [hfind] at hfresh
    exact nomatch hfresh
  · intro known hknown i n slot hn hslot
    rw [hfind, Option.some.injEq] at hknown
    subst hknown
    rw [claimed_interval]
    exact h.le_arrival_append hn hslot
  · intro known hknown slot hslot
    rw [hfind, Option.some.injEq] at hknown
    subst hknown
    rw [claimed_tolerance]
    have hle : slot ≤ l.nextSlot key now := by
      rcases List.mem_append.1 hslot with hslot | hslot
      · exact h.le_nextSlot hslot
      · exact (List.mem_singleton.1 hslot).le
    rw [nextSlot_eq_max] at hle
    omega

/-- A slot of another caller is no slot of this one. -/
theorem claimed_of_ne (h : Tracks l key now granted) {key' : String} (hkey : key' ≠ key) :
    Tracks (l.claimed key' now) key now granted := by
  have hfind : Keyed.find? key (l.claimed key' now).arrivals = Keyed.find? key l.arrivals := by
    rw [Limiter.claimed, Keyed.find?_insert, if_neg hkey.symm]
  exact ⟨hfind ▸ h.fresh, hfind ▸ h.ahead, hfind ▸ h.inOrder⟩

/-- The next slot keeps the slots granted paced. -/
theorem paced_append (h : Tracks l key now granted) {burst : Nat} (hburst : 1 ≤ burst)
    (htolerance : l.tolerance = l.interval * (burst - 1)) (hpaced : Paced burst l.interval granted) :
    Paced burst l.interval (granted ++ [l.nextSlot key now]) := by
  refine hpaced.append hburst (fun slot hslot ↦ h.le_nextSlot hslot) ?_
  intro i n slot hn hslot
  have harrival : slot + n * l.interval ≤ l.arrival key now := h.le_arrival hn hslot
  have hnext : l.arrival key now ≤ l.nextSlot key now + l.tolerance := by
    rw [nextSlot_eq_max]
    omega
  obtain ⟨b, rfl⟩ := Nat.exists_eq_add_of_le' hburst
  calc ((n : Int) + 1 - (b + 1 : Nat)) * l.interval
      = (n * l.interval : Nat) - (l.interval * (b + 1 - 1) : Nat) := by
        rw [Nat.add_sub_cancel]
        push_cast
        ring
    _ = (n * l.interval : Nat) - (l.tolerance : Int) := by rw [htolerance]
    _ ≤ (l.nextSlot key now : Int) - slot := by omega

end Tracks

/-! ## Histories -/

/-- Slots stay paced over a history of calls. -/
theorem Paced.append_slots {burst : Nat} (hburst : 1 ≤ burst) (key : String) (calls : List Call) :
    ∀ {l : Limiter} {now : Nat} {granted : List Nat}, l.tolerance = l.interval * (burst - 1) →
      Tracks l key now granted → (∀ call ∈ calls, now ≤ call.now) →
      calls.Pairwise (·.now ≤ ·.now) → Paced burst l.interval granted →
      Paced burst l.interval (granted ++ l.slots key calls) := by
  induction calls with
  | nil =>
    intro l now granted _ _ _ _ hpaced
    rwa [slots, List.append_nil]
  | cons call calls ih =>
    intro l now granted htolerance htracks hnow hclock hpaced
    have htracks : Tracks l key call.now granted := htracks.mono (hnow call List.mem_cons_self)
    rw [List.pairwise_cons] at hclock
    -- the limiter goes on tracking the slots of the caller, whoever calls
    rcases serve_cases l call with ⟨wait, hserve, hslot⟩ | hserve
    · by_cases hkey : call.key = key
      · subst hkey
        have := ih (l := l.claimed call.key call.now) htolerance htracks.claimed hclock.1 hclock.2
          (htracks.paced_append hburst htolerance hpaced)
        rw [List.append_assoc, List.singleton_append] at this
        simpa only [slots, hserve, hslot, if_pos, claimed_interval] using this
      · have := ih (l := l.claimed call.key call.now) htolerance (htracks.claimed_of_ne hkey)
          hclock.1 hclock.2 hpaced
        simpa only [slots, hserve, if_neg hkey, claimed_interval] using this
    · simpa only [slots, hserve] using ih htolerance htracks hclock.1 hclock.2 hpaced

/-- Whatever callers do while the clock does not run back, the slots of each are claimed in order,
and any `n` of them in a row spread over at least `n - burst` intervals. -/
theorem paced_slots_create (perSecond burst : UInt32) (key : String) (calls : List Call)
    (hclock : calls.Pairwise (·.now ≤ ·.now)) :
    Paced (max burst.toNat 1) (1000000000 / max perSecond.toNat 1)
      ((create perSecond burst).slots key calls) := by
  have hburst : 1 ≤ max burst.toNat 1 := Nat.le_max_right _ _
  have hempty : Paced (max burst.toNat 1) (create perSecond burst).interval [] :=
    ⟨.nil, fun _ _ _ _ _ hfirst ↦ nomatch hfirst⟩
  exact Paced.append_slots hburst key calls rfl (Tracks.create perSecond burst key 0)
    (fun _ _ ↦ Nat.zero_le _) hclock hempty

/-- Two callers that share a limiter of ten slots per second and a burst of two: the first is let go
twice, is refused once and then waits for its third slot, which is an interval after the first. -/
theorem paced_slots_two_callers :
    let calls : List Call := [⟨0, "a", .allow⟩, ⟨5, "b", .allow⟩, ⟨10, "a", .allow⟩,
      ⟨20, "a", .allow⟩, ⟨30, "a", .acquire 200000000⟩]
    calls.Pairwise (·.now ≤ ·.now) ∧
      (create 10 2).slots "a" calls = [0, 10, 100000000] ∧
      Paced 2 100000000 ((create 10 2).slots "a" calls) := by
  intro calls
  have hclock : calls.Pairwise (·.now ≤ ·.now) := by decide
  exact ⟨hclock, by decide, paced_slots_create 10 2 "a" calls hclock⟩

end PlaybookRuns.Limiter
