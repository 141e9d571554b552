import PlaybookRuns.Config
import PlaybookRuns.Proofs.Admission.Return
import PlaybookRuns.Proofs.Checked

/-!
# Bursts

What calls of one caller at one instant are granted, where it has its whole burst. Main statement:
each of them beyond the burst waits an interval longer than the one before, as long as it puts up
with that. So a burst of calls goes at once and no more, unless the slots of the rate are less than
a nanosecond apart: then there is no end to them.
-/

namespace PlaybookRuns

namespace Limiter

/-- Whether a caller has its whole burst at an instant: no arrival of it is known, or the known one
does not lie ahead. -/
def Refilled (l : Limiter) (key : String) (now : Nat) : Prop :=
  ∀ known, Keyed.find? key l.arrivals = some known → known ≤ now

/-- The waits that the calls of one caller are granted, among calls of any. -/
def grantsTo (key : String) : List Call → Limiter → List (Option Nat)
  | [], _ => []
  | call :: calls, l =>
    let served := l.serve call
    let later := grantsTo key calls served.2
    if call.key = key then served.1 :: later else later

/-- Whether all calls of a caller come at one instant, in one way. -/
def AsksAtOnce (key : String) (now : Nat) (attempt : Attempt) (calls : List Call) : Prop :=
  ∀ call ∈ calls, call.key = key → call = ⟨now, key, attempt⟩

/-- How many of the calls are of a caller. -/
def countOf (key : String) (calls : List Call) : Nat := calls.countP (·.key = key)

/-- The wait for a slot after so many others at one instant: those beyond the burst are an interval
apart. -/
def waitAfter (burst interval claimed : Nat) : Nat := (claimed + 1 - burst) * interval

/-- A wait, unless it is longer than the caller puts up with. -/
def within (maxWait wait : Nat) : Option Nat := if wait ≤ maxWait then some wait else none

/-! ## Calls at one instant -/

variable {l : Limiter} {key : String} {now : Nat} {attempt : Attempt} {calls : List Call}

/-- The next slot of a caller with its whole burst is now. -/
theorem Refilled.arrival_eq (h : l.Refilled key now) : l.arrival key now = now := by
  rw [arrival]
  cases hknown : Keyed.find? key l.arrivals with
  | none => exact Nat.max_self now
  | some known => exact Nat.max_eq_right (h known hknown)

/-- A caller that has not called has its whole burst. -/
theorem refilled_after_of_ne {history : List Call} (h : ∀ call ∈ history, call.key ≠ key)
    (perSecond burst : UInt32) (now : Nat) :
    ((create perSecond burst).after history).Refilled key now := by
  have halike : Alike key 0 ((create perSecond burst).after history) (create perSecond burst) :=
    .after_of_admitted_eq_nil (admitted_eq_nil_of_ne h _) 0
  intro known hknown
  -- an unknown caller is expected at every instant, so at none before it
  have harrival := halike.arrival_eq 0 (Nat.le_refl 0)
  rw [arrival_eq_max hknown] at harrival
  have hfresh : (create perSecond burst).arrival key 0 = 0 := Nat.max_self 0
  omega

/-- A longer row of claims does not shorten the wait. -/
theorem waitAfter_mono {burst interval claimed claimed' : Nat} (h : claimed ≤ claimed') :
    waitAfter burst interval claimed ≤ waitAfter burst interval claimed' :=
  Nat.mul_le_mul_right interval (by omega)

/-- Once a wait is too long, so is that for every later slot. -/
theorem within_eq_none_of_lt {burst interval claimed maxWait : Nat}
    (h : maxWait < waitAfter burst interval claimed) (k : Nat) :
    within maxWait (waitAfter burst interval (claimed + k)) = none := by
  have hle : waitAfter burst interval claimed ≤ waitAfter burst interval (claimed + k) :=
    waitAfter_mono (Nat.le_add_right claimed k)
  exact if_neg (by omega)

/-- A caller whose arrival lies so many intervals ahead waits for those beyond the burst. -/
theorem wait_of_arrival {burst claimed : Nat} (hburst : 1 ≤ burst)
    (htolerance : l.tolerance = l.interval * (burst - 1))
    (harrival : l.arrival key now = now + claimed * l.interval) :
    l.wait key now = waitAfter burst l.interval claimed := by
  have hbeyond : claimed + 1 - burst = claimed - (burst - 1) := by omega
  rw [wait, waitAfter, harrival, htolerance, hbeyond, Nat.sub_mul, Nat.mul_comm l.interval]
  omega

/-- A claim of a caller moves its arrival one interval on. -/
theorem arrival_claimed_of_arrival {claimed : Nat}
    (h : l.arrival key now = now + claimed * l.interval) :
    (l.claimed key now).arrival key now = now + (claimed + 1) * l.interval := by
  rw [arrival_claimed_self, h, Nat.succ_mul]
  omega

private theorem grantsTo_cons_of_eq {call : Call} (h : call.key = key) (l : Limiter)
    (calls : List Call) :
    l.grantsTo key (call :: calls) =
      (l.serve call).1 :: (l.serve call).2.grantsTo key calls := if_pos h

private theorem grantsTo_cons_of_ne {call : Call} (h : call.key ≠ key) (l : Limiter)
    (calls : List Call) :
    l.grantsTo key (call :: calls) = (l.serve call).2.grantsTo key calls := if_neg h

private theorem countOf_cons_of_eq {call : Call} (h : call.key = key) (calls : List Call) :
    countOf key (call :: calls) = countOf key calls + 1 :=
  List.countP_cons_of_pos (decide_eq_true h)

private theorem countOf_cons_of_ne {call : Call} (h : call.key ≠ key) (calls : List Call) :
    countOf key (call :: calls) = countOf key calls :=
  List.countP_cons_of_neg (by simpa using h)

/-- Of calls at one instant each is granted the wait for the slots claimed before it, unless that is
too long. -/
theorem grantsTo_of_arrival {burst claimed : Nat} (hburst : 1 ≤ burst)
    (htolerance : l.tolerance = l.interval * (burst - 1))
    (harrival : l.arrival key now = now + claimed * l.interval)
    (hcalls : AsksAtOnce key now attempt calls) :
    l.grantsTo key calls = (List.range (countOf key calls)).map fun k ↦
      within attempt.maxWait (waitAfter burst l.interval (claimed + k)) := by
  induction calls generalizing l claimed with
  | nil => rfl
  | cons call calls ih =>
    obtain ⟨hcall, hrest⟩ := List.forall_mem_cons.1 hcalls
    by_cases hkey : call.key = key
    · rw [countOf_cons_of_eq hkey, List.range_succ_eq_map, List.map_cons, List.map_map,
        grantsTo_cons_of_eq hkey]
      obtain rfl := hcall hkey
      have hwait := wait_of_arrival hburst htolerance harrival
      by_cases hlate : attempt.maxWait < l.wait key now
      · -- once a call is refused the limiter stays as it is, and refuses all that follow
        have hrefused := within_eq_none_of_lt (hwait ▸ hlate)
        have hserve : l.serve ⟨now, key, attempt⟩ = (none, l) := serve_of_lt hlate
        have hlater := ih htolerance harrival hrest
        rw [hserve]
        simp only [hrefused, Function.comp_def] at hlater ⊢
        rw [hlater]
      · rw [Nat.not_lt] at hlate
        have hserve : l.serve ⟨now, key, attempt⟩ = (some (l.wait key now), l.claimed key now) :=
          serve_of_le hlate
        have hlater := ih (l := l.claimed key now) htolerance (arrival_claimed_of_arrival harrival)
          hrest
        have hgranted : within attempt.maxWait (waitAfter burst l.interval (claimed + 0)) =
            some (l.wait key now) := by
          rw [Nat.add_zero, ← hwait, within, if_pos hlate]
        have hnext (k : Nat) : claimed + 1 + k = claimed + k.succ := by omega
        rw [hserve, hgranted]
        simp only [hlater, claimed_interval, Function.comp_def, hnext]
    · -- the caller cannot tell a call of another
      have halike := Alike.serve_of_ne hkey l now
      have hpace := halike.interval_eq
      have htolerance' : (l.serve call).2.tolerance = (l.serve call).2.interval * (burst - 1) := by
        rw [halike.tolerance_eq, htolerance, hpace]
      have harrival' : (l.serve call).2.arrival key now =
          now + claimed * (l.serve call).2.interval := by
        rw [halike.arrival_eq now (Nat.le_refl now), harrival, hpace]
      rw [countOf_cons_of_ne hkey, grantsTo_cons_of_ne hkey, ih htolerance' harrival' hrest, hpace]

end Limiter

/-- Settings are accepted exactly if there are an address of the database and connections to it, a
rate and a burst, a timeout that is not negative and a web address of the connector. -/
theorem Config.validate_eq_ok_iff {config : Config} :
    config.validate = .ok () ↔
      config.databaseUrl ≠ "" ∧ config.dbMaxConnections ≠ 0 ∧ config.ratePerSecond ≠ 0 ∧
        config.rateBurst ≠ 0 ∧ ¬config.defaultRunTimeout < 0 ∧
        hasWebScheme config.connectorUrl := by
  unfold validate
  simp only [Checked.throw_bind, Checked.ite_throw_eq_ok_iff, Checked.pure_eq_ok_iff, not_not,
    and_true, ne_eq]

namespace Limiter

private theorem within_zero_of_pos {burst interval : Nat} (h : 0 < interval) (k : Nat) :
    within 0 (waitAfter burst interval k) = if k < burst then some 0 else none := by
  by_cases hk : k < burst
  · have hnone : k + 1 - burst = 0 := by omega
    rw [if_pos hk, waitAfter, hnone, Nat.zero_mul]
    rfl
  · have hwait : 0 < waitAfter burst interval k := Nat.mul_pos (by omega) h
    rw [if_neg hk, within, if_neg (by omega)]

private theorem within_waitAfter_zero (burst k : Nat) :
    within 0 (waitAfter burst 0 k) = some 0 := rfl

section Accepted

variable {config : Config} (hvalid : config.validate = .ok ())
include hvalid

private theorem rate_pos : 0 < config.ratePerSecond.toNat := by
  obtain ⟨-, -, hrate, -⟩ := Config.validate_eq_ok_iff.1 hvalid
  exact Nat.pos_of_ne_zero fun h ↦ hrate (UInt32.toNat_inj.1 h)

private theorem burst_pos : 1 ≤ config.rateBurst.toNat := by
  obtain ⟨-, -, -, hburst, -⟩ := Config.validate_eq_ok_iff.1 hvalid
  exact Nat.pos_of_ne_zero fun h ↦ hburst (UInt32.toNat_inj.1 h)

-- The slots of a limiter are as far apart as its rate says, to the nanosecond, and all of a burst
-- but the first are tolerated ahead of time.
private theorem pace_after_limiter (history : List Call) :
    (config.limiter.after history).interval = 1000000000 / config.ratePerSecond.toNat ∧
      (config.limiter.after history).tolerance =
        (config.limiter.after history).interval * (config.rateBurst.toNat - 1) := by
  obtain ⟨hinterval, htolerance⟩ := pace_after history config.limiter
  have hcreated : config.limiter.interval = 1000000000 / config.ratePerSecond.toNat :=
    congrArg (1000000000 / ·) (Nat.max_eq_left (rate_pos hvalid))
  have htolerated : config.limiter.tolerance =
      config.limiter.interval * (config.rateBurst.toNat - 1) :=
    congrArg (fun b ↦ config.limiter.interval * (b - 1)) (Nat.max_eq_left (burst_pos hvalid))
  exact ⟨hinterval.trans hcreated, htolerance.trans (hinterval ▸ htolerated)⟩

variable {history : List Call} {key : String} {now : Nat}
  (hrested : (∀ call ∈ history, call.key ≠ key) ∨
    (config.limiter.after history).Refilled key now)
include hrested

private theorem grantsTo_after {attempt : Attempt} {calls : List Call}
    (hcalls : AsksAtOnce key now attempt calls) :
    (config.limiter.after history).grantsTo key calls =
      (List.range (countOf key calls)).map fun k ↦ within attempt.maxWait
        (waitAfter config.rateBurst.toNat (1000000000 / config.ratePerSecond.toNat) k) := by
  obtain ⟨hinterval, htolerance⟩ := pace_after_limiter hvalid history
  have hrefilled : (config.limiter.after history).Refilled key now := hrested.elim
    (fun h ↦ refilled_after_of_ne h config.ratePerSecond config.rateBurst now) id
  have harrival : (config.limiter.after history).arrival key now =
      now + 0 * (config.limiter.after history).interval := by
    rw [hrefilled.arrival_eq, Nat.zero_mul, Nat.add_zero]
  have hall := grantsTo_of_arrival (burst_pos hvalid) htolerance harrival hcalls
  simpa only [Nat.zero_add, hinterval] using hall

private theorem grantsTo_after_of_lt (hfast : 1000000000 < config.ratePerSecond.toNat)
    {calls : List Call} (hcalls : AsksAtOnce key now .allow calls) :
    (config.limiter.after history).grantsTo key calls =
      List.replicate (countOf key calls) (some 0) := by
  have hzero : 1000000000 / config.ratePerSecond.toNat = 0 := Nat.div_eq_of_lt hfast
  rw [grantsTo_after hvalid hrested hcalls, hzero, Attempt.maxWait]
  simp only [within_waitAfter_zero, List.map_const', List.length_range]

end Accepted

/-- A caller that has not called yet, or has its whole burst again, is granted in its calls at one
instant a wait for each slot beyond the burst, as long as it puts up with it, and is refused after
that. If it does not wait, a burst of calls goes and no more exactly where the rate is a slot per
nanosecond at most; at a higher rate every call goes. -/
theorem exactly_burst_iff {config : Config} (hvalid : config.validate = .ok ())
    {history : List Call} {key : String} {now : Nat}
    (hrested : (∀ call ∈ history, call.key ≠ key) ∨
      (config.limiter.after history).Refilled key now) :
    let l := config.limiter.after history
    let burst := config.rateBurst.toNat
    let interval := 1000000000 / config.ratePerSecond.toNat
    (∀ maxWait calls, AsksAtOnce key now (.acquire maxWait) calls →
      l.grantsTo key calls = (List.range (countOf key calls)).map fun k ↦
        within maxWait (waitAfter burst interval k)) ∧
    ((∀ calls, AsksAtOnce key now .allow calls →
        l.grantsTo key calls = (List.range (countOf key calls)).map fun k ↦
          if k < burst then some 0 else none) ↔
      config.ratePerSecond.toNat ≤ 1000000000) ∧
    (1000000000 < config.ratePerSecond.toNat → ∀ calls, AsksAtOnce key now .allow calls →
      l.grantsTo key calls = List.replicate (countOf key calls) (some 0)) := by
  intro l burst interval
  refine ⟨fun maxWait calls hcalls ↦ grantsTo_after hvalid hrested hcalls,
    ⟨fun hexact ↦ ?_, fun hslow calls hcalls ↦ ?_⟩,
    fun hfast calls hcalls ↦ grantsTo_after_of_lt hvalid hrested hfast hcalls⟩
  · by_contra hfast
    rw [Nat.not_le] at hfast
    -- one call more than the burst tells the two apart
    let calls : List Call := List.replicate (burst + 1) ⟨now, key, .allow⟩
    have hcalls : AsksAtOnce key now .allow calls :=
      fun call hcall _ ↦ List.eq_of_mem_replicate hcall
    have hcount : countOf key calls = burst + 1 := by
      rw [countOf, List.countP_replicate, if_pos (decide_eq_true rfl)]
    have hboth := (hexact calls hcalls).symm.trans
      (grantsTo_after_of_lt hvalid hrested hfast hcalls)
    have hlast := congrArg (·[burst]?) hboth
    simp [hcount] at hlast
  · have hpos : 0 < interval := Nat.div_pos hslow (rate_pos hvalid)
    rw [grantsTo_after hvalid hrested hcalls]
    exact List.map_congr_left fun k _ ↦ within_zero_of_pos hpos k

private def tenPerSecond : Config := { Config.initial with ratePerSecond := 10, rateBurst := 2 }

private def twoPerNano : Config :=
  { Config.initial with ratePerSecond := 2000000000, rateBurst := 1 }

/-- After two calls at once and 0.2 s a caller has its whole burst again: of four calls, among which
another caller comes, two go, and those that wait up to 0.1 s get one slot more. -/
theorem exactly_burst_of_refilled :
    let history : List Call := [⟨0, "a", .allow⟩, ⟨0, "a", .allow⟩]
    let attempts (attempt : Attempt) : List Call :=
      [⟨200000000, "a", attempt⟩, ⟨200000000, "b", .allow⟩, ⟨200000000, "a", attempt⟩,
        ⟨200000000, "a", attempt⟩, ⟨200000000, "a", attempt⟩]
    (tenPerSecond.limiter.after history).grantsTo "a" (attempts .allow) =
        [some 0, some 0, none, none] ∧
      (tenPerSecond.limiter.after history).grantsTo "a" (attempts (.acquire 100000000)) =
        [some 0, some 0, some 100000000, none] := by
  intro history attempts
  have hvalid : tenPerSecond.validate = .ok () := by decide +kernel
  have hrefilled : (tenPerSecond.limiter.after history).Refilled "a" 200000000 := by
    have hknown : Keyed.find? "a" (tenPerSecond.limiter.after history).arrivals =
        some 200000000 := by decide +kernel
    intro known h
    exact (Option.some.inj (hknown.symm.trans h)).ge
  obtain ⟨hwaiting, hallowed, -⟩ := exactly_burst_iff hvalid (.inr hrefilled)
  have hatOnce (attempt : Attempt) : AsksAtOnce "a" 200000000 attempt (attempts attempt) := by
    simp [AsksAtOnce, attempts]
  exact ⟨hallowed.2 (by decide) _ (hatOnce .allow), hwaiting _ _ (hatOnce (.acquire 100000000))⟩

/-- At two slots per nanosecond a caller with a burst of one goes twice at once. -/
theorem beyond_burst_of_twoPerNano :
    twoPerNano.validate = .ok () ∧ twoPerNano.limiter.Refilled "a" 0 ∧
      AsksAtOnce "a" 0 .allow [⟨0, "a", .allow⟩, ⟨0, "a", .allow⟩] ∧
      twoPerNano.limiter.grantsTo "a" [⟨0, "a", .allow⟩, ⟨0, "a", .allow⟩] = [some 0, some 0] := by
  refine ⟨by decide +kernel, nofun, ?_, by decide +kernel⟩
  simp [AsksAtOnce]

end Limiter

end PlaybookRuns
