import PlaybookRuns.Time.Instant

/-!
# Comparing instants

Instants are ordered. Of those that are rounded down to the microsecond, one of whole microseconds
compares with a rounded one as with the exact one.
-/

namespace PlaybookRuns.Time.Instant

/-- Whether an instant is one of whole microseconds, outside inserted seconds. -/
def WholeMicros (t : Instant) : Prop := t.nanos < nanosPerSecond ∧ t.nanos % 1000 = 0

/-- Whole microseconds are told by the nanoseconds. -/
instance (t : Instant) : Decidable t.WholeMicros := inferInstanceAs (Decidable (_ ∧ _))

/-- An instant of whole microseconds is its own rounding. -/
theorem floorMicros_of_wholeMicros {t : Instant} (h : t.WholeMicros) : t.floorMicros = t := by
  have hnanos : t.nanos / 1000 * 1000 = t.nanos := by
    have := h.2
    omega
  rw [floorMicros, hnanos]

/-- An instant of whole microseconds is no later than another exactly where it is no later than
that one rounded. -/
theorem le_floorMicros_iff {t now : Instant} (h : t.WholeMicros) : t ≤ now.floorMicros ↔ t ≤ now := by
  have hmicros := h.2
  change (t.seconds < now.seconds ∨ t.seconds = now.seconds ∧ t.nanos ≤ now.nanos / 1000 * 1000) ↔
    (t.seconds < now.seconds ∨ t.seconds = now.seconds ∧ t.nanos ≤ now.nanos)
  omega

/-- The order of instants is transitive. -/
theorem le_trans {a b c : Instant} (hab : a ≤ b) (hbc : b ≤ c) : a ≤ c := by
  change a.seconds < c.seconds ∨ a.seconds = c.seconds ∧ a.nanos ≤ c.nanos
  change a.seconds < b.seconds ∨ a.seconds = b.seconds ∧ a.nanos ≤ b.nanos at hab
  change b.seconds < c.seconds ∨ b.seconds = c.seconds ∧ b.nanos ≤ c.nanos at hbc
  omega

/-- Of two instants, the second is earlier exactly where the first is not at most it. -/
theorem lt_iff_not_le {t now : Instant} : now < t ↔ ¬t ≤ now := by
  change (now.seconds < t.seconds ∨ now.seconds = t.seconds ∧ now.nanos < t.nanos) ↔
    ¬(t.seconds < now.seconds ∨ t.seconds = now.seconds ∧ t.nanos ≤ now.nanos)
  omega

/-- The instant a number of seconds later, from outside inserted seconds. -/
theorem eq_of_addSeconds? {t deadline : Instant} (h : t.nanos < nanosPerSecond) {n : Int}
    (hdeadline : t.addSeconds? n = some deadline) :
    deadline = { t with seconds := t.seconds + n } := by
  have hguard := Option.guard_eq_some_iff.1 hdeadline
  rw [← hguard.1, addSeconds, if_pos (.inl h)]

end PlaybookRuns.Time.Instant
