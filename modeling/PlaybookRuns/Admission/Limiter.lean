import PlaybookRuns.Keyed

/-!
# Admission

How often each caller may have runs dispatched. Of every caller the limiter keeps one instant, its
next arrival: where the slots already claimed would put the next caller if slots were handed out
one interval apart. A caller whose arrival lies within the tolerance of now goes at once, one
further ahead waits for the rest of the way, and each claim moves the arrival one interval on.
Instants and durations are nanoseconds of a clock that never runs back.
-/

namespace PlaybookRuns

/-- Nanoseconds in a millisecond. -/
def nanosPerMilli : Nat := 1000000

/-- A caller is turned away: its slot opens later than it would wait. -/
structure Throttled where
  /-- How long the caller would have had to wait, in nanoseconds. -/
  retryAfter : Nat
  deriving DecidableEq, Repr

/-- The wording for a caller that is turned away; the time is in whole milliseconds. -/
def Throttled.message (t : Throttled) : String :=
  "rate limit exceeded, retry after " ++ toString (t.retryAfter / nanosPerMilli) ++ "ms"

/-- A limiter: its rate, and the next arrival of every caller met so far. -/
structure Limiter where
  /-- The time in which one slot opens. -/
  interval : Nat
  /-- How far ahead of now an arrival may lie for a caller to go at once. -/
  tolerance : Nat
  arrivals : List (String × Nat)
  deriving DecidableEq, Repr

namespace Limiter

/-- A limiter that lets each caller go `burst` times at once and `perSecond` times per second
after that; zero counts as one. -/
def create (perSecond burst : UInt32) : Limiter :=
  let interval := 1000000000 / max perSecond.toNat 1
  ⟨interval, interval * (max burst.toNat 1 - 1), []⟩

/-- The next arrival of a caller at an instant; it is never in the past. -/
def arrival (l : Limiter) (key : String) (now : Nat) : Nat :=
  max ((Keyed.find? key l.arrivals).getD now) now

/-- How long a caller has to wait for its next slot. -/
def wait (l : Limiter) (key : String) (now : Nat) : Nat := l.arrival key now - now - l.tolerance

/-- Claims the next slot of a caller if it opens within `maxWait`, and tells how long to wait for
it. A claimed slot is never given back. -/
def reserve (l : Limiter) (key : String) (now maxWait : Nat) : Except Throttled Nat × Limiter :=
  let wait := l.wait key now
  if maxWait < wait then (.error ⟨wait⟩, l)
  else
    let arrivals := Keyed.insert key (l.arrival key now + l.interval) l.arrivals
    (.ok wait, { l with arrivals })

/-- Claims a slot that is open now. -/
def allow (l : Limiter) (key : String) (now : Nat) : Bool × Limiter :=
  match l.reserve key now 0 with
  | (.ok _, l) => (true, l)
  | (.error _, l) => (false, l)

/-- Claims a slot for each caller of a list, in order and at one instant. -/
def reserveAll (l : Limiter) (now maxWait : Nat) :
    List String → List (Except Throttled Nat) × Limiter
  | [] => ([], l)
  | key :: keys =>
    let (outcome, l) := l.reserve key now maxWait
    let (outcomes, l) := reserveAll l now maxWait keys
    (outcome :: outcomes, l)

end Limiter

/-- When a caller that starts to wait at `now` goes on: the clock wakes callers at whole
milliseconds, and one that need not wait goes on at once. -/
def wakeAt (now wait : Nat) : Nat :=
  if wait = 0 then now else (now + wait + (nanosPerMilli - 1)) / nanosPerMilli * nanosPerMilli

end PlaybookRuns
