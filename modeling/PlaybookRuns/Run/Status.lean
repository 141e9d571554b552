import PlaybookRuns.Time.Instant

/-!
# Statuses

A run is stored as running, succeeded or failed, and never written back as timed out: a stored
`running` is shown as `timeout` from its deadline on. What is stored as running has no shown status
where its deadline lies outside the calendar. Main statements: `derive?` shows a timeout exactly for
what is stored as running and has reached its deadline, and nothing exactly for what is stored as
running without one.
-/

namespace PlaybookRuns

open PlaybookRuns.Time (Instant)

/-- The status that is kept of a run or of one of its hosts. -/
inductive StoredStatus where
  | running
  | success
  | failure
  deriving DecidableEq, Repr

/-- The status that is shown to callers. -/
inductive DisplayedStatus where
  | running
  | success
  | failure
  | timeout
  deriving DecidableEq, Repr

namespace StoredStatus

/-- The name of a status. -/
def name : StoredStatus → String
  | running => "running"
  | success => "success"
  | failure => "failure"

/-- The status with a given name. -/
def ofName? (s : String) : Option StoredStatus :=
  [running, success, failure].find? (·.name = s)

/-- The status shown where no deadline intervenes. -/
def displayed : StoredStatus → DisplayedStatus
  | running => .running
  | success => .success
  | failure => .failure

/-- Every status has a name of its own. -/
@[simp] theorem ofName?_name (s : StoredStatus) : ofName? s.name = some s := by
  cases s <;> decide

end StoredStatus

namespace DisplayedStatus

/-- The name of a status. -/
def name : DisplayedStatus → String
  | running => "running"
  | success => "success"
  | failure => "failure"
  | timeout => "timeout"

/-- The status with a given name. -/
def ofName? (s : String) : Option DisplayedStatus :=
  [running, success, failure, timeout].find? (·.name = s)

/-- Every status has a name of its own. -/
@[simp] theorem ofName?_name (s : DisplayedStatus) : ofName? s.name = some s := by
  cases s <;> decide

/-- A text is read as the status whose name it is. -/
theorem ofName?_eq_some_iff {raw : String} {s : DisplayedStatus} :
    ofName? raw = some s ↔ raw = s.name := by
  constructor
  · intro h
    simpa [eq_comm] using List.find?_some h
  · rintro rfl
    exact ofName?_name s

/-- The instant from which a run created at `created` counts as timed out, if the calendar covers
it. -/
def deadline? (created : Instant) (timeout : Int32) : Option Instant :=
  created.addSeconds? timeout.toInt

/-- The status shown at `now`. Only what is stored as running is asked for its deadline; without
one it has no shown status. -/
def derive? (stored : StoredStatus) (created : Instant) (timeout : Int32) (now : Instant) :
    Option DisplayedStatus :=
  if stored = .running then
    (deadline? created timeout).map fun deadline ↦ if deadline ≤ now then .timeout else .running
  else some stored.displayed

/-- A timeout is shown exactly for what still runs at its deadline. -/
theorem derive?_eq_timeout_iff {stored : StoredStatus} {created now : Instant} {timeout : Int32} :
    derive? stored created timeout now = some .timeout ↔
      stored = .running ∧ ∃ deadline, deadline? created timeout = some deadline ∧
        deadline ≤ now := by
  cases stored <;> simp [derive?, StoredStatus.displayed]

/-- Nothing is shown exactly for what still runs and has no deadline. -/
theorem derive?_eq_none_iff {stored : StoredStatus} {created now : Instant} {timeout : Int32} :
    derive? stored created timeout now = none ↔
      stored = .running ∧ deadline? created timeout = none := by
  cases stored <;> simp [derive?]

end DisplayedStatus

end PlaybookRuns
