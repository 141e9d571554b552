import PlaybookRuns.Keyed
import PlaybookRuns.Run.Status
import PlaybookRuns.Uuid

/-!
# Runs and their hosts

A run is one dispatch of a playbook to a recipient; its hosts are the systems it targets. A host
is listed together with the run it belongs to, since its shown status depends on that run's
creation and timeout.
-/

namespace PlaybookRuns

open PlaybookRuns.Time (Instant)

/-- Labels of a run: texts under distinct keys, in ascending key order. -/
structure Labels where
  entries : List (String × String)
  sorted : Keyed.Sorted entries
  deriving DecidableEq

namespace Labels

/-- No labels. -/
def empty : Labels := ⟨[], List.Pairwise.nil⟩

/-- The empty labels are written `∅`. -/
instance : EmptyCollection Labels := ⟨empty⟩

/-- Labels are empty by default. -/
instance : Inhabited Labels := ⟨empty⟩

/-- The labels with the given entries; of two with one key the later stands. -/
def ofList (entries : List (String × String)) : Labels :=
  ⟨Keyed.ofList entries, Keyed.sorted_ofList entries⟩

/-- The text under a key. -/
def get? (labels : Labels) (key : String) : Option String := Keyed.find? key labels.entries

end Labels

/-- One dispatch of a playbook to a recipient. -/
structure Run where
  id : Uuid
  orgId : String
  recipient : Uuid
  correlationId : Uuid
  /-- Where the recipient fetches the playbook. -/
  url : String
  /-- Seconds after its creation from which a run that is still running counts as timed out. -/
  timeout : Int32
  status : StoredStatus
  labels : Labels
  /-- The service that asked for the run. -/
  service : String
  createdAt : Instant
  updatedAt : Instant
  satelliteId : Option Uuid
  satelliteOrgId : Option String
  name : Option String
  webConsoleUrl : Option String
  deriving DecidableEq

/-- The outcome of a run on one system. -/
structure Host where
  id : Uuid
  runId : Uuid
  host : String
  inventoryId : Option Uuid
  status : StoredStatus
  /-- What the playbook printed. -/
  stdout : Option String
  createdAt : Instant
  updatedAt : Instant
  deriving DecidableEq

/-- A host together with its run. -/
structure HostRecord where
  host : Host
  run : Run
  deriving DecidableEq

/-- The status of a run shown at `now`, if it has one. -/
def Run.displayedStatus? (run : Run) (now : Instant) : Option DisplayedStatus :=
  DisplayedStatus.derive? run.status run.createdAt run.timeout now

/-- The status of a host shown at `now`, if it has one: its own status, with the deadline of its
run. -/
def HostRecord.displayedStatus? (record : HostRecord) (now : Instant) : Option DisplayedStatus :=
  DisplayedStatus.derive? record.host.status record.run.createdAt record.run.timeout now

end PlaybookRuns
