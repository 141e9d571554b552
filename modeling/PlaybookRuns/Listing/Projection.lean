import PlaybookRuns.Listing.Page
import PlaybookRuns.Query.Request

/-!
# Listable resources

What the listings of runs and of hosts have in common: what a filter sees of a row, and what is
shown of it under each of its fields. Statuses are those shown at the instant of the request; only
they can be missing.
-/

namespace PlaybookRuns

open PlaybookRuns.Query PlaybookRuns.Time

/-- A type of rows that can be listed, with their fields and sort keys. -/
class Listable (ρ : Type) (φ κ : outParam Type) [FieldSet φ] [SortKeys κ ρ] where
  resource : Resource
  /-- The run that a filter sees. -/
  run : ρ → Run
  /-- The host that a filter sees, if there is one. -/
  host? : ρ → Option Host
  /-- What is shown of a row under a field at an instant, if the row has it then. -/
  value? : φ → ρ → Instant → Option Json

/-- What is shown of a row under the given fields, if it has all of them. -/
def project? [FieldSet φ] [SortKeys κ ρ] [Listable ρ φ κ] (fields : List φ) (now : Instant)
    (row : ρ) : Option JsonObject := do
  let members ← fields.mapM fun field ↦ do
    return (FieldSet.name field, ← Listable.value? field row now)
  return Keyed.ofList members

/-- Runs are listed by themselves. -/
instance : Listable Run RunField RunSortKey where
  resource := .run
  run := id
  host? _ := none
  value?
    | .id, run, _ => some <| run.id.toJson
    | .orgId, run, _ => some <| .string run.orgId
    | .recipient, run, _ => some <| run.recipient.toJson
    | .correlationId, run, _ => some <| run.correlationId.toJson
    | .url, run, _ => some <| .string run.url
    | .labels, run, _ => some <| run.labels.toJson
    | .timeout, run, _ => some <| .integer run.timeout.toInt
    | .status, run, now => (run.displayedStatus? now).map DisplayedStatus.toJson
    | .service, run, _ => some <| .string run.service
    | .name, run, _ => some <| .ofOption .string run.name
    | .webConsoleUrl, run, _ => some <| .ofOption .string run.webConsoleUrl
    | .satelliteId, run, _ => some <| .ofOption Uuid.toJson run.satelliteId
    | .satelliteOrgId, run, _ => some <| .ofOption .string run.satelliteOrgId
    | .createdAt, run, _ => some <| run.createdAt.toJson
    | .updatedAt, run, _ => some <| run.updatedAt.toJson

/-- Hosts are listed each with its run. -/
instance : Listable HostRecord HostField HostSortKey where
  resource := .runHost
  run := HostRecord.run
  host? record := some record.host
  value?
    | .host, record, _ => some <| .string record.host.host
    | .run, record, _ => some <| .ofMembers [
        ("id", record.run.id.toJson),
        ("labels", record.run.labels.toJson),
        ("service", .string record.run.service)]
    | .status, record, now => (record.displayedStatus? now).map DisplayedStatus.toJson
    | .stdout, record, _ => some <| .ofOption .string record.host.stdout
    | .inventoryId, record, _ => some <| .ofOption Uuid.toJson record.host.inventoryId

end PlaybookRuns
