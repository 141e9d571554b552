import PlaybookRuns.Json.Shape
import PlaybookRuns.Run.Basic

/-!
# Runs and hosts as JSON

How statuses, labels, runs and hosts are written as JSON and decoded from it. Every field is
written, null where it has no value; on reading, a field that may be null may also be absent.
-/

namespace PlaybookRuns

open PlaybookRuns.Json

/-- A signed number of 32 bits. -/
def Json.Shape.int32 : Decoder Int32 := fun d ↦
  (integer Int32.minValue.toInt Int32.maxValue.toInt d).map Int32.ofInt

/-- A signed number of 64 bits. -/
def Json.Shape.int64 : Decoder Int64 := fun d ↦
  (integer Int64.minValue.toInt Int64.maxValue.toInt d).map Int64.ofInt

/-- An identifier as a JSON text. -/
def Uuid.toJson (id : Uuid) : Json := .string id.toText

/-- An instant as a JSON text. -/
def Time.Instant.toJson (t : Instant) : Json := .string t.toText

/-- A status as a JSON text. -/
def StoredStatus.toJson (s : StoredStatus) : Json := .string s.name

/-- A status as a JSON text. -/
def DisplayedStatus.toJson (s : DisplayedStatus) : Json := .string s.name

/-- The decoder of a stored status. -/
def StoredStatus.shape : Decoder StoredStatus := Shape.name ofName?

/-- The decoder of a displayed status. -/
def DisplayedStatus.shape : Decoder DisplayedStatus := Shape.name ofName?

/-- Labels as a JSON object. -/
def Labels.toJson (labels : Labels) : Json :=
  .object (labels.entries.map fun (key, value) ↦ (key, .string value))

/-- The decoder of labels. -/
def Labels.shape : Decoder Labels := fun d ↦ (Shape.entries Shape.text d).map Labels.ofList

namespace Run

/-- A run as a JSON object. -/
def toJson (run : Run) : Json := Json.ofMembers [
  ("id", run.id.toJson),
  ("org_id", .string run.orgId),
  ("recipient", run.recipient.toJson),
  ("correlation_id", run.correlationId.toJson),
  ("url", .string run.url),
  ("timeout", .integer run.timeout.toInt),
  ("status", run.status.toJson),
  ("labels", run.labels.toJson),
  ("service", .string run.service),
  ("created_at", run.createdAt.toJson),
  ("updated_at", run.updatedAt.toJson),
  ("satellite_id", .ofOption Uuid.toJson run.satelliteId),
  ("satellite_org_id", .ofOption .string run.satelliteOrgId),
  ("name", .ofOption .string run.name),
  ("web_console_url", .ofOption .string run.webConsoleUrl)]

/-- The fields of a run in declaration order. -/
def fields : List Shape.Field := [
  .of "id" Shape.uuid .required,
  .of "org_id" Shape.text .required,
  .of "recipient" Shape.uuid .required,
  .of "correlation_id" Shape.uuid .required,
  .of "url" Shape.text .required,
  .of "timeout" Shape.int32 .required,
  .of "status" StoredStatus.shape .required,
  .of "labels" Labels.shape .required,
  .of "service" Shape.text .required,
  .of "created_at" Shape.instant .required,
  .of "updated_at" Shape.instant .required,
  .of "satellite_id" (Shape.optional Shape.uuid) .nullable,
  .of "satellite_org_id" (Shape.optional Shape.text) .nullable,
  .of "name" (Shape.optional Shape.text) .nullable,
  .of "web_console_url" (Shape.optional Shape.text) .nullable]

/-- The decoder of a run. -/
def shape : Decoder Run := fun d ↦ do
  let found ← Shape.record fields d
  return {
    id := ← Shape.required "id" Shape.uuid found
    orgId := ← Shape.required "org_id" Shape.text found
    recipient := ← Shape.required "recipient" Shape.uuid found
    correlationId := ← Shape.required "correlation_id" Shape.uuid found
    url := ← Shape.required "url" Shape.text found
    timeout := ← Shape.required "timeout" Shape.int32 found
    status := ← Shape.required "status" StoredStatus.shape found
    labels := ← Shape.required "labels" Labels.shape found
    service := ← Shape.required "service" Shape.text found
    createdAt := ← Shape.required "created_at" Shape.instant found
    updatedAt := ← Shape.required "updated_at" Shape.instant found
    satelliteId := ← Shape.orDefault "satellite_id" (Shape.optional Shape.uuid) none found
    satelliteOrgId := ← Shape.orDefault "satellite_org_id" (Shape.optional Shape.text) none found
    name := ← Shape.orDefault "name" (Shape.optional Shape.text) none found
    webConsoleUrl := ← Shape.orDefault "web_console_url" (Shape.optional Shape.text) none found }

end Run

namespace Host

/-- A host as a JSON object. -/
def toJson (host : Host) : Json := Json.ofMembers [
  ("id", host.id.toJson),
  ("run_id", host.runId.toJson),
  ("host", .string host.host),
  ("inventory_id", .ofOption Uuid.toJson host.inventoryId),
  ("status", host.status.toJson),
  ("stdout", .ofOption .string host.stdout),
  ("created_at", host.createdAt.toJson),
  ("updated_at", host.updatedAt.toJson)]

/-- The fields of a host in declaration order. -/
def fields : List Shape.Field := [
  .of "id" Shape.uuid .required,
  .of "run_id" Shape.uuid .required,
  .of "host" Shape.text .required,
  .of "inventory_id" (Shape.optional Shape.uuid) .nullable,
  .of "status" StoredStatus.shape .required,
  .of "stdout" (Shape.optional Shape.text) .nullable,
  .of "created_at" Shape.instant .required,
  .of "updated_at" Shape.instant .required]

/-- The decoder of a host. -/
def shape : Decoder Host := fun d ↦ do
  let found ← Shape.record fields d
  return {
    id := ← Shape.required "id" Shape.uuid found
    runId := ← Shape.required "run_id" Shape.uuid found
    host := ← Shape.required "host" Shape.text found
    inventoryId := ← Shape.orDefault "inventory_id" (Shape.optional Shape.uuid) none found
    status := ← Shape.required "status" StoredStatus.shape found
    stdout := ← Shape.orDefault "stdout" (Shape.optional Shape.text) none found
    createdAt := ← Shape.required "created_at" Shape.instant found
    updatedAt := ← Shape.required "updated_at" Shape.instant found }

end Host

end PlaybookRuns
