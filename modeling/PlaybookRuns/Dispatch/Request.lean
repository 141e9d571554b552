import PlaybookRuns.Run.Codec

/-!
# Requested runs

What a service submits to have a playbook run, and what it is told about each item, with their
JSON forms. Fields without a value are left out when written, and may be missing when read.
-/

namespace PlaybookRuns

open PlaybookRuns.Json

/-- A system targeted by a requested run. -/
structure HostTarget where
  ansibleHost : Option String
  inventoryId : Option Uuid
  deriving DecidableEq

/-- One run as a service asks for it. -/
structure RunRequest where
  recipient : Uuid
  orgId : String
  url : String
  /-- Seconds; a default applies when there is none. -/
  timeout : Option Int32
  labels : Labels
  hosts : List HostTarget
  name : Option String
  webConsoleUrl : Option String
  satelliteId : Option Uuid
  satelliteOrgId : Option String
  deriving DecidableEq

/-- What a service is told about one requested run. -/
structure ItemResult where
  /-- The status in the manner of HTTP: 201, 400, 404 or 500. -/
  code : UInt16
  id : Option Uuid
  message : Option String
  deriving DecidableEq

namespace HostTarget

/-- The name recorded for a host: its own, else its inventory id. -/
def displayName? (target : HostTarget) : Option String :=
  target.ansibleHost.or (target.inventoryId.map Uuid.toText)

/-- A target as a JSON object. -/
def toJson (target : HostTarget) : Json := Json.ofPresent [
  ("ansible_host", target.ansibleHost.map .string),
  ("inventory_id", target.inventoryId.map Uuid.toJson)]

/-- The fields of a target in declaration order. -/
def fields : List Shape.Field := [
  .of "ansible_host" (Shape.optional Shape.text) .defaulted,
  .of "inventory_id" (Shape.optional Shape.uuid) .defaulted]

/-- The decoder of a target. -/
def shape : Decoder HostTarget := fun d ↦ do
  let found ← Shape.record fields d
  return {
    ansibleHost := ← Shape.orDefault "ansible_host" (Shape.optional Shape.text) none found
    inventoryId := ← Shape.orDefault "inventory_id" (Shape.optional Shape.uuid) none found }

end HostTarget

namespace RunRequest

/-- A requested run as a JSON object. -/
def toJson (request : RunRequest) : Json := Json.ofPresent [
  ("recipient", some request.recipient.toJson),
  ("org_id", some (.string request.orgId)),
  ("url", some (.string request.url)),
  ("timeout", request.timeout.map fun t ↦ .integer t.toInt),
  ("labels", some request.labels.toJson),
  ("hosts", some (.array (request.hosts.map HostTarget.toJson))),
  ("name", request.name.map .string),
  ("web_console_url", request.webConsoleUrl.map .string),
  ("satellite_id", request.satelliteId.map Uuid.toJson),
  ("satellite_org_id", request.satelliteOrgId.map .string)]

/-- The fields of a requested run in declaration order. -/
def fields : List Shape.Field := [
  .of "recipient" Shape.uuid .required,
  .of "org_id" Shape.text .required,
  .of "url" Shape.text .required,
  .of "timeout" (Shape.optional Shape.int32) .defaulted,
  .of "labels" Labels.shape .defaulted,
  .of "hosts" (Shape.list HostTarget.shape) .defaulted,
  .of "name" (Shape.optional Shape.text) .defaulted,
  .of "web_console_url" (Shape.optional Shape.text) .defaulted,
  .of "satellite_id" (Shape.optional Shape.uuid) .defaulted,
  .of "satellite_org_id" (Shape.optional Shape.text) .defaulted]

/-- The decoder of a requested run. -/
def shape : Decoder RunRequest := fun d ↦ do
  let found ← Shape.record fields d
  return {
    recipient := ← Shape.required "recipient" Shape.uuid found
    orgId := ← Shape.required "org_id" Shape.text found
    url := ← Shape.required "url" Shape.text found
    timeout := ← Shape.orDefault "timeout" (Shape.optional Shape.int32) none found
    labels := ← Shape.orDefault "labels" Labels.shape ∅ found
    hosts := ← Shape.orDefault "hosts" (Shape.list HostTarget.shape) [] found
    name := ← Shape.orDefault "name" (Shape.optional Shape.text) none found
    webConsoleUrl := ← Shape.orDefault "web_console_url" (Shape.optional Shape.text) none found
    satelliteId := ← Shape.orDefault "satellite_id" (Shape.optional Shape.uuid) none found
    satelliteOrgId := ← Shape.orDefault "satellite_org_id" (Shape.optional Shape.text) none found }

end RunRequest

namespace ItemResult

/-- The run was created. -/
def created (id : Uuid) : ItemResult := ⟨201, some id, none⟩

/-- The run was not created, for a reason that the caller may know. -/
def refused (code : UInt16) (message : String) : ItemResult := ⟨code, none, some message⟩

/-- A result as a JSON object. -/
def toJson (result : ItemResult) : Json := Json.ofPresent [
  ("code", some (.integer result.code.toNat)),
  ("id", result.id.map Uuid.toJson),
  ("message", result.message.map .string)]

/-- The fields of a result in declaration order. -/
def fields : List Shape.Field := [
  .of "code" (Shape.integer 0 65535) .required,
  .of "id" (Shape.optional Shape.uuid) .defaulted,
  .of "message" (Shape.optional Shape.text) .defaulted]

/-- The decoder of a result. -/
def shape : Decoder ItemResult := fun d ↦ do
  let found ← Shape.record fields d
  return {
    code := .ofNat (← Shape.required "code" (Shape.integer 0 65535) found).toNat
    id := ← Shape.orDefault "id" (Shape.optional Shape.uuid) none found
    message := ← Shape.orDefault "message" (Shape.optional Shape.text) none found }

end ItemResult

end PlaybookRuns
