import PlaybookRuns.Admission.Limiter
import PlaybookRuns.Dispatch.Message
import PlaybookRuns.Dispatch.Validate
import PlaybookRuns.Store.Basic

/-!
# Dispatching

A batch of requested runs on behalf of a service. The batch is admitted once; after that each item
goes its own way and has a result of its own: it is checked, sent to its recipient, and stored
once the connector has taken it.
-/

namespace PlaybookRuns

open PlaybookRuns.Time (Instant)

/-- Why an item of a batch did not become a run. -/
inductive ItemError where
  | invalid (e : InvalidItem)
  | connector (e : ConnectorError)
  | store (e : StoreError)
  deriving DecidableEq

/-- What a caller is told of a fault that is none of its business. -/
def internalErrorMessage : String := "Internal server error"

/-- What the service is told about an item that did not become a run. -/
def ItemError.result : ItemError → ItemResult
  | invalid e => .refused 400 e.message
  | connector (.recipientNotFound id) =>
    .refused 404 (ConnectorError.recipientNotFound id).message
  | connector .unreachable => .refused 500 internalErrorMessage
  | connector (.failed _) => .refused 500 internalErrorMessage
  | store _ => .refused 500 internalErrorMessage

/-- What dispatching needs of its surroundings. Fresh identifiers and the time of day are given by
number: of the message for runs, of the host for hosts. -/
structure Surroundings (σ κ : Type) where
  store : RunStore σ
  connector : Connector κ
  runId : Nat → Uuid
  hostId : Nat → Uuid
  createdAt : Nat → Instant

/-- The settings of dispatching. -/
structure DispatchSettings where
  /-- The longest wait for admission, in nanoseconds. -/
  maxWait : Nat
  /-- The timeout of runs that are requested without one. -/
  defaultTimeout : Int32
  deriving DecidableEq

/-- What dispatching changes. -/
structure DispatchState (σ κ : Type) where
  store : σ
  connector : κ
  limiter : Limiter
  /-- Nanoseconds on the clock that waits are measured by. -/
  clock : Nat
  /-- Every message handed to the connector, in order. -/
  sent : List Message
  /-- How many hosts have been given an identifier. -/
  hostCount : Nat

/-- The run that a requested run becomes. -/
def RunRequest.toRun (request : RunRequest) (message : Message) (correlationId : Uuid)
    (service : String) (now : Instant) : Run where
  id := message.runId
  orgId := request.orgId
  recipient := request.recipient
  correlationId
  url := request.url
  timeout := message.timeout
  status := .running
  labels := request.labels
  service
  createdAt := now
  updatedAt := now
  satelliteId := request.satelliteId
  satelliteOrgId := request.satelliteOrgId
  name := request.name
  webConsoleUrl := request.webConsoleUrl

/-- The host that a target of a run becomes. -/
def NamedTarget.toHost (target : NamedTarget) (id runId : Uuid) (now : Instant) : Host where
  id
  runId
  host := target.name
  inventoryId := target.inventoryId
  status := .running
  stdout := none
  createdAt := now
  updatedAt := now

namespace DispatchState

variable {σ κ : Type}

/-- Stores the run of a message that was delivered. -/
def keep (around : Surroundings σ κ) (service : String) (request : RunRequest)
    (targets : List NamedTarget) (message : Message) (correlationId : Uuid)
    (state : DispatchState σ κ) : Except ItemError Uuid × DispatchState σ κ :=
  let now := around.createdAt (state.sent.length - 1)
  let run := request.toRun message correlationId service now
  let hosts := targets.mapIdx fun i target ↦
    target.toHost (around.hostId (state.hostCount + i)) run.id now
  let hostCount := state.hostCount + hosts.length
  match around.store.insert run hosts state.store with
  | (.ok (), store) => (.ok run.id, { state with store, hostCount })
  | (.error e, store) => (.error (.store e), { state with store, hostCount })

/-- Sends a message that has been composed for a valid item, and stores its run if the connector
takes it. -/
def send (around : Surroundings σ κ) (service : String) (request : RunRequest)
    (targets : List NamedTarget) (message : Message) (state : DispatchState σ κ) :
    Except ItemError Uuid × DispatchState σ κ :=
  let (answer, connector) := around.connector message state.connector
  let state := { state with connector, sent := state.sent ++ [message] }
  match answer with
  | .ok correlationId => state.keep around service request targets message correlationId
  | .error e => (.error (.connector e), state)

/-- Makes one item of a batch into a run. -/
def dispatchItem (around : Surroundings σ κ) (settings : DispatchSettings) (service : String)
    (request : RunRequest) (state : DispatchState σ κ) :
    Except ItemError Uuid × DispatchState σ κ :=
  match request.validate settings.defaultTimeout with
  | .error e => (.error (.invalid e), state)
  | .ok (timeout, targets) =>
    let message : Message := {
      orgId := request.orgId
      recipient := request.recipient
      runId := around.runId state.sent.length
      url := request.url
      timeout
      hosts := targets.map (·.name) }
    state.send around service request targets message

/-- The result of an item. -/
def itemResult : Except ItemError Uuid → ItemResult
  | .ok id => .created id
  | .error e => e.result

/-- Makes the items of a batch into runs, one after the other. -/
def dispatchItems (around : Surroundings σ κ) (settings : DispatchSettings) (service : String) :
    List RunRequest → DispatchState σ κ → List ItemResult × DispatchState σ κ
  | [], state => ([], state)
  | request :: requests, state =>
    let (outcome, state) := state.dispatchItem around settings service request
    let (results, state) := dispatchItems around settings service requests state
    (itemResult outcome :: results, state)

/-- Claims a slot for a service and waits for it. -/
def enter (settings : DispatchSettings) (service : String) (state : DispatchState σ κ) :
    Except Throttled Unit × DispatchState σ κ :=
  match state.limiter.reserve service state.clock settings.maxWait with
  | (.ok wait, limiter) =>
    (.ok (), { state with limiter, clock := wakeAt state.clock wait })
  | (.error e, limiter) => (.error e, { state with limiter })

/-- Dispatches a batch on behalf of a service. Only admission fails a batch as a whole. -/
def dispatch (around : Surroundings σ κ) (settings : DispatchSettings) (service : String)
    (requests : List RunRequest) (state : DispatchState σ κ) :
    Except Throttled (List ItemResult) × DispatchState σ κ :=
  match state.enter settings service with
  | (.error e, state) => (.error e, state)
  | (.ok (), state) =>
    let (results, state) := dispatchItems around settings service requests state
    (.ok results, state)

end DispatchState

end PlaybookRuns
