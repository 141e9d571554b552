import PlaybookRuns.Dispatch.Message
import PlaybookRuns.Http.Status
import PlaybookRuns.Http.Transport
import PlaybookRuns.Json.Writer

/-!
# The connector over HTTP

Messages are posted to the cloud connector, which answers with the correlation id of the delivery,
or with 404 where the recipient is not connected.
-/

namespace PlaybookRuns

open PlaybookRuns.Http

/-- The cloud connector at a base address. -/
structure RemoteConnector where
  baseUrl : String
  deriving DecidableEq, Repr

namespace RemoteConnector

/-- The connector at an address; slashes at its end do not count. -/
def create (baseUrl : String) : RemoteConnector := ⟨trimBase baseUrl⟩

/-- Where messages are posted. -/
def messageUrl (connector : RemoteConnector) : String :=
  connector.baseUrl ++ "/api/cloud-connector/v1/message"

/-- The request that posts a message. -/
def request (connector : RemoteConnector) (message : Message) : Outgoing where
  method := "POST"
  url := connector.messageUrl
  headers := [("content-type", "application/json")]
  body := some message.toJson.toText

/-- The decoder of a correlation id. -/
def idShape : Json.Decoder Uuid := fun d ↦ do
  let found ← Json.Shape.record [.of "id" Json.Shape.uuid .required] d
  Json.Shape.required "id" Json.Shape.uuid found

/-- What a reply says about the delivery of a message. -/
def outcome (message : Message) (reply : Reply) : Except ConnectorError Uuid :=
  if reply.status = 404 then .error (.recipientNotFound message.recipient)
  else if ¬isSuccess reply.status then
    .error (.failed
      ("status " ++ statusText reply.status ++ ": " ++ reply.body.getD "Unknown error"))
  else
    match reply.body.map (Json.decode idShape) with
    | some (.ok id) => .ok id
    | _ => .error (.failed "invalid connector response")

/-- Posts messages over a transport. -/
def viaTransport (connector : RemoteConnector) (transport : Transport τ) : Connector τ :=
  fun message state ↦
    match transport.send (connector.request message) state with
    | (none, state) => (.error .unreachable, state)
    | (some reply, state) => (outcome message reply, state)

end RemoteConnector

end PlaybookRuns
