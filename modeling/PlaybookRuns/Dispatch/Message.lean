import PlaybookRuns.Run.Codec

/-!
# Messages to recipients

What is sent to a recipient to start a run, and what the connector that delivers it may answer.
-/

namespace PlaybookRuns

/-- What is sent to a recipient to start a run. -/
structure Message where
  orgId : String
  recipient : Uuid
  runId : Uuid
  /-- Where the recipient fetches the playbook. -/
  url : String
  timeout : Int32
  /-- The names of the targeted systems. -/
  hosts : List String
  deriving DecidableEq

/-- What tells a recipient's worker to run a playbook. -/
def Message.directive : String := "rhc-worker-playbook"

/-- A message as a JSON object; the list of hosts is left out where it is empty. -/
def Message.toJson (message : Message) : Json := Json.ofMembers [
  ("org_id", .string message.orgId),
  ("recipient", message.recipient.toJson),
  ("directive", .string directive),
  ("payload", .string message.url),
  ("metadata", .ofPresent [
    ("run_id", some message.runId.toJson),
    ("timeout", some (.integer message.timeout.toInt)),
    ("hosts",
      if message.hosts.isEmpty then none else some (.array (message.hosts.map .string)))])]

/-- Why a message was not delivered. -/
inductive ConnectorError where
  /-- The recipient is not connected. -/
  | recipientNotFound (id : Uuid)
  /-- The connector itself cannot be reached. -/
  | unreachable
  | failed (detail : String)
  deriving DecidableEq

/-- The wording of a failed delivery. -/
def ConnectorError.message : ConnectorError → String
  | recipientNotFound id => "recipient " ++ id.toText ++ " not found"
  | unreachable => "dispatch failed: the connector cannot be reached"
  | failed detail => "dispatch failed: " ++ detail

/-- A connector with state `κ`: it takes a message and answers with the correlation id of its
delivery. -/
abbrev Connector (κ : Type) := Message → κ → Except ConnectorError Uuid × κ

end PlaybookRuns
