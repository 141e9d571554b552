import PlaybookRuns.Query.Tree
import PlaybookRuns.Text.Blank
import PlaybookRuns.Text.Split

/-!
# Selected fields

Which fields of a resource a listing shows: those named by `fields[data]`, in comma-separated
lists or repeated parameters, or the resource's defaults. Every name must be one of the
resource's.
-/

namespace PlaybookRuns.Query

/-- The fields of a listable resource. -/
class FieldSet (φ : Type) where
  /-- Every field, each once. -/
  all : List φ
  /-- The name of a field in requests and answers. -/
  name : φ → String
  /-- What is shown where nothing is requested. -/
  defaults : List φ

/-- The field with a given name. -/
def FieldSet.ofName? [FieldSet φ] (s : String) : Option φ := (all : List φ).find? (name · = s)

/-- The names in comma-separated lists, trimmed, blank ones left out. -/
def requestedNames (lists : List String) : List String :=
  ((lists.flatMap (Text.splitText ',')).map Text.trim).filter (· ≠ "")

/-- The fields with the given names, in that order. -/
def fieldsOfNames [FieldSet φ] (names : List String) : Except QueryError (List φ) :=
  names.mapM fun name ↦
    match FieldSet.ofName? name with
    | some field => .ok field
    | none => .error (.unknownField name)

/-- The fields that lists of names select; the defaults where nothing is requested. -/
def selectFields [FieldSet φ] : Option (List String) → Except QueryError (List φ)
  | none => .ok FieldSet.defaults
  | some lists => fieldsOfNames (requestedNames lists)

/-- The lists of names requested by a tree: `data` is its only key, and a leaf. -/
def requestedLists :
    (soFar : Option (List String)) → Tree → Except QueryError (Option (List String))
  | soFar, [] => .ok soFar
  | _, (key, node) :: tree => do
    if key ≠ "data" then throw (.unknownField key)
    requestedLists (some (← node.values "fields[data]")) tree

/-- The fields that a tree of `fields` parameters selects. -/
def fieldsOfTree [FieldSet φ] (tree : Tree) : Except QueryError (List φ) := do
  selectFields (← requestedLists none tree)

/-- The fields of a run. -/
inductive RunField where
  | id
  | orgId
  | recipient
  | correlationId
  | url
  | labels
  | timeout
  | status
  | service
  | name
  | webConsoleUrl
  | satelliteId
  | satelliteOrgId
  | createdAt
  | updatedAt
  deriving DecidableEq, Repr

/-- The fields of runs, of which six are shown where none are asked for. -/
instance : FieldSet RunField where
  all := [.id, .orgId, .recipient, .correlationId, .url, .labels, .timeout, .status, .service,
    .name, .webConsoleUrl, .satelliteId, .satelliteOrgId, .createdAt, .updatedAt]
  name
    | .id => "id"
    | .orgId => "org_id"
    | .recipient => "recipient"
    | .correlationId => "correlation_id"
    | .url => "url"
    | .labels => "labels"
    | .timeout => "timeout"
    | .status => "status"
    | .service => "service"
    | .name => "name"
    | .webConsoleUrl => "web_console_url"
    | .satelliteId => "satellite_id"
    | .satelliteOrgId => "satellite_org_id"
    | .createdAt => "created_at"
    | .updatedAt => "updated_at"
  defaults := [.id, .recipient, .url, .labels, .timeout, .status]

/-- The fields of a host record. -/
inductive HostField where
  | host
  | run
  | status
  | stdout
  | inventoryId
  deriving DecidableEq, Repr

/-- The fields of hosts, of which three are shown where none are asked for. -/
instance : FieldSet HostField where
  all := [.host, .run, .status, .stdout, .inventoryId]
  name
    | .host => "host"
    | .run => "run"
    | .status => "status"
    | .stdout => "stdout"
    | .inventoryId => "inventory_id"
  defaults := [.host, .run, .status]

end PlaybookRuns.Query
