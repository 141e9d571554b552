import PlaybookRuns.Dispatch.Request
import PlaybookRuns.Text.Blank

/-!
# Valid items

What must hold of a requested run before anything is sent. The first thing wrong is reported, in
the order url, tenant, timeout, hosts.
-/

namespace PlaybookRuns

/-- What is wrong with a requested run. -/
inductive InvalidItem where
  | blankUrl
  | blankOrgId
  | longOrgId (length : Nat)
  | negativeTimeout (timeout : Int32)
  | namelessHost
  deriving DecidableEq, Repr

/-- How many characters a tenant's name may have. -/
def maxOrgIdLength : Nat := 10

/-- The wording of what is wrong. -/
def InvalidItem.message : InvalidItem → String
  | blankUrl => "url must not be empty"
  | blankOrgId => "org_id must not be empty"
  | longOrgId length =>
    "org_id must be at most " ++ toString maxOrgIdLength ++ " characters, got " ++ toString length
  | negativeTimeout timeout => "timeout must not be negative, got " ++ toString timeout.toInt
  | namelessHost => "host requires ansible_host or inventory_id"

/-- A target that has a name. -/
structure NamedTarget where
  name : String
  inventoryId : Option Uuid
  deriving DecidableEq

/-- The target with its name. -/
def HostTarget.named (target : HostTarget) : Except InvalidItem NamedTarget :=
  match target.displayName? with
  | some name => .ok ⟨name, target.inventoryId⟩
  | none => .error .namelessHost

/-- The timeout that applies to a requested run, and its targets with their names. -/
def RunRequest.validate (defaultTimeout : Int32) (request : RunRequest) :
    Except InvalidItem (Int32 × List NamedTarget) := do
  if Text.isBlankText request.url then throw .blankUrl
  if Text.isBlankText request.orgId then throw .blankOrgId
  let length := request.orgId.length
  if maxOrgIdLength < length then throw (.longOrgId length)
  let timeout := request.timeout.getD defaultTimeout
  if timeout < 0 then throw (.negativeTimeout timeout)
  return (timeout, ← request.hosts.mapM HostTarget.named)

end PlaybookRuns
