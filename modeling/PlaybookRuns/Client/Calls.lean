import PlaybookRuns.Client.Error
import PlaybookRuns.Client.Query
import PlaybookRuns.Dispatch.Request
import PlaybookRuns.Http.Names
import PlaybookRuns.Http.Transport
import PlaybookRuns.Json.Writer
import PlaybookRuns.Listing.Page

/-!
# The client

Calls to a server over a transport: listings page by page or as a whole, and dispatches. A listing
is followed by its `next` links, which are put after the base address as they are.
-/

namespace PlaybookRuns.Client

open PlaybookRuns.Http

/-- A client of the server at a base address, for a tenant if there is one. -/
structure DispatchClient where
  baseUrl : String
  orgId : Option String
  deriving DecidableEq, Repr

/-- The message in the body of a refusal: its member `message`, or else the body itself. -/
def refusalMessage (body : String) : String :=
  match Json.decode (Json.Shape.anyValue Json.Shape.maxDepth) body with
  | .ok value => ((value.member? "message").bind Json.text?).getD body
  | .error _ => body

/-- What a reply says, its body decoded where it tells of success. -/
def readReply (decoder : Json.Decoder α) (reply : Reply) : Except ClientError α :=
  if isSuccess reply.status then
    match reply.body.map (Json.decode decoder) with
    | some (.ok a) => .ok a
    | _ => .error (.parseError "Failed to parse JSON response")
  else .error (.apiError reply.status (refusalMessage (reply.body.getD "Unknown error")))

namespace DispatchClient

variable {τ : Type}

/-- A client of the server at an address; slashes at its end do not count. -/
def create (baseUrl : String) (orgId : Option String) : DispatchClient :=
  ⟨trimBase baseUrl, orgId⟩

/-- Sends a request and decodes what comes back. -/
def exchange (transport : Transport τ) (request : Outgoing) (decoder : Json.Decoder α)
    (state : τ) : Except ClientError α × τ :=
  match transport.send request state with
  | (none, state) => (.error .requestFailed, state)
  | (some reply, state) => (readReply decoder reply, state)

/-- The address of a listing. -/
def listUrl (client : DispatchClient) (path : String) (query : QueryBuilder) : String :=
  let text := query.toText
  if text = "" then client.baseUrl ++ path else client.baseUrl ++ path ++ "?" ++ text

/-- The request for a page on behalf of a tenant. -/
def pageRequest (url orgId : String) : Outgoing := ⟨"GET", url, [(orgIdHeader, orgId)], none⟩

/-- The page at an address. -/
def getPage (client : DispatchClient) (transport : Transport τ) (url : String) (state : τ) :
    Except ClientError ListPage × τ :=
  match client.orgId with
  | none => (.error (.invalidRequest "listing requires an org id"), state)
  | some orgId => exchange transport (pageRequest url orgId) ListPage.shape state

/-- The first page of the runs that a query asks for. -/
def listRuns (client : DispatchClient) (transport : Transport τ) (query : QueryBuilder)
    (state : τ) : Except ClientError ListPage × τ :=
  client.getPage transport (client.listUrl runsPath query) state

/-- The first page of the hosts that a query asks for. -/
def listHosts (client : DispatchClient) (transport : Transport τ) (query : QueryBuilder)
    (state : τ) : Except ClientError ListPage × τ :=
  client.getPage transport (client.listUrl hostsPath query) state

/-- The page after a page, if there is one. -/
def nextPage (client : DispatchClient) (transport : Transport τ) (page : ListPage) (state : τ) :
    Except ClientError (Option ListPage) × τ :=
  match page.links.next with
  | none => (.ok none, state)
  | some link =>
    let (result, state) := client.getPage transport (client.baseUrl ++ link) state
    (result.map some, state)

/-- The pages from an address on, in order, as far as their `next` links lead; none where there
are more than `bound`. -/
def followPages (client : DispatchClient) (transport : Transport τ) :
    (bound : Nat) → (url : String) → τ → Option (Except ClientError (List ListPage)) × τ
  | 0, _, state => (none, state)
  | bound + 1, url, state =>
    match client.getPage transport url state with
    | (.error e, state) => (some (.error e), state)
    | (.ok page, state) =>
      match page.links.next with
      | none => (some (.ok [page]), state)
      | some link =>
        let (rest, state) := client.followPages transport bound (client.baseUrl ++ link) state
        (rest.map fun pages ↦ pages.map (page :: ·), state)

/-- Every page of the runs that a query asks for; none where there are more than `bound`. -/
def listAllRuns (client : DispatchClient) (transport : Transport τ) (bound : Nat)
    (query : QueryBuilder) (state : τ) : Option (Except ClientError (List ListPage)) × τ :=
  client.followPages transport bound (client.listUrl runsPath query) state

/-- The request that dispatches runs on behalf of a service. -/
def dispatchRequest (client : DispatchClient) (service : String) (requests : List RunRequest) :
    Outgoing where
  method := "POST"
  url := client.baseUrl ++ dispatchPath
  headers := [(serviceHeader, service), ("content-type", "application/json")]
  body := some (Json.array (requests.map RunRequest.toJson)).toText

/-- Dispatches runs on behalf of a service; there is one result for each, in order. -/
def dispatch (client : DispatchClient) (transport : Transport τ) (service : String)
    (requests : List RunRequest) (state : τ) : Except ClientError (List ItemResult) × τ :=
  if Text.isBlankText service then
    (.error (.invalidRequest "service name must not be empty"), state)
  else
    exchange transport (client.dispatchRequest service requests) (Json.Shape.list ItemResult.shape)
      state

end DispatchClient

end PlaybookRuns.Client
