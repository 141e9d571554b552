import PlaybookRuns.Config
import PlaybookRuns.Http.Error
import PlaybookRuns.Http.MediaType
import PlaybookRuns.Http.Names
import PlaybookRuns.Json.Writer

/-!
# The server

The routes of the server and what it answers on each. Listings need the tenant in a header,
dispatching the name of the calling service; the body of a dispatch is checked before that. A
listing without a page is given up: its request gets no response.
-/

namespace PlaybookRuns.Http

open PlaybookRuns.Query PlaybookRuns.Time

/-- What a path leads to. -/
inductive Route where
  | health
  | runs
  | hosts
  | dispatch
  deriving DecidableEq, Repr

/-- The route of a path, if there is one. -/
def Route.ofPath? (path : String) : Option Route :=
  [(healthPath, health), (runsPath, runs), (hostsPath, hosts), (dispatchPath, dispatch)].lookup path

/-- Whether a route takes a method. Where `GET` is taken, so is `HEAD`. -/
def Route.takes : Route → String → Bool
  | dispatch, method => method == "POST"
  | _, method => method == "GET" || method == "HEAD"

/-- The tenant that a request is for. -/
def orgIdOf (headers : List Header) : Except ApiError String :=
  match trimmedHeader? headers orgIdHeader with
  | some orgId => .ok orgId
  | none => .error (.unauthorized ("missing " ++ orgIdHeader ++ " header"))

/-- The service that a request comes from. -/
def serviceOf (headers : List Header) : Except ApiError String :=
  match trimmedHeader? headers serviceHeader with
  | some service => .ok service
  | none => .error (.badRequest ("missing " ++ serviceHeader ++ " header"))

/-- The requested runs in the body of a dispatch, or the status with which it is refused: 415 where
the body is not announced as JSON, 400 where it is none, 422 where it is JSON of another shape. -/
def readBatch (request : Request) : Except Nat (List RunRequest) :=
  if ((header? request.headers "content-type").map isJsonMediaType).getD false then
    match Json.decode (Json.Shape.list RunRequest.shape) request.body with
    | .ok requests => .ok requests
    | .error .malformed => .error 400
    | .error .mismatched => .error 422
  else .error 415

/-- A server at work: what dispatching changes is all its state. -/
abbrev Server (σ κ : Type) := DispatchState σ κ

namespace Server

variable {σ κ : Type}

/-- A server that has not been asked anything yet. -/
def start (config : Config) (store : σ) (connector : κ) : Server σ κ :=
  { store, connector, limiter := config.limiter, clock := 0, sent := [], hostCount := 0 }

/-- The answer to a check of health. -/
def health (around : Surroundings σ κ) (server : Server σ κ) : Response × Server σ κ :=
  match around.store.ping server.store with
  | (.ok (), store) => (⟨200, .text "OK"⟩, { server with store })
  | (.error e, store) => ((ApiError.store e).response, { server with store })

/-- The answer to a listing that `serve` makes, if there is one. -/
def list (serve : ListContext → σ → Except ListingError (Option ListPage) × σ)
    (path query : String) (now : Instant) (headers : List Header) (server : Server σ κ) :
    Option Response × Server σ κ :=
  match orgIdOf headers with
  | .error e => (some e.response, server)
  | .ok orgId =>
    match serve ⟨orgId, path, Params.ofText query, now⟩ server.store with
    | (.ok page?, store) =>
      (page?.map fun page ↦ ⟨200, .json page.toJson⟩, { server with store })
    | (.error e, store) => (some (ApiError.ofListing e).response, { server with store })

/-- The answer to a dispatch. -/
def dispatch (around : Surroundings σ κ) (config : Config) (request : Request)
    (server : Server σ κ) : Response × Server σ κ :=
  match readBatch request with
  | .error status => (⟨status, .rejected⟩, server)
  | .ok requests =>
    match serviceOf request.headers with
    | .error e => (e.response, server)
    | .ok service =>
      match DispatchState.dispatch around config.dispatchSettings service requests server with
      | (.ok results, server) => (⟨207, .json (.array (results.map ItemResult.toJson))⟩, server)
      | (.error e, server) => ((ApiError.ofThrottled e).response, server)

/-- The answer on a route that takes the request's method, if there is one. -/
def answer (around : Surroundings σ κ) (config : Config) (now : Instant) (request : Request)
    (query : String) (server : Server σ κ) : Route → Option Response × Server σ κ
  | .health => (server.health around).map some id
  | .runs => server.list around.store.runsPage runsPath query now request.headers
  | .hosts => server.list around.store.hostsPage hostsPath query now request.headers
  | .dispatch => (server.dispatch around config request).map some id

/-- The answer to a request, if there is one: 404 without a route, 405 where the route does not
take the method. A `HEAD` request is answered as a `GET` would be, without the body. -/
def handle (around : Surroundings σ κ) (config : Config) (now : Instant) (request : Request)
    (server : Server σ κ) : Option Response × Server σ κ :=
  let (path, query) := splitTarget request.target
  match Route.ofPath? path with
  | none => (some ⟨404, .empty⟩, server)
  | some route =>
    if route.takes request.method then
      let (response?, server) := server.answer around config now request query route
      (if request.method = "HEAD" then response?.map ({ · with body := .empty }) else response?,
        server)
    else (some ⟨405, .empty⟩, server)

end Server

end PlaybookRuns.Http
