import PlaybookRuns.Proofs.Http.Untraced

/-!
# What callers learn of failures

Stores and connectors fail with texts of their own. Main statement: surroundings that fail at the
same operations, whatever their texts say, give the same answers to the same requests and leave the
same server behind. All that is told of a failure is which recipient was not found.
-/

namespace PlaybookRuns

/-- An outcome of which only `seen` is shown where it is an error. -/
def veiled {ε δ α σ : Type} (seen : ε → δ) (outcome : Except ε α × σ) : Except δ α × σ :=
  (outcome.1.mapError seen, outcome.2)

/-- Outcomes look the same where they are the same, or errors that look the same. -/
theorem veiled_cases {ε δ α σ : Type} {seen : ε → δ} {x y : Except ε α × σ}
    (h : veiled seen x = veiled seen y) :
    (∃ a s, x = (.ok a, s) ∧ y = (.ok a, s)) ∨
      ∃ e e' s, x = (.error e, s) ∧ y = (.error e', s) ∧ seen e = seen e' := by
  obtain ⟨x | x, s⟩ := x <;> obtain ⟨y | y, s'⟩ := y <;>
    simp only [veiled, Except.mapError, Prod.mk.injEq, Except.error.injEq, Except.ok.injEq,
      reduceCtorEq, false_and] at h
  · obtain ⟨hseen, rfl⟩ := h
    exact .inr ⟨x, y, s, rfl, rfl, hseen⟩
  · obtain ⟨rfl, rfl⟩ := h
    exact .inl ⟨x, s, rfl, rfl⟩

/-- The recipient that was not found, where that is what went wrong. -/
def ConnectorError.missing? : ConnectorError → Option Uuid
  | recipientNotFound id => some id
  | unreachable | failed _ => none

/-- The refusal of a list request, where that is what went wrong. -/
def ListingError.query? : ListingError → Option QueryError
  | query e => some e
  | store _ => none

/-- Whether two stores fail at the same operations, and are otherwise the same. -/
structure RunStore.FailsLike {σ : Type} (store store' : RunStore σ) : Prop where
  insert (run : Run) (hosts : List Host) (state : σ) :
    veiled (fun _ ↦ ()) (store.insert run hosts state) =
      veiled (fun _ ↦ ()) (store'.insert run hosts state)
  listRuns (query : Query.ListQuery Query.RunSortKey) (state : σ) :
    veiled (fun _ ↦ ()) (store.listRuns query state) =
      veiled (fun _ ↦ ()) (store'.listRuns query state)
  listHosts (query : Query.ListQuery Query.HostSortKey) (state : σ) :
    veiled (fun _ ↦ ()) (store.listHosts query state) =
      veiled (fun _ ↦ ()) (store'.listHosts query state)
  ping (state : σ) :
    veiled (fun _ ↦ ()) (store.ping state) = veiled (fun _ ↦ ()) (store'.ping state)

/-- Whether surroundings differ at most in what their stores and connectors say of failures. -/
structure Surroundings.FailsLike {σ κ : Type} (around around' : Surroundings σ κ) : Prop where
  store : around.store.FailsLike around'.store
  connector (message : Message) (state : κ) :
    veiled ConnectorError.missing? (around.connector message state) =
      veiled ConnectorError.missing? (around'.connector message state)
  runId_eq : around.runId = around'.runId
  hostId_eq : around.hostId = around'.hostId
  createdAt_eq : around.createdAt = around'.createdAt

/-! ## Batches -/

private theorem result_connector_eq {e e' : ConnectorError} (h : e.missing? = e'.missing?) :
    (ItemError.connector e).result = (ItemError.connector e').result := by
  cases e <;> cases e' <;> simp_all [ConnectorError.missing?, ItemError.result]

namespace DispatchState

variable {σ κ : Type} {around around' : Surroundings σ κ} (h : around.FailsLike around')
  (settings : DispatchSettings) (service : String)
include h

private theorem keep_alike (request : RunRequest) (targets : List NamedTarget) (message : Message)
    (correlationId : Uuid) (state : DispatchState σ κ) :
    (state.keep around service request targets message correlationId).map itemResult id =
      (state.keep around' service request targets message correlationId).map itemResult id := by
  unfold keep
  rw [h.createdAt_eq, h.hostId_eq]
  dsimp only
  rcases veiled_cases (h.store.insert _ _ state.store) with
    ⟨_, store, hx, hy⟩ | ⟨e, e', store, hx, hy, -⟩
  · rw [hx, hy]
  · rw [hx, hy]
    rfl

private theorem send_alike (request : RunRequest) (targets : List NamedTarget) (message : Message)
    (state : DispatchState σ κ) :
    (state.send around service request targets message).map itemResult id =
      (state.send around' service request targets message).map itemResult id := by
  unfold send
  rcases veiled_cases (h.connector message state.connector) with
    ⟨correlationId, connector, hx, hy⟩ | ⟨e, e', connector, hx, hy, hseen⟩
  · rw [hx, hy]
    exact keep_alike h service request targets message correlationId _
  · rw [hx, hy]
    exact Prod.ext (result_connector_eq hseen) rfl

private theorem dispatchItem_alike (request : RunRequest) (state : DispatchState σ κ) :
    (state.dispatchItem around settings service request).map itemResult id =
      (state.dispatchItem around' settings service request).map itemResult id := by
  unfold dispatchItem
  cases request.validate settings.defaultTimeout with
  | error e => rfl
  | ok valid =>
    rw [h.runId_eq]
    exact send_alike h service request _ _ state

private theorem dispatchItems_alike (requests : List RunRequest) (state : DispatchState σ κ) :
    dispatchItems around settings service requests state =
      dispatchItems around' settings service requests state := by
  induction requests generalizing state with
  | nil => rfl
  | cons request requests ih =>
    have hitem := dispatchItem_alike h settings service request state
    rcases hx : state.dispatchItem around settings service request with ⟨outcome, after⟩
    rcases hy : state.dispatchItem around' settings service request with ⟨outcome', after'⟩
    rw [hx, hy] at hitem
    obtain ⟨hresult, hafter⟩ := Prod.mk.inj hitem
    obtain rfl : after = after' := hafter
    have hresult : itemResult outcome = itemResult outcome' := hresult
    rw [dispatchItems, dispatchItems, hx, hy]
    dsimp only
    rw [hresult, ih]

private theorem dispatch_alike (requests : List RunRequest) (state : DispatchState σ κ) :
    state.dispatch around settings service requests =
      state.dispatch around' settings service requests := by
  rcases Nat.lt_or_ge settings.maxWait (state.limiter.wait service state.clock) with hlate | hin
  · rw [dispatch_of_lt hlate, dispatch_of_lt hlate]
  · rw [dispatch_of_le hin, dispatch_of_le hin, dispatchItems_alike h]

end DispatchState

/-! ## Listings -/

private theorem serveListing_alike {φ κ ρ σ : Type} [Query.FieldSet φ] [Query.SortKeys κ ρ]
    [Listable ρ φ κ] {fetch fetch' : Query.ListQuery κ → StoreAction σ (Option (Listing ρ))}
    (h : ∀ query state, veiled (fun _ ↦ ()) (fetch query state) =
      veiled (fun _ ↦ ()) (fetch' query state)) (context : ListContext) (state : σ) :
    veiled ListingError.query? (serveListing fetch context state) =
      veiled ListingError.query? (serveListing fetch' context state) := by
  unfold serveListing
  cases (Query.ListRequest.ofParams (Listable.resource ρ) context.params :
      Except _ (Query.ListRequest φ κ)) with
  | error e => rfl
  | ok request =>
    dsimp only
    rcases veiled_cases (h (request.toQuery context.orgId context.now) state) with
      ⟨listing?, after, hx, hy⟩ | ⟨e, e', after, hx, hy, -⟩
    · rw [hx, hy]
    · rw [hx, hy]
      rfl

namespace Http.Server

variable {σ κ : Type} {around around' : Surroundings σ κ}

private theorem response_ofListing_eq {e e' : ListingError} (h : e.query? = e'.query?) :
    (ApiError.ofListing e).response = (ApiError.ofListing e').response := by
  cases e with
  | query e =>
    cases e' with
    | query e' => rw [Option.some.inj h]
    | store e' => cases h
  | store e =>
    cases e' with
    | query e' => cases h
    | store e' => rfl

private theorem list_alike
    {serve serve' : ListContext → σ → Except ListingError (Option ListPage) × σ}
    (h : ∀ context state, veiled ListingError.query? (serve context state) =
      veiled ListingError.query? (serve' context state)) (path query : String)
    (now : Time.Instant) (headers : List Header) (server : Server σ κ) :
    server.list serve path query now headers = server.list serve' path query now headers := by
  unfold list
  cases orgIdOf headers with
  | error e => rfl
  | ok orgId =>
    dsimp only
    rcases veiled_cases (h ⟨orgId, path, Query.Params.ofText query, now⟩ server.store) with
      ⟨page?, store, hx, hy⟩ | ⟨e, e', store, hx, hy, hseen⟩
    · rw [hx, hy]
    · rw [hx, hy]
      dsimp only
      rw [response_ofListing_eq hseen]

section Requests

variable (h : around.FailsLike around')
include h

private theorem health_alike (server : Server σ κ) :
    server.health around = server.health around' := by
  unfold health
  rcases veiled_cases (h.store.ping server.store) with
    ⟨_, store, hx, hy⟩ | ⟨e, e', store, hx, hy, -⟩
  · rw [hx, hy]
  · rw [hx, hy]
    rfl

private theorem answer_alike (config : Config) (now : Time.Instant) (request : Request)
    (query : String) (server : Server σ κ) (route : Route) :
    server.answer around config now request query route =
      server.answer around' config now request query route := by
  cases route with
  | health => rw [answer, answer, health_alike h]
  | runs =>
    exact list_alike (fun context state ↦ serveListing_alike h.store.listRuns context state)
      runsPath query now request.headers server
  | hosts =>
    exact list_alike (fun context state ↦ serveListing_alike h.store.listHosts context state)
      hostsPath query now request.headers server
  | dispatch =>
    have hserved : DispatchState.dispatch around = DispatchState.dispatch around' := by
      funext settings service requests state
      exact DispatchState.dispatch_alike h settings service requests state
    rw [answer, answer, dispatch, dispatch, hserved]

/-- A request is answered alike, and leaves the same server behind. -/
theorem handle_alike (config : Config) (now : Time.Instant) (request : Request)
    (server : Server σ κ) :
    server.handle around config now request = server.handle around' config now request := by
  unfold handle
  simp only [answer_alike h]

/-- Whatever the texts say with which stores and connectors fail, nothing of it is seen: the answers
to all requests, the clock, and the server that is left behind with its store, connector, limiter
and messages are the same in surroundings that fail at the same operations. -/
theorem run_eq_of_failsLike (config : Config) (events : List Event) (server : Server σ κ) :
    run around config events server = run around' config events server := by
  induction events generalizing server with
  | nil => rfl
  | cons event events ih =>
    have hstep : server.step around config event = server.step around' config event := by
      cases event with
      | request now request => rw [step, step, handle_alike h]
      | wait elapsed => rfl
    rw [run, run, hstep, ih]

end Requests

-- Surroundings in which every other operation of the store fails, and every other delivery, both
-- with a text.
private def flaky (detail : String) : Surroundings (Memory × Bool) Bool where
  store := {
    insert run hosts state :=
      if state.2 then (.error (.failed detail), (state.1, false))
      else (.ok (), (state.1.insert run hosts, true))
    listRuns query state :=
      if state.2 then (.error (.failed detail), (state.1, false))
      else (.ok (state.1.listRuns? query), (state.1, true))
    listHosts query state :=
      if state.2 then (.error (.failed detail), (state.1, false))
      else (.ok (state.1.listHosts? query), (state.1, true))
    ping state :=
      if state.2 then (.error (.failed detail), (state.1, false)) else (.ok (), (state.1, true)) }
  connector _ fails := if fails then (.error (.failed detail), false) else (.ok ⟨7⟩, true)
  runId := .ofNat
  hostId := .ofNat
  createdAt _ := ⟨0, 0⟩

private theorem flaky_failsLike (detail detail' : String) :
    (flaky detail).FailsLike (flaky detail') where
  store := {
    insert run hosts := fun (_, fails) ↦ by cases fails <;> rfl
    listRuns query := fun (_, fails) ↦ by cases fails <;> rfl
    listHosts query := fun (_, fails) ↦ by cases fails <;> rfl
    ping := fun (_, fails) ↦ by cases fails <;> rfl }
  connector message fails := by cases fails <;> rfl
  runId_eq := rfl
  hostId_eq := rfl
  createdAt_eq := rfl

private def getHealth : Request := ⟨"GET", "/health", [], ""⟩

private def getRuns : Request :=
  ⟨"GET", "/api/playbook-dispatcher/v1/runs", [("x-org-id", "5318290")], ""⟩

private def postThree : Request where
  method := "POST"
  target := "/internal/dispatch"
  headers := [("content-type", "application/json"), ("x-dispatcher-service", "remediations")]
  body :=
    let recipient := "00000000-0000-0000-0000-000000000001"
    let item := "[\"" ++ recipient ++ "\",\"5318290\",\"https://example.com/run\"]"
    "[" ++ item ++ "," ++ item ++ "," ++ item ++ "]"

/-- Of three runs one is kept, one is not delivered and one is not stored; the check of health after
them succeeds and the listing fails. None of it depends on the texts with which that happens. -/
theorem run_eq_of_flaky :
    let server : Server (Memory × Bool) Bool := .start .initial (∅, false) false
    let events := [Event.request ⟨0, 0⟩ postThree, .request ⟨1, 0⟩ getHealth,
      .request ⟨2, 0⟩ getRuns]
    let seen := run (flaky "password refused for user dispatcher") .initial events server
    seen.1.map (fun o ↦ o.response?.map (·.status)) = [some 207, some 200, some 500] ∧
      seen.2.sent.length = 3 ∧ seen.2.store.1.runs.length = 1 ∧
      seen = run (flaky "disk full on db-1") .initial events server := by
  intro server events seen
  have hseen : (seen.1.map (fun o ↦ o.response?.map (·.status)), seen.2.sent.length,
      seen.2.store.1.runs.length) = ([some 207, some 200, some 500], 3, 1) := by decide +kernel
  rw [Prod.mk.injEq, Prod.mk.injEq] at hseen
  exact ⟨hseen.1, hseen.2.1, hseen.2.2,
    run_eq_of_failsLike (flaky_failsLike _ _) .initial events server⟩

end Http.Server

end PlaybookRuns
