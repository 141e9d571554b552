import PlaybookRuns.Http.Server
import PlaybookRuns.Proofs.Dispatch.Growth
import PlaybookRuns.Proofs.Uuid

/-!
# Reachable servers

What a server with a store in memory becomes by answering requests. Main statements: a request either
leaves it alone or is a dispatch that is admitted and answered item by item, its store only grows,
and what it reports as created has been added to its store.
-/

namespace PlaybookRuns

open PlaybookRuns.Time

/-! ## Written results -/

/-- Different identifiers are written differently. -/
theorem Uuid.toJson_injective : Function.Injective Uuid.toJson := by
  intro a b h
  exact Uuid.toText_injective (Json.string.inj h)

/-- The members of a result are its parts. -/
theorem ItemResult.member?_toJson (result : ItemResult) :
    result.toJson.member? "code" = some (.integer result.code.toNat) ∧
      result.toJson.member? "id" = result.id.map Uuid.toJson ∧
      result.toJson.member? "message" = result.message.map .string := by
  obtain ⟨code, id, message⟩ := result
  cases id <;> cases message <;> exact ⟨rfl, rfl, rfl⟩

/-- Different results are written differently. -/
theorem ItemResult.toJson_injective : Function.Injective ItemResult.toJson := by
  intro result result' h
  obtain ⟨hcode, hid, hmessage⟩ := result.member?_toJson
  obtain ⟨hcode', hid', hmessage'⟩ := result'.member?_toJson
  rw [h] at hcode hid hmessage
  obtain ⟨code, id, message⟩ := result
  obtain ⟨code', id', message'⟩ := result'
  have hsameCode : (code'.toNat : Int) = code.toNat :=
    Json.integer.inj (Option.some.inj (hcode'.symm.trans hcode))
  obtain rfl : code' = code := UInt16.toNat_inj.1 (Int.ofNat_inj.1 hsameCode)
  obtain rfl : id' = id := Option.map_injective Uuid.toJson_injective (hid'.symm.trans hid)
  obtain rfl : message' = message :=
    Option.map_injective (fun _ _ ↦ Json.string.inj) (hmessage'.symm.trans hmessage)
  rfl

/-! ## One request -/

/-- Listing changes a store only if fetching does. -/
theorem serveListing_snd {φ κ ρ σ : Type} [Query.FieldSet φ] [Query.SortKeys κ ρ]
    [Listable ρ φ κ] {fetch : Query.ListQuery κ → StoreAction σ (Option (Listing ρ))} {state : σ}
    (hfetch : ∀ query, (fetch query state).2 = state) (context : ListContext) :
    (serveListing fetch context state).2 = state := by
  rw [serveListing]
  split
  · rfl
  · next request _ =>
    have hstate := hfetch (request.toQuery context.orgId context.now)
    split
    · next hanswer =>
      rw [hanswer] at hstate
      exact hstate
    · next hanswer =>
      rw [hanswer] at hstate
      exact hstate

namespace Http.Server

variable {σ κ : Type}

/-- Whether a server becomes another by answering requests and letting time pass. -/
inductive Reaches (around : Surroundings σ κ) (config : Config) : Server σ κ → Server σ κ → Prop
    where
  | refl (server : Server σ κ) : Reaches around config server server
  | handle {first last : Server σ κ} (h : Reaches around config first last) (now : Instant)
      (request : Request) : Reaches around config first (last.handle around config now request).2
  | wait {first last : Server σ κ} (h : Reaches around config first last) (elapsed : Nat) :
      Reaches around config first { last with clock := last.clock + elapsed }

variable {around : Surroundings Memory κ} {config : Config}

open DispatchState (Grows Adds)

/-- Whether a server stays as it is, and gives an answer other than one item by item. -/
def LeftAlone (server : Server σ κ) (answer : Option Response × Server σ κ) : Prop :=
  answer.1.map (·.status) ≠ some 207 ∧ answer.2 = server

private theorem error_ne_207 (e : ApiError) : e.response.status ≠ 207 := by
  cases e <;> exact Nat.ne_of_beq_eq_false rfl

private theorem leftAlone_error (server : Server σ κ) (e : ApiError) :
    server.LeftAlone (some e.response, server) :=
  ⟨fun h ↦ error_ne_207 e (Option.some.inj h), rfl⟩

private theorem leftAlone_list
    {serve : ListContext → σ → Except ListingError (Option ListPage) × σ} {server : Server σ κ}
    (hserve : ∀ context, (serve context server.store).2 = server.store) (path query : String)
    (now : Instant) (headers : List Header) :
    server.LeftAlone (server.list serve path query now headers) := by
  rw [list]
  cases orgIdOf headers with
  | error e => exact leftAlone_error server e
  | ok orgId =>
    have hstate := hserve ⟨orgId, path, Query.Params.ofText query, now⟩
    rcases hanswer : serve ⟨orgId, path, Query.Params.ofText query, now⟩ server.store with
      ⟨e | page?, store⟩
    · rw [hanswer] at hstate
      subst hstate
      simpa only [hanswer] using leftAlone_error server (.ofListing e)
    · rw [hanswer] at hstate
      subst hstate
      simp only [hanswer]
      refine ⟨?_, rfl⟩
      cases page? <;> simp

/-! ## Dispatches -/

/-- Whether a request is a dispatch of requested runs on behalf of a service whose slot opens in
time. -/
structure Admits (config : Config) (server : Server σ κ) (request : Request)
    (requests : List RunRequest) (service : String) : Prop where
  method_eq : request.method = "POST"
  path_eq : (splitTarget request.target).1 = dispatchPath
  batch_eq : readBatch request = .ok requests
  service_eq : serviceOf request.headers = .ok service
  wait_le : server.limiter.wait service server.clock ≤ config.dispatchSettings.maxWait

/-- The answer to a batch. -/
def batchResponse : Except Throttled (List ItemResult) → Response
  | .ok results => ⟨207, .json (.array (results.map ItemResult.toJson))⟩
  | .error e => (ApiError.ofThrottled e).response

/-- A dispatch that is understood and comes from a service is answered as its batch is. -/
theorem dispatch_of_read {around : Surroundings σ κ} {server after : Server σ κ}
    {request : Request} {requests : List RunRequest} {service : String}
    {answer : Except Throttled (List ItemResult)}
    (hbatch : readBatch request = .ok requests) (hservice : serviceOf request.headers = .ok service)
    (hserved : DispatchState.dispatch around config.dispatchSettings service requests server =
      (answer, after)) :
    server.dispatch around config request = (batchResponse answer, after) := by
  -- serving is kept closed, since evaluating it counts nanoseconds one by one
  obtain ⟨serve, hserve⟩ :
    ∃ serve, serve = DispatchState.dispatch around config.dispatchSettings := ⟨_, rfl⟩
  unfold dispatch
  rw [← hserve] at hserved ⊢
  rw [hbatch, hservice]
  dsimp only
  rw [hserved]
  cases answer <;> rfl

/-- A dispatch that is understood, comes from a service and is admitted is answered item by item. -/
theorem dispatch_of_served {around : Surroundings σ κ} {server after : Server σ κ}
    {request : Request} {requests : List RunRequest} {service : String} {results : List ItemResult}
    (hbatch : readBatch request = .ok requests) (hservice : serviceOf request.headers = .ok service)
    (hserved : DispatchState.dispatch around config.dispatchSettings service requests server =
      (.ok results, after)) :
    server.dispatch around config request =
      (⟨207, .json (.array (results.map ItemResult.toJson))⟩, after) :=
  dispatch_of_read hbatch hservice hserved

private theorem ne_207_of_readBatch {request : Request} {status : Nat}
    (h : readBatch request = .error status) : status ≠ 207 := by
  rintro rfl
  unfold readBatch at h
  split at h
  · split at h <;> cases h
  · cases h

/-- A request to dispatch is answered as one. -/
theorem handle_of_dispatchPath (around : Surroundings σ κ) (config : Config) (now : Instant)
    {request : Request} (server : Server σ κ) (hmethod : request.method = "POST")
    (hpath : (splitTarget request.target).1 = dispatchPath) :
    server.handle around config now request =
      (server.dispatch around config request).map some id := by
  have hroute : Route.ofPath? dispatchPath = some .dispatch := by decide
  rcases htarget : splitTarget request.target with ⟨path, query⟩
  rw [htarget] at hpath
  obtain rfl : path = dispatchPath := hpath
  unfold handle
  rw [htarget]
  dsimp only
  rw [hroute, hmethod]
  rfl

/-- A dispatch that is admitted is answered item by item. -/
theorem handle_of_admits (around : Surroundings σ κ) (now : Instant) {server : Server σ κ}
    {request : Request} {requests : List RunRequest} {service : String}
    (h : server.Admits config request requests service) :
    server.handle around config now request =
      ((DispatchState.dispatchItems around config.dispatchSettings service requests
        (server.entered service)).map
          (fun results ↦ some ⟨207, .json (.array (results.map ItemResult.toJson))⟩) id) := by
  rw [handle_of_dispatchPath around config now server h.method_eq h.path_eq,
    dispatch_of_served h.batch_eq h.service_eq (DispatchState.dispatch_of_le h.wait_le requests)]
  rfl

/-- A dispatch that is not admitted leaves the server alone. -/
theorem leftAlone_or_admits (around : Surroundings σ κ) (config : Config)
    {request : Request} (server : Server σ κ) (hmethod : request.method = "POST")
    (hpath : (splitTarget request.target).1 = dispatchPath) :
    server.LeftAlone ((server.dispatch around config request).map some id) ∨
      ∃ requests service, server.Admits config request requests service := by
  cases hbatch : readBatch request with
  | error status =>
    left
    rw [dispatch, hbatch]
    exact ⟨fun h ↦ ne_207_of_readBatch hbatch (Option.some.inj h), rfl⟩
  | ok requests =>
    cases hservice : serviceOf request.headers with
    | error e =>
      left
      rw [dispatch, hbatch, hservice]
      exact leftAlone_error server e
    | ok service =>
      rcases Nat.lt_or_ge config.dispatchSettings.maxWait
        (server.limiter.wait service server.clock) with hlate | hin
      · left
        rw [dispatch_of_read hbatch hservice (DispatchState.dispatch_of_lt hlate requests)]
        exact leftAlone_error server (.ofThrottled _)
      · exact .inr ⟨requests, service, hmethod, hpath, hbatch, hservice, hin⟩

/-! ## Any request -/

private theorem leftAlone_answer (hstore : around.store = Memory.store) (config : Config)
    (now : Instant) (request : Request) (query : String) {route : Route}
    (hroute : route ≠ .dispatch) (server : Server Memory κ) :
    server.LeftAlone (server.answer around config now request query route) := by
  cases route with
  | health =>
    rw [answer, health, hstore]
    exact ⟨by simp [Memory.store], rfl⟩
  | runs =>
    apply leftAlone_list
    rw [hstore]
    exact serveListing_snd fun _ ↦ rfl
  | hosts =>
    apply leftAlone_list
    rw [hstore]
    exact serveListing_snd fun _ ↦ rfl
  | dispatch => exact absurd rfl hroute

/-- Only one path leads to dispatches. -/
theorem eq_dispatchPath_of_ofPath? {path : String}
    (h : Route.ofPath? path = some .dispatch) : path = dispatchPath := by
  obtain ⟨before, after, hroutes, -⟩ := List.lookup_eq_some_iff.1 h
  have hmem : (path, Route.dispatch) ∈ before ++ (path, Route.dispatch) :: after := by simp
  rw [← hroutes] at hmem
  simpa using hmem

private theorem leftAlone_handle_of_ne (hstore : around.store = Memory.store) (config : Config)
    (now : Instant) {request : Request} (server : Server Memory κ)
    (hother : ¬(request.method = "POST" ∧ (splitTarget request.target).1 = dispatchPath)) :
    server.LeftAlone (server.handle around config now request) := by
  unfold handle
  rcases htarget : splitTarget request.target with ⟨path, query⟩
  rw [htarget] at hother
  dsimp only
  split
  · exact ⟨by simp, rfl⟩
  · next route hroute =>
    split
    · next htakes =>
      have hroute' : route ≠ .dispatch := by
        rintro rfl
        exact hother ⟨by simpa [Route.takes] using htakes, eq_dispatchPath_of_ofPath? hroute⟩
      obtain ⟨hstatus, hsame⟩ := leftAlone_answer hstore config now request query hroute' server
      rcases hanswer : server.answer around config now request query route with
        ⟨response?, after⟩
      rw [hanswer] at hstatus hsame
      refine ⟨?_, hsame⟩
      dsimp only
      split
      · simpa [Option.map_map] using hstatus
      · exact hstatus
    · exact ⟨by simp, rfl⟩

/-- A request leaves the server alone, or is a dispatch that is admitted. -/
theorem handle_cases (hstore : around.store = Memory.store) (config : Config) (now : Instant)
    (request : Request) (server : Server Memory κ) :
    server.LeftAlone (server.handle around config now request) ∨
      ∃ requests service, server.Admits config request requests service := by
  by_cases hdispatch : request.method = "POST" ∧ (splitTarget request.target).1 = dispatchPath
  · obtain ⟨hmethod, hpath⟩ := hdispatch
    rw [handle_of_dispatchPath around config now server hmethod hpath]
    exact leftAlone_or_admits around config server hmethod hpath
  · exact .inl (leftAlone_handle_of_ne hstore config now server hdispatch)

/-- Answering a request lets the store grow. -/
theorem grows_handle (hstore : around.store = Memory.store) (config : Config) (now : Instant)
    (request : Request) (server : Server Memory κ) :
    Grows around server (server.handle around config now request).2 := by
  rcases handle_cases hstore config now request server with
    ⟨-, hsame⟩ | ⟨requests, service, hadmits⟩
  · rw [hsame]
    exact .refl server
  · rw [handle_of_admits around now hadmits]
    exact (DispatchState.grows_entered service server).trans
      (DispatchState.grows_dispatchItems hstore config.dispatchSettings service requests _)

/-- Each item of a dispatch that is reported as created has its run added. -/
theorem adds_of_handle (hstore : around.store = Memory.store) {now : Instant} {request : Request}
    {server : Server Memory κ} {items : List Json} (hmethod : request.method = "POST")
    (hpath : (splitTarget request.target).1 = dispatchPath)
    (hanswer : (server.handle around config now request).1 = some ⟨207, .json (.array items)⟩) :
    ∃ requests service, readBatch request = .ok requests ∧
      serviceOf request.headers = .ok service ∧
      ∀ (i : Nat) (item : RunRequest) (id : Uuid), requests[i]? = some item →
        items[i]? = some (ItemResult.created id).toJson →
        ∃ place run, run.IsMade around config.defaultRunTimeout service item place ∧
          run.id = id ∧
          Adds around server (server.handle around config now request).2 place run := by
  have hcases := leftAlone_or_admits around config server hmethod hpath
  rw [← handle_of_dispatchPath around config now server hmethod hpath] at hcases
  rcases hcases with ⟨hother, -⟩ | ⟨requests, service, hadmits⟩
  · rw [hanswer] at hother
    exact absurd rfl hother
  · rw [handle_of_admits around now hadmits] at hanswer ⊢
    obtain rfl := Json.array.inj (Body.json.inj (congrArg Response.body (Option.some.inj hanswer)))
    refine ⟨requests, service, hadmits.batch_eq, hadmits.service_eq, fun i item id hitem hmade ↦ ?_⟩
    rw [List.getElem?_map, Option.map_eq_some_iff] at hmade
    obtain ⟨result, hresult, hwritten⟩ := hmade
    rw [ItemResult.toJson_injective hwritten] at hresult
    obtain ⟨place, run, hmade, hid, hadds⟩ := DispatchState.adds_of_created hstore
      config.dispatchSettings service (server.entered service) hitem hresult
    exact ⟨place, run, hmade, hid, hadds.of_grows (DispatchState.grows_entered service server)⟩

/-- A server that is reached from another has a store that has grown. -/
theorem Reaches.grows (hstore : around.store = Memory.store) {first last : Server Memory κ}
    (h : Reaches around config first last) : Grows around first last := by
  induction h with
  | refl => exact .refl _
  | handle h now request ih => exact ih.trans (grows_handle hstore config now request _)
  | wait h elapsed ih => exact ih.trans (.of_store_eq rfl (Nat.le_refl _))

end Http.Server

end PlaybookRuns
