import PlaybookRuns.Proofs.Admission.History
import PlaybookRuns.Proofs.Http.Untraced
import PlaybookRuns.Proofs.Text.Integer

/-!
# Coming back after a refusal

A service that is turned away is told after how many milliseconds to come back, rounded down. Main
statement: a service that comes back just then is admitted exactly where it would wait for what was
rounded off; one millisecond later it is always admitted.
-/

namespace PlaybookRuns

open PlaybookRuns.Time

/-- What a caller is told of the time to come back. -/
theorem Throttled.message_eq_iff {t : Throttled} {n : Nat} :
    t.message = "rate limit exceeded, retry after " ++ toString n ++ "ms" ↔
      t.retryAfter / nanosPerMilli = n := by
  refine (String.append_left_inj _).trans ((String.append_right_inj _).trans ⟨fun h ↦ ?_, ?_⟩)
  · exact Text.toString_injective h
  · exact congrArg toString

namespace Limiter

variable {l l' : Limiter} {key : String}

/-- Two limiters that know the same of a caller let it wait equally long. -/
theorem wait_congr (hknown : Keyed.find? key l.arrivals = Keyed.find? key l'.arrivals)
    (htolerance : l.tolerance = l'.tolerance) (now : Nat) : l.wait key now = l'.wait key now := by
  rw [wait, wait, arrival, arrival, hknown, htolerance]

end Limiter

namespace Http

/-- The message that a response gives in its body. -/
def Response.message? (response : Response) : Option String :=
  match response.body with
  | .json value => (value.member? "message").bind Json.text?
  | .empty | .text _ | .rejected => none

/-- The answer to a refused request tells why it is refused. -/
theorem ApiError.message?_response (e : ApiError) : e.response.message? = some e.message := rfl

namespace Server

variable {σ κ : Type} {around : Surroundings σ κ} {config : Config} {service : String}

/-- Whether a request is a dispatch of requested runs on behalf of a service. -/
structure Dispatches (request : Request) (requests : List RunRequest) (service : String) : Prop
    where
  method_eq : request.method = "POST"
  path_eq : (splitTarget request.target).1 = dispatchPath
  batch_eq : readBatch request = .ok requests
  service_eq : serviceOf request.headers = .ok service

/-- A dispatch is admitted for its service only, and where the slot of that opens in time. -/
theorem Dispatches.admits_iff {request : Request} {requests requests' : List RunRequest}
    {service' : String} (h : Dispatches request requests service) {server : Server σ κ} :
    server.Admits config request requests' service' ↔
      requests' = requests ∧ service' = service ∧
        server.limiter.wait service server.clock ≤ config.dispatchSettings.maxWait := by
  constructor
  · intro hadmits
    obtain rfl := Except.ok.inj (h.batch_eq.symm.trans hadmits.batch_eq)
    obtain rfl := Except.ok.inj (h.service_eq.symm.trans hadmits.service_eq)
    exact ⟨rfl, rfl, hadmits.wait_le⟩
  · rintro ⟨rfl, rfl, hwait⟩
    exact ⟨h.method_eq, h.path_eq, h.batch_eq, h.service_eq, hwait⟩

/-- Whether a server becomes another by answering requests and letting time pass, while no dispatch
of a service is admitted. -/
inductive ReachesWithout (around : Surroundings σ κ) (config : Config) (service : String) :
    Server σ κ → Server σ κ → Prop where
  | refl (server : Server σ κ) : ReachesWithout around config service server server
  | handle {first last : Server σ κ} (h : ReachesWithout around config service first last)
      (now : Instant) (request : Request)
      (hother : ∀ requests, ¬last.Admits config request requests service) :
      ReachesWithout around config service first (last.handle around config now request).2
  | wait {first last : Server σ κ} (h : ReachesWithout around config service first last)
      (elapsed : Nat) :
      ReachesWithout around config service first { last with clock := last.clock + elapsed }

/-! ## What a request does to the limiter -/

private theorem limiter_answer (around : Surroundings σ κ) (config : Config) (now : Instant)
    (request : Request) (query : String) (server : Server σ κ) {route : Route}
    (hroute : route ≠ .dispatch) :
    (server.answer around config now request query route).2.limiter = server.limiter := by
  have hlist (serve : ListContext → σ → Except ListingError (Option ListPage) × σ)
      (path : String) :
      (server.list serve path query now request.headers).2.limiter = server.limiter := by
    unfold list
    cases orgIdOf request.headers with
    | error e => rfl
    | ok orgId =>
      dsimp only
      split <;> rfl
  cases route with
  | health =>
    rw [answer, health]
    split <;> rfl
  | runs => exact hlist _ _
  | hosts => exact hlist _ _
  | dispatch => exact absurd rfl hroute

/-- A request claims no slot, or is a dispatch that is admitted. -/
theorem limiter_handle (around : Surroundings σ κ) (config : Config) (now : Instant)
    (request : Request) (server : Server σ κ) :
    (server.handle around config now request).2.limiter = server.limiter ∨
      ∃ requests service, server.Admits config request requests service := by
  by_cases hdispatch : request.method = "POST" ∧ (splitTarget request.target).1 = dispatchPath
  · obtain ⟨hmethod, hpath⟩ := hdispatch
    rw [handle_of_dispatchPath around config now server hmethod hpath]
    exact (leftAlone_or_admits around config server hmethod hpath).imp_left
      fun halone ↦ congrArg DispatchState.limiter halone.2
  · left
    unfold handle
    rcases htarget : splitTarget request.target with ⟨path, query⟩
    rw [htarget] at hdispatch
    dsimp only
    split
    · rfl
    · next route hroute =>
      split
      · next htakes =>
        apply limiter_answer around config now request query server
        rintro rfl
        exact hdispatch ⟨by simpa [Route.takes] using htakes, eq_dispatchPath_of_ofPath? hroute⟩
      · rfl

/-- A dispatch that is admitted claims a slot of its service. -/
theorem limiter_handle_of_admits (around : Surroundings σ κ) (now : Instant) {server : Server σ κ}
    {request : Request} {requests : List RunRequest}
    (h : server.Admits config request requests service) :
    (server.handle around config now request).2.limiter =
      server.limiter.claimed service server.clock := by
  rw [handle_of_admits around now h]
  exact (DispatchState.admission_dispatchItems around config.dispatchSettings service requests
    (server.entered service)).1

/-- While no dispatch of a service is admitted, its limiter knows the same of it. -/
theorem ReachesWithout.known_eq {first last : Server σ κ}
    (h : ReachesWithout around config service first last) :
    Keyed.find? service last.limiter.arrivals = Keyed.find? service first.limiter.arrivals ∧
      last.limiter.tolerance = first.limiter.tolerance := by
  induction h with
  | refl => exact ⟨rfl, rfl⟩
  | wait h elapsed ih => exact ih
  | @handle last h now request hother ih =>
    rcases limiter_handle around config now request last with hsame | ⟨requests, other, hadmits⟩
    · rw [hsame]
      exact ih
    · have hne : service ≠ other := fun heq ↦ hother requests (heq ▸ hadmits)
      rw [limiter_handle_of_admits around now hadmits, Limiter.claimed, Keyed.find?_insert,
        if_neg hne]
      exact ih

/-! ## The answer to a dispatch -/

namespace Dispatches

variable {request : Request} {requests : List RunRequest} {server : Server σ κ}

/-- A dispatch of a service whose slot opens too late is turned away, and told the time. -/
theorem handle_of_lt (h : Dispatches request requests service) (around : Surroundings σ κ)
    (now : Instant)
    (hlate : config.dispatchSettings.maxWait < server.limiter.wait service server.clock) :
    server.handle around config now request =
      (some (ApiError.ofThrottled ⟨server.limiter.wait service server.clock⟩).response,
        server) := by
  rw [handle_of_dispatchPath around config now server h.method_eq h.path_eq,
    dispatch_of_read h.batch_eq h.service_eq (DispatchState.dispatch_of_lt hlate requests)]
  rfl

/-- A dispatch is answered item by item exactly where the slot of its service opens in time. -/
theorem status_eq_207_iff (h : Dispatches request requests service) (around : Surroundings σ κ)
    (now : Instant) :
    (server.handle around config now request).1.map (·.status) = some 207 ↔
      server.limiter.wait service server.clock ≤ config.dispatchSettings.maxWait := by
  constructor
  · intro hstatus
    by_contra hlate
    rw [h.handle_of_lt around now (Nat.lt_of_not_le hlate)] at hstatus
    cases hstatus
  · intro hwait
    rw [handle_of_admits around now (h.admits_iff.2 ⟨rfl, rfl, hwait⟩)]
    rfl

/-- What a service is told that is turned away, and that nothing changes then. -/
theorem wait_of_refused (h : Dispatches request requests service) {around : Surroundings σ κ}
    {now : Instant} {n : Nat}
    (hanswer : (server.handle around config now request).1.map (fun r ↦ (r.status, r.message?)) =
      some (429, some ("rate limit exceeded, retry after " ++ toString n ++ "ms"))) :
    server.limiter.wait service server.clock / nanosPerMilli = n ∧
      (server.handle around config now request).2 = server := by
  have hlate : config.dispatchSettings.maxWait < server.limiter.wait service server.clock := by
    by_contra hin
    have hstatus := (h.status_eq_207_iff around now).2 (Nat.le_of_not_lt hin)
    obtain ⟨response, hresponse, hrefused⟩ := Option.map_eq_some_iff.1 hanswer
    rw [hresponse, Option.map_some, (Prod.mk.inj hrefused).1] at hstatus
    cases hstatus
  rw [h.handle_of_lt around now hlate] at hanswer ⊢
  obtain ⟨-, hmessage⟩ := Prod.mk.inj (Option.some.inj hanswer)
  rw [ApiError.message?_response] at hmessage
  exact ⟨Throttled.message_eq_iff.1 (Option.some.inj hmessage), rfl⟩

end Dispatches

/-- A service that is turned away and told to come back after some milliseconds is admitted just
then, unless another dispatch of its own was in between, exactly where it would wait for the part of
a millisecond that the time it was told has lost. A millisecond later it is admitted in any case. -/
theorem retried_admitted_iff {server later : Server σ κ} {now moment : Instant}
    {request again : Request} {requests requests' : List RunRequest} {n : Nat}
    (hrequest : Dispatches request requests service)
    (hanswer : (server.handle around config now request).1.map (fun r ↦ (r.status, r.message?)) =
      some (429, some ("rate limit exceeded, retry after " ++ toString n ++ "ms")))
    (hlater :
      ReachesWithout around config service (server.handle around config now request).2 later)
    (hagain : Dispatches again requests' service) :
    (later.clock = server.clock + n * nanosPerMilli →
      ((later.handle around config moment again).1.map (·.status) = some 207 ↔
        server.limiter.wait service server.clock % nanosPerMilli ≤ config.maxWait)) ∧
    (server.clock + (n + 1) * nanosPerMilli ≤ later.clock →
      (later.handle around config moment again).1.map (·.status) = some 207) := by
  obtain ⟨htold, hsame⟩ := hrequest.wait_of_refused hanswer
  rw [hsame] at hlater
  obtain ⟨hknown, htolerance⟩ := hlater.known_eq
  have hwait (elapsed : Nat) (hclock : later.clock = server.clock + elapsed) :
      later.limiter.wait service later.clock =
        server.limiter.wait service server.clock - elapsed := by
    rw [Limiter.wait_congr hknown htolerance, hclock, Limiter.wait_add]
  have hmax : config.dispatchSettings.maxWait = config.maxWait := rfl
  rw [hagain.status_eq_207_iff, hmax]
  simp only [show nanosPerMilli = 1000000 from rfl] at htold ⊢
  constructor
  · intro hclock
    rw [hwait _ hclock]
    omega
  · intro hclock
    rw [hwait (later.clock - server.clock) (by omega)]
    omega

private def timesASecond (rate : UInt32) : Config :=
  { Config.initial with ratePerSecond := rate, rateBurst := 1, maxWaitMillis := 0 }

private def emptyPost : Request where
  method := "POST"
  target := "/internal/dispatch"
  headers := [("content-type", "application/json"), ("x-dispatcher-service", "remediations")]
  body := "[]"

private theorem dispatches_emptyPost : Dispatches emptyPost [] "remediations" where
  method_eq := rfl
  path_eq := by decide +kernel
  batch_eq := by decide +kernel
  service_eq := by decide +kernel

/-- Of two dispatches at once the second is told to come back after 200 ms where five are allowed
in a second, and is admitted then. -/
theorem retried_admitted_of_whole :
    let config := timesASecond 5
    let server : Server Memory Unit :=
      ((Server.start config ∅ ()).handle .counting config ⟨0, 0⟩ emptyPost).2
    let refused := server.handle .counting config ⟨0, 0⟩ emptyPost
    let later : Server Memory Unit :=
      { refused.2 with clock := refused.2.clock + 200 * nanosPerMilli }
    refused.1.map (fun r ↦ (r.status, r.message?)) =
        some (429, some "rate limit exceeded, retry after 200ms") ∧
      (later.handle .counting config ⟨0, 0⟩ emptyPost).1.map (·.status) = some 207 := by
  intro config server refused later
  have hrefused : refused.1.map (fun r ↦ (r.status, r.message?)) =
      some (429, some ("rate limit exceeded, retry after " ++ toString 200 ++ "ms")) := by
    decide +kernel
  have hlost :
      server.limiter.wait "remediations" server.clock % nanosPerMilli ≤ config.maxWait := by
    decide +kernel
  have hclock : later.clock = server.clock + 200 * nanosPerMilli := by decide +kernel
  have hretried : (later.handle .counting config ⟨0, 0⟩ emptyPost).1.map (·.status) = some 207 ↔
      server.limiter.wait "remediations" server.clock % nanosPerMilli ≤ config.maxWait :=
    (retried_admitted_iff dispatches_emptyPost hrefused
      (.wait (.refl _) (200 * nanosPerMilli)) dispatches_emptyPost).1 hclock
  exact ⟨hrefused, hretried.2 hlost⟩

/-- Where three dispatches are allowed in a second, a service is told to come back after 333 ms; it
does, is turned away again, and is told to come back after 0 ms. -/
theorem retried_refused_of_thirds :
    let config := timesASecond 3
    let post := Event.request ⟨0, 0⟩ emptyPost
    let seen := (run .counting config [post, post, .wait (333 * nanosPerMilli), post]
      (.start config (∅ : Memory) ())).1
    config.validate = .ok () ∧
      (seen.map fun o ↦ (o.response?.map fun r ↦ (r.status, r.message?), o.clock)) =
        [(some (207, none), 0),
          (some (429, some "rate limit exceeded, retry after 333ms"), 0),
          (none, 333000000),
          (some (429, some "rate limit exceeded, retry after 0ms"), 333000000)] := by
  decide +kernel

end Server

end Http

end PlaybookRuns
