import PlaybookRuns.Proofs.Http.Reachable

/-!
# Requests without a trace

What is seen of a server with a store in memory while requests come and time passes. Main
statement: a request that is not answered item by item might as well not have been made, and one
that is claims a single slot of its service, however many items it has.
-/

namespace PlaybookRuns.Http.Server

open PlaybookRuns.Time

variable {σ κ : Type}

/-- What happens to a server: a request comes at a time of day, or time passes. -/
inductive Event where
  | request (now : Instant) (request : Request)
  | wait (elapsed : Nat)

/-- What is seen of an event: the answer, where there is one, and the clock after it. -/
structure Observation where
  response? : Option Response
  clock : Nat

/-- What is seen of an event, and the server after it. -/
def step (around : Surroundings σ κ) (config : Config) (server : Server σ κ) :
    Event → Observation × Server σ κ
  | .request now request =>
    let answered := server.handle around config now request
    (⟨answered.1, answered.2.clock⟩, answered.2)
  | .wait elapsed =>
    let clock := server.clock + elapsed
    (⟨none, clock⟩, { server with clock })

/-- What is seen of events that happen one after the other, and the server after them. -/
def run (around : Surroundings σ κ) (config : Config) :
    List Event → Server σ κ → List Observation × Server σ κ
  | [], server => ([], server)
  | event :: events, server =>
    let seen := server.step around config event
    let rest := run around config events seen.2
    (seen.1 :: rest.1, rest.2)

section Runs

variable (around : Surroundings σ κ) (config : Config)

/-- Each event is seen once. -/
theorem length_run (events : List Event) (server : Server σ κ) :
    (run around config events server).1.length = events.length := by
  induction events generalizing server with
  | nil => rfl
  | cons event events ih => rw [run, List.length_cons, ih, List.length_cons]

/-- Later events are seen from the server that earlier ones leave. -/
theorem run_append (before after : List Event) (server : Server σ κ) :
    run around config (before ++ after) server =
      ((run around config before server).1 ++
          (run around config after (run around config before server).2).1,
        (run around config after (run around config before server).2).2) := by
  induction before generalizing server with
  | nil => rfl
  | cons event before ih =>
    rw [List.cons_append, run, ih]
    rfl

/-- An event that leaves the server as it is might as well not happen. -/
theorem run_append_of_step {before : List Event} {event : Event} {server : Server σ κ}
    (h : ((run around config before server).2.step around config event).2 =
      (run around config before server).2) (after : List Event) :
    run around config (before ++ after) server =
      ((run around config (before ++ event :: after) server).1.eraseIdx before.length,
        (run around config (before ++ event :: after) server).2) := by
  have hlength := length_run around config before server
  rw [run_append, run_append around config before (event :: after), run, h,
    List.eraseIdx_append_of_length_le (Nat.le_of_eq hlength), hlength, Nat.sub_self,
    List.eraseIdx_cons_zero]

end Runs

variable {around : Surroundings Memory κ}

/-- A request is answered item by item exactly where it is a dispatch that is admitted. Any other
changes nothing: store, connector, messages, limiter and clock stay, and whatever else happens,
before or after it, is seen as if it had not been made. A dispatch that is admitted claims one slot
of its service and waits for it, whatever its items are. -/
theorem run_without_request (hstore : around.store = Memory.store) (config : Config)
    (server : Server Memory κ) (before after : List Event) (now : Instant) (request : Request) :
    let reached := (run around config before server).2
    let answered := reached.handle around config now request
    (answered.1.map (·.status) = some 207 ↔
        ∃ requests service, reached.Admits config request requests service) ∧
      (answered.1.map (·.status) ≠ some 207 →
        answered.2 = reached ∧
          run around config (before ++ after) server =
            ((run around config (before ++ .request now request :: after) server).1.eraseIdx
                before.length,
              (run around config (before ++ .request now request :: after) server).2)) ∧
      ∀ requests service, reached.Admits config request requests service →
        answered.2.limiter = reached.limiter.claimed service reached.clock ∧
          answered.2.clock = wakeAt reached.clock (reached.limiter.wait service reached.clock) := by
  intro reached answered
  have hcases := handle_cases hstore config now request reached
  have hadmitted (requests : List RunRequest) (service : String)
      (hadmits : reached.Admits config request requests service) :
      answered.1.map (·.status) = some 207 := by
    rw [show answered = _ from handle_of_admits around now hadmits]
    rfl
  refine ⟨⟨fun hstatus ↦ ?_, ?_⟩, fun hstatus ↦ ?_, fun requests service hadmits ↦ ?_⟩
  · rcases hcases with ⟨hother, -⟩ | hadmits
    · exact absurd hstatus hother
    · exact hadmits
  · rintro ⟨requests, service, hadmits⟩
    exact hadmitted requests service hadmits
  · rcases hcases with ⟨-, hsame⟩ | ⟨requests, service, hadmits⟩
    · have hstep : (reached.step around config (.request now request)).2 = reached := hsame
      exact ⟨hsame, run_append_of_step around config hstep after⟩
    · exact absurd (hadmitted requests service hadmits) hstatus
  · rw [show answered = _ from handle_of_admits around now hadmits]
    exact DispatchState.admission_dispatchItems around config.dispatchSettings service requests
      (reached.entered service)

private def onceASecond : Config :=
  { Config.initial with ratePerSecond := 1, rateBurst := 1, maxWaitMillis := 0 }

private def onePost : Request where
  method := "POST"
  target := "/internal/dispatch"
  headers := [("content-type", "application/json"), ("x-dispatcher-service", "remediations")]
  body := "[[\"00000000-0000-0000-0000-000000000001\",\"5318290\",\"https://example.com/run\"]]"

/-- A dispatch that comes too early is turned away, and the next one is admitted after a second as
if that one had not come. -/
theorem run_without_early_dispatch :
    let server : Server Memory Unit := .start onceASecond ∅ ()
    let post := Event.request ⟨0, 0⟩ onePost
    let early := run .counting onceASecond [post, post, .wait 1000000000, post] server
    (early.1.map fun seen ↦ (seen.response?.map (·.status), seen.clock)) =
        [(some 207, 0), (some 429, 0), (none, 1000000000), (some 207, 1000000000)] ∧
      run .counting onceASecond [post, .wait 1000000000, post] server =
        (early.1.eraseIdx 1, early.2) := by
  intro server post early
  have hstore : Surroundings.counting.store = Memory.store := rfl
  have hseen : (early.1.map fun seen ↦ (seen.response?.map (·.status), seen.clock)) =
      [(some 207, 0), (some 429, 0), (none, 1000000000), (some 207, 1000000000)] := by
    decide +kernel
  have hrefused : ((run .counting onceASecond [post] server).2.handle .counting onceASecond ⟨0, 0⟩
      onePost).1.map (·.status) ≠ some 207 := by decide +kernel
  obtain ⟨-, hother, -⟩ := run_without_request hstore onceASecond server [post]
    [.wait 1000000000, post] ⟨0, 0⟩ onePost
  exact ⟨hseen, (hother hrefused).2⟩

end PlaybookRuns.Http.Server
