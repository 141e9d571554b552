import PlaybookRuns.Proofs.Admission.Pacing
import PlaybookRuns.Proofs.Dispatch.Item

/-!
# Admission of batches

What a batch costs its service. Main statements: a service whose slot opens too late changes
nothing, any other claims one slot and waits for it, and the items of its batch claim nothing more.
-/

namespace PlaybookRuns.DispatchState

variable {σ κ : Type} {around : Surroundings σ κ} {settings : DispatchSettings} {service : String}
  {state : DispatchState σ κ}

/-- The state in which a service has claimed a slot and waited for it. -/
def entered (service : String) (state : DispatchState σ κ) : DispatchState σ κ :=
  { state with
    limiter := state.limiter.claimed service state.clock
    clock := wakeAt state.clock (state.limiter.wait service state.clock) }

/-- Claiming a slot leaves the store alone. -/
@[simp] theorem entered_store : (state.entered service).store = state.store := rfl

/-- Claiming a slot sends no message. -/
@[simp] theorem entered_sent : (state.entered service).sent = state.sent := rfl

/-- A service whose slot opens too late is turned away. -/
theorem enter_of_lt (h : settings.maxWait < state.limiter.wait service state.clock) :
    state.enter settings service =
      (.error ⟨state.limiter.wait service state.clock⟩, state) := by
  rw [enter, Limiter.reserve, if_pos h]

/-- A service whose slot opens in time enters. -/
theorem enter_of_le (h : state.limiter.wait service state.clock ≤ settings.maxWait) :
    state.enter settings service = (.ok (), state.entered service) := by
  rw [enter, Limiter.reserve, if_neg (Nat.not_lt.2 h)]
  rfl

/-- Nothing is dispatched on behalf of a service that is turned away. -/
theorem dispatch_of_lt (h : settings.maxWait < state.limiter.wait service state.clock)
    (requests : List RunRequest) :
    state.dispatch around settings service requests =
      (.error ⟨state.limiter.wait service state.clock⟩, state) := by
  rw [dispatch, enter_of_lt h]

/-- The items of a service that enters are dispatched. -/
theorem dispatch_of_le (h : state.limiter.wait service state.clock ≤ settings.maxWait)
    (requests : List RunRequest) :
    state.dispatch around settings service requests =
      ((dispatchItems around settings service requests (state.entered service)).map .ok id) := by
  rw [dispatch, enter_of_le h]
  rfl

/-- An item claims no slot and takes no time. -/
theorem admission_dispatchItem (around : Surroundings σ κ) (settings : DispatchSettings)
    (service : String) (request : RunRequest) (state : DispatchState σ κ) :
    (state.dispatchItem around settings service request).2.limiter = state.limiter ∧
      (state.dispatchItem around settings service request).2.clock = state.clock := by
  have hstep := itemStep_dispatchItem around settings service request state
  generalize state.dispatchItem around settings service request = served at hstep ⊢
  cases hstep with
  | invalid => exact ⟨rfl, rfl⟩
  | refused => exact ⟨rfl, rfl⟩
  | taken => exact ⟨rfl, rfl⟩

/-- However many items a batch has, they claim no slot and take no time. -/
theorem admission_dispatchItems (around : Surroundings σ κ) (settings : DispatchSettings)
    (service : String) (requests : List RunRequest) (state : DispatchState σ κ) :
    (dispatchItems around settings service requests state).2.limiter = state.limiter ∧
      (dispatchItems around settings service requests state).2.clock = state.clock := by
  induction requests generalizing state with
  | nil => exact ⟨rfl, rfl⟩
  | cons request requests ih =>
    obtain ⟨hlimiter, hclock⟩ := admission_dispatchItem around settings service request state
    obtain ⟨hrestLimiter, hrestClock⟩ := ih (state.dispatchItem around settings service request).2
    rw [dispatchItems]
    exact ⟨hrestLimiter.trans hlimiter, hrestClock.trans hclock⟩

end PlaybookRuns.DispatchState
