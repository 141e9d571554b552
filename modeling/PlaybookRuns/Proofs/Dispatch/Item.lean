import PlaybookRuns.Dispatch.Batch
import PlaybookRuns.Proofs.Checked
import PlaybookRuns.Store.Memory

/-!
# Single items

When an item of a batch is valid, and what it leaves behind: the message that is sent for it, and
the run and the hosts that the store is to keep once the connector has taken the message. Main
statement: dispatching an item is one of three steps, for it is invalid, its message is not taken,
or its message is taken and the store is asked to keep its run.
-/

namespace PlaybookRuns

open PlaybookRuns.Time (Instant)

/-- An item is valid exactly when its address and its tenant are not blank, its tenant's name is not
too long, its timeout is not negative and each of its hosts has a name. -/
theorem RunRequest.validate_eq_ok_iff {request : RunRequest} {defaultTimeout timeout : Int32}
    {targets : List NamedTarget} :
    request.validate defaultTimeout = .ok (timeout, targets) ↔
      ¬Text.isBlankText request.url ∧ ¬Text.isBlankText request.orgId ∧
        request.orgId.length ≤ maxOrgIdLength ∧ request.timeout.getD defaultTimeout = timeout ∧
        0 ≤ timeout ∧ request.hosts.map HostTarget.named = targets.map .ok := by
  unfold validate
  simp only [Checked.bind_eq_ok_iff, Checked.throw_bind, Checked.ite_throw_eq_ok_iff,
    Checked.pure_eq_ok_iff, Checked.mapM_eq_ok_iff, Prod.mk.injEq, Nat.not_lt, Int32.not_lt]
  constructor
  · rintro ⟨hurl, horgId, hlength, hsign, _, hnamed, rfl, rfl⟩
    exact ⟨hurl, horgId, hlength, rfl, hsign, hnamed⟩
  · rintro ⟨hurl, horgId, hlength, rfl, hsign, hnamed⟩
    exact ⟨hurl, horgId, hlength, hsign, targets, hnamed, rfl, rfl⟩

namespace DispatchState

variable {σ κ : Type} (around : Surroundings σ κ) (service : String) (request : RunRequest)
  (timeout : Int32) (targets : List NamedTarget) (correlationId : Uuid) (state : DispatchState σ κ)

/-- The message of a valid item that is dispatched next. -/
def nextMessage : Message where
  orgId := request.orgId
  recipient := request.recipient
  runId := around.runId state.sent.length
  url := request.url
  timeout
  hosts := targets.map (·.name)

/-- The run of a valid item that is dispatched next. -/
def nextRun : Run :=
  request.toRun (state.nextMessage around request timeout targets) correlationId service
    (around.createdAt state.sent.length)

/-- The hosts of a valid item that is dispatched next. -/
def nextHosts : List Host :=
  targets.mapIdx fun i target ↦
    target.toHost (around.hostId (state.hostCount + i)) (around.runId state.sent.length)
      (around.createdAt state.sent.length)

variable {around service request timeout targets correlationId state} {connector : κ}

private theorem dispatchItem_eq_send (settings : DispatchSettings) (service : String)
    (hvalid : request.validate settings.defaultTimeout = .ok (timeout, targets)) :
    state.dispatchItem around settings service request =
      state.send around service request targets
        (state.nextMessage around request timeout targets) := by
  rw [dispatchItem, hvalid]
  rfl

private theorem keep_eq {message : Message} {stored : Except StoreError Unit} {store : σ}
    (hstored : around.store.insert
        (request.toRun message correlationId service (around.createdAt (state.sent.length - 1)))
        (targets.mapIdx fun i target ↦ target.toHost (around.hostId (state.hostCount + i))
          message.runId (around.createdAt (state.sent.length - 1))) state.store = (stored, store)) :
    state.keep around service request targets message correlationId =
      ((stored.map fun _ ↦ message.runId).mapError ItemError.store,
        { state with store, hostCount := state.hostCount + targets.length }) := by
  have hrun : (request.toRun message correlationId service
      (around.createdAt (state.sent.length - 1))).id = message.runId := rfl
  rw [keep, hrun, hstored, List.length_mapIdx]
  cases stored <;> rfl

/-- A valid item whose message is taken becomes what the store makes of its run. -/
theorem dispatchItem_of_taken (settings : DispatchSettings) (service : String)
    (hvalid : request.validate settings.defaultTimeout = .ok (timeout, targets))
    (htaken : around.connector (state.nextMessage around request timeout targets) state.connector =
      (.ok correlationId, connector)) {stored : Except StoreError Unit} {store : σ}
    (hstored : around.store.insert
        (state.nextRun around service request timeout targets correlationId)
        (state.nextHosts around targets) state.store = (stored, store)) :
    state.dispatchItem around settings service request =
      ((stored.map fun _ ↦ around.runId state.sent.length).mapError ItemError.store,
        { state with
          store, connector
          sent := state.sent ++ [state.nextMessage around request timeout targets]
          hostCount := state.hostCount + targets.length }) := by
  rw [dispatchItem_eq_send settings service hvalid, send, htaken]
  apply keep_eq
  rw [List.length_append, List.length_singleton, Nat.add_sub_cancel]
  exact hstored

/-- A valid item whose message is not taken leaves nothing in the store. -/
theorem dispatchItem_of_refused (settings : DispatchSettings) (service : String)
    {e : ConnectorError} (hvalid : request.validate settings.defaultTimeout = .ok (timeout, targets))
    (hrefused : around.connector (state.nextMessage around request timeout targets)
      state.connector = (.error e, connector)) :
    state.dispatchItem around settings service request =
      (.error (.connector e), { state with
        connector
        sent := state.sent ++ [state.nextMessage around request timeout targets] }) := by
  rw [dispatchItem_eq_send settings service hvalid, send, hrefused]

/-- What an item can come to, with the state after it. -/
inductive ItemStep (around : Surroundings σ κ) (settings : DispatchSettings) (service : String)
    (request : RunRequest) (state : DispatchState σ κ) :
    Except ItemError Uuid × DispatchState σ κ → Prop
  /-- It is not valid, and leaves nothing behind. -/
  | invalid {e : InvalidItem} (hvalid : request.validate settings.defaultTimeout = .error e) :
    ItemStep around settings service request state (.error (.invalid e), state)
  /-- Its message is sent, but not taken. -/
  | refused {timeout : Int32} {targets : List NamedTarget} {e : ConnectorError} {connector : κ}
      (hvalid : request.validate settings.defaultTimeout = .ok (timeout, targets))
      (hanswer : around.connector (state.nextMessage around request timeout targets)
        state.connector = (.error e, connector)) :
    ItemStep around settings service request state (.error (.connector e), { state with
      connector
      sent := state.sent ++ [state.nextMessage around request timeout targets] })
  /-- Its message is taken, and the store is asked to keep its run. -/
  | taken {timeout : Int32} {targets : List NamedTarget} {correlationId : Uuid} {connector : κ}
      {stored : Except StoreError Unit} {store : σ}
      (hvalid : request.validate settings.defaultTimeout = .ok (timeout, targets))
      (hanswer : around.connector (state.nextMessage around request timeout targets)
        state.connector = (.ok correlationId, connector))
      (hstored : around.store.insert
        (state.nextRun around service request timeout targets correlationId)
        (state.nextHosts around targets) state.store = (stored, store)) :
    ItemStep around settings service request state
      ((stored.map fun _ ↦ around.runId state.sent.length).mapError ItemError.store,
        { state with
          store, connector
          sent := state.sent ++ [state.nextMessage around request timeout targets]
          hostCount := state.hostCount + targets.length })

/-- Dispatching an item is one of its steps. -/
theorem itemStep_dispatchItem (around : Surroundings σ κ) (settings : DispatchSettings)
    (service : String) (request : RunRequest) (state : DispatchState σ κ) :
    ItemStep around settings service request state
      (state.dispatchItem around settings service request) := by
  cases hvalid : request.validate settings.defaultTimeout with
  | error e =>
    rw [dispatchItem, hvalid]
    exact .invalid hvalid
  | ok valid =>
    obtain ⟨timeout, targets⟩ := valid
    rcases hanswer : around.connector (state.nextMessage around request timeout targets)
      state.connector with ⟨answer, connector⟩
    cases answer with
    | error e =>
      rw [dispatchItem_of_refused settings service hvalid hanswer]
      exact .refused hvalid hanswer
    | ok correlationId =>
      rw [dispatchItem_of_taken settings service hvalid hanswer rfl]
      exact .taken hvalid hanswer rfl

end DispatchState

/-- Surroundings with a store in memory and a connector that takes every message, where identifiers
count up and no time passes. -/
def Surroundings.counting : Surroundings Memory Unit :=
  ⟨Memory.store, fun _ _ ↦ (.ok ⟨7⟩, ()), .ofNat, .ofNat, fun _ ↦ ⟨0, 0⟩⟩

end PlaybookRuns
