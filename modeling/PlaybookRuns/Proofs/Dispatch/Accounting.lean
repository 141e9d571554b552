import Mathlib.Data.List.Forall2
import PlaybookRuns.Proofs.Dispatch.Item

/-!
# Accounting for dispatched batches

What became of every item of every batch, and what it left behind: in the results, with the
connector and in the store. Each step of a batch is accounted for by the trace of one item, and a
whole history of calls by the traces of all items in order. Main statement: over any history the
messages sent, the runs stored and the results are exactly those of the traces.
-/

namespace PlaybookRuns

/-- What became of an item of a batch. -/
inductive ItemTrace where
  /-- It was not valid, and left nothing behind. -/
  | invalid (e : InvalidItem)
  /-- Its message was sent, but not taken. -/
  | undelivered (message : Message) (e : ConnectorError)
  /-- Its message was taken, but its run was not stored. -/
  | unkept (message : Message) (run : Run) (hosts : List Host) (e : StoreError)
  /-- Its message was taken and its run was stored. -/
  | created (message : Message) (run : Run) (hosts : List Host)

namespace ItemTrace

/-- The result that the service is told. -/
def result : ItemTrace → ItemResult
  | invalid e => (ItemError.invalid e).result
  | undelivered _ e => (ItemError.connector e).result
  | unkept _ _ _ e => (ItemError.store e).result
  | created message _ _ => .created message.runId

/-- The message that was handed to the connector, with its answer. -/
def delivery? : ItemTrace → Option (Message × Except ConnectorError Uuid)
  | invalid _ => none
  | undelivered message e => some (message, .error e)
  | unkept message run _ _ | created message run _ => some (message, .ok run.correlationId)

/-- The run and the hosts that the store was to keep, with its answer. -/
def insertion? : ItemTrace → Option ((Run × List Host) × Except StoreError Unit)
  | invalid _ | undelivered _ _ => none
  | unkept _ run hosts e => some ((run, hosts), .error e)
  | created _ run hosts => some ((run, hosts), .ok ())

/-- The message that was handed to the connector. -/
def message? (trace : ItemTrace) : Option Message := trace.delivery?.map (·.1)

/-- The run that was stored, and its hosts. -/
def kept? : ItemTrace → Option (Run × List Host)
  | created _ run hosts => some (run, hosts)
  | _ => none

end ItemTrace

/-- Whether a message is the one of a valid item. -/
structure Message.IsOf (message : Message) (defaultTimeout : Int32) (request : RunRequest) :
    Prop where
  valid : ∃ targets, request.validate defaultTimeout = .ok (message.timeout, targets)
  orgId_eq : message.orgId = request.orgId
  recipient_eq : message.recipient = request.recipient
  url_eq : message.url = request.url
  timeout_eq : message.timeout = request.timeout.getD defaultTimeout
  hosts_eq : message.hosts.map some = request.hosts.map HostTarget.displayName?

/-- Whether a run and its hosts are those of an item whose message was taken. -/
structure Run.IsOf (run : Run) (hosts : List Host) (service : String) (request : RunRequest)
    (message : Message) : Prop where
  id_eq : run.id = message.runId
  service_eq : run.service = service
  timeout_eq : run.timeout = message.timeout
  status_eq : run.status = .running
  orgId_eq : run.orgId = request.orgId
  recipient_eq : run.recipient = request.recipient
  url_eq : run.url = request.url
  labels_eq : run.labels = request.labels
  /-- There is one host for each targeted system, in order. -/
  hosts_eq : hosts.map (fun host ↦ (some host.host, host.inventoryId)) =
    request.hosts.map fun target ↦ (target.displayName?, target.inventoryId)
  runId_eq : ∀ host ∈ hosts, host.runId = run.id
  hostStatus_eq : ∀ host ∈ hosts, host.status = .running

/-- Whether a trace is one of an item requested on behalf of a service. -/
def ItemTrace.IsOf (defaultTimeout : Int32) (service : String) (request : RunRequest) :
    ItemTrace → Prop
  | invalid e => request.validate defaultTimeout = .error e
  | undelivered message _ => message.IsOf defaultTimeout request
  | unkept message run hosts _ | created message run hosts =>
    message.IsOf defaultTimeout request ∧ run.IsOf hosts service request message

/-- Questions that are put to something with a state one after the other, with its answers. -/
inductive Served {α β σ : Type} (serve : α → σ → β × σ) : σ → List (α × β) → σ → Prop where
  | nil (state : σ) : Served serve state [] state
  | cons {state state' : σ} {question : α} {rest : List (α × β)}
      (hrest : Served serve (serve question state).2 rest state') :
      Served serve state ((question, (serve question state).1) :: rest) state'

/-- The first question is answered first. -/
theorem Served.cons_iff {α β σ : Type} {serve : α → σ → β × σ} {question : α} {answer : β}
    {rest : List (α × β)} {state state' : σ} :
    Served serve state ((question, answer) :: rest) state' ↔
      (serve question state).1 = answer ∧ Served serve (serve question state).2 rest state' := by
  constructor
  · intro h
    cases h with
    | cons hrest => exact ⟨rfl, hrest⟩
  · rintro ⟨rfl, hrest⟩
    exact .cons hrest

/-- Two stretches of questions and answers make one. -/
theorem Served.append {α β σ : Type} {serve : α → σ → β × σ} {a b c : σ} {xs ys : List (α × β)}
    (hx : Served serve a xs b) (hy : Served serve b ys c) : Served serve a (xs ++ ys) c := by
  induction hx with
  | nil state => exact hy
  | cons hrest ih => exact .cons (ih hy)

/-- A question is asked and answered. -/
theorem Served.single {α β σ : Type} {serve : α → σ → β × σ} {question : α} {answer : β}
    {state state' : σ} (h : serve question state = (answer, state')) :
    Served serve state [(question, answer)] state' := by
  rw [Served.cons_iff, h]
  exact ⟨rfl, .nil state'⟩

variable {σ κ : Type} {around : Surroundings σ κ}

/-- Whether the traces of items account for all that changed between two states, but for the
limiter and the clock. -/
structure Accounts (around : Surroundings σ κ) (before after : DispatchState σ κ)
    (items : List ItemTrace) : Prop where
  sent_eq : after.sent = before.sent ++ items.filterMap ItemTrace.message?
  /-- The answers are those that the connector gives to these messages in turn. -/
  delivered : Served around.connector before.connector (items.filterMap ItemTrace.delivery?)
    after.connector
  /-- The store was asked to keep these runs in turn, and nothing else. -/
  stored : Served (fun record : Run × List Host ↦ around.store.insert record.1 record.2)
    before.store (items.filterMap ItemTrace.insertion?) after.store

namespace Accounts

variable {a b c : DispatchState σ κ}

/-- No items account for states between which nothing was sent, delivered or kept. -/
theorem nil (hsent : b.sent = a.sent) (hconnector : b.connector = a.connector)
    (hstore : b.store = a.store) : Accounts around a b [] := by
  refine ⟨?_, ?_, ?_⟩
  · rw [hsent]
    simp
  · rw [hconnector]
    exact .nil _
  · rw [hstore]
    exact .nil _

/-- What happens in turn is accounted for in turn. -/
theorem append {xs ys : List ItemTrace} (hx : Accounts around a b xs)
    (hy : Accounts around b c ys) : Accounts around a c (xs ++ ys) := by
  refine ⟨?_, ?_, ?_⟩
  · rw [hy.sent_eq, hx.sent_eq, List.filterMap_append, List.append_assoc]
  · rw [List.filterMap_append]
    exact hx.delivered.append hy.delivered
  · rw [List.filterMap_append]
    exact hx.stored.append hy.stored

end Accounts

/-! ## Valid items -/

private theorem targets_of_named {hosts : List HostTarget} {targets : List NamedTarget}
    (h : hosts.map HostTarget.named = targets.map .ok) :
    targets.map (fun target ↦ (some target.name, target.inventoryId)) =
      hosts.map fun host ↦ (host.displayName?, host.inventoryId) := by
  induction hosts generalizing targets with
  | nil =>
    cases targets with
    | nil => rfl
    | cons target targets => cases h
  | cons host hosts ih =>
    cases targets with
    | nil => cases h
    | cons target targets =>
      obtain ⟨hhost, hhosts⟩ := List.cons.inj h
      have hnamed : (some target.name, target.inventoryId) =
          (host.displayName?, host.inventoryId) := by
        unfold HostTarget.named at hhost
        split at hhost
        · next name hname =>
          rw [← Except.ok.inj hhost, hname]
        · cases hhost
      rw [List.map_cons, List.map_cons, hnamed, ih hhosts]

section ValidItems

variable (around) {request : RunRequest} {defaultTimeout timeout : Int32}
  {targets : List NamedTarget}

private theorem nextMessage_isOf
    (hvalid : request.validate defaultTimeout = .ok (timeout, targets))
    (state : DispatchState σ κ) :
    (state.nextMessage around request timeout targets).IsOf defaultTimeout request := by
  obtain ⟨-, -, -, htimeout, -, hnamed⟩ := RunRequest.validate_eq_ok_iff.1 hvalid
  refine ⟨⟨targets, hvalid⟩, rfl, rfl, rfl, htimeout.symm, ?_⟩
  have hnames := congrArg (List.map Prod.fst) (targets_of_named hnamed)
  rw [List.map_map, List.map_map] at hnames
  rw [DispatchState.nextMessage, List.map_map]
  exact hnames

private theorem map_mapIdx {α β γ : Type} {f : Nat → α → β} {g : β → γ} {k : α → γ}
    (h : ∀ i a, g (f i a) = k a) (as : List α) : (as.mapIdx f).map g = as.map k := by
  apply List.ext_getElem
  · simp
  · intro i h₁ h₂
    simp [h]

private theorem nextRun_isOf (hvalid : request.validate defaultTimeout = .ok (timeout, targets))
    (service : String) (correlationId : Uuid) (state : DispatchState σ κ) :
    (state.nextRun around service request timeout targets correlationId).IsOf
      (state.nextHosts around targets) service request
      (state.nextMessage around request timeout targets) := by
  obtain ⟨-, -, -, -, -, hnamed⟩ := RunRequest.validate_eq_ok_iff.1 hvalid
  refine ⟨rfl, rfl, rfl, rfl, rfl, rfl, rfl, rfl, ?_, ?_, ?_⟩
  · rw [← targets_of_named hnamed]
    apply map_mapIdx
    intro _ _
    rfl
  · intro host hhost
    obtain ⟨i, hi, rfl⟩ := List.mem_mapIdx.1 hhost
    rfl
  · intro host hhost
    obtain ⟨i, hi, rfl⟩ := List.mem_mapIdx.1 hhost
    rfl

end ValidItems

/-! ## One item -/

namespace DispatchState

/-- One item is accounted for by its trace. -/
theorem accounts_dispatchItem (around : Surroundings σ κ) (settings : DispatchSettings)
    (service : String) (request : RunRequest) (state : DispatchState σ κ) :
    ∃ trace : ItemTrace, trace.IsOf settings.defaultTimeout service request ∧
      itemResult (state.dispatchItem around settings service request).1 = trace.result ∧
      Accounts around state (state.dispatchItem around settings service request).2 [trace] := by
  have hstep := itemStep_dispatchItem around settings service request state
  generalize state.dispatchItem around settings service request = served at hstep ⊢
  cases hstep with
  | invalid hvalid =>
    exact ⟨.invalid _, hvalid, rfl, by simp [ItemTrace.message?, ItemTrace.delivery?], .nil _, .nil _⟩
  | refused hvalid hanswer =>
    exact ⟨.undelivered _ _, nextMessage_isOf around hvalid state, rfl, rfl,
      Served.single hanswer, .nil _⟩
  | @taken timeout targets correlationId connector stored store hvalid hanswer hstored =>
    have hmessage := nextMessage_isOf around hvalid state
    have hrun := nextRun_isOf around hvalid service correlationId state
    cases stored with
    | error e =>
      exact ⟨.unkept _ _ _ e, ⟨hmessage, hrun⟩, rfl, rfl, Served.single hanswer,
        Served.single hstored⟩
    | ok _ =>
      exact ⟨.created _ _ _, ⟨hmessage, hrun⟩, rfl, rfl, Served.single hanswer,
        Served.single hstored⟩

/-! ## Batches and histories -/

/-- The items of a batch are accounted for by their traces in order, and so are their results. -/
theorem accounts_dispatchItems (around : Surroundings σ κ) (settings : DispatchSettings)
    (service : String) (requests : List RunRequest) (state : DispatchState σ κ) :
    ∃ traces : List ItemTrace,
      List.Forall₂ (ItemTrace.IsOf settings.defaultTimeout service) requests traces ∧
      (dispatchItems around settings service requests state).1 = traces.map ItemTrace.result ∧
      Accounts around state (dispatchItems around settings service requests state).2 traces := by
  induction requests generalizing state with
  | nil => exact ⟨[], .nil, rfl, .nil rfl rfl rfl⟩
  | cons request requests ih =>
    obtain ⟨trace, hitem, hresult, haccounts⟩ :=
      accounts_dispatchItem around settings service request state
    obtain ⟨traces, hitems, hresults, hrest⟩ :=
      ih (state.dispatchItem around settings service request).2
    refine ⟨trace :: traces, .cons hitem hitems, ?_, haccounts.append hrest⟩
    rw [dispatchItems, List.map_cons, ← hresult, ← hresults]

end DispatchState

/-- A call to have a batch dispatched, and how far the clock moved on before it. -/
structure DispatchCall where
  elapsed : Nat
  settings : DispatchSettings
  service : String
  requests : List RunRequest

/-- Whether traces are those of the items of a call with a given answer: none if it was throttled,
else one for each item, and from each its result. -/
def DispatchCall.Traced (call : DispatchCall) :
    Except Throttled (List ItemResult) → List ItemTrace → Prop
  | .error _, traces => traces = []
  | .ok results, traces =>
    List.Forall₂ (ItemTrace.IsOf call.settings.defaultTimeout call.service) call.requests traces ∧
      results = traces.map ItemTrace.result

/-- Whether there is an answer and a list of traces for each call, in order. -/
inductive AllTraced : List DispatchCall → List (Except Throttled (List ItemResult)) →
    List (List ItemTrace) → Prop where
  | nil : AllTraced [] [] []
  | cons {call : DispatchCall} {answer : Except Throttled (List ItemResult)}
      {traces : List ItemTrace} {calls : List DispatchCall}
      {answers : List (Except Throttled (List ItemResult))} {rest : List (List ItemTrace)}
      (hcall : call.Traced answer traces) (hrest : AllTraced calls answers rest) :
      AllTraced (call :: calls) (answer :: answers) (traces :: rest)

namespace DispatchState

/-- Serves calls one after the other. -/
def dispatchAll (around : Surroundings σ κ) :
    List DispatchCall → DispatchState σ κ →
      List (Except Throttled (List ItemResult)) × DispatchState σ κ
  | [], state => ([], state)
  | call :: calls, state =>
    let (answer, state) := dispatch around call.settings call.service call.requests
      { state with clock := state.clock + call.elapsed }
    let (answers, state) := dispatchAll around calls state
    (answer :: answers, state)

/-- A call is accounted for by the traces of its items. -/
theorem accounts_dispatch (around : Surroundings σ κ) (call : DispatchCall)
    (state : DispatchState σ κ) :
    ∃ traces, call.Traced
        (state.dispatch around call.settings call.service call.requests).1 traces ∧
      Accounts around state
        (state.dispatch around call.settings call.service call.requests).2 traces := by
  have henter : Accounts around state (state.enter call.settings call.service).2 [] := by
    unfold enter
    split <;> exact .nil rfl rfl rfl
  unfold dispatch
  rcases hentered : state.enter call.settings call.service with ⟨answer, entered⟩
  rw [hentered] at henter
  cases answer with
  | error e => exact ⟨[], rfl, henter⟩
  | ok _ =>
    obtain ⟨traces, hitems, hresults, haccounts⟩ := accounts_dispatchItems around call.settings
      call.service call.requests entered
    exact ⟨traces, ⟨hitems, hresults⟩, henter.append haccounts⟩

/-- A history of calls is accounted for by the traces of all items in order. -/
theorem accounts_dispatchAll (around : Surroundings σ κ) (calls : List DispatchCall)
    (state : DispatchState σ κ) :
    ∃ traces, AllTraced calls (state.dispatchAll around calls).1 traces ∧
      Accounts around state (state.dispatchAll around calls).2 traces.flatten := by
  induction calls generalizing state with
  | nil => exact ⟨[], .nil, .nil rfl rfl rfl⟩
  | cons call calls ih =>
    obtain ⟨traces, htraced, haccounts⟩ := accounts_dispatch around call
      { state with clock := state.clock + call.elapsed }
    obtain ⟨rest, hrest, hall⟩ := ih (dispatch around call.settings call.service call.requests
      { state with clock := state.clock + call.elapsed }).2
    have hclock : Accounts around state { state with clock := state.clock + call.elapsed } [] :=
      .nil rfl rfl rfl
    exact ⟨traces :: rest, .cons htraced hrest, (hclock.append haccounts).append hall⟩

end DispatchState

/-! ## What is stored -/

/-- The store in memory, of which any insertion may fail, and changes nothing then. -/
def Memory.faulty {τ : Type} (fault : Run → List Host → τ → Option StoreError × τ) :
    RunStore (Memory × τ) where
  insert run hosts state := match fault run hosts state.2 with
    | (none, trouble) => (.ok (), (state.1.insert run hosts, trouble))
    | (some e, trouble) => (.error e, (state.1, trouble))
  listRuns query state := (.ok (state.1.listRuns? query), state)
  listHosts query state := (.ok (state.1.listHosts? query), state)
  ping state := (.ok (), state)

private theorem Memory.faulty_insert {τ : Type}
    (fault : Run → List Host → τ → Option StoreError × τ) (run : Run) (hosts : List Host)
    (state : Memory × τ) :
    (∃ trouble, (faulty fault).insert run hosts state =
      (.ok (), (state.1.insert run hosts, trouble))) ∨
    ∃ e trouble, (faulty fault).insert run hosts state = (.error e, (state.1, trouble)) := by
  simp only [faulty]
  split
  · exact .inl ⟨_, rfl⟩
  · exact .inr ⟨_, _, rfl⟩

/-- The store grows at its end by what was kept. -/
theorem Memory.insert_of_served {τ : Type} {fault : Run → List Host → τ → Option StoreError × τ}
    {items : List ItemTrace} {before after : Memory × τ}
    (h : Served (fun record : Run × List Host ↦ (faulty fault).insert record.1 record.2) before
      (items.filterMap ItemTrace.insertion?) after) :
    after.1.runs = before.1.runs ++ (items.filterMap ItemTrace.kept?).map (·.1) ∧
      after.1.hosts = before.1.hosts ++ (items.filterMap ItemTrace.kept?).flatMap (·.2) := by
  induction items generalizing before with
  | nil =>
    cases h
    simp
  | cons item items ih =>
    cases item with
    | invalid e => exact ih h
    | undelivered message e => exact ih h
    | unkept message run hosts e =>
      -- the answer in the trace tells which of the two the store did
      obtain ⟨hanswer, hrest⟩ := Served.cons_iff.1 h
      rcases faulty_insert fault run hosts before with ⟨trouble, hinsert⟩ | ⟨e', trouble, hinsert⟩
      · rw [hinsert] at hanswer
        cases hanswer
      · rw [hinsert] at hrest
        obtain ⟨hruns, hhosts⟩ := ih hrest
        exact ⟨hruns, hhosts⟩
    | created message run hosts =>
      obtain ⟨hanswer, hrest⟩ := Served.cons_iff.1 h
      rcases faulty_insert fault run hosts before with ⟨trouble, hinsert⟩ | ⟨e', trouble, hinsert⟩
      · rw [hinsert] at hrest
        obtain ⟨hruns, hhosts⟩ := ih hrest
        have hkept : (ItemTrace.created message run hosts :: items).filterMap ItemTrace.kept? =
            (run, hosts) :: items.filterMap ItemTrace.kept? := rfl
        rw [hkept, hruns, hhosts]
        simp [Memory.insert]
      · rw [hinsert] at hanswer
        cases hanswer

/-- Over any history of calls the messages that are sent, the runs and hosts that are stored and the
results are those of the traces of all items, in order. -/
theorem dispatchAll_traced {τ κ : Type} (fault : Run → List Host → τ → Option StoreError × τ)
    (connector : Connector κ) (runId hostId : Nat → Uuid) (createdAt : Nat → Time.Instant)
    (calls : List DispatchCall) (state : DispatchState (Memory × τ) κ) :
    ∃ answers after traces,
      state.dispatchAll ⟨Memory.faulty fault, connector, runId, hostId, createdAt⟩ calls =
        (answers, after) ∧
      AllTraced calls answers traces ∧
      Accounts ⟨Memory.faulty fault, connector, runId, hostId, createdAt⟩ state after
        traces.flatten ∧
      after.store.1.runs = state.store.1.runs ++
        (traces.flatten.filterMap ItemTrace.kept?).map (·.1) ∧
      after.store.1.hosts = state.store.1.hosts ++
        (traces.flatten.filterMap ItemTrace.kept?).flatMap (·.2) := by
  obtain ⟨traces, htraced, haccounts⟩ := state.accounts_dispatchAll
    ⟨Memory.faulty fault, connector, runId, hostId, createdAt⟩ calls
  obtain ⟨hruns, hhosts⟩ := Memory.insert_of_served haccounts.stored
  exact ⟨_, _, traces, rfl, htraced, haccounts, hruns, hhosts⟩

end PlaybookRuns
