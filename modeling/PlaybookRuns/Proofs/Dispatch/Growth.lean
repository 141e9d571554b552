import PlaybookRuns.Proofs.Dispatch.Admission

/-!
# Growth of the store

What dispatching leaves in a store in memory: runs at its end, each with the identifier that was
given to its message. Main statement: an item that is reported as created has its run among them,
between the runs of earlier and of later messages.
-/

namespace PlaybookRuns

open PlaybookRuns.Time (Instant)

variable {κ : Type} {around : Surroundings Memory κ}

/-- Whether a run is that of an item, with the identifier that was given at a place. -/
def Run.IsMade (run : Run) (around : Surroundings Memory κ) (defaultTimeout : Int32)
    (service : String) (request : RunRequest) (place : Nat) : Prop :=
  ∃ message correlationId, (∃ targets,
      request.validate defaultTimeout = .ok (message.timeout, targets)) ∧
    message.runId = around.runId place ∧
    run = request.toRun message correlationId service (around.createdAt place)

/-- A run has the identifier that was given for it. -/
theorem Run.IsMade.id_eq {run : Run} {defaultTimeout : Int32} {service : String}
    {request : RunRequest} {place : Nat}
    (h : run.IsMade around defaultTimeout service request place) : run.id = around.runId place := by
  obtain ⟨message, correlationId, -, hid, rfl⟩ := h
  exact hid

/-- Whether every run of a list has an identifier that was given at one of the places from `first`
on, before `last`. -/
def GivenBetween (around : Surroundings Memory κ) (first last : Nat) (runs : List Run) : Prop :=
  ∀ run ∈ runs, ∃ place, first ≤ place ∧ place < last ∧ run.id = around.runId place

namespace GivenBetween

variable {first last first' last' : Nat} {runs runs' : List Run}

/-- The identifiers of no runs are given within any bounds. -/
theorem nil : GivenBetween around first last [] := nofun

/-- Identifiers given within some bounds are given within wider ones. -/
theorem mono (h : GivenBetween around first last runs) (hfirst : first' ≤ first)
    (hlast : last ≤ last') : GivenBetween around first' last' runs := by
  intro run hrun
  obtain ⟨place, hle, hlt, hid⟩ := h run hrun
  exact ⟨place, by omega, by omega, hid⟩

/-- Identifiers of two lists of runs that are given within the same bounds are so together. -/
theorem append (h : GivenBetween around first last runs)
    (h' : GivenBetween around first last runs') :
    GivenBetween around first last (runs ++ runs') := by
  intro run hrun
  rcases List.mem_append.1 hrun with hrun | hrun
  · exact h run hrun
  · exact h' run hrun

end GivenBetween

namespace DispatchState

variable {a b c : DispatchState Memory κ}

/-- Whether one state comes from another by adding runs at the end of the store, with identifiers
that were given to the messages sent in between. -/
structure Grows (around : Surroundings Memory κ) (before after : DispatchState Memory κ) :
    Prop where
  sent_le : before.sent.length ≤ after.sent.length
  runs : ∃ new, after.store.runs = before.store.runs ++ new ∧
    GivenBetween around before.sent.length after.sent.length new

/-- Whether a run has been added between two states, with the identifier given at a place, after the
runs of earlier messages and before those of later ones. -/
structure Adds (around : Surroundings Memory κ) (before after : DispatchState Memory κ)
    (place : Nat) (run : Run) : Prop where
  le_place : before.sent.length ≤ place
  place_lt : place < after.sent.length
  runs : ∃ earlier later, after.store.runs = before.store.runs ++ earlier ++ run :: later ∧
    GivenBetween around before.sent.length place earlier ∧
    GivenBetween around (place + 1) after.sent.length later

/-- A state whose store is the same has grown by nothing. -/
theorem Grows.of_store_eq (hstore : b.store = a.store)
    (hsent : a.sent.length ≤ b.sent.length) : Grows around a b :=
  ⟨hsent, [], by rw [hstore, List.append_nil], .nil⟩

/-- A state grows out of itself. -/
theorem Grows.refl (a : DispatchState Memory κ) : Grows around a a :=
  .of_store_eq rfl (Nat.le_refl _)

/-- What grows out of a state that grew has grown out of the first. -/
theorem Grows.trans (hab : Grows around a b) (hbc : Grows around b c) : Grows around a c := by
  obtain ⟨new, hnew, hgiven⟩ := hab.runs
  obtain ⟨new', hnew', hgiven'⟩ := hbc.runs
  refine ⟨Nat.le_trans hab.sent_le hbc.sent_le, new ++ new', ?_, ?_⟩
  · rw [hnew', hnew, List.append_assoc]
  · exact (hgiven.mono (Nat.le_refl _) hbc.sent_le).append
      (hgiven'.mono hab.sent_le (Nat.le_refl _))

variable {place : Nat} {run : Run}

/-- What is added after growth is added. -/
theorem Adds.of_grows (hab : Grows around a b) (hbc : Adds around b c place run) :
    Adds around a c place run := by
  obtain ⟨new, hnew, hgiven⟩ := hab.runs
  obtain ⟨earlier, later, hruns, hearlier, hlater⟩ := hbc.runs
  refine ⟨Nat.le_trans hab.sent_le hbc.le_place, hbc.place_lt, new ++ earlier, later, ?_, ?_,
    hlater⟩
  · rw [hruns, hnew, List.append_assoc a.store.runs]
  · exact (hgiven.mono (Nat.le_refl _) hbc.le_place).append
      (hearlier.mono hab.sent_le (Nat.le_refl _))

/-- What has been added stays. -/
theorem Adds.grows (hab : Adds around a b place run) (hbc : Grows around b c) :
    Adds around a c place run := by
  obtain ⟨new, hnew, hgiven⟩ := hbc.runs
  obtain ⟨earlier, later, hruns, hearlier, hlater⟩ := hab.runs
  refine ⟨hab.le_place, Nat.lt_of_lt_of_le hab.place_lt hbc.sent_le, earlier, later ++ new, ?_,
    hearlier, ?_⟩
  · rw [hnew, hruns, List.append_assoc, List.cons_append]
  · exact (hlater.mono (Nat.le_refl _) hbc.sent_le).append
      (hgiven.mono hab.place_lt (Nat.le_refl _))

/-- A state to which a run has been added has grown by it. -/
theorem Adds.toGrows (h : Adds around a b place run) (hid : run.id = around.runId place) :
    Grows around a b := by
  obtain ⟨earlier, later, hruns, hearlier, hlater⟩ := h.runs
  have hrun : GivenBetween around place b.sent.length [run] := by
    intro other hother
    rw [List.mem_singleton.1 hother]
    exact ⟨place, Nat.le_refl _, h.place_lt, hid⟩
  refine ⟨Nat.le_of_lt (Nat.lt_of_le_of_lt h.le_place h.place_lt), earlier ++ run :: later, ?_, ?_⟩
  · rw [hruns, List.append_assoc]
  · refine (hearlier.mono (Nat.le_refl _) (Nat.le_of_lt h.place_lt)).append ?_
    exact (hrun.mono h.le_place (Nat.le_refl _)).append
      (hlater.mono (Nat.le_succ_of_le h.le_place) (Nat.le_refl _))

/-- A run that has been added is the only one with its identifier, as long as no identifier is given
twice or was in use before. -/
theorem Adds.exists_only (h : Adds around a b place run) (hid : run.id = around.runId place)
    (hunused : ∀ other ∈ a.store.runs, ∀ n < b.sent.length, other.id ≠ around.runId n)
    (hfresh : ∀ m n, m < n → n < b.sent.length → around.runId m ≠ around.runId n) :
    ∃ before after, b.store.runs = before ++ run :: after ∧
      ∀ other ∈ before ++ after, other.id ≠ run.id := by
  obtain ⟨earlier, later, hruns, hearlier, hlater⟩ := h.runs
  refine ⟨a.store.runs ++ earlier, later, hruns, fun other hother ↦ ?_⟩
  rw [hid]
  rcases List.mem_append.1 hother with hother | hother
  · rcases List.mem_append.1 hother with hother | hother
    · exact hunused other hother place h.place_lt
    · obtain ⟨m, -, hm, hotherId⟩ := hearlier other hother
      rw [hotherId]
      exact hfresh m place hm h.place_lt
  · obtain ⟨n, hn, hlt, hotherId⟩ := hlater other hother
    rw [hotherId]
    exact (hfresh place n hn hlt).symm

/-! ## Dispatching -/

variable {settings : DispatchSettings} {service : String} {request : RunRequest}
  {requests : List RunRequest}

/-- An item either leaves the store as it is, or has its run added and is reported as created. -/
theorem dispatchItem_cases (hstore : around.store = Memory.store) (settings : DispatchSettings)
    (service : String) (request : RunRequest) (state : DispatchState Memory κ) :
    (∃ e, (state.dispatchItem around settings service request).1 = .error e ∧
      Grows around state (state.dispatchItem around settings service request).2) ∨
    ∃ run, run.IsMade around settings.defaultTimeout service request state.sent.length ∧
      (state.dispatchItem around settings service request).1 = .ok run.id ∧
      Adds around state (state.dispatchItem around settings service request).2
        state.sent.length run := by
  have hstep := itemStep_dispatchItem around settings service request state
  generalize state.dispatchItem around settings service request = served at hstep ⊢
  cases hstep with
  | invalid hvalid => exact .inl ⟨_, rfl, .refl state⟩
  | refused hvalid hanswer => exact .inl ⟨_, rfl, .of_store_eq rfl (by simp)⟩
  | @taken timeout targets correlationId connector stored store hvalid hanswer hstored =>
    -- the store in memory keeps every run
    rw [hstore] at hstored
    obtain ⟨rfl, rfl⟩ := Prod.mk.inj hstored
    refine .inr ⟨state.nextRun around service request timeout targets correlationId,
      ⟨state.nextMessage around request timeout targets, correlationId, ⟨targets, hvalid⟩, rfl,
        rfl⟩, rfl, Nat.le_refl _, by simp, [], [], ?_, .nil, .nil⟩
    simp [Memory.insert]

/-- The result of an item tells that its run was created only if it was. -/
theorem itemResult_eq_created_iff {outcome : Except ItemError Uuid} {id : Uuid} :
    itemResult outcome = .created id ↔ outcome = .ok id := by
  cases outcome with
  | ok id' => simp [itemResult, ItemResult.created]
  | error e =>
    refine iff_of_false (fun h ↦ ?_) nofun
    have hid : e.result.id = some id := congrArg ItemResult.id h
    cases e with
    | invalid e => cases hid
    | connector e => cases e <;> cases hid
    | store e => cases hid

/-- Dispatching an item lets the store grow. -/
theorem grows_dispatchItem (hstore : around.store = Memory.store) (settings : DispatchSettings)
    (service : String) (request : RunRequest) (state : DispatchState Memory κ) :
    Grows around state (state.dispatchItem around settings service request).2 := by
  rcases dispatchItem_cases hstore settings service request state with
    ⟨e, -, hgrows⟩ | ⟨run, hmade, -, hadds⟩
  · exact hgrows
  · exact hadds.toGrows hmade.id_eq

/-- Dispatching a batch lets the store grow. -/
theorem grows_dispatchItems (hstore : around.store = Memory.store) (settings : DispatchSettings)
    (service : String) (requests : List RunRequest) (state : DispatchState Memory κ) :
    Grows around state (dispatchItems around settings service requests state).2 := by
  induction requests generalizing state with
  | nil => exact .refl state
  | cons request requests ih =>
    rw [dispatchItems]
    exact (grows_dispatchItem hstore settings service request state).trans (ih _)

/-- An item of a batch that is reported as created has its run added. -/
theorem adds_of_created (hstore : around.store = Memory.store) (settings : DispatchSettings)
    (service : String) {requests : List RunRequest} (state : DispatchState Memory κ) {i : Nat}
    {request : RunRequest} {id : Uuid} (hrequest : requests[i]? = some request)
    (hresult : (dispatchItems around settings service requests state).1[i]? =
      some (.created id)) :
    ∃ place run, run.IsMade around settings.defaultTimeout service request place ∧ run.id = id ∧
      Adds around state (dispatchItems around settings service requests state).2 place run := by
  induction requests generalizing state i with
  | nil => cases hrequest
  | cons first requests ih =>
    rw [dispatchItems] at hresult ⊢
    cases i with
    | zero =>
      obtain rfl := Option.some.inj hrequest
      have houtcome : (state.dispatchItem around settings service first).1 = .ok id :=
        itemResult_eq_created_iff.1 (Option.some.inj hresult)
      rcases dispatchItem_cases hstore settings service first state with
        ⟨e, herror, -⟩ | ⟨run, hmade, hcreated, hadds⟩
      · rw [herror] at houtcome
        cases houtcome
      · rw [hcreated] at houtcome
        exact ⟨_, run, hmade, Except.ok.inj houtcome,
          hadds.grows (grows_dispatchItems hstore settings service requests _)⟩
    | succ i =>
      obtain ⟨place, run, hmade, hid, hadds⟩ := ih _ hrequest hresult
      exact ⟨place, run, hmade, hid,
        hadds.of_grows (grows_dispatchItem hstore settings service first state)⟩

/-- Waiting for admission adds nothing. -/
theorem grows_entered (service : String) (state : DispatchState Memory κ) :
    Grows around state (state.entered service) :=
  .of_store_eq entered_store (Nat.le_of_eq (congrArg List.length entered_sent.symm))

end DispatchState

end PlaybookRuns
