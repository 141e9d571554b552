import PlaybookRuns.Http.Server
import PlaybookRuns.Proofs.Dispatch.Item
import PlaybookRuns.Proofs.Sql.Constraints

/-!
# Items that can be stored

Whether a database takes the run and the hosts of a valid item after its message has gone out. That
the name of the tenant fits its column is checked before; that the names of the service and of the
satellite's tenant fit theirs is not, nor is the number of hosts. Main statement: these three are all
that is missing.
-/

namespace PlaybookRuns

open PlaybookRuns.Sql

/-- Whether what is not checked of an item before its message goes out is within the schema. -/
structure RunRequest.Fits (request : RunRequest) (service : String) : Prop where
  service : service.length ≤ 255
  satelliteOrgId : ∀ s, request.satelliteOrgId = some s → s.length ≤ 255
  /-- One statement carries eight values for each host. -/
  hosts : request.hosts.length ≤ 8191

namespace DispatchState

variable {σ κ : Type}

/-- Whether the identifiers of the next run and of so many hosts are new to a database. -/
structure GivesFresh (around : Surroundings σ κ) (state : DispatchState σ κ) (hostCount : Nat)
    (db : Database) : Prop where
  run : ∀ row ∈ db "runs", row.lookup "id" ≠ some (.uuid (around.runId state.sent.length))
  hosts : ∀ i < hostCount, ∀ row ∈ db "run_hosts",
    row.lookup "id" ≠ some (.uuid (around.hostId (state.hostCount + i)))
  distinct : ∀ i j, i < j → j < hostCount →
    around.hostId (state.hostCount + i) ≠ around.hostId (state.hostCount + j)

variable {around : Surroundings σ κ} (settings : DispatchSettings) (service : String)
  {request : RunRequest} {timeout : Int32} {targets : List NamedTarget} {correlationId : Uuid}
  {state : DispatchState σ κ} {connector : κ} {db : Database}

private theorem fitsColumns_nextRun_iff
    (hvalid : request.validate settings.defaultTimeout = .ok (timeout, targets)) :
    FitsColumns (state.nextRun around service request timeout targets correlationId) ↔
      service.length ≤ 255 ∧ ∀ s, request.satelliteOrgId = some s → s.length ≤ 255 := by
  obtain ⟨-, -, horgId, -, hsign, -⟩ := RunRequest.validate_eq_ok_iff.1 hvalid
  constructor
  · intro h
    exact ⟨h.service, h.satelliteOrgId⟩
  · rintro ⟨hservice, hsatellite⟩
    exact ⟨horgId, hsign, hservice, hsatellite⟩

private theorem takesAll_next_iff
    (hvalid : request.validate settings.defaultTimeout = .ok (timeout, targets))
    (hfresh : state.GivesFresh around targets.length db) :
    db.TakesAll (insertions
        (state.nextRun around service request timeout targets correlationId)
        (state.nextHosts around targets)) ↔ request.Fits service := by
  have hlength : targets.length = request.hosts.length := by
    have hnamed := (RunRequest.validate_eq_ok_iff.1 hvalid).2.2.2.2.2
    simpa using (congrArg List.length hnamed).symm
  rw [takesAll_insertions_iff, fitsColumns_nextRun_iff settings service hvalid]
  · rw [nextHosts, List.length_mapIdx, hlength, maxBinds]
    constructor
    · rintro ⟨⟨hservice, hsatellite⟩, hhosts⟩
      exact ⟨hservice, hsatellite, by omega⟩
    · rintro ⟨hservice, hsatellite, hhosts⟩
      exact ⟨⟨hservice, hsatellite⟩, by omega⟩
  case hrun => exact hfresh.run
  case howner =>
    intro host hhost
    obtain ⟨i, hi, rfl⟩ := List.mem_mapIdx.1 hhost
    rfl
  case hdistinct =>
    rw [List.pairwise_iff_getElem]
    intro i j hi hj hlt
    rw [nextHosts, List.length_mapIdx] at hj
    simpa [nextHosts, NamedTarget.toHost] using hfresh.distinct i j hlt hj
  case hhosts =>
    intro host hhost
    obtain ⟨i, hi, rfl⟩ := List.mem_mapIdx.1 hhost
    exact hfresh.hosts i hi

/-- A valid item whose message is taken becomes what the store makes of its run and its hosts. A
database takes these exactly when the names of the service and of the satellite's tenant fit their
columns and there are at most 8191 hosts. -/
theorem dispatchItem_storable_iff
    (hvalid : request.validate settings.defaultTimeout = .ok (timeout, targets))
    (htaken : around.connector (state.nextMessage around request timeout targets) state.connector =
      (.ok correlationId, connector))
    (hfresh : state.GivesFresh around targets.length db) :
    ∃ run hosts, ∃ stored : Except StoreError Unit, ∃ store,
      run = state.nextRun around service request timeout targets correlationId ∧
      hosts = state.nextHosts around targets ∧
      around.store.insert run hosts state.store = (stored, store) ∧
      state.dispatchItem around settings service request =
        ((stored.map fun _ ↦ run.id).mapError ItemError.store,
          { state with
            store, connector
            sent := state.sent ++ [state.nextMessage around request timeout targets]
            hostCount := state.hostCount + hosts.length }) ∧
      (db.TakesAll (insertions run hosts) ↔ request.Fits service) := by
  refine ⟨_, _, _, _, rfl, rfl, rfl, ?_, takesAll_next_iff settings service hvalid hfresh⟩
  rw [dispatchItem_of_taken settings service hvalid htaken rfl, nextHosts, List.length_mapIdx]
  rfl

private def plainItem (satelliteOrgId : Option String) : RunRequest where
  recipient := ⟨1⟩
  orgId := "5318290"
  url := "https://example.com/playbook"
  timeout := none
  labels := ∅
  hosts := [⟨some "localhost", none⟩]
  name := none
  webConsoleUrl := none
  satelliteId := none
  satelliteOrgId := satelliteOrgId

private def freshState : DispatchState Memory Unit :=
  ⟨∅, (), .create 5 5, 0, [], 0⟩

private theorem plainItem_valid (satelliteOrgId : Option String) :
    (plainItem satelliteOrgId).validate 3600 = .ok (3600, [⟨"localhost", none⟩]) := by
  rw [RunRequest.validate_eq_ok_iff]
  dsimp only [plainItem]
  exact ⟨by decide, by decide, by decide, rfl, by decide, rfl⟩

private theorem givesFresh_empty :
    freshState.GivesFresh .counting 1 fun _ ↦ [] := by
  refine ⟨nofun, nofun, fun i j hlt hj ↦ ?_⟩
  omega

/-- An item for no satellite's tenant can be stored. -/
theorem dispatchItem_storable_of_plain :
    ∃ run hosts, (freshState.dispatchItem .counting ⟨0, 3600⟩ "remediations"
        (plainItem none)).2.store = ⟨[run], hosts⟩ ∧
      Database.TakesAll (fun _ ↦ []) (insertions run hosts) := by
  have htaken : Surroundings.counting.connector
      (freshState.nextMessage .counting (plainItem none) 3600 [⟨"localhost", none⟩])
      freshState.connector = (.ok ⟨7⟩, ()) := rfl
  obtain ⟨run, hosts, stored, store, -, -, hstored, hitem, htakes⟩ :=
    dispatchItem_storable_iff ⟨0, 3600⟩ "remediations" (plainItem_valid none) htaken
      givesFresh_empty
  refine ⟨run, hosts, ?_, htakes.2 ⟨by decide, nofun, by decide⟩⟩
  rw [hitem]
  exact (congrArg Prod.snd hstored).symm

private theorem not_takesAll_of_lt {satelliteOrgId : String} (h : 255 < satelliteOrgId.length) :
    ∃ run hosts, (freshState.dispatchItem .counting ⟨0, 3600⟩ "remediations"
        (plainItem (some satelliteOrgId))).2.store = ⟨[run], hosts⟩ ∧
      (freshState.dispatchItem .counting ⟨0, 3600⟩ "remediations"
        (plainItem (some satelliteOrgId))).2.sent.length = 1 ∧
      ¬Database.TakesAll (fun _ ↦ []) (insertions run hosts) := by
  have hvalid := plainItem_valid (some satelliteOrgId)
  have htaken : Surroundings.counting.connector
      (freshState.nextMessage .counting (plainItem (some satelliteOrgId)) 3600
        [⟨"localhost", none⟩]) freshState.connector = (.ok ⟨7⟩, ()) := rfl
  have hitem := dispatchItem_of_taken ⟨0, 3600⟩ "remediations" hvalid htaken rfl
  refine ⟨_, _, by rw [hitem]; rfl, by rw [hitem]; rfl, fun htakes ↦ ?_⟩
  have hfits := (takesAll_next_iff ⟨0, 3600⟩ "remediations" hvalid givesFresh_empty).1 htakes
  exact absurd (hfits.satelliteOrgId satelliteOrgId rfl) (Nat.not_le.2 h)

private def longName : String := String.ofList (List.replicate 256 's')

/-- An item for a satellite's tenant with a name of 256 characters is valid and sent, but its run
cannot be stored. -/
theorem not_takesAll_of_longName :
    Http.serviceOf [(Http.serviceHeader, "remediations")] = .ok "remediations" ∧
      (plainItem (some longName)).validate 3600 = .ok (3600, [⟨"localhost", none⟩]) ∧
      ∃ run hosts, (freshState.dispatchItem .counting ⟨0, 3600⟩ "remediations"
          (plainItem (some longName))).2.store = ⟨[run], hosts⟩ ∧
        (freshState.dispatchItem .counting ⟨0, 3600⟩ "remediations"
          (plainItem (some longName))).2.sent.length = 1 ∧
        ¬Database.TakesAll (fun _ ↦ []) (insertions run hosts) := by
  have hlong : longName.length = 256 := by
    unfold longName
    rw [String.length_ofList]
    exact List.length_replicate
  exact ⟨by decide +kernel, plainItem_valid longName, not_takesAll_of_lt (by omega)⟩

end DispatchState

end PlaybookRuns
