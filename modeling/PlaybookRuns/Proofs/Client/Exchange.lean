import PlaybookRuns.Client.Calls
import PlaybookRuns.Http.Server
import PlaybookRuns.Proofs.Dispatch.Codec
import PlaybookRuns.Proofs.Listing.Codec
import PlaybookRuns.Proofs.Query.Filter
import PlaybookRuns.Proofs.Run.Codec
import PlaybookRuns.Store.Memory

/-!
# What client and server exchange

Main statement: what one side writes the other reads as the same, be it requested runs, their
results, pages or refusals; so is a run or a host that was read before and is written again.
-/

namespace PlaybookRuns

open PlaybookRuns.Json PlaybookRuns.Time

namespace Http

/-- A request as it arrives at a server, with the target to which its address leads. -/
def Outgoing.arrived (outgoing : Outgoing) (target : String) : Request :=
  ⟨outgoing.method, target, outgoing.headers, outgoing.body.getD ""⟩

/-- What a client gets of a response that reaches it whole, if the wording of it is laid down. -/
def Response.reply? (response : Response) : Option Reply :=
  match response.body with
  | .empty => some ⟨response.status, some ""⟩
  | .text s => some ⟨response.status, some s⟩
  | .json value => some ⟨response.status, some value.toText⟩
  | .rejected => none

private theorem ApiError.restores_body (e : ApiError) :
    Restores (Shape.anyValue Shape.maxDepth) e.body e.body := by
  refine Shape.Storable.restores (.object (Keyed.sorted_ofList _) fun m hm ↦ ?_)
  obtain rfl := List.mem_singleton.1 (Keyed.mem_of_mem_ofList hm)
  exact .string e.message

end Http

namespace Client

open PlaybookRuns.Http PlaybookRuns.Query

private theorem readReply_of_restores {α : Type} {decoder : Decoder α} {v : Json} {a : α}
    (h : Restores decoder v a) {status : Nat} (hstatus : isSuccess status = true) :
    readReply decoder ⟨status, some v.toText⟩ = .ok a := by
  rw [readReply, if_pos hstatus, Option.map_some, h.decode_toText]

private theorem readReply_apiError {α : Type} (decoder : Decoder α) (e : ApiError) :
    readReply decoder ⟨e.status, some e.body.toText⟩ = .error (.apiError e.status e.message) := by
  have hmessage : refusalMessage e.body.toText = e.message := by
    rw [refusalMessage, e.restores_body.decode_toText]
    rfl
  have hstatus : isSuccess e.status = false := by cases e <;> rfl
  rw [readReply, hstatus, Option.getD_some, hmessage]
  rfl

private theorem readBatch_arrived (client : DispatchClient) (service target : String)
    (requests : List RunRequest) :
    readBatch ((client.dispatchRequest service requests).arrived target) = .ok requests := by
  have hrestores : Restores (Shape.list RunRequest.shape)
      (.array (requests.map RunRequest.toJson)) requests :=
    Shape.restores_list fun request _ ↦ request.restores
  have hskipped : ¬serviceHeader.toLower = "content-type" := by decide +kernel
  have hannounced : header? ((client.dispatchRequest service requests).arrived target).headers
      "content-type" = some "application/json" := by
    simp only [Outgoing.arrived, DispatchClient.dispatchRequest, header?, List.find?_cons,
      decide_eq_false hskipped]
    decide +kernel
  have hbody : ((client.dispatchRequest service requests).arrived target).body =
      (Json.array (requests.map RunRequest.toJson)).toText := rfl
  rw [readBatch, hannounced, if_pos (by decide +kernel), hbody, hrestores.decode_toText]

/-- What one side writes the other reads as the same. -/
theorem exchanged_restored :
    (∀ (client : DispatchClient) (service target : String) (requests : List RunRequest),
      readBatch ((client.dispatchRequest service requests).arrived target) = .ok requests) ∧
    (∀ results : List ItemResult,
      (Response.mk 207 (.json (.array (results.map ItemResult.toJson)))).reply?.map
        (readReply (Shape.list ItemResult.shape)) = some (.ok results)) ∧
    (∀ (σ : Type) (store : RunStore σ) (context : ListContext) (state : σ) (page : ListPage),
      (store.runsPage context state).1 = .ok (some page) ∨
          (store.hostsPage context state).1 = .ok (some page) →
        (Response.mk 200 (.json page.toJson)).reply?.map (readReply ListPage.shape) =
          some (.ok page)) ∧
    (∀ (α : Type) (decoder : Decoder α) (e : ApiError),
      e.response.reply?.map (readReply decoder) =
        some (.error (.apiError e.status e.message))) ∧
    (∀ (text : String) (run : Run), Json.decode Run.shape text = .ok run →
      (∀ t ∈ [run.createdAt, run.updatedAt], 0 ≤ t.year ∧ t.year ≤ 9999) →
        Json.decode Run.shape run.toJson.toText = .ok run) ∧
    (∀ (text : String) (host : Host), Json.decode Host.shape text = .ok host →
      (∀ t ∈ [host.createdAt, host.updatedAt], 0 ≤ t.year ∧ t.year ≤ 9999) →
        Json.decode Host.shape host.toJson.toText = .ok host) := by
  refine ⟨readBatch_arrived, fun results ↦ ?_, fun σ store context state page hpage ↦ ?_,
    fun α decoder e ↦ ?_, fun text run h hyears ↦ ?_, fun text host h hyears ↦ ?_⟩
  · have hrestores : Restores (Shape.list ItemResult.shape)
        (.array (results.map ItemResult.toJson)) results :=
      Shape.restores_list fun result _ ↦ result.restores
    exact congrArg some (readReply_of_restores hrestores rfl)
  · have hstorable : page.IsStorable :=
      hpage.elim ListPage.isStorable_of_serveListing ListPage.isStorable_of_serveListing
    exact congrArg some (readReply_of_restores (ListPage.restores hstorable) rfl)
  · exact congrArg some (readReply_apiError decoder e)
  · exact run.decode_toText h (hyears _ (by simp)) (hyears _ (by simp))
  · exact host.decode_toText h (hyears _ (by simp)) (hyears _ (by simp))

private def runText : String :=
  "[\"00000000000000000000000000000003\",\"org\",\"00000000000000000000000000000004\"," ++
  "\"00000000000000000000000000000005\",\"\",-1,\"running\",\x7b\"k\":\"\\u00e9\"\x7d,\"\"," ++
  "\"2016-12-31T23:59:60.5Z\",\"2017-01-01 05:00:00+05:00\",null,null,\"\",null]"

private def hostText : String :=
  "[\"00000000000000000000000000000006\",\"00000000000000000000000000000003\",\"host\",null," ++
  "\"success\",\"\\n\",\"2016-12-31T23:59:60.5Z\",\"2017-01-01 05:00:00+05:00\"]"

/-- The page that lists a run is read by the client, and a run and a host that were read are read
again. -/
theorem exchanged_restored_of_leapSecond :
    (∃ page, (Memory.store.runsPage ⟨"org", "/runs", [], ⟨0, 0⟩⟩ ⟨[minuteRun 3 ⟨0, 0⟩], []⟩).1 =
        .ok (some page) ∧ page.total = 1 ∧
      (Response.mk 200 (.json page.toJson)).reply?.map (readReply ListPage.shape) =
        some (.ok page)) ∧
    (∃ run, Json.decode Run.shape runText = .ok run ∧
      (run.createdAt, run.updatedAt) = (⟨1483228799, 1500000000⟩, ⟨1483228800, 0⟩) ∧
      Json.decode Run.shape run.toJson.toText = .ok run) ∧
    ∃ host, Json.decode Host.shape hostText = .ok host ∧
      (host.createdAt, host.updatedAt) = (⟨1483228799, 1500000000⟩, ⟨1483228800, 0⟩) ∧
      Json.decode Host.shape host.toJson.toText = .ok host := by
  obtain ⟨-, -, hpages, -, hruns, hhosts⟩ := exchanged_restored
  have hyears : ∀ t ∈ [(⟨1483228799, 1500000000⟩ : Instant), ⟨1483228800, 0⟩],
      0 ≤ t.year ∧ t.year ≤ 9999 := by decide
  obtain ⟨page, hpage, htotal⟩ := Checked.eq_ok_some_of_map
    (x := (Memory.store.runsPage ⟨"org", "/runs", [], ⟨0, 0⟩⟩ ⟨[minuteRun 3 ⟨0, 0⟩], []⟩).1)
    (f := ListPage.total) (b := 1) (by decide +kernel)
  obtain ⟨run, hrun, hinstants⟩ := Checked.eq_ok_of_map
    (x := Json.decode Run.shape runText) (f := fun run ↦ (run.createdAt, run.updatedAt))
    (b := (⟨1483228799, 1500000000⟩, ⟨1483228800, 0⟩)) (by decide +kernel)
  obtain ⟨host, hhost, hinstants'⟩ := Checked.eq_ok_of_map
    (x := Json.decode Host.shape hostText) (f := fun host ↦ (host.createdAt, host.updatedAt))
    (b := (⟨1483228799, 1500000000⟩, ⟨1483228800, 0⟩)) (by decide +kernel)
  refine ⟨⟨page, hpage, htotal, hpages _ _ _ _ page (.inl hpage)⟩, ⟨run, hrun, hinstants, ?_⟩,
    host, hhost, hinstants', ?_⟩
  · obtain ⟨hcreated, hupdated⟩ := Prod.mk.inj hinstants
    exact hruns runText run hrun (by rwa [hcreated, hupdated])
  · obtain ⟨hcreated, hupdated⟩ := Prod.mk.inj hinstants'
    exact hhosts hostText host hhost (by rwa [hcreated, hupdated])

end Client

end PlaybookRuns
