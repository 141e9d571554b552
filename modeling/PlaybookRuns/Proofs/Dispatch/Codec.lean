import PlaybookRuns.Dispatch.Request
import PlaybookRuns.Proofs.Json.Records

/-!
# Requested runs that were written

Main statements: targets, requested runs and results are restored, whatever of them is left out.
-/

namespace PlaybookRuns

open PlaybookRuns.Json PlaybookRuns.Json.Shape

/-- A target is restored. -/
theorem HostTarget.restores (target : HostTarget) : Restores shape target.toJson target := by
  refine restores_ofPresent ?_ (by decide) fun found hfound ↦ ?_
  · exact .cons (.ofOption restores_someText _) <| .cons (.ofOption restores_someUuid _) .nil
  · rw [orDefault_of_option (hfound "ansible_host" _ rfl) restores_someText,
      orDefault_of_option (hfound "inventory_id" _ rfl) restores_someUuid]
    rfl

private theorem restores_someInt32 (n : Int32) :
    Restores (Shape.optional int32) (.integer n.toInt) (some n) :=
  (restores_int32 n).optional nofun

/-- A requested run is restored. -/
theorem RunRequest.restores (request : RunRequest) : Restores shape request.toJson request := by
  have hhosts : Restores (list HostTarget.shape) (.array (request.hosts.map HostTarget.toJson))
      request.hosts := restores_list fun target _ ↦ target.restores
  refine restores_ofPresent ?_ (by decide) fun found hfound ↦ ?_
  · exact .cons (.of (restores_uuid _)) <| .cons (.of (restores_text _)) <|
      .cons (.of (restores_text _)) <| .cons (.ofOption restores_someInt32 _) <|
      .cons (.of (restores_labels _)) <| .cons (.of hhosts) <|
      .cons (.ofOption restores_someText _) <| .cons (.ofOption restores_someText _) <|
      .cons (.ofOption restores_someUuid _) <| .cons (.ofOption restores_someText _) .nil
  · rw [required_of_restores (hfound "recipient" _ rfl) (restores_uuid _),
      required_of_restores (hfound "org_id" _ rfl) (restores_text _),
      required_of_restores (hfound "url" _ rfl) (restores_text _),
      orDefault_of_option (hfound "timeout" _ rfl) restores_someInt32,
      orDefault_of_restores (hfound "labels" _ rfl) (restores_labels _),
      orDefault_of_restores (hfound "hosts" _ rfl) hhosts,
      orDefault_of_option (hfound "name" _ rfl) restores_someText,
      orDefault_of_option (hfound "web_console_url" _ rfl) restores_someText,
      orDefault_of_option (hfound "satellite_id" _ rfl) restores_someUuid,
      orDefault_of_option (hfound "satellite_org_id" _ rfl) restores_someText]
    rfl

/-- A result is restored. -/
theorem ItemResult.restores (result : ItemResult) : Restores shape result.toJson result := by
  have hcode : Restores (Shape.integer 0 65535) (.integer result.code.toNat) result.code.toNat :=
    restores_integer (by omega) (by have := result.code.toNat_lt; omega) (by decide) (by decide)
  refine restores_ofPresent ?_ (by decide) fun found hfound ↦ ?_
  · exact .cons (.of hcode) <| .cons (.ofOption restores_someUuid _) <|
      .cons (.ofOption restores_someText _) .nil
  · rw [required_of_restores (hfound "code" _ rfl) hcode,
      orDefault_of_option (hfound "id" _ rfl) restores_someUuid,
      orDefault_of_option (hfound "message" _ rfl) restores_someText]
    exact congrArg (fun code ↦ Except.ok (ItemResult.mk code result.id result.message))
      result.code.ofNat_toNat

end PlaybookRuns
