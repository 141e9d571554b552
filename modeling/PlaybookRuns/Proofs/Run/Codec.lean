import PlaybookRuns.Proofs.Json.Records
import PlaybookRuns.Proofs.Time.Text

/-!
# Runs and hosts that were written

Main statements: runs and hosts are decoded as they were before they were written, if the texts of
their instants denote these; this is so for those that were decoded themselves, as long as the years
of their instants have four digits.
-/

namespace PlaybookRuns

open PlaybookRuns.Json PlaybookRuns.Json.Shape

/-! ## Instants and statuses -/

/-- Whether an instant can be written so that it is read back. -/
structure Time.Instant.IsWritable (t : Time.Instant) : Prop where
  isProper : t.IsProper
  zero_le_year : 0 ≤ t.year
  year_le : t.year ≤ 9999

/-- Instants that can be written are restored. -/
theorem restores_instant {t : Time.Instant} (h : t.IsWritable) : Restores instant t.toJson t :=
  restores_parsed (Time.Instant.ofText?_toText h.isProper h.zero_le_year h.year_le)

/-- Stored statuses are restored. -/
theorem StoredStatus.restores (s : StoredStatus) : Restores shape s.toJson s :=
  restores_name (ofName?_name s)

private theorem isProper_of_required {key : String} {found : List (String × Document)}
    {t : Time.Instant} (h : required key instant found = .ok t) : t.IsProper := by
  unfold required at h
  split at h
  · obtain ⟨s, -, h⟩ := Checked.bind_eq_ok_iff.1 h
    split at h
    · next hread =>
      obtain rfl := Except.ok.inj h
      exact Time.Instant.isProper_of_ofText? hread
    · cases h
  · cases h

private theorem shape_of_decode {α : Type} {decoder : Decoder α} {text : String} {a : α}
    (h : decode decoder text = .ok a) : decoder (read text).1 = .ok a := by
  rw [decode] at h
  generalize read text = tree at h ⊢
  obtain ⟨document, atEnd⟩ := tree
  obtain ⟨value, hvalue, hclosed⟩ := Checked.bind_eq_ok_iff.1 h
  cases atEnd with
  | false => cases hclosed
  | true => rwa [Except.ok.inj hclosed] at hvalue

/-! ## Runs -/

namespace Run

/-- A run is restored. -/
theorem restores (run : Run) (hcreated : run.createdAt.IsWritable)
    (hupdated : run.updatedAt.IsWritable) : Restores shape run.toJson run := by
  refine restores_ofMembers ?_ (by decide) fun found hfound ↦ ?_
  · exact .cons (.of (restores_uuid _)) <| .cons (.of (restores_text _)) <|
      .cons (.of (restores_uuid _)) <| .cons (.of (restores_uuid _)) <|
      .cons (.of (restores_text _)) <| .cons (.of (restores_int32 _)) <|
      .cons (.of run.status.restores) <| .cons (.of (restores_labels _)) <|
      .cons (.of (restores_text _)) <| .cons (.of (restores_instant hcreated)) <|
      .cons (.of (restores_instant hupdated)) <|
      .cons (.of (restores_ofOption restores_someUuid _)) <|
      .cons (.of (restores_ofOption restores_someText _)) <|
      .cons (.of (restores_ofOption restores_someText _)) <|
      .cons (.of (restores_ofOption restores_someText _)) .nil
  · rw [required_of_restores (hfound "id" _ rfl) (restores_uuid _),
      required_of_restores (hfound "org_id" _ rfl) (restores_text _),
      required_of_restores (hfound "recipient" _ rfl) (restores_uuid _),
      required_of_restores (hfound "correlation_id" _ rfl) (restores_uuid _),
      required_of_restores (hfound "url" _ rfl) (restores_text _),
      required_of_restores (hfound "timeout" _ rfl) (restores_int32 _),
      required_of_restores (hfound "status" _ rfl) run.status.restores,
      required_of_restores (hfound "labels" _ rfl) (restores_labels _),
      required_of_restores (hfound "service" _ rfl) (restores_text _),
      required_of_restores (hfound "created_at" _ rfl) (restores_instant hcreated),
      required_of_restores (hfound "updated_at" _ rfl) (restores_instant hupdated),
      orDefault_of_restores (hfound "satellite_id" _ rfl) (restores_ofOption restores_someUuid _),
      orDefault_of_restores (hfound "satellite_org_id" _ rfl)
        (restores_ofOption restores_someText _),
      orDefault_of_restores (hfound "name" _ rfl) (restores_ofOption restores_someText _),
      orDefault_of_restores (hfound "web_console_url" _ rfl)
        (restores_ofOption restores_someText _)]
    rfl

private theorem isProper_of_shape {d : Document} {run : Run} (h : shape d = .ok run) :
    run.createdAt.IsProper ∧ run.updatedAt.IsProper := by
  simp only [shape, Checked.bind_eq_ok_iff, Checked.pure_eq_ok_iff] at h
  obtain ⟨found, -, id, -, orgId, -, recipient, -, correlationId, -, url, -, timeout, -, status, -,
    labels, -, service, -, createdAt, hcreated, updatedAt, hupdated, satelliteId, -,
    satelliteOrgId, -, name, -, webConsoleUrl, -, rfl⟩ := h
  exact ⟨isProper_of_required hcreated, isProper_of_required hupdated⟩

/-- A run that was decoded is decoded again from its own text. -/
theorem decode_toText {text : String} {run : Run} (h : decode shape text = .ok run)
    (hcreated : 0 ≤ run.createdAt.year ∧ run.createdAt.year ≤ 9999)
    (hupdated : 0 ≤ run.updatedAt.year ∧ run.updatedAt.year ≤ 9999) :
    decode shape run.toJson.toText = .ok run := by
  obtain ⟨hproper, hproper'⟩ := isProper_of_shape (shape_of_decode h)
  exact (run.restores ⟨hproper, hcreated.1, hcreated.2⟩
    ⟨hproper', hupdated.1, hupdated.2⟩).decode_toText

end Run

/-! ## Hosts -/

namespace Host

/-- A host is restored. -/
theorem restores (host : Host) (hcreated : host.createdAt.IsWritable)
    (hupdated : host.updatedAt.IsWritable) : Restores shape host.toJson host := by
  refine restores_ofMembers ?_ (by decide) fun found hfound ↦ ?_
  · exact .cons (.of (restores_uuid _)) <| .cons (.of (restores_uuid _)) <|
      .cons (.of (restores_text _)) <| .cons (.of (restores_ofOption restores_someUuid _)) <|
      .cons (.of host.status.restores) <| .cons (.of (restores_ofOption restores_someText _)) <|
      .cons (.of (restores_instant hcreated)) <| .cons (.of (restores_instant hupdated)) .nil
  · rw [required_of_restores (hfound "id" _ rfl) (restores_uuid _),
      required_of_restores (hfound "run_id" _ rfl) (restores_uuid _),
      required_of_restores (hfound "host" _ rfl) (restores_text _),
      orDefault_of_restores (hfound "inventory_id" _ rfl) (restores_ofOption restores_someUuid _),
      required_of_restores (hfound "status" _ rfl) host.status.restores,
      orDefault_of_restores (hfound "stdout" _ rfl) (restores_ofOption restores_someText _),
      required_of_restores (hfound "created_at" _ rfl) (restores_instant hcreated),
      required_of_restores (hfound "updated_at" _ rfl) (restores_instant hupdated)]
    rfl

private theorem isProper_of_shape {d : Document} {host : Host} (h : shape d = .ok host) :
    host.createdAt.IsProper ∧ host.updatedAt.IsProper := by
  simp only [shape, Checked.bind_eq_ok_iff, Checked.pure_eq_ok_iff] at h
  obtain ⟨found, -, id, -, runId, -, name, -, inventoryId, -, status, -, stdout, -, createdAt,
    hcreated, updatedAt, hupdated, rfl⟩ := h
  exact ⟨isProper_of_required hcreated, isProper_of_required hupdated⟩

/-- A host that was decoded is decoded again from its own text. -/
theorem decode_toText {text : String} {host : Host} (h : decode shape text = .ok host)
    (hcreated : 0 ≤ host.createdAt.year ∧ host.createdAt.year ≤ 9999)
    (hupdated : 0 ≤ host.updatedAt.year ∧ host.updatedAt.year ≤ 9999) :
    decode shape host.toJson.toText = .ok host := by
  obtain ⟨hproper, hproper'⟩ := isProper_of_shape (shape_of_decode h)
  exact (host.restores ⟨hproper, hcreated.1, hcreated.2⟩
    ⟨hproper', hupdated.1, hupdated.2⟩).decode_toText

end Host

end PlaybookRuns
