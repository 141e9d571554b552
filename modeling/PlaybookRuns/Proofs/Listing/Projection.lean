import PlaybookRuns.Listing.Projection
import PlaybookRuns.Proofs.Checked

/-!
# Rows that can be shown

Of the fields of a row only its status can be missing. Main statement: a row is shown under the
selected fields unless its status is one of them, still runs, and has no deadline.
-/

namespace PlaybookRuns

open PlaybookRuns.Query PlaybookRuns.Time

variable {φ κ ρ : Type} [FieldSet φ] [SortKeys κ ρ] [Listable ρ φ κ]

namespace Listable

/-- The status that is kept of a row: that of its host, where it has one. -/
def stored (row : ρ) : StoredStatus :=
  match host? row with
  | some host => host.status
  | none => (run row).status

/-- Whether a row is stored as running while its deadline lies outside the calendar. -/
def LacksDeadline (row : ρ) : Prop :=
  stored row = .running ∧ DisplayedStatus.deadline? (run row).createdAt (run row).timeout = none

end Listable

/-- Fields of which every row has all but its status. -/
class LawfulFields (ρ : Type) (φ κ : outParam Type) [FieldSet φ] [SortKeys κ ρ] [Listable ρ φ κ] :
    Prop where
  /-- Only a status can be missing, and is where there is no deadline to tell it from. -/
  value?_eq_none_iff (field : φ) (row : ρ) (now : Instant) :
    Listable.value? field row now = none ↔
      FieldSet.name field = "status" ∧ Listable.LacksDeadline row

/-- A run has all its fields but the status at every instant. -/
instance : LawfulFields Run RunField RunSortKey where
  value?_eq_none_iff field run now := by
    cases field with
    | status =>
      have hshown : Listable.value? RunField.status run now = none ↔
          DisplayedStatus.derive? run.status run.createdAt run.timeout now = none :=
        Option.map_eq_none_iff
      rw [hshown, DisplayedStatus.derive?_eq_none_iff]
      exact (and_iff_right rfl).symm
    | _ => exact iff_of_false (by simp [Listable.value?]) (by simp [FieldSet.name])

/-- A host has all its fields but the status at every instant. -/
instance : LawfulFields HostRecord HostField HostSortKey where
  value?_eq_none_iff field record now := by
    cases field with
    | status =>
      have hshown : Listable.value? HostField.status record now = none ↔
          DisplayedStatus.derive? record.host.status record.run.createdAt record.run.timeout now =
            none := Option.map_eq_none_iff
      rw [hshown, DisplayedStatus.derive?_eq_none_iff]
      exact (and_iff_right rfl).symm
    | _ => exact iff_of_false (by simp [Listable.value?]) (by simp [FieldSet.name])

/-- What is shown of a row under one field, with the name of the field. -/
def Listable.member? (now : Instant) (row : ρ) (field : φ) : Option (String × Json) :=
  (value? field row now).map (FieldSet.name field, ·)

/-- A field is shown under its name with its value. -/
theorem Listable.member?_eq_some_iff {now : Instant} {row : ρ} {field : φ} {e : String × Json} :
    Listable.member? now row field = some e ↔
      FieldSet.name field = e.1 ∧ Listable.value? field row now = some e.2 := by
  obtain ⟨name, value⟩ := e
  rw [Listable.member?, Option.map_eq_some_iff]
  constructor
  · rintro ⟨value, hvalue, hmember⟩
    obtain ⟨rfl, rfl⟩ := Prod.mk.inj hmember
    exact ⟨rfl, hvalue⟩
  · rintro ⟨rfl, hvalue⟩
    exact ⟨value, hvalue, rfl⟩

/-- A row is shown as the sorted members of its fields, where each of them has a value. -/
theorem project?_eq (fields : List φ) (now : Instant) (row : ρ) :
    project? fields now row = (fields.mapM (Listable.member? now row)).map Keyed.ofList := by
  have hmember : Listable.member? now row = fun field ↦ do
      return (FieldSet.name field, ← Listable.value? field row now) := by
    funext field
    rw [Listable.member?]
    cases Listable.value? field row now <;> rfl
  rw [hmember, project?]
  exact (Option.map_eq_bind).symm

/-- A row can be shown unless its status is selected and cannot be told. -/
theorem project?_isSome_iff [LawfulFields ρ φ κ] {fields : List φ} {row : ρ} {now : Instant} :
    (project? fields now row).isSome ↔
      ((∃ field ∈ fields, FieldSet.name field = "status") → ¬Listable.LacksDeadline row) := by
  have hmember (field : φ) : (Listable.member? now row field).isSome ↔
      ¬(FieldSet.name field = "status" ∧ Listable.LacksDeadline row) := by
    rw [← LawfulFields.value?_eq_none_iff field row now, Listable.member?, Option.isSome_map,
      Option.isSome_iff_ne_none]
  rw [project?_eq, Option.isSome_map]
  constructor
  · rintro h ⟨field, hfield, hname⟩ hlacks
    obtain ⟨members, hmembers⟩ := Option.isSome_iff_exists.1 h
    have hsome : (Listable.member? now row field).isSome :=
      Checked.isSome_of_map_eq_map_some (Checked.mapM_eq_some_iff.1 hmembers) hfield
    exact (hmember field).1 hsome ⟨hname, hlacks⟩
  · intro h
    have hall : ∀ field ∈ fields, (Listable.member? now row field).isSome := by
      intro field hfield
      rw [hmember]
      rintro ⟨hname, hlacks⟩
      exact h ⟨field, hfield, hname⟩ hlacks
    obtain ⟨members, hmembers⟩ := Checked.exists_map_eq_map_some hall
    exact Option.isSome_iff_exists.2 ⟨members, Checked.mapM_eq_some_iff.2 hmembers⟩

end PlaybookRuns
