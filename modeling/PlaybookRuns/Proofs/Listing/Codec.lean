import PlaybookRuns.Listing.Serve
import PlaybookRuns.Proofs.Json.Records
import PlaybookRuns.Proofs.Listing.Projection

/-!
# Pages that were written

Main statements: a page is restored if the values it shows can be stored as they are; those of every
page that a listing is answered with can, whatever the store.
-/

namespace PlaybookRuns

open PlaybookRuns.Json PlaybookRuns.Json.Shape PlaybookRuns.Query PlaybookRuns.Time

/-! ## Pages -/

/-- Links are restored. -/
theorem Query.Links.restores (links : Links) : Restores shape links.toJson links := by
  refine restores_ofPresent ?_ (by decide) fun found hfound ↦ ?_
  · exact .cons (.of (restores_text _)) <| .cons (.of (restores_text _)) <|
      .cons (.ofOption restores_someText _) <| .cons (.ofOption restores_someText _) .nil
  · rw [required_of_restores (hfound "first" _ rfl) (restores_text _),
      required_of_restores (hfound "last" _ rfl) (restores_text _),
      orDefault_of_option (hfound "next" _ rfl) restores_someText,
      orDefault_of_option (hfound "previous" _ rfl) restores_someText]
    rfl

namespace ListPage

/-- Whether the objects of a page come back unchanged: their members are sorted, and can be stored
as deep as they stand. -/
def IsStorable (page : ListPage) : Prop :=
  ∀ object ∈ page.data, Keyed.Sorted object ∧ ∀ m ∈ object, Storable (maxDepth - 3) m.2

private theorem restores_counts (count total : Int64) :
    Restores countShape
      (.ofMembers [("count", .integer count.toInt), ("total", .integer total.toInt)])
      (count, total) := by
  refine restores_ofMembers ?_ (by decide) fun found hfound ↦ ?_
  · exact .cons (.of (restores_int64 _)) <| .cons (.of (restores_int64 _)) .nil
  · rw [required_of_restores (hfound "count" _ rfl) (restores_int64 _),
      required_of_restores (hfound "total" _ rfl) (restores_int64 _)]
    rfl

private theorem restores_data {page : ListPage} (h : page.IsStorable) :
    Restores dataShape (.array (page.data.map .object)) page.data := by
  refine restores_list fun object hobject ↦ ?_
  obtain ⟨hsorted, hmembers⟩ := h object hobject
  have hrestores := @restores_entries _ id _ _ hsorted fun m hm ↦ (hmembers m hm).restores
  have hmap : (object.map fun m ↦ (m.1, id m.2)) = object := List.map_id object
  rwa [hmap] at hrestores

/-- A page is restored. -/
theorem restores {page : ListPage} (h : page.IsStorable) : Restores shape page.toJson page := by
  have hdata := restores_data h
  have hcounts := restores_counts page.count page.total
  have hlinks := page.links.restores
  refine restores_ofMembers ?_ (by decide) fun found hfound ↦ ?_
  · exact .cons (.of hdata) <| .cons (.of hcounts) <| .cons (.of hlinks) .nil
  · rw [required_of_restores (hfound "meta" _ rfl) hcounts,
      required_of_restores (hfound "data" _ rfl) hdata,
      required_of_restores (hfound "links" _ rfl) hlinks]
    rfl

end ListPage

/-! ## What rows show -/

private theorem storable_ofOption {α : Type} {room : Nat} {write : α → Json}
    (h : ∀ a, Storable room (write a)) (o : Option α) : Storable room (.ofOption write o) := by
  cases o with
  | none => exact .null
  | some a => exact h a

private theorem storable_labels (room : Nat) (labels : Labels) :
    Storable (room + 1) labels.toJson := by
  refine .object ?_ ?_
  · rw [Keyed.Sorted, List.pairwise_map]
    exact labels.sorted
  · rw [List.forall_mem_map]
    exact fun m _ ↦ .string m.2

/-- Fields whose values can be stored, two lists deep at most. -/
class StorableFields (ρ : Type) (φ κ : outParam Type) [FieldSet φ] [SortKeys κ ρ] [Listable ρ φ κ] :
    Prop where
  storable {field : φ} {row : ρ} {now : Instant} {v : Json} (room : Nat)
    (h : Listable.value? field row now = some v) : Storable (room + 2) v

/-- The values of runs are at most one list deep. -/
instance : StorableFields Run RunField RunSortKey where
  storable {field run now v} room h := by
    cases field with
    | status =>
      obtain ⟨status, -, rfl⟩ := Option.map_eq_some_iff.1 h
      exact .string status.name
    | timeout =>
      obtain rfl := Option.some.inj h
      have hmin := run.timeout.minValue_le_toInt
      have hmax := run.timeout.toInt_le
      exact .integer (Int.le_trans (by decide) hmin) (Int.lt_of_le_of_lt hmax (by decide))
    | labels =>
      obtain rfl := Option.some.inj h
      exact storable_labels (room + 1) run.labels
    | name | webConsoleUrl | satelliteOrgId =>
      obtain rfl := Option.some.inj h
      exact storable_ofOption .string _
    | satelliteId =>
      obtain rfl := Option.some.inj h
      exact storable_ofOption (fun id : Uuid ↦ .string id.toText) _
    | _ =>
      obtain rfl := Option.some.inj h
      exact .string _

/-- The values of hosts are two lists deep where their run is shown with its labels. -/
instance : StorableFields HostRecord HostField HostSortKey where
  storable {field record now v} room h := by
    cases field with
    | status =>
      obtain ⟨status, -, rfl⟩ := Option.map_eq_some_iff.1 h
      exact .string status.name
    | run =>
      obtain rfl := Option.some.inj h
      refine .object (Keyed.sorted_ofList _) fun m hm ↦ ?_
      have hmem := Keyed.mem_of_mem_ofList hm
      simp only [List.mem_cons, List.not_mem_nil, or_false] at hmem
      rcases hmem with rfl | rfl | rfl
      · exact .string _
      · exact storable_labels room record.run.labels
      · exact .string _
    | stdout =>
      obtain rfl := Option.some.inj h
      exact storable_ofOption .string _
    | inventoryId =>
      obtain rfl := Option.some.inj h
      exact storable_ofOption (fun id : Uuid ↦ .string id.toText) _
    | host =>
      obtain rfl := Option.some.inj h
      exact .string _

variable {σ φ κ ρ : Type} [FieldSet φ] [SortKeys κ ρ] [Listable ρ φ κ] [StorableFields ρ φ κ]

private theorem storable_project? {fields : List φ} {now : Instant} {row : ρ} {object : JsonObject}
    (h : project? fields now row = some object) :
    Keyed.Sorted object ∧ ∀ m ∈ object, Storable (maxDepth - 3) m.2 := by
  obtain ⟨members, hmembers, hobject⟩ := Option.bind_eq_some_iff.1 h
  obtain rfl := Option.some.inj hobject
  refine ⟨Keyed.sorted_ofList members, fun m hm ↦ ?_⟩
  have hmem : some m ∈ members.map some := List.mem_map_of_mem (Keyed.mem_of_mem_ofList hm)
  rw [← Checked.mapM_eq_some_iff.1 hmembers] at hmem
  obtain ⟨field, -, hfield⟩ := List.mem_map.1 hmem
  obtain ⟨v, hvalue, hpair⟩ := Option.bind_eq_some_iff.1 hfield
  obtain rfl := Option.some.inj hpair
  exact StorableFields.storable 122 hvalue

/-- The page that a listing is answered with can be stored. -/
theorem ListPage.isStorable_of_serveListing
    {fetch : ListQuery κ → StoreAction σ (Option (Listing ρ))} {context : ListContext} {state : σ}
    {page : ListPage} (h : (serveListing fetch context state).1 = .ok (some page)) :
    page.IsStorable := by
  unfold serveListing at h
  split at h
  · cases h
  · next request _ =>
    split at h
    · cases h
    · next listing? _ _ =>
      obtain ⟨listing, -, hpage⟩ := Option.bind_eq_some_iff.1 (Except.ok.inj h)
      obtain ⟨data, hdata, hpage⟩ := Option.bind_eq_some_iff.1 hpage
      obtain rfl := Option.some.inj hpage
      intro object hobject
      have hmem : some object ∈ data.map some := List.mem_map_of_mem hobject
      rw [← Checked.mapM_eq_some_iff.1 hdata] at hmem
      obtain ⟨row, -, hrow⟩ := List.mem_map.1 hmem
      exact storable_project? hrow

end PlaybookRuns
