import Mathlib.Data.List.Nodup
import PlaybookRuns.Proofs.Reordering
import PlaybookRuns.Query.SortOrder

/-!
# Sorted rows

Every order of a listing is total and transitive, whatever its key and direction. Main statements:
`SortOrder.apply` gives the same rows, in the requested order, those that are picked out stand in it
as among all, and it does not matter how rows with different identifiers come.
-/

namespace PlaybookRuns

/-- Instants compare transitively, by seconds and then by nanoseconds. -/
instance : Std.TransOrd Time.Instant :=
  inferInstanceAs (Std.TransCmp
    (compareLex (compareOn Time.Instant.seconds) (compareOn Time.Instant.nanos)))

/-- Instants compare as equal only where they are. -/
instance : Std.LawfulEqOrd Time.Instant where
  eq_of_compare {a b} h := by
    obtain ⟨hseconds, hnanos⟩ := Ordering.then_eq_eq.1 h
    cases a
    cases b
    congr 1
    · exact Std.LawfulEqOrd.eq_of_compare hseconds
    · exact Std.LawfulEqOrd.eq_of_compare hnanos

/-- Identifiers compare transitively, as numbers. -/
instance : Std.TransOrd Uuid :=
  inferInstanceAs (Std.TransCmp (compareOn fun id : Uuid ↦ id.bits.toNat))

/-- Identifiers compare as equal only where they are. -/
instance : Std.LawfulEqOrd Uuid where
  eq_of_compare {a b} h := by
    have hbits : a.bits = b.bits := BitVec.eq_of_toNat_eq (Std.LawfulEqOrd.eq_of_compare h)
    cases a
    cases b
    exact congrArg Uuid.mk hbits

namespace Query

/-- Keys by which every row can be compared with every other. -/
class LawfulSortKeys (κ : Type) (ρ : outParam Type) [SortKeys κ ρ] : Prop where
  /-- Comparing by a key is total and transitive. -/
  transCmp (key : κ) : Std.TransCmp (SortKeys.compareBy key : ρ → ρ → Ordering)

/-- Each key of runs compares one of their fields. -/
instance : LawfulSortKeys RunSortKey Run where
  transCmp
    | .createdAt => inferInstanceAs (Std.TransCmp (compareOn Run.createdAt))
    | .updatedAt => inferInstanceAs (Std.TransCmp (compareOn Run.updatedAt))
    | .timeout => inferInstanceAs (Std.TransCmp (compareOn fun run : Run ↦ run.timeout.toInt))
    | .recipient => inferInstanceAs (Std.TransCmp (compareOn Run.recipient))
    | .service => inferInstanceAs (Std.TransCmp (compareOn Run.service))
    | .name => inferInstanceAs (Std.TransCmp (compareOn Run.name))

/-- Each key of hosts compares one of their fields. -/
instance : LawfulSortKeys HostSortKey HostRecord where
  transCmp
    | .createdAt =>
      inferInstanceAs (Std.TransCmp (compareOn fun record : HostRecord ↦ record.host.createdAt))
    | .updatedAt =>
      inferInstanceAs (Std.TransCmp (compareOn fun record : HostRecord ↦ record.host.updatedAt))
    | .host => inferInstanceAs (Std.TransCmp (compareOn fun record : HostRecord ↦ record.host.host))
    | .inventoryId =>
      inferInstanceAs (Std.TransCmp (compareOn fun record : HostRecord ↦ record.host.inventoryId))

namespace SortOrder

variable {κ ρ : Type} [SortKeys κ ρ]

/-- Sorting keeps every row, as often as it is there. -/
theorem apply_perm (order : SortOrder κ) (rows : List ρ) : (order.apply rows).Perm rows :=
  List.mergeSort_perm rows _

/-- Rows that compare as equal have the same identifier, since that breaks ties. -/
theorem id_eq_of_compare {order : SortOrder κ} {a b : ρ} (h : order.compare a b = .eq) :
    SortKeys.id κ a = SortKeys.id κ b := by
  rw [compare, Ordering.then_eq_eq] at h
  exact Std.LawfulEqOrd.eq_of_compare h.2

/-- Rows that compare as equal by the key of an order compare as their identifiers do, whatever the
direction is. -/
theorem compare_of_compareBy {order : SortOrder κ} {a b : ρ}
    (h : SortKeys.compareBy order.key a b = .eq) :
    order.compare a b = Ord.compare (SortKeys.id κ a) (SortKeys.id κ b) := by
  rw [compare, h]
  cases order.direction <;> rfl

private theorem transCmp_direction (direction : Direction) {cmp : ρ → ρ → Ordering}
    [Std.TransCmp cmp] : Std.TransCmp fun a b ↦ direction.apply (cmp a b) := by
  cases direction with
  | asc => exact inferInstanceAs (Std.TransCmp cmp)
  | desc =>
    have hswap : (fun a b ↦ Direction.desc.apply (cmp a b)) = fun a b ↦ cmp b a := by
      funext a b
      exact (Std.OrientedCmp.eq_swap : cmp b a = (cmp a b).swap).symm
    rw [hswap]
    exact Std.TransCmp.opposite

variable [LawfulSortKeys κ ρ]

/-- Every order is total and transitive. -/
instance transCmp_compare (order : SortOrder κ) :
    Std.TransCmp (order.compare : ρ → ρ → Ordering) := by
  have := LawfulSortKeys.transCmp order.key (ρ := ρ)
  have : Std.TransCmp fun a b : ρ ↦ order.direction.apply (SortKeys.compareBy order.key a b) :=
    transCmp_direction order.direction
  exact inferInstanceAs (Std.TransCmp (compareLex
    (fun a b ↦ order.direction.apply (SortKeys.compareBy order.key a b))
    (compareOn (SortKeys.id κ))))

private theorem isLE_trans (order : SortOrder κ) (a b c : ρ) (hab : (order.compare a b).isLE)
    (hbc : (order.compare b c).isLE) : (order.compare a c).isLE := Std.TransCmp.isLE_trans hab hbc

private theorem isLE_total (order : SortOrder κ) (a b : ρ) :
    (order.compare a b).isLE || (order.compare b a).isLE := by
  have hswap : order.compare b a = (order.compare a b).swap := Std.OrientedCmp.eq_swap
  rw [hswap]
  cases order.compare a b <;> rfl

/-- Sorted rows are in order. -/
theorem pairwise_apply (order : SortOrder κ) (rows : List ρ) :
    (order.apply rows).Pairwise fun a b ↦ (order.compare a b).isLE :=
  List.pairwise_mergeSort order.isLE_trans order.isLE_total rows

/-- Rows that are picked out are sorted as they stand among all sorted rows. -/
theorem apply_filter (order : SortOrder κ) (p : ρ → Bool) (rows : List ρ) :
    order.apply (rows.filter p) = (order.apply rows).filter p :=
  Reordering.mergeSort_filter order.isLE_trans order.isLE_total p rows

/-- Of rows with different identifiers, no two compare as at most each other. -/
theorem eq_of_isLE {order : SortOrder κ} {rows : List ρ}
    (hids : (rows.map (SortKeys.id κ)).Nodup) {a b : ρ} (ha : a ∈ rows) (hb : b ∈ rows)
    (hab : (order.compare a b).isLE) (hba : (order.compare b a).isLE) : a = b :=
  List.inj_on_of_nodup_map hids ha hb
    (id_eq_of_compare (Std.OrientedCmp.isLE_antisymm hab hba))

/-- Rows with different identifiers are sorted strictly. -/
theorem pairwise_lt_apply (order : SortOrder κ) {rows : List ρ}
    (hids : (rows.map (SortKeys.id κ)).Nodup) :
    (order.apply rows).Pairwise fun a b ↦ order.compare a b = .lt := by
  have hdistinct : ((order.apply rows).map (SortKeys.id κ)).Nodup :=
    ((order.apply_perm rows).map _).nodup_iff.2 hids
  rw [List.nodup_iff_pairwise_ne, List.pairwise_map] at hdistinct
  refine (hdistinct.and (order.pairwise_apply rows)).imp fun {a b} ⟨hne, hle⟩ ↦ ?_
  cases h : order.compare a b with
  | lt => rfl
  | eq => exact absurd (id_eq_of_compare h) hne
  | gt =>
    rw [h] at hle
    cases hle

/-- Rows with different identifiers are sorted alike, however they come. -/
theorem apply_eq_of_perm (order : SortOrder κ) {rows rows' : List ρ} (h : rows'.Perm rows)
    (hids : (rows.map (SortKeys.id κ)).Nodup) : order.apply rows' = order.apply rows := by
  have hperm := (order.apply_perm rows').trans h
  apply List.Perm.eq_of_pairwise _ (order.pairwise_apply rows') (order.pairwise_apply rows)
    (hperm.trans (order.apply_perm rows).symm)
  intro a b ha hb hab hba
  exact eq_of_isLE hids (hperm.mem_iff.1 ha) ((order.apply_perm rows).mem_iff.1 hb) hab hba

end SortOrder

end Query

end PlaybookRuns
