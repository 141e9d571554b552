import PlaybookRuns.Proofs.Keyed
import PlaybookRuns.Proofs.Query.Filter
import PlaybookRuns.Proofs.Query.Window
import PlaybookRuns.Proofs.Store.Memory

/-!
# Order of insertions

What a listing owes to the order in which runs and hosts were inserted: nothing, where all of them
have identifiers of their own. Main statement: insertions in any order are listed alike, row by row,
and rows that tie on the key of the listing stand in ascending order of their identifiers.
-/

namespace PlaybookRuns

open PlaybookRuns.Query

namespace Query

/-! ## Ties -/

/-- Whether two runs have the same value under a key, or both have none. -/
def RunSortKey.Ties : RunSortKey → Run → Run → Prop
  | createdAt, a, b => a.createdAt = b.createdAt
  | updatedAt, a, b => a.updatedAt = b.updatedAt
  | timeout, a, b => a.timeout = b.timeout
  | recipient, a, b => a.recipient = b.recipient
  | service, a, b => a.service = b.service
  | name, a, b => a.name = b.name

/-- Whether two hosts have the same value under a key, or both have none. -/
def HostSortKey.Ties : HostSortKey → HostRecord → HostRecord → Prop
  | createdAt, a, b => a.host.createdAt = b.host.createdAt
  | updatedAt, a, b => a.host.updatedAt = b.host.updatedAt
  | host, a, b => a.host.host = b.host.host
  | inventoryId, a, b => a.host.inventoryId = b.host.inventoryId

private theorem RunSortKey.compareBy_eq {key : RunSortKey} {a b : Run} (h : key.Ties a b) :
    SortKeys.compareBy key a b = .eq := by
  cases key with
  | timeout => exact Std.compare_eq_iff_eq.2 (congrArg Int32.toInt h)
  | _ => exact Std.compare_eq_iff_eq.2 h

private theorem HostSortKey.compareBy_eq {key : HostSortKey} {a b : HostRecord}
    (h : key.Ties a b) : SortKeys.compareBy key a b = .eq := by
  cases key <;> exact Std.compare_eq_iff_eq.2 h

end Query

namespace Memory

/-! ## Stored rows -/

/-- What is stored after runs have been inserted, each together with some hosts. -/
def ofInsertions (insertions : List (Run × List Host)) : Memory :=
  insertions.foldl (fun m e ↦ m.insert e.1 e.2) ∅

/-- Insertions into an empty memory leave their runs and their hosts, in order. -/
theorem ofInsertions_eq (insertions : List (Run × List Host)) :
    ofInsertions insertions = ⟨insertions.map (·.1), insertions.flatMap (·.2)⟩ :=
  foldl_insert _ _ _ _

section Stored

variable {m m' : Memory} (orgId : String)

/-- Where all runs are permuted, those of a tenant are. -/
theorem runsOf_perm (h : m'.runs.Perm m.runs) : (m'.runsOf orgId).Perm (m.runsOf orgId) :=
  h.filter _

/-- A host stands with the same run wherever that is stored. -/
theorem hostsOf_perm (hruns : m'.runs.Perm m.runs) (hhosts : m'.hosts.Perm m.hosts)
    (hids : (m.runs.map (·.id)).Nodup) : (m'.hostsOf orgId).Perm (m.hostsOf orgId) := by
  have hids' := (hruns.map (·.id)).nodup_iff.2 hids
  have hfind (host : Host) :
      m'.runs.find? (fun run ↦ run.id = host.runId ∧ run.orgId = orgId) =
        m.runs.find? fun run ↦ run.id = host.runId ∧ run.orgId = orgId := by
    apply Option.ext
    intro run
    rw [Keyed.find?_eq_some_iff_of_nodup hids fun run hrun ↦ (of_decide_eq_true hrun).1,
      Keyed.find?_eq_some_iff_of_nodup hids' fun run hrun ↦ (of_decide_eq_true hrun).1,
      hruns.mem_iff]
  rw [hostsOf, funext fun host ↦ congrArg _ (hfind host)]
  exact hhosts.filterMap _

/-- The runs of a tenant have different identifiers if all runs do. -/
theorem nodup_runsOf (h : (m.runs.map (·.id)).Nodup) : ((m.runsOf orgId).map (·.id)).Nodup :=
  h.sublist (List.filter_sublist.map _)

/-- The hosts of a tenant are some of those that are stored. -/
theorem nodup_hostsOf (h : (m.hosts.map (·.id)).Nodup) :
    ((m.hostsOf orgId).map (·.host.id)).Nodup := by
  have hsublist : ((m.hostsOf orgId).map (·.host)).Sublist m.hosts := by
    rw [hostsOf]
    induction m.hosts with
    | nil => exact .slnil
    | cons host hosts ih =>
      rw [List.filterMap_cons]
      split
      · exact ih.cons host
      · next hjoined =>
        obtain ⟨run, -, rfl⟩ := Option.map_eq_some_iff.1 hjoined
        exact ih.cons_cons host
  have hids := hsublist.map (·.id)
  rw [List.map_map] at hids
  exact h.sublist hids

end Stored

/-! ## Listings -/

section Listings

variable {φ κ ρ : Type} [FieldSet φ] [SortKeys κ ρ]

/-- That rows stand in an order strictly, and those that tie on its key by ascending identifiers,
whatever its direction is. -/
structure StandInOrder (order : SortOrder κ) (ties : ρ → ρ → Prop) (rows : List ρ) : Prop where
  strict : rows.Pairwise fun a b ↦ order.compare a b = .lt
  ties_by_id : rows.Pairwise fun a b ↦
    ties a b → compare (SortKeys.id κ a) (SortKeys.id κ b) = .lt

/-- That two stores with the given rows of each tenant answer every query alike. -/
structure AnsweredAlike [Listable ρ φ κ] (list? list?' : ListQuery κ → Option (Listing ρ))
    (ties : κ → ρ → ρ → Prop) (rowsOf : String → List ρ) : Prop where
  eq : ∀ query, list?' query = list? query
  /-- There is an answer exactly where the filter is undecided about no row of the tenant. -/
  isSome_iff : ∀ query, (list? query).isSome ↔ ∀ row ∈ rowsOf query.orgId,
    ¬query.filter.Undecided (Listable.run row) (Listable.host? row) query.now
  inOrder : ∀ query listing, list? query = some listing →
    StandInOrder query.sort (ties query.sort.key) listing.items

variable [Listable ρ φ κ] [LawfulSortKeys κ ρ]

private theorem standInOrder_of_answer? {query : ListQuery κ} {rows : List ρ} {ties : ρ → ρ → Prop}
    (hties : ∀ {a b}, ties a b → SortKeys.compareBy query.sort.key a b = .eq)
    (hids : (rows.map (SortKeys.id κ)).Nodup) {listing : Listing ρ}
    (h : answer? query rows = some listing) : StandInOrder query.sort ties listing.items := by
  have hmatched : ((rows.filter fun row ↦ holds? query row = some true).map
      (SortKeys.id κ)).Nodup := hids.sublist (List.filter_sublist.map _)
  have hstrict : listing.items.Pairwise fun a b ↦ query.sort.compare a b = .lt := by
    rw [answer?, Option.ite_none_right_eq_some] at h
    obtain ⟨-, hlisting⟩ := h
    obtain rfl := Option.some.inj hlisting
    exact (query.sort.pairwise_lt_apply hmatched).sublist (query.window.slice_sublist _)
  refine ⟨hstrict, hstrict.imp fun {a b} hlt htie ↦ ?_⟩
  rw [← SortOrder.compare_of_compareBy (hties htie)]
  exact hlt

private theorem answeredAlike_of_perm {list? list?' : ListQuery κ → Option (Listing ρ)}
    {ties : κ → ρ → ρ → Prop} {rowsOf rowsOf' : String → List ρ}
    (hlist : ∀ query, list? query = answer? query (rowsOf query.orgId))
    (hlist' : ∀ query, list?' query = answer? query (rowsOf' query.orgId))
    (hperm : ∀ orgId, (rowsOf' orgId).Perm (rowsOf orgId))
    (hids : ∀ orgId, ((rowsOf orgId).map (SortKeys.id κ)).Nodup)
    (hties : ∀ {key a b}, ties key a b → SortKeys.compareBy key a b = .eq) :
    AnsweredAlike list? list?' ties rowsOf := by
  constructor
  case eq =>
    intro query
    rw [hlist, hlist', answer?_eq_of_perm (hperm _) (hids _)]
  case isSome_iff =>
    intro query
    rw [hlist, answer?_isSome_iff]
    exact forall₂_congr fun row _ ↦ Filter.holds?_isSome_iff
  case inOrder =>
    intro query listing hlisting
    rw [hlist] at hlisting
    exact standInOrder_of_answer? hties (hids _) hlisting

end Listings

/-- The listings of a store depend on the runs and hosts that were inserted, but not on the order in
which they were: after the same insertions in another order every query is answered with the same
rows in the same order and the same total. Rows that tie on the key stand by ascending identifiers
in both directions. -/
theorem listings_eq_of_perm {insertions insertions' : List (Run × List Host)}
    (h : insertions'.Perm insertions) (hruns : (insertions.map (·.1.id)).Nodup)
    (hhosts : ((insertions.flatMap (·.2)).map (·.id)).Nodup) :
    AnsweredAlike (ofInsertions insertions).listRuns? (ofInsertions insertions').listRuns?
        RunSortKey.Ties (ofInsertions insertions).runsOf ∧
      AnsweredAlike (ofInsertions insertions).listHosts? (ofInsertions insertions').listHosts?
        HostSortKey.Ties (ofInsertions insertions).hostsOf := by
  have hrunsPerm : (ofInsertions insertions').runs.Perm (ofInsertions insertions).runs := by
    rw [ofInsertions_eq, ofInsertions_eq]
    exact h.map _
  have hhostsPerm : (ofInsertions insertions').hosts.Perm (ofInsertions insertions).hosts := by
    rw [ofInsertions_eq, ofInsertions_eq]
    exact h.flatMap_right _
  have hrunIds : ((ofInsertions insertions).runs.map (·.id)).Nodup := by
    rw [ofInsertions_eq, List.map_map]
    exact hruns
  have hhostIds : ((ofInsertions insertions).hosts.map (·.id)).Nodup := by
    rw [ofInsertions_eq]
    exact hhosts
  constructor
  · exact answeredAlike_of_perm (fun _ ↦ rfl) (fun _ ↦ rfl) (runsOf_perm · hrunsPerm)
      (nodup_runsOf · hrunIds) RunSortKey.compareBy_eq
  · exact answeredAlike_of_perm (fun _ ↦ rfl) (fun _ ↦ rfl)
      (hostsOf_perm · hrunsPerm hhostsPerm hrunIds) (nodup_hostsOf · hhostIds)
      HostSortKey.compareBy_eq

private def plainHost (id runId : Nat) : Host where
  id := .ofNat id
  runId := .ofNat runId
  host := "localhost"
  inventoryId := none
  status := .running
  stdout := none
  createdAt := ⟨0, 0⟩
  updatedAt := ⟨0, 0⟩

private def crossed : List (Run × List Host) :=
  [(minuteRun 3 ⟨5, 0⟩, [plainHost 13 4]), (minuteRun 4 ⟨0, 0⟩, [plainHost 14 3])]

/-- By descending names and inventory identifiers, none of which is there, runs and hosts stand by
ascending identifiers although they were inserted the other way round. -/
theorem listings_eq_of_crossed :
    crossed.reverse.Perm crossed ∧ (crossed.map (·.1.id)).Nodup ∧
      ((crossed.flatMap (·.2)).map (·.id)).Nodup ∧
      (ofInsertions crossed.reverse).listRuns? ⟨"org", ⟨[]⟩, ⟨.name, .desc⟩, ⟨50, 0⟩, ⟨0, 0⟩⟩ =
        some ⟨[minuteRun 3 ⟨5, 0⟩, minuteRun 4 ⟨0, 0⟩], 2⟩ ∧
      (ofInsertions crossed.reverse).listHosts?
          ⟨"org", ⟨[]⟩, ⟨.inventoryId, .desc⟩, ⟨50, 0⟩, ⟨0, 0⟩⟩ =
        some ⟨[⟨plainHost 13 4, minuteRun 4 ⟨0, 0⟩⟩, ⟨plainHost 14 3, minuteRun 3 ⟨5, 0⟩⟩], 2⟩ := by
  have hruns : (crossed.map (·.1.id)).Nodup := by decide +kernel
  have hhosts : ((crossed.flatMap (·.2)).map (·.id)).Nodup := by decide +kernel
  have hperm : crossed.reverse.Perm crossed := List.reverse_perm _
  obtain ⟨hrunsAlike, hhostsAlike⟩ := listings_eq_of_perm hperm hruns hhosts
  refine ⟨hperm, hruns, hhosts, ?_, ?_⟩
  · rw [hrunsAlike.eq, listRuns?, answer?_of_sorted (by decide +kernel) (by decide +kernel)]
    rfl
  · rw [hhostsAlike.eq, listHosts?, answer?_of_sorted (by decide +kernel) (by decide +kernel)]
    rfl

end Memory

end PlaybookRuns
