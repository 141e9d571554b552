import PlaybookRuns.Listing.Projection
import PlaybookRuns.Store.Basic

/-!
# The store in memory

Runs and hosts in the order in which they were inserted. A listing takes the rows of its tenant,
keeps those its filter holds of, sorts them and shows its window of them; there is none where the
filter comes to no result on one of the rows. A host belongs to the tenant of its run.
-/

namespace PlaybookRuns

open PlaybookRuns.Query

/-- Runs and hosts in the order of their insertion. -/
structure Memory where
  runs : List Run
  hosts : List Host
  deriving DecidableEq

namespace Memory

/-- Nothing stored. -/
def empty : Memory := ⟨[], []⟩

/-- The empty store is written `∅`. -/
instance : EmptyCollection Memory := ⟨empty⟩

/-- The store with a run and its hosts at the end. -/
def insert (m : Memory) (run : Run) (hosts : List Host) : Memory :=
  ⟨m.runs ++ [run], m.hosts ++ hosts⟩

/-- The runs of a tenant. -/
def runsOf (m : Memory) (orgId : String) : List Run := m.runs.filter (·.orgId = orgId)

/-- The hosts of a tenant's runs, each with its run. -/
def hostsOf (m : Memory) (orgId : String) : List HostRecord :=
  m.hosts.filterMap fun host ↦
    (m.runs.find? fun run ↦ run.id = host.runId ∧ run.orgId = orgId).map fun run ↦ ⟨host, run⟩

/-- Whether a query's filter holds of a row, if that can be told. -/
def holds? [FieldSet φ] [SortKeys κ ρ] [Listable ρ φ κ] (query : ListQuery κ) (row : ρ) :
    Option Bool :=
  query.filter.holds? (Listable.run row) (Listable.host? row) query.now

/-- The rows that a query's filter holds of, in its order. -/
def matching [FieldSet φ] [SortKeys κ ρ] [Listable ρ φ κ] (query : ListQuery κ) (rows : List ρ) :
    List ρ :=
  query.sort.apply (rows.filter (holds? query · = some true))

/-- The answer to a query over the rows of its tenant, if its filter decides on all of them. -/
def answer? [FieldSet φ] [SortKeys κ ρ] [Listable ρ φ κ] (query : ListQuery κ) (rows : List ρ) :
    Option (Listing ρ) :=
  if rows.all fun row ↦ (holds? query row).isSome then
    let matched := matching query rows
    some ⟨query.window.slice matched, Int64.ofNat matched.length⟩
  else none

/-- The runs that a query asks for. -/
def listRuns? (m : Memory) (query : ListQuery RunSortKey) : Option (Listing Run) :=
  answer? query (m.runsOf query.orgId)

/-- The hosts that a query asks for. -/
def listHosts? (m : Memory) (query : ListQuery HostSortKey) : Option (Listing HostRecord) :=
  answer? query (m.hostsOf query.orgId)

/-- The store in memory, which never fails. -/
def store : RunStore Memory where
  insert run hosts m := (.ok (), m.insert run hosts)
  listRuns query m := (.ok (m.listRuns? query), m)
  listHosts query m := (.ok (m.listHosts? query), m)
  ping m := (.ok (), m)

end Memory

end PlaybookRuns
