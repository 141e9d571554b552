import PlaybookRuns.Query.Request

/-!
# Stores

What keeps runs and answers listings, whatever it is made of: operations over a state of its own,
each of which may fail.
-/

namespace PlaybookRuns

open PlaybookRuns.Query

/-- Why a store did not do what it was asked. -/
inductive StoreError where
  /-- No connection became free in time. -/
  | poolTimedOut
  /-- The database failed, for a reason of its own. -/
  | failed (detail : String)
  /-- A stored status is none of the known ones. -/
  | unknownStatus (raw : String)
  /-- A column that must have a value has none. -/
  | missingValue (column : String)
  deriving DecidableEq, Repr

/-- The wording of a failure. -/
def StoreError.message : StoreError → String
  | poolTimedOut => "pool timed out while waiting for an open connection"
  | failed detail => detail
  | unknownStatus raw => "error occurred while decoding: unknown run status: " ++ raw
  | missingValue column => "\"" ++ column ++ "\""

/-- The rows of one page, and how many match in all. -/
structure Listing (ρ : Type) where
  items : List ρ
  total : Int64
  deriving DecidableEq

/-- An operation of a store with state `σ`: its answer and the state after it. -/
abbrev StoreAction (σ α : Type) := σ → Except StoreError α × σ

/-- A store with state `σ`. A store that evaluates filters itself has no listing where one comes to
no result. -/
structure RunStore (σ : Type) where
  /-- Keeps a run and its hosts. -/
  insert : Run → List Host → StoreAction σ Unit
  listRuns : ListQuery RunSortKey → StoreAction σ (Option (Listing Run))
  /-- Lists hosts, each with its run. -/
  listHosts : ListQuery HostSortKey → StoreAction σ (Option (Listing HostRecord))
  /-- Checks that the store can be reached. -/
  ping : StoreAction σ Unit

/-- A store of which every operation fails, and changes nothing. -/
def RunStore.down (e : StoreError) : RunStore σ where
  insert _ _ s := (.error e, s)
  listRuns _ s := (.error e, s)
  listHosts _ s := (.error e, s)
  ping s := (.error e, s)

end PlaybookRuns
