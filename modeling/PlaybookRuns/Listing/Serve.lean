import PlaybookRuns.Listing.Projection
import PlaybookRuns.Store.Basic

/-!
# Serving a listing

From the parameters of a request to the page that answers it: the request is understood, the store
asked, and each row shown under the selected fields. There is no page where a status that has to be
shown or compared hangs on a deadline outside the calendar.
-/

namespace PlaybookRuns

open PlaybookRuns.Query PlaybookRuns.Time

/-- Why a listing is not served. -/
inductive ListingError where
  | query (e : QueryError)
  | store (e : StoreError)
  deriving DecidableEq, Repr

/-- Where a listing is served, for whom, from which parameters and when. -/
structure ListContext where
  orgId : String
  path : String
  params : Params
  now : Instant

/-- The page that shows a store's answer, if every row on it can be shown. -/
def ListPage.of? [FieldSet φ] [SortKeys κ ρ] [Listable ρ φ κ] (context : ListContext)
    (request : ListRequest φ κ) (listing : Listing ρ) : Option ListPage := do
  let data ← listing.items.mapM (project? request.fields context.now)
  return {
    data
    count := Int64.ofNat listing.items.length
    total := listing.total
    links := .of context.path context.params request.window listing.total }

/-- The page that answers a request, with the rows that `fetch` finds. -/
def serveListing [FieldSet φ] [SortKeys κ ρ] [Listable ρ φ κ]
    (fetch : ListQuery κ → StoreAction σ (Option (Listing ρ))) (context : ListContext)
    (state : σ) : Except ListingError (Option ListPage) × σ :=
  match ListRequest.ofParams (Listable.resource ρ) context.params with
  | .error e => (.error (.query e), state)
  | .ok request =>
    match fetch (request.toQuery context.orgId context.now) state with
    | (.error e, state) => (.error (.store e), state)
    | (.ok listing?, state) => (.ok (listing?.bind (ListPage.of? context request)), state)

namespace RunStore

/-- The page of runs that answers a request. -/
def runsPage (store : RunStore σ) (context : ListContext) (state : σ) :
    Except ListingError (Option ListPage) × σ :=
  serveListing store.listRuns context state

/-- The page of hosts that answers a request. -/
def hostsPage (store : RunStore σ) (context : ListContext) (state : σ) :
    Except ListingError (Option ListPage) × σ :=
  serveListing store.listHosts context state

end RunStore

end PlaybookRuns
