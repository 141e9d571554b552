import PlaybookRuns.Query.DeepObject
import PlaybookRuns.Query.Fields
import PlaybookRuns.Query.Filter
import PlaybookRuns.Query.SortOrder
import PlaybookRuns.Query.Window

/-!
# List requests

All that the parameters of a listing ask for, and what a store needs of it. Malformed keys are
refused first, then unknown fields, filters, the order and the window, in that sequence.
-/

namespace PlaybookRuns.Query

open PlaybookRuns.Time (Instant)

/-- What the parameters of a listing ask for. -/
structure ListRequest (φ κ : Type) where
  fields : List φ
  filter : Filter
  sort : SortOrder κ
  window : Window

/-- What a store needs in order to answer a listing. -/
structure ListQuery (κ : Type) where
  orgId : String
  filter : Filter
  sort : SortOrder κ
  window : Window
  /-- The one instant at which every status is judged. -/
  now : Instant

/-- The first key that cannot be placed, those of filters before those of fields. -/
def firstMalformed? (params : Params) : Option String :=
  (DeepObject.ofParams params "filter").malformed.head?.or
    (DeepObject.ofParams params "fields").malformed.head?

/-- What the parameters of a listing ask for. -/
def ListRequest.ofParams [FieldSet φ] [SortKeys κ ρ] (resource : Resource) (params : Params) :
    Except QueryError (ListRequest φ κ) := do
  if let some key := firstMalformed? params then throw (.malformedKey key)
  return {
    fields := ← fieldsOfTree (DeepObject.ofParams params "fields").tree
    filter := ← Filter.ofTree (DeepObject.ofParams params "filter").tree resource
    sort := ← SortOrder.ofParam (params.first? "sort_by")
    window := ← Window.ofParams (params.first? "limit") (params.first? "offset") }

/-- The request on behalf of a tenant, served at `now`. -/
def ListRequest.toQuery (request : ListRequest φ κ) (orgId : String) (now : Instant) :
    ListQuery κ :=
  ⟨orgId, request.filter, request.sort, request.window, now⟩

end PlaybookRuns.Query
