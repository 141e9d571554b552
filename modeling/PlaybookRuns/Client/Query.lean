import PlaybookRuns.Query.Params
import PlaybookRuns.Text.Split

/-!
# Building list queries

The parameters of a listing as a client puts them together, in the order of the calls.
-/

namespace PlaybookRuns.Client

open PlaybookRuns.Query

/-- The parameters of a listing, in the order in which they were added. -/
structure QueryBuilder where
  params : Params
  deriving DecidableEq, Repr

namespace QueryBuilder

/-- No parameters. -/
def empty : QueryBuilder := ⟨[]⟩

/-- The query with one more parameter. -/
def add (query : QueryBuilder) (name value : String) : QueryBuilder :=
  ⟨query.params ++ [(name, value)]⟩

/-- The name of a filter: each segment of its dotted path in brackets. -/
def filterName (path : String) : String :=
  "filter" ++ String.join ((Text.splitText '.' path).map fun segment ↦ "[" ++ segment ++ "]")

/-- Asks for rows whose value at a dotted path is the given one, or another asked for there. -/
def filter (query : QueryBuilder) (path value : String) : QueryBuilder :=
  query.add (filterName path) value

/-- Asks for rows with a label; dots in its key open further segments. -/
def label (query : QueryBuilder) (key value : String) : QueryBuilder :=
  query.filter ("labels." ++ key) value

/-- Asks for these fields to be shown. -/
def fields (query : QueryBuilder) (names : List String) : QueryBuilder :=
  query.add "fields[data]" (",".intercalate names)

/-- Asks for an order. -/
def sortBy (query : QueryBuilder) (order : String) : QueryBuilder := query.add "sort_by" order

/-- Asks for at most so many rows. -/
def limit (query : QueryBuilder) (n : Int64) : QueryBuilder :=
  query.add "limit" (toString n.toInt)

/-- Asks for the rows from an offset on. -/
def offset (query : QueryBuilder) (n : Int64) : QueryBuilder :=
  query.add "offset" (toString n.toInt)

/-- The text of the query. -/
def toText (query : QueryBuilder) : String := Text.Form.encode query.params

end QueryBuilder

end PlaybookRuns.Client
