import PlaybookRuns.Text.Form

/-!
# Request parameters

The decoded parameters of a request in their order, repeats kept. Where a parameter should come
once, its first value counts.
-/

namespace PlaybookRuns.Query

/-- Parameters of a request: names and values in order of appearance. -/
abbrev Params := List Text.Form.Pair

/-- The parameters of a written query. -/
def Params.ofText (raw : String) : Params := Text.Form.decode raw

/-- The first value of a name. -/
def Params.first? (params : Params) (name : String) : Option String :=
  (params.find? (·.1 = name)).map (·.2)

end PlaybookRuns.Query
