import PlaybookRuns.Query.Params
import PlaybookRuns.Query.Window

/-!
# Links between pages

A page links to the first, last, next and previous page of its listing. A link carries every
parameter of the request but the window, in ascending order of names, repeats in their order, and
then the window of the page it leads to.
-/

namespace PlaybookRuns.Query

/-- The links of a page. -/
structure Links where
  first : String
  last : String
  next : Option String
  previous : Option String
  deriving DecidableEq, Repr

/-- The parameters that links carry over. -/
def carried (params : Params) : Params :=
  (params.filter fun p ↦ p.1 ≠ "limit" ∧ p.1 ≠ "offset").mergeSort fun a b ↦ a.1 ≤ b.1

/-- A 64-bit number in decimal digits. -/
def decimal (n : Int64) : String := toString n.toInt

/-- The parameters of the page at an offset. -/
def paramsAt (params : Params) (limit offset : Int64) : Params :=
  carried params ++ [("limit", decimal limit), ("offset", decimal offset)]

/-- The link to the page at an offset. -/
def linkTo (path : String) (params : Params) (limit offset : Int64) : String :=
  path ++ "?" ++ Text.Form.encode (paramsAt params limit offset)

/-- The links of a page of a listing with `total` rows. -/
def Links.of (path : String) (params : Params) (window : Window) (total : Int64) : Links :=
  let link := linkTo path params window.limit
  { first := link 0
    last := link (window.lastOffset total)
    next := (window.nextOffset? total).map link
    previous := window.previousOffset?.map link }

end PlaybookRuns.Query
