import PlaybookRuns.Query.Params
import PlaybookRuns.Query.Tree

/-!
# Bracketed parameters

Parameters such as `filter[run][labels][env]=prod`, gathered into a tree under their root name.
What belongs to the root but cannot be placed in the tree is reported.
-/

namespace PlaybookRuns.Query

/-- The parameters under one root name. -/
structure DeepObject where
  tree : Tree
  /-- The keys that belong to the root but were not taken, in order of appearance. -/
  malformed : List String
  deriving Inhabited

/-- The segments of `[a][b][c]`, each in brackets of its own, not empty and free of brackets.
`pending` holds the segment being read, last character first. -/
def readSegments : (pending : Option (List Char)) → List Char → Option (List String)
  | none, [] => some []
  | none, c :: cs => if c = '[' then readSegments (some []) cs else none
  | some _, [] => none
  | some seg, c :: cs =>
    if c = ']' then
      if seg.isEmpty then none
      else (readSegments none cs).map (String.ofList seg.reverse :: ·)
    else if c = '[' then none
    else readSegments (some (c :: seg)) cs

/-- The path that follows a root name: one segment at least. -/
def path? (rest : List Char) : Option (List String) :=
  (readSegments none rest).filter fun path ↦ !path.isEmpty

/-- What follows the root in a key that belongs to it: nothing, or an opening bracket first. -/
def suffix? (root key : String) : Option (List Char) :=
  (root.toList.isPrefixOf? key.toList).filter fun rest ↦ rest.isEmpty || rest.head? == some '['

namespace DeepObject

/-- Nothing gathered. -/
def empty : DeepObject := ⟨[], []⟩

/-- What has been gathered after one more parameter. -/
def add (root : String) (object : DeepObject) (param : Text.Form.Pair) : DeepObject :=
  match suffix? root param.1 with
  | none => object
  | some rest =>
    match path? rest with
    | none => { object with malformed := object.malformed ++ [param.1] }
    | some path =>
      let (tree, taken) := object.tree.insert param.2 path
      ⟨tree, if taken then object.malformed else object.malformed ++ [param.1]⟩

/-- The parameters under a root name. -/
def ofParams (params : Params) (root : String) : DeepObject := params.foldl (add root) empty

end DeepObject

end PlaybookRuns.Query
