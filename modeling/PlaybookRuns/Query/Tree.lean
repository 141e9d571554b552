import PlaybookRuns.Keyed
import PlaybookRuns.Query.Error

/-!
# Parameter trees

Nested request parameters, free of the way they are written: a leaf holds the values given at one
path in order of appearance, a branch the nodes under it in ascending key order.
-/

namespace PlaybookRuns.Query

/-- A node of a parameter tree. -/
inductive Node where
  /-- The values given at one path, repeats kept. -/
  | leaf (values : List String)
  /-- The nodes one segment further, by that segment. -/
  | branch (children : List (String × Node))
  deriving Inhabited

/-- The nodes at the first segment of all paths, in ascending order of that segment. -/
abbrev Tree := List (String × Node)

namespace Node

/-- The values of a leaf; `path` names the node where it is none. -/
def values (path : String) : Node → Except QueryError (List String)
  | leaf values => .ok values
  | branch _ => .error (.notAValue path)

/-- The children of a branch; `path` names the node where it is none. -/
def children (path : String) : Node → Except QueryError Tree
  | branch children => .ok children
  | leaf _ => .error (.notAnObject path)

end Node

/-- The tree after a value is given at a path, and whether it was taken: it is not where a leaf
stands in the way of a branch, or a branch in the place of a leaf. Branches are made on the way. -/
def Tree.insert (value : String) : (path : List String) → Tree → Tree × Bool
  | [], tree => (tree, false)
  | [key], tree =>
    match (Keyed.find? key tree).getD (.leaf []) with
    | .leaf values => (Keyed.insert key (.leaf (values ++ [value])) tree, true)
    | .branch _ => (tree, false)
  | key :: next :: path, tree =>
    match (Keyed.find? key tree).getD (.branch []) with
    | .leaf _ => (tree, false)
    | .branch children =>
      let (children, taken) := Tree.insert value (next :: path) children
      (Keyed.insert key (.branch children) tree, taken)

end PlaybookRuns.Query
