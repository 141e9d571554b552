import PlaybookRuns.Query.Tree
import PlaybookRuns.Run.Basic

/-!
# Filters

The `filter` parameters of a listing, compiled into predicates that all have to hold. A predicate
does not say how rows are kept: it is evaluated on a run, with its host where hosts are listed, or
rendered as a condition of a statement. Evaluation comes to no result where it meets a row without
a shown status.
-/

namespace PlaybookRuns.Query

open PlaybookRuns.Time (Instant)

/-- The two listable resources. -/
inductive Resource where
  | run
  | runHost
  deriving DecidableEq, Repr

/-- What can be compared with given values. -/
inductive Column where
  | runId
  | recipient
  | service
  | host
  | inventoryId
  deriving DecidableEq, Repr

/-- A value that a column is compared with. -/
inductive Operand where
  | uuid (id : Uuid)
  | text (s : String)
  deriving DecidableEq, Repr

/-- Whose status a predicate is about. -/
inductive Subject where
  | run
  | host
  deriving DecidableEq, Repr

/-- A condition on a run and, where there is one, its host. -/
inductive Predicate where
  /-- The column has one of the values. -/
  | anyOf (column : Column) (values : List Operand)
  /-- The shown status of the subject is one of these. -/
  | status (subject : Subject) (anyOf : List DisplayedStatus)
  /-- The run has this label. -/
  | label (key value : String)
  deriving DecidableEq, Repr

/-- Predicates that all have to hold. -/
structure Filter where
  predicates : List Predicate
  deriving DecidableEq, Repr

/-! ## Evaluation -/

/-- Whether the values of a column are identifiers. -/
def Column.isUuid : Column → Bool
  | runId | recipient | inventoryId => true
  | service | host => false

/-- The value of a column, if the row has one. -/
def Column.value? (run : Run) (host : Option Host) : Column → Option Operand
  | runId => some (.uuid run.id)
  | recipient => some (.uuid run.recipient)
  | service => some (.text run.service)
  | .host => host.map fun h ↦ .text h.host
  | inventoryId => (host.bind (·.inventoryId)).map .uuid

/-- The stored status of a subject, if the row has one. -/
def Subject.stored? (run : Run) (host : Option Host) : Subject → Option StoredStatus
  | .run => some run.status
  | .host => host.map (·.status)

/-- Whether a predicate holds of a row at `now`, if that can be told. -/
def Predicate.holds? (p : Predicate) (run : Run) (host : Option Host) (now : Instant) :
    Option Bool :=
  match p with
  | anyOf column values => some ((column.value? run host).any (values.contains ·))
  | status subject shown =>
    match subject.stored? run host with
    | some stored =>
      (DisplayedStatus.derive? stored run.createdAt run.timeout now).map (shown.contains ·)
    | none => some false
  | label key value => some (run.labels.get? key == some value)

/-- Whether every predicate holds of a row at `now`. They are evaluated in order, up to the first
that does not hold or cannot be told. -/
def Filter.holds? (f : Filter) (run : Run) (host : Option Host) (now : Instant) : Option Bool :=
  f.predicates.allM (·.holds? run host now)

/-! ## Compilation -/

/-- What a key of a filter asks for. -/
inductive Slot where
  | column (c : Column)
  | status (s : Subject)
  | labels
  | run
  deriving DecidableEq, Repr

/-- Where the keys of a filter are looked up. -/
inductive Scope where
  /-- The filters of runs. -/
  | run
  /-- The filters of runs under those of hosts; there is one status per host, so none here. -/
  | runOfHost
  /-- The filters of hosts. -/
  | host
  deriving DecidableEq, Repr

/-- What a key asks for, if it is declared. -/
def Scope.slot? : Scope → String → Option Slot
  | .host, key => match key with
    | "status" => some (.status .host)
    | "host" => some (.column .host)
    | "inventory_id" => some (.column .inventoryId)
    | "run" => some .run
    | _ => none
  | scope, key => match key with
    | "id" => some (.column .runId)
    | "recipient" => some (.column .recipient)
    | "service" => some (.column .service)
    | "status" => if scope = .run then some (.status .run) else none
    | "labels" => some .labels
    | _ => none

/-- A path one segment further. -/
def joinPath (above : Option String) (key : String) : String :=
  match above with
  | some above => above ++ "." ++ key
  | none => key

/-- The operand that a raw value denotes. -/
def operand (column : Column) (path raw : String) : Except QueryError Operand :=
  if column.isUuid then
    match Uuid.ofText? raw with
    | some id => .ok (.uuid id)
    | none => .error (.notAUuid path raw)
  else .ok (.text raw)

/-- The status that a raw value denotes. -/
def shownStatus (path raw : String) : Except QueryError DisplayedStatus :=
  match DisplayedStatus.ofName? raw with
  | some s => .ok s
  | none => .error (.unknownStatus path raw)

/-- The predicates of the labels under a node, one for each value. -/
def labelPredicates (path : String) (node : Node) : Except QueryError (List Predicate) := do
  let parts ← (← node.children path).mapM fun (key, leaf) ↦ do
    return (← leaf.values (joinPath (some path) key)).map (.label key)
  return parts.flatten

/-- The predicates that a node asks for where no further scope opens. -/
def slotPredicates (path : String) (node : Node) : Slot → Except QueryError (List Predicate)
  | .column c => do return [.anyOf c (← (← node.values path).mapM (operand c path))]
  | .status s => do return [.status s (← (← node.values path).mapM (shownStatus path)).eraseDups]
  | .labels => labelPredicates path node
  | .run => .error (.unknownField path)

/-- The predicates of a tree in a scope without further scopes. -/
def flatPredicates (scope : Scope) (above : Option String) (tree : Tree) :
    Except QueryError (List Predicate) := do
  let parts ← tree.mapM fun (key, node) ↦
    match scope.slot? key with
    | some slot => slotPredicates (joinPath above key) node slot
    | none => .error (.unknownField (joinPath above key))
  return parts.flatten

/-- The predicates of a tree of host filters. -/
def hostPredicates (tree : Tree) : Except QueryError (List Predicate) := do
  let parts ← tree.mapM fun (key, node) ↦
    match Scope.slot? .host key with
    | some .run => do flatPredicates .runOfHost (some key) (← node.children key)
    | some slot => slotPredicates key node slot
    | none => .error (.unknownField key)
  return parts.flatten

/-- The filter that a tree of parameters denotes for a resource. The first fault in the order of
keys and values is reported. -/
def Filter.ofTree (tree : Tree) : Resource → Except QueryError Filter
  | .run => Filter.mk <$> flatPredicates .run none tree
  | .runHost => Filter.mk <$> hostPredicates tree

end PlaybookRuns.Query
