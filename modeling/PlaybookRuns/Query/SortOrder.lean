import PlaybookRuns.Query.Error
import PlaybookRuns.Run.Basic
import PlaybookRuns.Text.Split

/-!
# Sort orders

The order of a listing: a key in one direction, then ascending identifiers, so that pages are
stable. A row without a value for the key comes before those with one when ascending, and after
them when descending.
-/

namespace PlaybookRuns.Query

/-- The direction of an order. -/
inductive Direction where
  | asc
  | desc
  deriving DecidableEq, Repr

/-- An ordering seen in a direction. -/
def Direction.apply : Direction → Ordering → Ordering
  | asc, o => o
  | desc, o => o.swap

/-- The direction with a given name. -/
def Direction.ofName? : String → Option Direction
  | "asc" => some .asc
  | "desc" => some .desc
  | _ => none

/-- The keys by which rows of a type can be sorted. -/
class SortKeys (κ : Type) (ρ : outParam Type) where
  /-- Every key, each once. -/
  all : List κ
  /-- The name of a key in requests. -/
  name : κ → String
  /-- The key where none is requested. -/
  initial : κ
  /-- How two rows compare by a key, ascending. -/
  compareBy : κ → ρ → ρ → Ordering
  /-- What breaks ties. -/
  id : ρ → Uuid

/-- An order of rows. -/
structure SortOrder (κ : Type) where
  key : κ
  direction : Direction
  deriving DecidableEq, Repr

namespace SortOrder

variable {κ ρ : Type} [SortKeys κ ρ]

/-- The order where none is requested: newest first. -/
def initial : SortOrder κ := ⟨SortKeys.initial, .desc⟩

/-- The key with a given name. -/
def key? (s : String) : Option κ := (SortKeys.all : List κ).find? (SortKeys.name · = s)

/-- An order by the key with a given name. -/
def byName (name : String) (direction : Direction) : Except QueryError (SortOrder κ) :=
  match key? name with
  | some key => .ok ⟨key, direction⟩
  | none => .error (.unsortable name)

/-- The order that a raw value asks for: a key, and after a colon a direction; ascending where
there is no colon. -/
def ofRaw (raw : String) : Except QueryError (SortOrder κ) :=
  match Text.splitFirst? ':' raw.toList with
  | none => byName raw .asc
  | some (name, direction) =>
    match Direction.ofName? (String.ofList direction) with
    | some direction => byName (String.ofList name) direction
    | none => .error (.badDirection raw)

/-- The order that a parameter asks for. -/
def ofParam : Option String → Except QueryError (SortOrder κ)
  | none => .ok initial
  | some raw => ofRaw raw

/-- How two rows compare: by the key in its direction, then by ascending identifiers. -/
def compare (order : SortOrder κ) (a b : ρ) : Ordering :=
  (order.direction.apply (SortKeys.compareBy order.key a b)).then
    (Ord.compare (SortKeys.id κ a) (SortKeys.id κ b))

/-- Rows in order; equal ones keep theirs. -/
def apply (order : SortOrder κ) (rows : List ρ) : List ρ :=
  rows.mergeSort fun a b ↦ (order.compare a b).isLE

end SortOrder

/-- What runs can be sorted by. -/
inductive RunSortKey where
  | createdAt
  | updatedAt
  | timeout
  | recipient
  | service
  | name
  deriving DecidableEq, Repr

/-- Runs are sorted by the time they were created where no key is asked for. -/
instance : SortKeys RunSortKey Run where
  all := [.createdAt, .updatedAt, .timeout, .recipient, .service, .name]
  name
    | .createdAt => "created_at"
    | .updatedAt => "updated_at"
    | .timeout => "timeout"
    | .recipient => "recipient"
    | .service => "service"
    | .name => "name"
  initial := .createdAt
  compareBy
    | .createdAt, a, b => compare a.createdAt b.createdAt
    | .updatedAt, a, b => compare a.updatedAt b.updatedAt
    | .timeout, a, b => compare a.timeout.toInt b.timeout.toInt
    | .recipient, a, b => compare a.recipient b.recipient
    | .service, a, b => compare a.service b.service
    | .name, a, b => compare a.name b.name
  id := Run.id

/-- What host records can be sorted by. -/
inductive HostSortKey where
  | createdAt
  | updatedAt
  | host
  | inventoryId
  deriving DecidableEq, Repr

/-- Hosts are sorted by the time they were created where no key is asked for. -/
instance : SortKeys HostSortKey HostRecord where
  all := [.createdAt, .updatedAt, .host, .inventoryId]
  name
    | .createdAt => "created_at"
    | .updatedAt => "updated_at"
    | .host => "host"
    | .inventoryId => "inventory_id"
  initial := .createdAt
  compareBy
    | .createdAt, a, b => compare a.host.createdAt b.host.createdAt
    | .updatedAt, a, b => compare a.host.updatedAt b.host.updatedAt
    | .host, a, b => compare a.host.host b.host.host
    | .inventoryId, a, b => compare a.host.inventoryId b.host.inventoryId
  id record := record.host.id

end PlaybookRuns.Query
