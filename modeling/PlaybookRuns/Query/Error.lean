/-!
# What can be wrong with a list request

The causes for which the parameters of a listing are refused. Each is either an unknown field or
an invalid parameter, and has a wording of its own.
-/

namespace PlaybookRuns

/-- Why a list request is refused. A path names a parameter by its segments joined with dots. -/
inductive QueryError where
  /-- A field or filter that the resource does not have. -/
  | unknownField (path : String)
  /-- A bracketed key that cannot be parsed, or that contradicts an earlier one. -/
  | malformedKey (key : String)
  /-- Brackets below a filter that takes values. -/
  | notAValue (path : String)
  /-- A value for a filter that takes brackets. -/
  | notAnObject (path : String)
  | notAUuid (path raw : String)
  | unknownStatus (path raw : String)
  | badDirection (raw : String)
  | unsortable (name : String)
  | notAnInteger (name raw : String)
  | limitNotPositive (limit : Int64)
  | negativeOffset (offset : Int64)
  deriving DecidableEq, Repr

/-- The two kinds of refusal. -/
inductive QueryError.Kind where
  | unknownField
  | invalidParameter
  deriving DecidableEq, Repr

/-- The wording of a refusal of a kind. -/
def QueryError.Kind.message (kind : Kind) (detail : String) : String :=
  match kind with
  | unknownField => "unknown field: " ++ detail
  | invalidParameter => "invalid parameter: " ++ detail

namespace QueryError

/-- The kind of a refusal. -/
def kind : QueryError → Kind
  | unknownField _ => .unknownField
  | _ => .invalidParameter

/-- What is wrong, without the kind. -/
def detail : QueryError → String
  | unknownField path => path
  | malformedKey key => "malformed parameter: " ++ key
  | notAValue path => path ++ " expects a value, not an object"
  | notAnObject path => path ++ " expects an object, not a value"
  | notAUuid path raw => path ++ " must be a UUID, got '" ++ raw ++ "'"
  | unknownStatus path raw => path ++ ": unknown status: " ++ raw
  | badDirection raw => "sort_by direction must be asc or desc, got '" ++ raw ++ "'"
  | unsortable name => "cannot sort by '" ++ name ++ "'"
  | notAnInteger name raw => name ++ " must be an integer, got '" ++ raw ++ "'"
  | limitNotPositive limit => "limit must be greater than 0, got " ++ toString limit.toInt
  | negativeOffset offset => "offset must not be negative, got " ++ toString offset.toInt

/-- The wording of a refusal. -/
def message (e : QueryError) : String := e.kind.message e.detail

end QueryError

end PlaybookRuns
