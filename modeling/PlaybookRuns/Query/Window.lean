import PlaybookRuns.Query.Error
import PlaybookRuns.Text.Blank
import PlaybookRuns.Text.Integer

/-!
# Page windows

The part of a listing that a page shows: at most `limit` rows from `offset` on. Both are signed
64-bit numbers, and so is the total that the neighbouring pages are computed from.
-/

namespace PlaybookRuns.Query

/-- The part of a listing that a page shows. -/
structure Window where
  limit : Int64
  offset : Int64
  deriving DecidableEq, Repr

namespace Window

/-- How many rows a page shows where no limit is requested. -/
def defaultLimit : Int64 := 50

/-- The number that a raw value denotes, white space around it dropped. -/
def readNumber (name raw : String) : Except QueryError Int64 :=
  match Text.readInteger Int64.minValue.toInt Int64.maxValue.toInt (Text.trim raw) with
  | .ok n => .ok (Int64.ofInt n)
  | .error _ => .error (.notAnInteger name raw)

/-- The number that a parameter denotes, or its default. -/
def numberOr (default : Int64) (name : String) : Option String → Except QueryError Int64
  | none => .ok default
  | some raw => readNumber name raw

/-- The window that the parameters `limit` and `offset` ask for. -/
def ofParams (limit offset : Option String) : Except QueryError Window := do
  let limit ← numberOr defaultLimit "limit" limit
  if limit ≤ 0 then throw (.limitNotPositive limit)
  let offset ← numberOr 0 "offset" offset
  if offset < 0 then throw (.negativeOffset offset)
  return ⟨limit, offset⟩

/-- Whether a window cuts a listing of `total` rows into pages: the limit may be zero only where
there is nothing to cut. -/
def Divides (w : Window) (total : Int64) : Prop := 0 < total → w.limit ≠ 0

/-- The total and the limit are compared with zero. -/
instance (w : Window) (total : Int64) : Decidable (w.Divides total) :=
  inferInstanceAs (Decidable (_ → _))

/-- The offset of the last page, for a window that divides the total. -/
def lastOffset (w : Window) (total : Int64) : Int64 :=
  if total ≤ 0 then 0 else (total - 1) / w.limit * w.limit

/-- The sum of two numbers, if it fits 64 bits. -/
def sum? (a b : Int64) : Option Int64 :=
  let n := a.toInt + b.toInt
  if Int64.minValue.toInt ≤ n ∧ n ≤ Int64.maxValue.toInt then some (Int64.ofInt n) else none

/-- The difference of two numbers, held within 64 bits. -/
def difference (a b : Int64) : Int64 :=
  Int64.ofInt (max Int64.minValue.toInt (min Int64.maxValue.toInt (a.toInt - b.toInt)))

/-- The offset of the next page, if there is one. -/
def nextOffset? (w : Window) (total : Int64) : Option Int64 :=
  (sum? w.offset w.limit).filter (· < total)

/-- The offset of the previous page, if there is one. -/
def previousOffset? (w : Window) : Option Int64 :=
  if 0 < w.offset then some (max (difference w.offset w.limit) 0) else none

/-- The rows that a window shows. A negative offset leaves none, a negative limit is no limit. -/
def slice (w : Window) (rows : List α) : List α :=
  let rest := if w.offset < 0 then [] else rows.drop w.offset.toInt.toNat
  if w.limit < 0 then rest else rest.take w.limit.toInt.toNat

end Window

end PlaybookRuns.Query
