import PlaybookRuns.Dispatch.Batch
import PlaybookRuns.Http.Message
import PlaybookRuns.Listing.Serve

/-!
# Refusals over HTTP

The causes for which a request is answered with an error, each with its status and the message in
its body. What went wrong inside the server is not told.
-/

namespace PlaybookRuns.Http

/-- Why a request is answered with an error. -/
inductive ApiError where
  | badRequest (message : String)
  | unauthorized (message : String)
  | tooManyRequests (message : String)
  | store (e : StoreError)
  | internal (detail : String)
  deriving DecidableEq

namespace ApiError

/-- The status of an error. -/
def status : ApiError → Nat
  | badRequest _ => 400
  | unauthorized _ => 401
  | tooManyRequests _ => 429
  | store _ => 500
  | internal _ => 500

/-- What the caller is told. -/
def message : ApiError → String
  | badRequest message => message
  | unauthorized message => message
  | tooManyRequests message => message
  | store _ => internalErrorMessage
  | internal _ => internalErrorMessage

/-- The body of an error. -/
def body (e : ApiError) : Json := .ofMembers [("message", .string e.message)]

/-- The response to a request with an error. -/
def response (e : ApiError) : Response := ⟨e.status, .json e.body⟩

/-- The error of a refused list request. -/
def ofQuery (e : QueryError) : ApiError := .badRequest e.message

/-- The error of a listing that is not served. -/
def ofListing : ListingError → ApiError
  | .query e => ofQuery e
  | .store e => .store e

/-- The error of a caller that is turned away. -/
def ofThrottled (t : Throttled) : ApiError := .tooManyRequests t.message

end ApiError

end PlaybookRuns.Http
