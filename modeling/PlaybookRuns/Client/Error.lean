/-!
# What can go wrong for a client

The causes for which a client's call fails, and questions about them.
-/

namespace PlaybookRuns.Client

/-- Why a call failed. -/
inductive ClientError where
  /-- The request could not be sent, or had no reply. -/
  | requestFailed
  /-- The server answered with a status that is no success. -/
  | apiError (status : Nat) (message : String)
  /-- The body of a success does not decode. -/
  | parseError (detail : String)
  /-- The request was not sent since it makes no sense. -/
  | invalidRequest (detail : String)
  deriving DecidableEq, Repr

namespace ClientError

/-- The wording of a failure. -/
def message : ClientError → String
  | requestFailed => "HTTP request failed"
  | apiError status message => "API error (status " ++ toString status ++ "): " ++ message
  | parseError detail => "Failed to parse response: " ++ detail
  | invalidRequest detail => "Invalid request: " ++ detail

/-- The status that the server answered with. -/
def status? : ClientError → Option Nat
  | apiError status _ => some status
  | _ => none

/-- Whether the server refused the parameters. -/
def isBadRequest (e : ClientError) : Bool := e.status? == some 400

/-- Whether the server turned the caller away for now. -/
def isThrottled (e : ClientError) : Bool := e.status? == some 429

/-- Whether the server itself failed. -/
def isServerError (e : ClientError) : Bool := e.status?.any (500 ≤ ·)

end ClientError

end PlaybookRuns.Client
