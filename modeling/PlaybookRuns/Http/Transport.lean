import PlaybookRuns.Http.Message

/-!
# Transports

How a client gets its requests to a server: an exchange over a state of its own, which may fail
before there is a reply.
-/

namespace PlaybookRuns.Http

/-- A request as a client makes it. -/
structure Outgoing where
  method : String
  url : String
  headers : List Header
  body : Option String
  deriving DecidableEq, Repr

/-- A transport with state `τ`: it takes a request and answers with the reply, if there is one. -/
abbrev Transport (τ : Type) := Outgoing → τ → Option Reply × τ

/-- A transport on which nothing can be reached. -/
def Transport.unreachable : Transport τ := fun _ state ↦ (none, state)

/-- Whether a character may be sent in a header value. -/
def isSendableChar (c : Char) : Bool := c == '\t' || (0x20 ≤ c.toNat && c.toNat ≠ 0x7F)

/-- Sends a request, unless a header value has a character that may not be sent. -/
def Transport.send (transport : Transport τ) (request : Outgoing) (state : τ) : Option Reply × τ :=
  if request.headers.all fun h ↦ h.2.toList.all isSendableChar then transport request state
  else (none, state)

/-- A base address without slashes at its end. -/
def trimBase (url : String) : String :=
  String.ofList (url.toList.reverse.dropWhile (· = '/')).reverse

end PlaybookRuns.Http
