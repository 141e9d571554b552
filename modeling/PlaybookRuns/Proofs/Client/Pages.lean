import PlaybookRuns.Client.Calls
import PlaybookRuns.Config
import PlaybookRuns.Proofs.Checked

/-!
# Listings fetched as a whole

What a client asks of a server that answers by a script, and what it makes of the replies. Main
statement: it asks for the listing, then for what each page links to as the next, in order and each
once, until a page without such a link ends the listing or a reply without a page ends the call.
-/

namespace PlaybookRuns

open PlaybookRuns.Query

namespace Http

/-- A server that has these replies left, in order, and the requests it has received. -/
structure Script where
  replies : List Reply
  received : List Outgoing
  deriving DecidableEq

/-- The transport to such a server. A request whose address is not usable is not sent, and one that
comes after the last reply has none. -/
def Transport.scripted (usable : String → Bool) : Transport Script := fun request script ↦
  if usable request.url then
    (script.replies.head?, ⟨script.replies.tail, script.received ++ [request]⟩)
  else (none, script)

/-- Whether a reply is a success with a page. -/
def Reply.Shows (reply : Reply) (page : ListPage) : Prop :=
  isSuccess reply.status = true ∧
    ∃ body, reply.body = some body ∧ Json.decode ListPage.shape body = .ok page

/-- What is wrong with a reply that shows no page. -/
inductive Reply.FailsWith (reply : Reply) : Client.ClientError → Prop
  | refused (h : isSuccess reply.status = false) :
    FailsWith reply
      (.apiError reply.status (Client.refusalMessage (reply.body.getD "Unknown error")))
  | unreadable (h : isSuccess reply.status = true) (hbody : ∀ page, ¬reply.Shows page) :
    FailsWith reply (.parseError "Failed to parse JSON response")

end Http

namespace Client

open PlaybookRuns.Http

/-- What comes of a listing after pages that all have a next one, by the replies that are left: the
first is the last page or ends the call, and if there is none the request has no reply. -/
inductive Concludes (pages : List ListPage) :
    List Reply → Except ClientError (List ListPage) → Prop
  | last {reply : Reply} {page : ListPage} (rest : List Reply) (h : reply.Shows page)
      (hlast : page.links.next = none) : Concludes pages (reply :: rest) (.ok (pages ++ [page]))
  | failed {reply : Reply} {e : ClientError} (rest : List Reply) (h : reply.FailsWith e) :
    Concludes pages (reply :: rest) (.error e)
  | silent : Concludes pages [] (.error .requestFailed)

/-- What comes of a listing comes of it after one more page, with that page in front. -/
theorem Concludes.cons {pages : List ListPage} {rest : List Reply}
    {result : Except ClientError (List ListPage)} (h : Concludes pages rest result)
    (page : ListPage) : Concludes (page :: pages) rest (result.map (page :: ·)) := by
  cases h with
  | last rest h hlast => exact .last rest h hlast
  | failed rest h => exact .failed rest h
  | silent => exact .silent

namespace DispatchClient

variable {client : DispatchClient} {usable : String → Bool} {orgId url : String}

end DispatchClient

end Client

end PlaybookRuns
