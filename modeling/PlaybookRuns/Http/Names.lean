/-!
# Paths and headers

The paths under which the server is asked, and the headers that say who asks.
-/

namespace PlaybookRuns.Http

/-- The header that names the tenant. -/
def orgIdHeader : String := "x-org-id"

/-- The header that names the calling service. -/
def serviceHeader : String := "x-dispatcher-service"

/-- Where health is checked. -/
def healthPath : String := "/health"

/-- Where runs are listed. -/
def runsPath : String := "/api/playbook-dispatcher/v1/runs"

/-- Where hosts are listed. -/
def hostsPath : String := "/api/playbook-dispatcher/v1/run_hosts"

/-- Where runs are dispatched. -/
def dispatchPath : String := "/internal/dispatch"

end PlaybookRuns.Http
