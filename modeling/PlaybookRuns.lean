import PlaybookRuns.Client.Calls
import PlaybookRuns.Dispatch.RemoteConnector
import PlaybookRuns.Http.Server
import PlaybookRuns.Proofs.Text.Form
import PlaybookRuns.Proofs.Text.Integer
import PlaybookRuns.Sql.Store
import PlaybookRuns.Store.Memory
import PlaybookRuns.Proofs.Query.Window
import PlaybookRuns.Proofs.Query.Tree
import PlaybookRuns.Proofs.Query.DeepObject
import PlaybookRuns.Proofs.Query.Links
import PlaybookRuns.Proofs.Query.Request
import PlaybookRuns.Proofs.Listing.Walk
import PlaybookRuns.Proofs.Sql.Expression
import PlaybookRuns.Proofs.Sql.Reading
import PlaybookRuns.Proofs.Query.Filter
import PlaybookRuns.Proofs.Sql.Where
import PlaybookRuns.Proofs.Sql.Evaluation
import PlaybookRuns.Proofs.Time.Instant
import PlaybookRuns.Proofs.Dispatch.Accounting
import PlaybookRuns.Proofs.Admission.Pacing
import PlaybookRuns.Proofs.Admission.Credit
import PlaybookRuns.Proofs.Query.Targets
import PlaybookRuns.Proofs.Query.ParamOrder
import PlaybookRuns.Proofs.Listing.Tenants
import PlaybookRuns.Proofs.Dispatch.Storing
import PlaybookRuns.Proofs.Http.Listed
import PlaybookRuns.Proofs.Http.Untraced
import PlaybookRuns.Proofs.Query.StatusParam
import PlaybookRuns.Proofs.Listing.Statuses
import PlaybookRuns.Proofs.Sql.Ordering
import PlaybookRuns.Proofs.Sql.Placeholders
import PlaybookRuns.Proofs.Client.Query
import PlaybookRuns.Proofs.Client.Labels
import PlaybookRuns.Proofs.Http.Failures
import PlaybookRuns.Proofs.Http.Retry
import PlaybookRuns.Proofs.Query.RunScope
import PlaybookRuns.Proofs.Listing.HostsOfRuns
import PlaybookRuns.Proofs.Client.Exchange
import PlaybookRuns.Proofs.Query.FilterLanguage
import PlaybookRuns.Proofs.Query.Gathering
import PlaybookRuns.Proofs.Query.PageArithmetic
import PlaybookRuns.Proofs.Listing.InsertionOrder
import PlaybookRuns.Proofs.Admission.History
import PlaybookRuns.Proofs.Admission.Return
import PlaybookRuns.Proofs.Sql.ReadBack
import PlaybookRuns.Proofs.Admission.Burst
import PlaybookRuns.Proofs.Client.Pages
import PlaybookRuns.Proofs.Query.Insertion
import PlaybookRuns.Proofs.Sql.Choices
import PlaybookRuns.Proofs.Query.FieldParams
import PlaybookRuns.Proofs.Listing.Selection
