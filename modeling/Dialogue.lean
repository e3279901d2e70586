import Dialogue.Action.ApiCall
import Dialogue.Action.Definition
import Dialogue.Action.Execute
import Dialogue.Action.Navigate
import Dialogue.Action.Result
import Dialogue.Action.Retry
import Dialogue.Action.Storage
import Dialogue.Api.Body
import Dialogue.Api.Respond
import Dialogue.Api.Route
import Dialogue.Catalog
import Dialogue.Clock.Duration
import Dialogue.Expr.Basic
import Dialogue.Expr.Eval
import Dialogue.Expr.Parser
import Dialogue.Flow.Choice
import Dialogue.Flow.Document
import Dialogue.Flow.Source
import Dialogue.Http.Message
import Dialogue.Input.Amount
import Dialogue.Input.Handler
import Dialogue.Input.Widget
import Dialogue.Json.Basic
import Dialogue.Json.Decode
import Dialogue.Json.Printer
import Dialogue.Json.Reader
import Dialogue.Machine.Basic
import Dialogue.Machine.Build
import Dialogue.Machine.Event
import Dialogue.Machine.State
import Dialogue.Machine.Transition
import Dialogue.Number.Binary64
import Dialogue.Number.Decimal
import Dialogue.Number.Power
import Dialogue.Options.Cache
import Dialogue.Options.Load
import Dialogue.Pattern.Basic
import Dialogue.Pattern.Reader
import Dialogue.Pattern.Size
import Dialogue.Proofs.Action.Attempts
import Dialogue.Proofs.Action.Backoff
import Dialogue.Proofs.Action.Headers
import Dialogue.Proofs.Expr.Comparison
import Dialogue.Proofs.Expr.Completeness
import Dialogue.Proofs.Expr.Height
import Dialogue.Proofs.Expr.Path
import Dialogue.Proofs.Expr.Steps
import Dialogue.Proofs.Flow.Priority
import Dialogue.Proofs.Input.Amounts
import Dialogue.Proofs.Input.Bounds
import Dialogue.Proofs.Input.Normal
import Dialogue.Proofs.Input.Yen
import Dialogue.Proofs.Json.Entries
import Dialogue.Proofs.Json.RoundTrip
import Dialogue.Proofs.Json.Scalars
import Dialogue.Proofs.Machine.Acceptance
import Dialogue.Proofs.Machine.Choices
import Dialogue.Proofs.Machine.Coherence
import Dialogue.Proofs.Machine.Completion
import Dialogue.Proofs.Machine.Edges
import Dialogue.Proofs.Machine.Failure
import Dialogue.Proofs.Machine.Frame
import Dialogue.Proofs.Machine.Ledger
import Dialogue.Proofs.Machine.Persistence
import Dialogue.Proofs.Machine.Reports
import Dialogue.Proofs.Machine.Routing
import Dialogue.Proofs.Machine.Run
import Dialogue.Proofs.Machine.Standing
import Dialogue.Proofs.Machine.Visits
import Dialogue.Proofs.Machine.WellFormed
import Dialogue.Proofs.Options.History
import Dialogue.Proofs.Options.Interleaving
import Dialogue.Proofs.Options.Provenance
import Dialogue.Proofs.Rule.Flags
import Dialogue.Proofs.Session.Cancellation
import Dialogue.Proofs.Session.Evolution
import Dialogue.Proofs.Session.Feeds
import Dialogue.Proofs.Session.Flight
import Dialogue.Proofs.Session.Jobs
import Dialogue.Proofs.Session.Moves
import Dialogue.Proofs.Session.Portraits
import Dialogue.Proofs.Session.Replies
import Dialogue.Proofs.Session.Responses
import Dialogue.Proofs.Session.Retention
import Dialogue.Proofs.Session.Revisits
import Dialogue.Proofs.Session.Submission
import Dialogue.Proofs.Session.Taking
import Dialogue.Proofs.Session.Tokens
import Dialogue.Proofs.Store.Backends
import Dialogue.Proofs.Store.Isolation
import Dialogue.Proofs.Store.ReadBack
import Dialogue.Proofs.Template
import Dialogue.Proofs.Template.Interpolation
import Dialogue.Proofs.Template.Rerendering
import Dialogue.Proofs.Work.Alone
import Dialogue.Proofs.Work.Aside
import Dialogue.Registry
import Dialogue.Rule.Basic
import Dialogue.Rule.Check
import Dialogue.Session.Basic
import Dialogue.Session.Call
import Dialogue.Session.Feed
import Dialogue.Session.Schedule
import Dialogue.Session.Surface
import Dialogue.Session.Update
import Dialogue.Session.World
import Dialogue.Settings
import Dialogue.Store.Basic
import Dialogue.Store.Scope
import Dialogue.Template
import Dialogue.Text.Blank
import Dialogue.Text.Bytes
import Dialogue.Text.Casing
import Dialogue.Text.Category
import Dialogue.Text.Hex
import Dialogue.Text.Letter
import Dialogue.Text.Quoted
import Dialogue.Text.Ranges
import Dialogue.Work.Basic
import Dialogue.Work.Host
