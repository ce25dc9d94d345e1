import Veilence.Foundation.Splice
import Veilence.Foundation.Table
import Veilence.Foundation.Ledger
import Veilence.Foundation.Transition
import Veilence.Foundation.Program
import Veilence.Foundation.Custody
import Veilence.Foundation.Sequential
import Veilence.Queue.Redis
import Veilence.Queue.Calls
import Veilence.Queue.NoLoss
import Veilence.Queue.Holder
import Veilence.Differ.EditScript
import Veilence.Differ.Hunks
import Veilence.Differ.Patch
import Veilence.Differ.Filter
import Veilence.Differ.Render
import Veilence.Differ.Completeness
import Veilence.Differ.Grammar
import Veilence.Differ.RoundTrip
import Veilence.Differ.ArchivePrefix
import Veilence.Differ.Visible
import Veilence.Differ.Extraction
import Veilence.Pipeline.Database
import Veilence.Pipeline.Registry
import Veilence.Pipeline.Operations
import Veilence.Pipeline.Grounded
import Veilence.Pipeline.Stranded
import Veilence.Pipeline.Baseline
import Veilence.Auth.Database
import Veilence.Foundation.Observed
import Veilence.Auth.Service
import Veilence.Auth.Discipline
import Veilence.Auth.UserRows
import Veilence.Auth.Rotation
import Veilence.Auth.SessionCap
import Veilence.Auth.Tokens
import Veilence.Queue.Views
import Veilence.Foundation.Discipline
import Veilence.Queue.Attempts
import Veilence.Queue.Filing
import Veilence.Queue.Representation
import Veilence.Foundation.Outline
import Veilence.Rbac.Database
import Veilence.Rbac.Service
import Veilence.Rbac.Access
import Veilence.Rbac.Discipline
import Veilence.Rbac.Ownership
import Veilence.Rbac.Invitations
import Veilence.Foundation.Tickets
import Veilence.Rbac.Keys
import Veilence.Rbac.Setup
import Veilence.Rbac.AddUser
import Veilence.Auth.SuperAdmins
import Veilence.Foundation.Chain
import Veilence.Go.Url
import Veilence.Restapi.Http
import Veilence.Restapi.Middleware
import Veilence.Restapi.Router
import Veilence.Restapi.Csrf
import Veilence.Restapi.KeyScope
import Veilence.Foundation.Selection
import Veilence.Releases.Views
import Veilence.Releases.Agreement
import Veilence.Foundation.References
import Veilence.Foundation.Transaction
import Veilence.Tenancy.Database
import Veilence.Tenancy.Repositories
import Veilence.Tenancy.Cascade
import Veilence.Foundation.Subsequence
import Veilence.Differ.Minimal
import Veilence.Foundation.Runs
import Veilence.Differ.Canonical
import Veilence.Differ.Enumeration
import Veilence.Differ.Budget
import Veilence.Queue.Order
import Veilence.Foundation.Nesting
import Veilence.Go.Json
import Veilence.Go.Regexp
import Veilence.Go.JsonScalars
import Veilence.Llm.Extract
import Veilence.Llm.Response
import Veilence.Llm.Wrapping
import Veilence.Llm.FailSafe
import Veilence.Pipeline.Polling
import Veilence.Queue.Expiry
import Veilence.Foundation.Confinement
import Veilence.Foundation.Regions
import Veilence.Core.Database
import Veilence.Core.Repositories
import Veilence.Core.Services
import Veilence.Core.Scope
import Veilence.Poller.Settings
import Veilence.Go.Runes
import Veilence.Registry.ModulePath
import Veilence.Registry.GoProxy
import Veilence.Go.Strconv
import Veilence.Queue.Pagination
import Veilence.Queue.Effects
import Veilence.Queue.Requeueing
import Veilence.Queue.Statistics
import Veilence.Queue.Backoff
import Veilence.Core.Discovery
import Veilence.Core.Stale
import Veilence.Core.Lifecycle
import Veilence.Core.Readding
import Veilence.Core.Statuses
import Veilence.Poller.Triggers
import Veilence.Core.Confined
import Veilence.Core.Guarded
import Veilence.Core.Isolation
import Veilence.Notifications.Dispatch
import Veilence.Notifications.Inbox
import Veilence.Go.Reader
import Veilence.Go.Authority
import Veilence.Registry.Download
import Veilence.Registry.Origin
import Veilence.Sso.States
import Veilence.Sso.Emails
import Veilence.Sso.FirstLogin
import Veilence.Sso.Handout
import Veilence.Notifications.Targeted
import Veilence.Settings.Database
import Veilence.Settings.Update
import Veilence.Foundation.TokenBucket
import Veilence.Go.Address
import Veilence.Go.Query
import Veilence.Mail.Headers
import Veilence.Mail.Messages
import Veilence.Restapi.ClientAddress
import Veilence.Restapi.RateLimit
import Veilence.Restapi.Requirements
import Veilence.Restapi.SsoRedirect
import Veilence.Sso.SigningKey
import Veilence.Sso.SingleLogout
import Veilence.Frontend.Http
import Veilence.Digest.Scheduler
import Veilence.Restapi.SignIn
import Veilence.Foundation.Like
import Veilence.Foundation.Ties
import Veilence.Listings.Queries
import Veilence.Listings.Search
import Veilence.Listings.Paging
import Veilence.Listings.BulkApproval
import Veilence.Go.Utf8Texts
import Veilence.Audit.Service
import Veilence.Audit.Trail
import Veilence.Sso.Passwords
import Veilence.Reanalysis.System
import Veilence.Reanalysis.Discipline
import Veilence.Reanalysis.Workers
import Veilence.Reanalysis.Doubling
import Veilence.Sso.Configs
import Veilence.Foundation.Dues
import Veilence.Pipeline.Alarms
import Veilence.Foundation.Commands
import Veilence.Foundation.Allowance
import Veilence.Pipeline.Deliveries
import Veilence.Pipeline.Completions
