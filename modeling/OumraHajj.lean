import OumraHajj.Async.Pool
import OumraHajj.Services.Requests
import OumraHajj.Services.Billing
import OumraHajj.Services.Accounting
import OumraHajj.Services.Treasury
import OumraHajj.Spec.Frame
import OumraHajj.Spec.Packages
import OumraHajj.Spec.Failures
import OumraHajj.Seats.Conservation
import OumraHajj.Confirmation.Terminal
import OumraHajj.Spec.Payments
import OumraHajj.Spec.Documents
import OumraHajj.Confirmation.Paid
import OumraHajj.Spec.Billing
import OumraHajj.Ledger.Journal
import OumraHajj.Ledger.Balance
import OumraHajj.Spec.Webhook
import OumraHajj.Ledger.Redelivery
import OumraHajj.Seats.Concurrent
import OumraHajj.Confirmation.Once
import OumraHajj.Ledger.RefundOnce
import OumraHajj.Confirmation.NotLost
import OumraHajj.Disputes.Active
import OumraHajj.Rooms.Cancellation
import OumraHajj.Invoices.Numbering
import OumraHajj.Auth.Suspension
import OumraHajj.Auth.Sessions
import OumraHajj.Auth.Reset
import OumraHajj.Sync.Retry
import OumraHajj.Sync.Order
import OumraHajj.Auth.Ticket
import OumraHajj.Auth.ResetLink
import OumraHajj.Auth.Discretion
import OumraHajj.Auth.OtpOnce
import OumraHajj.Auth.OtpAttempts
import OumraHajj.Sync.Concurrent
import OumraHajj.Refunds.Frozen
import OumraHajj.Refunds.Mixture
import OumraHajj.Savings.Once
import OumraHajj.Savings.Balance
import OumraHajj.Savings.Numbering
import OumraHajj.Groups.Members
import OumraHajj.Groups.Roster
import OumraHajj.Groups.Live
import OumraHajj.Groups.Guides
import OumraHajj.Tenancy.Runs
import OumraHajj.Seats.Status
import OumraHajj.Seats.Closed
import OumraHajj.Messaging.Runs
import OumraHajj.Documents.Complete
import OumraHajj.Documents.Privacy
import OumraHajj.Rites.Review
import OumraHajj.Invoices.Audit
import OumraHajj.Exports.Formula
import OumraHajj.Treasury.Projection
import OumraHajj.Treasury.Past
import OumraHajj.Rooms.Plan
import OumraHajj.Rooms.Choice
import OumraHajj.Ledger.Additive
import OumraHajj.OnCall.Contacts
import OumraHajj.Treasury.Plans
import OumraHajj.Treasury.Reminders
import OumraHajj.Refunds.Monotone
import OumraHajj.Refunds.Preview
import OumraHajj.Refunds.Rounding
import OumraHajj.Capacity.Profile
import OumraHajj.Planning.Conflicts
import OumraHajj.Profitability.Threshold
import OumraHajj.Reviews.Trust
import OumraHajj.Exports.RoundTrip
import OumraHajj.Calendar.Feed
import OumraHajj.Storage.Access
import OumraHajj.Realtime.Registry
import OumraHajj.Groups.Attaches
import OumraHajj.Messaging.Live
import OumraHajj.Community.Live
import OumraHajj.Catalogue.Public
import OumraHajj.Quiz.Stats
import OumraHajj.FamilyView.Links
import OumraHajj.FamilyView.Discretion
import OumraHajj.Calendar.Links
import OumraHajj.Emergency.Contacts
import OumraHajj.Audit.Trail
import OumraHajj.Groups.Positions
import OumraHajj.Checklist.Reminders
