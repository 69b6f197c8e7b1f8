import Custody.Address
import Custody.Api.Answer
import Custody.Api.Call
import Custody.Api.Health
import Custody.Api.Message
import Custody.Api.Problem
import Custody.Api.Route
import Custody.Api.View
import Custody.Application
import Custody.Assembly
import Custody.Failure
import Custody.Identifier
import Custody.Json.Basic
import Custody.Json.Display
import Custody.Json.Encoded
import Custody.Json.Printer
import Custody.Json.Reader
import Custody.Ledger.Books
import Custody.Ledger.Gateway
import Custody.Ledger.Simulated
import Custody.Lifecycle
import Custody.Lock.Fifo
import Custody.Lock.Leased
import Custody.Log
import Custody.Notification
import Custody.Number.Binary64
import Custody.Number.Decimal
import Custody.Number.DecimalReader
import Custody.Number.Power
import Custody.Number.Shortest
import Custody.Party
import Custody.PartySet
import Custody.Policy
import Custody.Proofs.Accord
import Custody.Proofs.Amount
import Custody.Proofs.Attempt
import Custody.Proofs.Calendar
import Custody.Proofs.Chronicle
import Custody.Proofs.Clock
import Custody.Proofs.Closing
import Custody.Proofs.Column
import Custody.Proofs.Completion
import Custody.Proofs.Confirmation
import Custody.Proofs.Consistency
import Custody.Proofs.Convergence
import Custody.Proofs.Dated
import Custody.Proofs.Deadline
import Custody.Proofs.Deed
import Custody.Proofs.Demand
import Custody.Proofs.Destination
import Custody.Proofs.Entry
import Custody.Proofs.Exclusion
import Custody.Proofs.Expiry
import Custody.Proofs.Extent
import Custody.Proofs.Fairness
import Custody.Proofs.Frame
import Custody.Proofs.Gathering
import Custody.Proofs.Hearing
import Custody.Proofs.Identity
import Custody.Proofs.Independence
import Custody.Proofs.Life
import Custody.Proofs.Lineup
import Custody.Proofs.Look
import Custody.Proofs.Magnitude
import Custody.Proofs.Meaning
import Custody.Proofs.Membership
import Custody.Proofs.Mirror
import Custody.Proofs.Naming
import Custody.Proofs.Nearest
import Custody.Proofs.Notice
import Custody.Proofs.Notifier
import Custody.Proofs.Outsider
import Custody.Proofs.Overdue
import Custody.Proofs.Paging
import Custody.Proofs.Panorama
import Custody.Proofs.Polling
import Custody.Proofs.Portrait
import Custody.Proofs.Progress
import Custody.Proofs.Question
import Custody.Proofs.Queue
import Custody.Proofs.Record
import Custody.Proofs.Refusal
import Custody.Proofs.Rest
import Custody.Proofs.Retry
import Custody.Proofs.Revision
import Custody.Proofs.Rollback
import Custody.Proofs.Rounding
import Custody.Proofs.Rows
import Custody.Proofs.Ruling
import Custody.Proofs.Run
import Custody.Proofs.Search
import Custody.Proofs.Serial
import Custody.Proofs.Serializability
import Custody.Proofs.Settlement
import Custody.Proofs.Sighting
import Custody.Proofs.Site
import Custody.Proofs.Spelling
import Custody.Proofs.Stamp
import Custody.Proofs.Target
import Custody.Proofs.Terms
import Custody.Proofs.Transcript
import Custody.Proofs.Turn
import Custody.Proofs.Understanding
import Custody.Proofs.Warrant
import Custody.Proofs.Wildcard
import Custody.Reconciliation
import Custody.Schema.Catalog
import Custody.Schema.Leaf
import Custody.Schema.Numeral
import Custody.Schema.Reading
import Custody.Schema.Request
import Custody.Service
import Custody.Service.Consistency
import Custody.Service.Creation
import Custody.Service.Inquiry
import Custody.Service.Interleaving
import Custody.Service.Operation
import Custody.Service.Plan
import Custody.Service.Remote
import Custody.Service.Transaction
import Custody.Service.Writes
import Custody.Settings
import Custody.Store.Basic
import Custody.Store.Insertion
import Custody.Store.Listing
import Custody.Store.Table
import Custody.Text.Ascii
import Custody.Text.Base64
import Custody.Text.Blank
import Custody.Text.Case
import Custody.Text.CaseContext
import Custody.Text.CodePoint
import Custody.Text.Digit
import Custody.Text.HostName
import Custody.Text.Pattern
import Custody.Text.Percent
import Custody.Text.Printable
import Custody.Text.Quoted
import Custody.Text.Utf8
import Custody.Time.Calendar
import Custody.Time.IsoReader
import Custody.Time.Moment
import Custody.Time.RequestReader
import Custody.Vocabulary
