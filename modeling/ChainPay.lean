import ChainPay.Lib.Bytes
import ChainPay.Lib.Checked
import ChainPay.Lib.Ring
import ChainPay.Lib.Runs
import ChainPay.Lib.Table
import ChainPay.Card.State
import ChainPay.Card.Policy
import ChainPay.Card.Credit
import ChainPay.Card.Setup
import ChainPay.Card.Freeze
import ChainPay.Card.Lifecycle
import ChainPay.Card.Period
import ChainPay.Card.Repayment
import ChainPay.Card.Retire
import ChainPay.Card.Exec
import ChainPay.Card.Holds
import ChainPay.Card.Authority
import ChainPay.Card.Budget
import ChainPay.Card.Refunds
import ChainPay.Card.Repayments
import ChainPay.Backend.Billing
import ChainPay.Lib.World
import ChainPay.Backend.Close
import ChainPay.Backend.Statements
import ChainPay.Backend.Exposure
import ChainPay.Backend.Events
import ChainPay.Card.Replay
import ChainPay.Backend.Apply
import ChainPay.Backend.Routing
import ChainPay.Backend.Desk
import ChainPay.Backend.Passes
import ChainPay.Backend.Request
import ChainPay.Backend.Once
import ChainPay.Backend.Reserved
import ChainPay.Card.Recovery
import ChainPay.Card.Window
import ChainPay.Card.Backing
import ChainPay.Card.Ledger
import ChainPay.Card.Audit
import ChainPay.Card.Standing
import ChainPay.Backend.Restore
import ChainPay.Mandate.Program
import ChainPay.Mandate.Receipts
import ChainPay.Lib.Calls
import ChainPay.Splitter.Program
import ChainPay.Splitter.Solvency
import ChainPay.Relay.Store
import ChainPay.Relay.Handlers
import ChainPay.Relay.Runs
import ChainPay.Relay.Orderly
import ChainPay.Relay.Claims
import ChainPay.Relay.Messages
import ChainPay.Card.Roster
import ChainPay.Card.Wipe
import ChainPay.Card.Outbox
import ChainPay.Repay.Attempts
import ChainPay.Repay.Forward
import ChainPay.Repay.History
import ChainPay.Repay.Credits
import ChainPay.Repay.Match
import ChainPay.Lib.Codec
import ChainPay.Lib.Json
import ChainPay.Lib.Merkle
import ChainPay.Sdk.Accounts
import ChainPay.Sdk.Commitment
import ChainPay.Sdk.Fragment
import ChainPay.Sdk.Disclosure
import ChainPay.Paypal.Task
import ChainPay.Paypal.Changes
import ChainPay.Paypal.Books
import ChainPay.Paypal.Refunds
import ChainPay.Lib.Rows
import ChainPay.Paypal.Subscriptions
import ChainPay.Paypal.Store
import ChainPay.Paypal.Money
import ChainPay.Webhooks.Memory
import ChainPay.Webhooks.Outbox
import ChainPay.Webhooks.Progress
import ChainPay.Sdk.Preflight
import ChainPay.Sdk.Batch
import ChainPay.Lib.Text
import ChainPay.Support.Parse
import ChainPay.Support.Sync
import ChainPay.Support.Totals
import ChainPay.Lib.Ranked
import ChainPay.Webhooks.Convex
import ChainPay.Webhooks.Agreement
import ChainPay.Jobs.Stores
import ChainPay.Jobs.Agreement
import ChainPay.Sdk.Ephemeral
import ChainPay.Backend.Readers
import ChainPay.Sdk.ReadBack
import ChainPay.Lib.Document
import ChainPay.Lib.Base64
import ChainPay.Requests.Parts
import ChainPay.Requests.Mandate
import ChainPay.Requests.MandateAgreement
import ChainPay.Lib.Invocations
import ChainPay.Support.Logs
import ChainPay.Repay.CallLog
import ChainPay.Repay.Attribution
import ChainPay.Repay.Scans
import ChainPay.Lib.Base58
import ChainPay.Lib.Wire
import ChainPay.Support.Filter
import ChainPay.Signing.BuiltTransaction
import ChainPay.Signing.Bounds
import ChainPay.Inbox.Queue
import ChainPay.Inbox.Walks
import ChainPay.Crossmint.Evidence
import ChainPay.Crossmint.Observation
import ChainPay.Checkout.Order
import ChainPay.Checkout.Terms
import ChainPay.Flows.Cards
import ChainPay.Flows.Lineage
import ChainPay.Card.EventRing
import ChainPay.Card.Lamports
import ChainPay.Card.Expiry
import ChainPay.Lib.Calendar
import ChainPay.Lib.Digits
import ChainPay.Statements.Timestamp
import ChainPay.Lib.Pages
import ChainPay.Statements.Listing
import ChainPay.Lib.Csv
import ChainPay.Sdk.ReceiptExport
import ChainPay.Sdk.ReceiptCsv
import ChainPay.Lib.Pattern
import ChainPay.Sdk.Redact
import ChainPay.Sdk.CardNumbers
import ChainPay.Sdk.RedactWalk
import ChainPay.Sdk.Redaction
import ChainPay.Flows.Agreement
