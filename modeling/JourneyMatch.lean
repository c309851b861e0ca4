import JourneyMatch.Power
import JourneyMatch.Sorted.Entries
import JourneyMatch.Sorted.Map
import JourneyMatch.Binary64.Basic
import JourneyMatch.Binary64.Shortest
import JourneyMatch.Json.Error
import JourneyMatch.Json.Number
import JourneyMatch.Json.Basic
import JourneyMatch.Json.Text
import JourneyMatch.Json.Printer
import JourneyMatch.Json.Reader
import JourneyMatch.Wire.Shape
import JourneyMatch.Wire.Printer
import JourneyMatch.Wire.Reader
import JourneyMatch.Wire.Decoder
import JourneyMatch.Wire.Basic
import JourneyMatch.Observation.Journey
import JourneyMatch.Observation.Message
import JourneyMatch.Observation.Event
import JourneyMatch.Observation.Notification
import JourneyMatch.Sha256
import JourneyMatch.Base64
import JourneyMatch.Correlation
import JourneyMatch.Time.Civil
import JourneyMatch.Time.Moment
import JourneyMatch.Time.Timestamp
import JourneyMatch.Task.Key
import JourneyMatch.Store.Basic
import JourneyMatch.Task.Basic
import JourneyMatch.Task.Firing
import JourneyMatch.Task.TickLoop
import JourneyMatch.Task.Janitor
import JourneyMatch.Pending
import JourneyMatch.Visible.Extending
import JourneyMatch.Visible.Range
import JourneyMatch.Visible.Unassigned
import JourneyMatch.Visible.Unmarked
import JourneyMatch.Visible
import JourneyMatch.Matcher.Basic
import JourneyMatch.Admin.Query
import JourneyMatch.WhiteSpace
import JourneyMatch.Intake.Line
import JourneyMatch.Intake.Basic
import JourneyMatch.Notices
import JourneyMatch.Matcher.Feed
import JourneyMatch.Cell
import JourneyMatch.KeyedLock
import JourneyMatch.Toml.Value
import JourneyMatch.Toml.Scan
import JourneyMatch.Toml.Text
import JourneyMatch.Toml.Number
import JourneyMatch.Toml.DateTime
import JourneyMatch.Toml.Reader
import JourneyMatch.Toml.Document
import JourneyMatch.Settings.Basic
import JourneyMatch.Settings.Live
import JourneyMatch.Command.Arguments
import JourneyMatch.Command.Basic
import JourneyMatch.Command.Run
import JourneyMatch.Service.Basic
import JourneyMatch.Store.Snapshot
import JourneyMatch.Main
import JourneyMatch.Proofs.Store.Frame
import JourneyMatch.Proofs.Pending.Record
import JourneyMatch.Proofs.Matcher.Changes
import JourneyMatch.Proofs.Matcher.Notice
import JourneyMatch.Proofs.Matcher.Meeting
import JourneyMatch.Proofs.Matcher.Counterpart
import JourneyMatch.Proofs.Matcher.Failure
import JourneyMatch.Proofs.Matcher.Removal
import JourneyMatch.Proofs.Matcher.Run
import JourneyMatch.Proofs.Json.Quoted
import JourneyMatch.Proofs.Json.Number
import JourneyMatch.Proofs.Json.Double
import JourneyMatch.Proofs.Json.Printed
import JourneyMatch.Proofs.Json.Reading
import JourneyMatch.Proofs.Json.Settled
import JourneyMatch.Proofs.Json.Accepted
import JourneyMatch.Proofs.Json.Nesting
import JourneyMatch.Proofs.Wire.Reading
import JourneyMatch.Proofs.Wire.Nesting
import JourneyMatch.Proofs.Wire.Decoding
import JourneyMatch.Proofs.Pending.Decoding
import JourneyMatch.Proofs.Pending.Accepted
import JourneyMatch.Proofs.Pending.Legs
import JourneyMatch.Proofs.Task.Janitor
import JourneyMatch.Proofs.Task.Key
import JourneyMatch.Proofs.Store.Comparison
import JourneyMatch.Proofs.Store.Paired
import JourneyMatch.Proofs.Matcher.Expiry
import JourneyMatch.Proofs.Correlation
import JourneyMatch.Proofs.Matcher.Leg
import JourneyMatch.Proofs.Matcher.Place
import JourneyMatch.Proofs.Matcher.Board
import JourneyMatch.Proofs.Matcher.Subscription
import JourneyMatch.Proofs.Matcher.Journey
import JourneyMatch.Proofs.Pending.Taking
import JourneyMatch.Proofs.Matcher.History
import JourneyMatch.Proofs.KeyedLock
import JourneyMatch.Proofs.Matcher.Sequence
import JourneyMatch.Proofs.Matcher.Flight
import JourneyMatch.Proofs.Matcher.Interleaving
import JourneyMatch.Proofs.Time.Civil
import JourneyMatch.Proofs.Time.Delay
import JourneyMatch.Proofs.Time.Timestamp
import JourneyMatch.Proofs.Store.Sweep
import JourneyMatch.Proofs.Task.Scheduled
import JourneyMatch.Proofs.Matcher.Delivery
import JourneyMatch.Proofs.Matcher.Feed
import JourneyMatch.Proofs.Matcher.Visitor
import JourneyMatch.Proofs.Matcher.Traffic
import JourneyMatch.Proofs.Matcher.Stopping
import JourneyMatch.Proofs.Store.Fired
import JourneyMatch.Proofs.Matcher.Ledger
import JourneyMatch.Proofs.Matcher.Bookkeeping
import JourneyMatch.Proofs.Matcher.Isolation
import JourneyMatch.Proofs.Json.Token
import JourneyMatch.Proofs.Json.Blank
import JourneyMatch.Proofs.Json.Spelling
import JourneyMatch.Proofs.Json.Reordering
import JourneyMatch.Proofs.Wire.Standing
import JourneyMatch.Proofs.Observation.Event
import JourneyMatch.Proofs.Sorted.Utf8
import JourneyMatch.Proofs.Task.Turn
import JourneyMatch.Proofs.Matcher.Teardown
import JourneyMatch.Proofs.Time.Calendar
import JourneyMatch.Proofs.Time.Clock
import JourneyMatch.Proofs.Task.Due
import JourneyMatch.Proofs.KeyedLock.Fairness
import JourneyMatch.Proofs.Intake.Lines
import JourneyMatch.Proofs.Intake.Verdict
import JourneyMatch.Proofs.Json.Plain
import JourneyMatch.Proofs.Notices
import JourneyMatch.Proofs.KeyedLock.Slots
import JourneyMatch.Proofs.Store.Listing
import JourneyMatch.Proofs.Admin.Paging
import JourneyMatch.Proofs.Wire.Unshaped
import JourneyMatch.Proofs.Admin.Listing
import JourneyMatch.Proofs.Settings.Load
import JourneyMatch.Proofs.Service.Reloads
import JourneyMatch.Proofs.Store.Ownership
