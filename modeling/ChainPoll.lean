import ChainPoll.Client.Ask
import ChainPoll.Client.Basic
import ChainPoll.Client.Call
import ChainPoll.Client.Interface
import ChainPoll.Client.Query
import ChainPoll.Decimal.Binary64
import ChainPoll.Decimal.General
import ChainPoll.Decimal.Numeral
import ChainPoll.Decimal.Rounding
import ChainPoll.Decimal.Shortest
import ChainPoll.Endpoint.Basic
import ChainPoll.Endpoint.Resource
import ChainPoll.Fault
import ChainPoll.Journal
import ChainPoll.Json.Equality
import ChainPoll.Json.Reader
import ChainPoll.Json.Value
import ChainPoll.Main
import ChainPoll.Paging.Cursor
import ChainPoll.Paging.Order
import ChainPoll.Paging.Result
import ChainPoll.Paging.Row
import ChainPoll.Paging.Walk
import ChainPoll.Poll.Arguments
import ChainPoll.Poll.Report
import ChainPoll.Poll.Run
import ChainPoll.Proofs.Client.Aborting
import ChainPoll.Proofs.Client.Alone
import ChainPoll.Proofs.Client.Cancelling
import ChainPoll.Proofs.Client.Courses
import ChainPoll.Proofs.Client.Independence
import ChainPoll.Proofs.Client.Mirroring
import ChainPoll.Proofs.Client.OneSession
import ChainPoll.Proofs.Client.Reachable
import ChainPoll.Proofs.Client.Running
import ChainPoll.Proofs.Client.Sealing
import ChainPoll.Proofs.Client.Shifting
import ChainPoll.Proofs.Client.Streaming
import ChainPoll.Proofs.Client.Syncing
import ChainPoll.Proofs.Endpoint.Events
import ChainPoll.Proofs.Endpoint.ReadingBack
import ChainPoll.Proofs.Endpoint.Reusing
import ChainPoll.Proofs.Paging.Comparing
import ChainPoll.Proofs.Paging.Executing
import ChainPoll.Proofs.Paging.Resuming
import ChainPoll.Proofs.Paging.Sorting
import ChainPoll.Proofs.Paging.Store
import ChainPoll.Proofs.Paging.Streams
import ChainPoll.Proofs.Paging.Touring
import ChainPoll.Proofs.Poll.Accounts
import ChainPoll.Proofs.Poll.Lines
import ChainPoll.Proofs.Record.Calendar
import ChainPoll.Proofs.Record.Contents
import ChainPoll.Proofs.Record.Fieldwise
import ChainPoll.Proofs.Record.Rearranging
import ChainPoll.Proofs.Record.Rereading
import ChainPoll.Proofs.Retry.Attempts
import ChainPoll.Proofs.Retry.Closing
import ChainPoll.Proofs.Retry.Deadlines
import ChainPoll.Proofs.Retry.Following
import ChainPoll.Proofs.Retry.Moves
import ChainPoll.Proofs.Retry.Noting
import ChainPoll.Proofs.Retry.Outcomes
import ChainPoll.Proofs.Retry.Pacing
import ChainPoll.Proofs.Retry.Reporting
import ChainPoll.Proofs.Retry.Shifting
import ChainPoll.Proofs.Retry.Signalling
import ChainPoll.Proofs.Retry.Standing
import ChainPoll.Proofs.Retry.Truncation
import ChainPoll.Proofs.Retry.Undisturbed
import ChainPoll.Proofs.Supply
import ChainPoll.Proofs.Timeline.Broadcasting
import ChainPoll.Proofs.Timeline.Points
import ChainPoll.Proofs.Timeline.Programs
import ChainPoll.Proofs.Timeline.Schedule
import ChainPoll.Proofs.Timeline.Tasks
import ChainPoll.Proofs.Timeline.Ticking
import ChainPoll.Proofs.Timeline.Waking
import ChainPoll.Proofs.Transport.Sessions
import ChainPoll.Proofs.Transport.Transferring
import ChainPoll.Proofs.Url.Addresses
import ChainPoll.Proofs.Url.Authorities
import ChainPoll.Proofs.Url.Escaping
import ChainPoll.Proofs.Url.Hosts
import ChainPoll.Proofs.Url.Origins
import ChainPoll.Proofs.Url.Requoting
import ChainPoll.Proofs.Url.Targets
import ChainPoll.Record.Checkpoint
import ChainPoll.Record.Envelope
import ChainPoll.Record.Event
import ChainPoll.Record.Flaw
import ChainPoll.Record.Integer
import ChainPoll.Record.Milestone
import ChainPoll.Record.Model
import ChainPoll.Record.Reader
import ChainPoll.Record.Shape
import ChainPoll.Record.Span
import ChainPoll.Record.Timestamp
import ChainPoll.Retry.Basic
import ChainPoll.Retry.Errand
import ChainPoll.Retry.Run
import ChainPoll.Settings
import ChainPoll.Supply
import ChainPoll.Text.Blank
import ChainPoll.Text.Digits
import ChainPoll.Text.Lowercase
import ChainPoll.Text.Numeral
import ChainPoll.Text.Printable
import ChainPoll.Text.Quoted
import ChainPoll.Timeline.Agenda
import ChainPoll.Timeline.Broadcast
import ChainPoll.Timeline.Grid
import ChainPoll.Timeline.Program
import ChainPoll.Timeline.Signal
import ChainPoll.Timeline.Task
import ChainPoll.Timeline.Ticker
import ChainPoll.Timeline.Time
import ChainPoll.Timeline.Wait
import ChainPoll.Transport.Connector
import ChainPoll.Transport.Exchange
import ChainPoll.Transport.Gateway
import ChainPoll.Transport.Notation
import ChainPoll.Transport.Script
import ChainPoll.Transport.Session
import ChainPoll.Transport.Transfer
import ChainPoll.Url.Address
import ChainPoll.Url.Authority
import ChainPoll.Url.Escape
import ChainPoll.Url.Flaw
import ChainPoll.Url.Label
import ChainPoll.Url.Origin
import ChainPoll.Url.Path
import ChainPoll.Url.Target
