import Parley.Admission.Identity
import Parley.Admission.RateLimit
import Parley.Admission.Slots
import Parley.CommandLine
import Parley.Connection.Id
import Parley.Decimal.Double
import Parley.Decimal.Layout
import Parley.Decimal.Shortest
import Parley.Exchange
import Parley.Exchange.Desk
import Parley.Exchange.Mailbox
import Parley.Exchange.Post
import Parley.Exchange.Supply
import Parley.Http.Form
import Parley.Http.Framing
import Parley.Http.Handshake
import Parley.Http.Header
import Parley.Http.Message
import Parley.Http.Path
import Parley.Json.Decoding
import Parley.Json.Numeral
import Parley.Json.Outline
import Parley.Json.Outline.Reader
import Parley.Json.Printer
import Parley.Json.Value
import Parley.Main
import Parley.Message.Notice
import Parley.Message.Request
import Parley.Message.Typing
import Parley.Message.User
import Parley.Network.Address
import Parley.Proofs.Admission.Identity
import Parley.Proofs.Admission.RateLimit
import Parley.Proofs.Admission.Slots
import Parley.Proofs.Desk.Closing
import Parley.Proofs.Desk.Order
import Parley.Proofs.Desk.Run
import Parley.Proofs.Desk.Shutdown
import Parley.Proofs.Exchange.Act
import Parley.Proofs.Exchange.Answers
import Parley.Proofs.Exchange.Audience
import Parley.Proofs.Exchange.Cascade
import Parley.Proofs.Exchange.Command
import Parley.Proofs.Exchange.Company
import Parley.Proofs.Exchange.Complaint
import Parley.Proofs.Exchange.Confluence
import Parley.Proofs.Exchange.Delivery
import Parley.Proofs.Exchange.Ending
import Parley.Proofs.Exchange.Eviction
import Parley.Proofs.Exchange.Journal
import Parley.Proofs.Exchange.Move
import Parley.Proofs.Exchange.Order
import Parley.Proofs.Exchange.Parting
import Parley.Proofs.Exchange.Posting
import Parley.Proofs.Exchange.Presence
import Parley.Proofs.Exchange.Removal
import Parley.Proofs.Exchange.Run
import Parley.Proofs.Exchange.Supply
import Parley.Proofs.Exchange.View
import Parley.Proofs.Exchange.Voice
import Parley.Proofs.Json.Grammar
import Parley.Proofs.Json.Outline
import Parley.Proofs.Json.Record
import Parley.Proofs.Message.Notice
import Parley.Proofs.Message.Request
import Parley.Proofs.Message.Voice
import Parley.Proofs.Rehearsal.Run
import Parley.Proofs.Roster.Answers
import Parley.Proofs.Roster.Attendance
import Parley.Proofs.Roster.Consistent
import Parley.Proofs.Roster.Visit
import Parley.Proofs.Server.Allowance
import Parley.Proofs.Server.Run
import Parley.Proofs.Service.Answering
import Parley.Proofs.Service.Authorship
import Parley.Proofs.Service.Books
import Parley.Proofs.Service.Complaint
import Parley.Proofs.Service.Filing
import Parley.Proofs.Service.Grace
import Parley.Proofs.Service.Hearing
import Parley.Proofs.Service.Lending
import Parley.Proofs.Service.Letters
import Parley.Proofs.Service.Lively
import Parley.Proofs.Service.Octets
import Parley.Proofs.Service.Probing
import Parley.Proofs.Service.Prompt
import Parley.Proofs.Service.Proper
import Parley.Proofs.Service.Refusal
import Parley.Proofs.Service.Run
import Parley.Proofs.Service.Silence
import Parley.Proofs.Service.Steady
import Parley.Proofs.Service.Strides
import Parley.Proofs.Service.Waiting
import Parley.Proofs.Service.Warning
import Parley.Proofs.Service.Withdrawal
import Parley.Proofs.Service.Writing
import Parley.Proofs.Session.Deed
import Parley.Proofs.Session.Reaction
import Parley.Proofs.Session.Signature
import Parley.Proofs.Session.Stride
import Parley.Proofs.Session.Turn
import Parley.Proofs.Session.Writing
import Parley.Proofs.Settings.Override
import Parley.Proofs.Text.Digits
import Parley.Proofs.Text.Utf8
import Parley.Proofs.Time.Instant
import Parley.Proofs.Transport.Duplex
import Parley.Rehearsal
import Parley.Roster
import Parley.Roster.Directory
import Parley.Roster.RoomName
import Parley.Server
import Parley.Server.CrossOrigin
import Parley.Server.Front
import Parley.Service
import Parley.Session
import Parley.Session.Limits
import Parley.Session.Link
import Parley.Session.Reaction
import Parley.Session.Reader
import Parley.Session.Writer
import Parley.Settings
import Parley.Settings.Binding
import Parley.Settings.Draft
import Parley.Settings.Loading
import Parley.Settings.Override
import Parley.Settings.Scalar
import Parley.Settings.Setting
import Parley.Telemetry.Meter
import Parley.Telemetry.Metric
import Parley.Telemetry.Monitor
import Parley.Text.Blank
import Parley.Text.Digits
import Parley.Text.Quoted
import Parley.Text.Utf8
import Parley.Time.Date
import Parley.Time.Instant
import Parley.Toml.Blank
import Parley.Toml.Branch
import Parley.Toml.Document
import Parley.Toml.Key
import Parley.Toml.Moment
import Parley.Toml.Numeral
import Parley.Toml.Quoted
import Parley.Toml.Reading
import Parley.Transport.Duplex
import Parley.Transport.Frame
import Parley.Transport.Pipe
