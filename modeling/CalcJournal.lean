import CalcJournal.Binary64.Arithmetic
import CalcJournal.Binary64.Basic
import CalcJournal.Binary64.Rounding
import CalcJournal.Binary64.Shortest
import CalcJournal.Calculation
import CalcJournal.Calendar.Date
import CalcJournal.Calendar.Instant
import CalcJournal.Calendar.Rfc3339
import CalcJournal.Expression.Category
import CalcJournal.Expression.Chain
import CalcJournal.Expression.Literal
import CalcJournal.Expression.Operator
import CalcJournal.Expression.ParseError
import CalcJournal.Expression.Parser
import CalcJournal.Expression.Token
import CalcJournal.Http.MediaType
import CalcJournal.Http.Problem
import CalcJournal.Http.Reading
import CalcJournal.Http.Reason
import CalcJournal.Http.Request
import CalcJournal.Http.Response
import CalcJournal.Http.Router
import CalcJournal.Http.Target
import CalcJournal.Journal.Basic
import CalcJournal.Journal.JournalError
import CalcJournal.Json.Calculation
import CalcJournal.Json.Fault
import CalcJournal.Json.Lexer
import CalcJournal.Json.Number
import CalcJournal.Json.Sequence
import CalcJournal.Json.Shape
import CalcJournal.Json.Skip
import CalcJournal.Json.Token
import CalcJournal.Net.Reading
import CalcJournal.Net.SocketAddress
import CalcJournal.Settings.Basic
import CalcJournal.Settings.Environment
import CalcJournal.Store.Basic
import CalcJournal.Store.Repository
import CalcJournal.Store.Row
import CalcJournal.Store.StoreError
import CalcJournal.Text.Blank
import CalcJournal.Text.Digits
import CalcJournal.Text.Hidden
import CalcJournal.Text.Occurrence
import CalcJournal.Text.Percent
import CalcJournal.Text.Utf8
import CalcJournal.Proofs.Binary64.Exact
import CalcJournal.Proofs.Binary64.Nearest
import CalcJournal.Proofs.Binary64.Overflow
import CalcJournal.Proofs.Binary64.Rounding
import CalcJournal.Proofs.Binary64.Scientific
import CalcJournal.Proofs.Binary64.Shortest
import CalcJournal.Proofs.Calendar.Bytewise
import CalcJournal.Proofs.Calendar.DateText
import CalcJournal.Proofs.Calendar.LeapSecond
import CalcJournal.Proofs.Calendar.Offset
import CalcJournal.Proofs.Calendar.Order
import CalcJournal.Proofs.Calendar.Rfc3339
import CalcJournal.Proofs.Calendar.Timeline
import CalcJournal.Proofs.Expression.Concatenation
import CalcJournal.Proofs.Expression.Counting
import CalcJournal.Proofs.Expression.Decimals
import CalcJournal.Proofs.Expression.Faults
import CalcJournal.Proofs.Expression.Grammar
import CalcJournal.Proofs.Expression.Parsing
import CalcJournal.Proofs.Expression.Prefixes
import CalcJournal.Proofs.Expression.Rendering
import CalcJournal.Proofs.Expression.Rereading
import CalcJournal.Proofs.Expression.Respacing
import CalcJournal.Proofs.Expression.Spacing
import CalcJournal.Proofs.Http.Commuting
import CalcJournal.Proofs.Http.Envelope
import CalcJournal.Proofs.Http.Filing
import CalcJournal.Proofs.Http.Intake
import CalcJournal.Proofs.Http.Location
import CalcJournal.Proofs.Http.Overwriting
import CalcJournal.Proofs.Http.Precedence
import CalcJournal.Proofs.Http.Readback
import CalcJournal.Proofs.Http.Secrecy
import CalcJournal.Proofs.Http.Spelling
import CalcJournal.Proofs.Http.Status
import CalcJournal.Proofs.Journal.Effects
import CalcJournal.Proofs.Journal.Identity
import CalcJournal.Proofs.Journal.Listing
import CalcJournal.Proofs.Journal.Operation
import CalcJournal.Proofs.Journal.Outcome
import CalcJournal.Proofs.Journal.Run
import CalcJournal.Proofs.Json.AnyOrder
import CalcJournal.Proofs.Json.Calculation
import CalcJournal.Proofs.Json.Deciding
import CalcJournal.Proofs.Json.Lexing
import CalcJournal.Proofs.Json.Members
import CalcJournal.Proofs.Json.Number
import CalcJournal.Proofs.Json.Sequence
import CalcJournal.Proofs.Json.Skipping
import CalcJournal.Proofs.Json.Spelling
import CalcJournal.Proofs.Net.Grammar
import CalcJournal.Proofs.Net.Printing
import CalcJournal.Proofs.Service.Chronicle
import CalcJournal.Proofs.Service.Provenance
import CalcJournal.Proofs.Service.Resending
import CalcJournal.Proofs.Service.Run
import CalcJournal.Proofs.Service.Search
import CalcJournal.Proofs.Settings.Environment
import CalcJournal.Proofs.Settings.Loading
import CalcJournal.Proofs.Store.Damage
import CalcJournal.Proofs.Store.Dating
import CalcJournal.Proofs.Store.Effects
import CalcJournal.Proofs.Store.Rewriting
import CalcJournal.Proofs.Store.Row
import CalcJournal.Proofs.Store.Veiled
import CalcJournal.Proofs.Text.Capitals
import CalcJournal.Proofs.Text.Digits
import CalcJournal.Proofs.Text.Ordering
import CalcJournal.Proofs.Text.Scanning
import CalcJournal.Proofs.Text.Utf8
