import TickFeed.Binary64.Arithmetic
import TickFeed.Binary64.Basic
import TickFeed.Binary64.Reader
import TickFeed.Binary64.Shortest
import TickFeed.Bridge.Basic
import TickFeed.Bridge.Config
import TickFeed.Bridge.Fifo
import TickFeed.Bridge.Latency
import TickFeed.Bridge.Metrics
import TickFeed.Bridge.Pressure
import TickFeed.Bridge.Recorder
import TickFeed.Bridge.Run
import TickFeed.Bridge.Simulation
import TickFeed.Calendar.Date
import TickFeed.Calendar.DateReader
import TickFeed.Calendar.Instant
import TickFeed.Catalog.Basic
import TickFeed.Catalog.Csv
import TickFeed.Catalog.Place
import TickFeed.Catalog.Row
import TickFeed.Catalog.Snapshot
import TickFeed.Catalog.Source
import TickFeed.Decimal.Arithmetic
import TickFeed.Decimal.Basic
import TickFeed.Decimal.Reader
import TickFeed.Duration
import TickFeed.Environment
import TickFeed.Exchange
import TickFeed.Instrument.Basic
import TickFeed.Instrument.Id
import TickFeed.Instrument.Kind
import TickFeed.Json.Basic
import TickFeed.Json.Document
import TickFeed.Json.Numeral
import TickFeed.Json.Record
import TickFeed.Json.Writer
import TickFeed.Node.Basic
import TickFeed.Node.Broadcast
import TickFeed.Node.CommandLine
import TickFeed.Node.Config
import TickFeed.Node.Input
import TickFeed.Node.SymbolCounts
import TickFeed.Power
import TickFeed.RateLimit.Bucket
import TickFeed.RateLimit.CallClass
import TickFeed.RateLimit.Limits
import TickFeed.RateLimit.Run
import TickFeed.RateLimit.Sharing
import TickFeed.Rounding
import TickFeed.Text.Blank
import TickFeed.Text.Bytes
import TickFeed.Text.Numeral
import TickFeed.Text.Quoted
import TickFeed.Text.Visible
import TickFeed.Tick.Basic
import TickFeed.Tick.Normalize
import TickFeed.Tick.Raw
import TickFeed.Tick.Reading
import TickFeed.Main
import TickFeed.Proofs.Binary64.Rounding
import TickFeed.Proofs.Binary64.Decimal
import TickFeed.Proofs.Rounding
import TickFeed.Proofs.Binary64.Value
import TickFeed.Proofs.Binary64.Order
import TickFeed.Proofs.Bridge.History
import TickFeed.Proofs.Bridge.Moves
import TickFeed.Proofs.Bridge.Delivery
import TickFeed.Proofs.Bridge.Calls
import TickFeed.Proofs.Bridge.Conservation
import TickFeed.Proofs.Bridge.Isolation
import TickFeed.Proofs.Bridge.Lifecycle
import TickFeed.Proofs.Bridge.Overlap
import TickFeed.Proofs.Bridge.Pressure
import TickFeed.Proofs.Bridge.Monitor
import TickFeed.Proofs.Bridge.Latency
import TickFeed.Proofs.RateLimit.Tokens
import TickFeed.Proofs.RateLimit.Accounting
import TickFeed.Proofs.RateLimit.Answers
import TickFeed.Proofs.RateLimit.Independence
import TickFeed.Proofs.Codebook
import TickFeed.Proofs.Exchange
import TickFeed.Proofs.Instrument.Kind
import TickFeed.Proofs.Text.Letters
import TickFeed.Proofs.Text.Digits
import TickFeed.Proofs.Text.Bytes
import TickFeed.Proofs.Decimal.Arithmetic
import TickFeed.Proofs.Decimal.Reader
import TickFeed.Proofs.Decimal.Value
import TickFeed.Proofs.Instrument.Increment
import TickFeed.Proofs.Json.Spelling
import TickFeed.Proofs.Json.Depth
import TickFeed.Proofs.Json.Fields
import TickFeed.Proofs.Json.Writer
import TickFeed.Proofs.Json.Literals
import TickFeed.Proofs.Json.Numeral
import TickFeed.Proofs.Json.Integer
import TickFeed.Proofs.Tick.Price
import TickFeed.Proofs.Tick.WellFormed
import TickFeed.Proofs.Tick.Readings
import TickFeed.Proofs.Tick.RoundTrip
import TickFeed.Proofs.Tick.Deletion
import TickFeed.Proofs.Tick.Quoted
import TickFeed.Proofs.Tick.Epoch
import TickFeed.Proofs.Tick.Streaming
import TickFeed.Proofs.Calendar.DateReader
import TickFeed.Proofs.Catalog.Indices
import TickFeed.Proofs.Catalog.Loading
import TickFeed.Proofs.Catalog.Row
import TickFeed.Proofs.Catalog.Columns
import TickFeed.Proofs.Catalog.LotSize
import TickFeed.Proofs.Catalog.Acceptance
import TickFeed.Proofs.Catalog.ExpiryText
import TickFeed.Proofs.Catalog.Resolution
import TickFeed.Proofs.Catalog.Identifiers
import TickFeed.Proofs.Instrument.Id
import TickFeed.Proofs.Catalog.FirstRow
import TickFeed.Proofs.Catalog.Search
import TickFeed.Proofs.Catalog.Expiry
import TickFeed.Proofs.Catalog.Lines
import TickFeed.Proofs.Catalog.JsonSources
import TickFeed.Proofs.Catalog.CsvText
import TickFeed.Proofs.Catalog.CsvSource
import TickFeed.Proofs.Node.Input
import TickFeed.Proofs.Node.SymbolCounts
import TickFeed.Proofs.Node.Tally
import TickFeed.Proofs.Node.Accounting
import TickFeed.Proofs.Node.Serving
import TickFeed.Proofs.Node.Ranking
import TickFeed.Proofs.Node.CommandLine
import TickFeed.Proofs.Node.Settings
