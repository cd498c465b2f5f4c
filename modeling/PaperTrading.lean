import PaperTrading.CommandLine.Arguments
import PaperTrading.CommandLine.Files
import PaperTrading.CommandLine.LogLevel
import PaperTrading.CommandLine.Program
import PaperTrading.Condition.Pattern
import PaperTrading.Condition.Rule
import PaperTrading.Condition.Source
import PaperTrading.Config.Basic
import PaperTrading.Config.EnvFile
import PaperTrading.Desk.Operations
import PaperTrading.Desk.Store
import PaperTrading.Failure
import PaperTrading.Http.Document
import PaperTrading.Http.Path
import PaperTrading.Http.Rendering
import PaperTrading.Http.Service
import PaperTrading.Indicator.Series
import PaperTrading.Indicator.Study
import PaperTrading.Json.Encoding
import PaperTrading.Json.Printer
import PaperTrading.Json.Reader
import PaperTrading.Json.Token
import PaperTrading.Main
import PaperTrading.Market.Fetch
import PaperTrading.Market.Quote
import PaperTrading.Number.Arith
import PaperTrading.Number.Binary64
import PaperTrading.Number.Decimal
import PaperTrading.Number.Double
import PaperTrading.Number.Exact
import PaperTrading.Number.Layout
import PaperTrading.Number.Numeral
import PaperTrading.Proofs.Desk.Finality
import PaperTrading.Proofs.Desk.Funding
import PaperTrading.Proofs.Desk.History
import PaperTrading.Proofs.Desk.Listing
import PaperTrading.Proofs.Desk.Opening
import PaperTrading.Proofs.Desk.Ownership
import PaperTrading.Proofs.Desk.Race
import PaperTrading.Proofs.Desk.Refresh
import PaperTrading.Proofs.Desk.Registry
import PaperTrading.Proofs.Http.Addressability
import PaperTrading.Proofs.Http.Addresses
import PaperTrading.Proofs.Http.Answers
import PaperTrading.Proofs.Http.Creation
import PaperTrading.Proofs.Http.Isolation
import PaperTrading.Proofs.Http.Operations
import PaperTrading.Proofs.Http.Statuses
import PaperTrading.Proofs.Indicator.Demand
import PaperTrading.Proofs.Indicator.Existence
import PaperTrading.Proofs.Indicator.Growth
import PaperTrading.Proofs.Indicator.Ranges
import PaperTrading.Proofs.Indicator.Units
import PaperTrading.Proofs.Ledger.AverageCost
import PaperTrading.Proofs.Ledger.Book
import PaperTrading.Proofs.Ledger.Conservation
import PaperTrading.Proofs.Ledger.Deals
import PaperTrading.Proofs.Ledger.Figures
import PaperTrading.Proofs.Ledger.Holdings
import PaperTrading.Proofs.Ledger.Positions
import PaperTrading.Proofs.Ledger.Prices
import PaperTrading.Proofs.Ledger.Solvency
import PaperTrading.Proofs.Market.Collection
import PaperTrading.Proofs.Number.Fraction
import PaperTrading.Proofs.Number.Nearest
import PaperTrading.Proofs.Number.Packing
import PaperTrading.Proofs.Number.Sign
import PaperTrading.Proofs.Replay.Causality
import PaperTrading.Proofs.Replay.Closing
import PaperTrading.Proofs.Replay.Course
import PaperTrading.Proofs.Replay.Drawdown
import PaperTrading.Proofs.Replay.Reconciliation
import PaperTrading.Proofs.Session.Atomicity
import PaperTrading.Proofs.Session.Batch
import PaperTrading.Proofs.Session.Change
import PaperTrading.Proofs.Session.Escape
import PaperTrading.Proofs.Session.Evolution
import PaperTrading.Proofs.Session.Percentage
import PaperTrading.Proofs.Session.Quantity
import PaperTrading.Proofs.Session.Quiet
import PaperTrading.Proofs.Session.Reporting
import PaperTrading.Proofs.Session.Sizing
import PaperTrading.Proofs.Session.Tightness
import PaperTrading.Proofs.Sorting
import PaperTrading.Proofs.Strategy.Addressing
import PaperTrading.Proofs.Strategy.Breakout
import PaperTrading.Proofs.Strategy.Crossing
import PaperTrading.Proofs.Strategy.Dispatch
import PaperTrading.Proofs.Strategy.Faults
import PaperTrading.Proofs.Strategy.Naming
import PaperTrading.Proofs.Strategy.NormalForm
import PaperTrading.Proofs.Strategy.Validation
import PaperTrading.Proofs.Text.Digits
import PaperTrading.Proofs.Text.Utf8
import PaperTrading.Proofs.Value.Equality
import PaperTrading.Proofs.Value.Proper
import PaperTrading.Replay.Run
import PaperTrading.Replay.Statistics
import PaperTrading.Session.Basic
import PaperTrading.Session.Creation
import PaperTrading.Session.Cycle
import PaperTrading.Session.Execution
import PaperTrading.Session.Options
import PaperTrading.Session.Sizing
import PaperTrading.Signal
import PaperTrading.Strategy.Document
import PaperTrading.Strategy.File
import PaperTrading.Strategy.Run
import PaperTrading.Table
import PaperTrading.Text.Blank
import PaperTrading.Text.Case
import PaperTrading.Text.Printable
import PaperTrading.Text.Quoted
import PaperTrading.Text.Surrogate
import PaperTrading.Text.Utf8
import PaperTrading.Time
import PaperTrading.Value.Basic
import PaperTrading.Value.Display
import PaperTrading.Value.Reading
import PaperTrading.Vocabulary
