import Rollup.Analysis
import Rollup.Cli.Command
import Rollup.Cli.Directory
import Rollup.Cli.Flags
import Rollup.Cli.Task
import Rollup.Decimal.Binary64
import Rollup.Decimal.Digits
import Rollup.Decimal.Fixed
import Rollup.Decimal.Numeral
import Rollup.Decimal.Shortest
import Rollup.Filter.Compile
import Rollup.Filter.Expression
import Rollup.Filter.Interchange
import Rollup.Filter.Parser
import Rollup.Filter.Scan
import Rollup.Group.Grouping
import Rollup.Group.Interchange
import Rollup.Group.Key
import Rollup.Group.Operation
import Rollup.Group.Plan
import Rollup.Group.Ranking
import Rollup.Group.Totals
import Rollup.Json.Node
import Rollup.Json.Shape
import Rollup.Json.Value
import Rollup.Main
import Rollup.Named
import Rollup.Proofs.Cli.Aggregations
import Rollup.Proofs.Cli.Effects
import Rollup.Proofs.Cli.Layers
import Rollup.Proofs.Cli.Placement
import Rollup.Proofs.Decimal.Addition
import Rollup.Proofs.Decimal.Comparison
import Rollup.Proofs.Decimal.Definite
import Rollup.Proofs.Decimal.Digits
import Rollup.Proofs.Decimal.Height
import Rollup.Proofs.Filter.Clauses
import Rollup.Proofs.Filter.Columns
import Rollup.Proofs.Filter.Composition
import Rollup.Proofs.Filter.Consistency
import Rollup.Proofs.Filter.Equality
import Rollup.Proofs.Filter.Grammar
import Rollup.Proofs.Filter.Numbers
import Rollup.Proofs.Filter.Phrases
import Rollup.Proofs.Filter.Positions
import Rollup.Proofs.Filter.Tokens
import Rollup.Proofs.Group.Dictionary
import Rollup.Proofs.Group.Finalization
import Rollup.Proofs.Group.Folding
import Rollup.Proofs.Group.Forms
import Rollup.Proofs.Group.Lists
import Rollup.Proofs.Group.Names
import Rollup.Proofs.Group.Numeric
import Rollup.Proofs.Group.Order
import Rollup.Proofs.Group.Partition
import Rollup.Proofs.Group.Precedence
import Rollup.Proofs.Group.Rearrangement
import Rollup.Proofs.Group.Reductions
import Rollup.Proofs.Group.Requests
import Rollup.Proofs.Group.Selection
import Rollup.Proofs.Group.Slots
import Rollup.Proofs.Json.Codec
import Rollup.Proofs.Json.Numbers
import Rollup.Proofs.Json.Quoted
import Rollup.Proofs.Json.Reading
import Rollup.Proofs.Json.RoundTrip
import Rollup.Proofs.Json.Shapes
import Rollup.Proofs.Report.Objects
import Rollup.Proofs.Run.Accounting
import Rollup.Proofs.Run.Arrival
import Rollup.Proofs.Run.Failure
import Rollup.Proofs.Run.Headerless
import Rollup.Proofs.Run.Independence
import Rollup.Proofs.Run.Insertion
import Rollup.Proofs.Run.Outline
import Rollup.Proofs.Run.Restriction
import Rollup.Proofs.Run.Validation
import Rollup.Proofs.Table.Agreement
import Rollup.Proofs.Table.Arrival
import Rollup.Proofs.Table.Bookkeeping
import Rollup.Proofs.Table.Boundary
import Rollup.Proofs.Table.Conservation
import Rollup.Proofs.Table.Decoding
import Rollup.Proofs.Table.Draining
import Rollup.Proofs.Table.Enclosure
import Rollup.Proofs.Table.Events
import Rollup.Proofs.Table.Grammar
import Rollup.Proofs.Table.Lines
import Rollup.Proofs.Table.Lookup
import Rollup.Proofs.Table.Margins
import Rollup.Proofs.Table.Outcomes
import Rollup.Proofs.Table.Quoting
import Rollup.Proofs.Table.Reading
import Rollup.Proofs.Table.Records
import Rollup.Proofs.Table.Resynchronisation
import Rollup.Proofs.Table.RoundTrip
import Rollup.Proofs.Table.Scan
import Rollup.Proofs.Table.Splitting
import Rollup.Proofs.Table.Steps
import Rollup.Proofs.Table.Supply
import Rollup.Proofs.Table.Writing
import Rollup.Proofs.Text.Collation
import Rollup.Proofs.Text.Spans
import Rollup.Proofs.Text.Trimming
import Rollup.Report.Summary
import Rollup.Report.Text
import Rollup.Settings.Basic
import Rollup.Settings.File
import Rollup.Settings.Interchange
import Rollup.Table.Fields
import Rollup.Table.Header
import Rollup.Table.Record
import Rollup.Table.Rows
import Rollup.Table.Source
import Rollup.Text.Blank
import Rollup.Text.Encoding
import Rollup.Text.Pieces
import Rollup.Text.Utf8
import Rollup.Toml.Document
import Rollup.Toml.Quoted
import Rollup.Toml.Scalar
import Rollup.Toml.Table
