import PropertyGraph.Cache
import PropertyGraph.Calendar.Date
import PropertyGraph.Calendar.DateTime
import PropertyGraph.Calendar.Fault
import PropertyGraph.Calendar.Iso
import PropertyGraph.CommandLine.Argument
import PropertyGraph.CommandLine.Command
import PropertyGraph.CommandLine.Run
import PropertyGraph.Document.Basic
import PropertyGraph.Document.File
import PropertyGraph.Document.Layout
import PropertyGraph.Document.Plain
import PropertyGraph.Document.Quoted
import PropertyGraph.Document.Scalar
import PropertyGraph.Document.Spot
import PropertyGraph.Document.Token
import PropertyGraph.Document.Tree
import PropertyGraph.Engine.Aggregate
import PropertyGraph.Engine.AnswerJson
import PropertyGraph.Engine.Basic
import PropertyGraph.Engine.Error
import PropertyGraph.Engine.Evaluate
import PropertyGraph.Engine.Outcome
import PropertyGraph.Engine.Settings
import PropertyGraph.Json
import PropertyGraph.Language.Draft
import PropertyGraph.Language.Entry
import PropertyGraph.Language.Error
import PropertyGraph.Language.Literal
import PropertyGraph.Language.Template
import PropertyGraph.Language.Token
import PropertyGraph.Main
import PropertyGraph.Node
import PropertyGraph.Number.Basic
import PropertyGraph.Number.Double
import PropertyGraph.Number.Numeral
import PropertyGraph.Number.Rounding
import PropertyGraph.Number.Shortest
import PropertyGraph.Number.Text
import PropertyGraph.OrderedMap
import PropertyGraph.Proofs.Cache
import PropertyGraph.Proofs.Cache.Expiry
import PropertyGraph.Proofs.Calendar.Clock
import PropertyGraph.Proofs.Calendar.Iso
import PropertyGraph.Proofs.Calendar.Reading
import PropertyGraph.Proofs.Engine.Accounting
import PropertyGraph.Proofs.Engine.Accumulation
import PropertyGraph.Proofs.Engine.Answers
import PropertyGraph.Proofs.Engine.Edge
import PropertyGraph.Proofs.Engine.Equality
import PropertyGraph.Proofs.Engine.Evaluate
import PropertyGraph.Proofs.Engine.Extreme
import PropertyGraph.Proofs.Engine.Failure
import PropertyGraph.Proofs.Engine.FirstLeast
import PropertyGraph.Proofs.Engine.Found
import PropertyGraph.Proofs.Engine.Gap
import PropertyGraph.Proofs.Engine.LeadingRow
import PropertyGraph.Proofs.Engine.Lookup
import PropertyGraph.Proofs.Engine.Outcome
import PropertyGraph.Proofs.Engine.Overflow
import PropertyGraph.Proofs.Engine.Path
import PropertyGraph.Proofs.Engine.Refusal
import PropertyGraph.Proofs.Engine.RowOrder
import PropertyGraph.Proofs.Engine.Run
import PropertyGraph.Proofs.Engine.Similarity
import PropertyGraph.Proofs.Engine.Sorting
import PropertyGraph.Proofs.Engine.Staleness
import PropertyGraph.Proofs.Engine.Statistics
import PropertyGraph.Proofs.Engine.Transparency
import PropertyGraph.Proofs.Except
import PropertyGraph.Proofs.Json
import PropertyGraph.Proofs.Language.Block
import PropertyGraph.Proofs.Language.Comma
import PropertyGraph.Proofs.Language.Conditions
import PropertyGraph.Proofs.Language.Digits
import PropertyGraph.Proofs.Language.Draft
import PropertyGraph.Proofs.Language.Entry
import PropertyGraph.Proofs.Language.Filter
import PropertyGraph.Proofs.Language.Grammar
import PropertyGraph.Proofs.Language.Label
import PropertyGraph.Proofs.Language.Layout
import PropertyGraph.Proofs.Language.Line
import PropertyGraph.Proofs.Language.Listing
import PropertyGraph.Proofs.Language.Literal
import PropertyGraph.Proofs.Language.Outline
import PropertyGraph.Proofs.Language.Reader
import PropertyGraph.Proofs.Language.Rearrangement
import PropertyGraph.Proofs.Language.Renumber
import PropertyGraph.Proofs.Language.Respelling
import PropertyGraph.Proofs.Language.Rest
import PropertyGraph.Proofs.Language.Scalar
import PropertyGraph.Proofs.Language.Slot
import PropertyGraph.Proofs.Language.Spacing
import PropertyGraph.Proofs.Language.Spelling
import PropertyGraph.Proofs.Language.Template
import PropertyGraph.Proofs.Language.Token
import PropertyGraph.Proofs.Language.Traversal
import PropertyGraph.Proofs.Language.Wrapping
import PropertyGraph.Proofs.Language.Written
import PropertyGraph.Proofs.Number.Decimal
import PropertyGraph.Proofs.Number.Difference
import PropertyGraph.Proofs.Number.Order
import PropertyGraph.Proofs.Number.Range
import PropertyGraph.Proofs.Number.Text
import PropertyGraph.Proofs.OrderedMap
import PropertyGraph.Proofs.Query.Canonical
import PropertyGraph.Proofs.Query.Comparison
import PropertyGraph.Proofs.Query.Fingerprint
import PropertyGraph.Proofs.Query.Key
import PropertyGraph.Proofs.Record.Lax
import PropertyGraph.Proofs.Record.RoundTrip
import PropertyGraph.Proofs.Record.Schema
import PropertyGraph.Proofs.RunSort.Merge
import PropertyGraph.Proofs.RunSort.MergeOrder
import PropertyGraph.Proofs.RunSort.Order
import PropertyGraph.Proofs.RunSort.Run
import PropertyGraph.Proofs.RunSort.Search
import PropertyGraph.Proofs.RunSort.Sort
import PropertyGraph.Proofs.Settings.Failure
import PropertyGraph.Proofs.Settings.Range
import PropertyGraph.Proofs.Store.Accumulation
import PropertyGraph.Proofs.Store.Count
import PropertyGraph.Proofs.Store.Depth
import PropertyGraph.Proofs.Store.Edge
import PropertyGraph.Proofs.Store.Filed
import PropertyGraph.Proofs.Store.History
import PropertyGraph.Proofs.Store.Index
import PropertyGraph.Proofs.Store.Lookup
import PropertyGraph.Proofs.Store.Occupied
import PropertyGraph.Proofs.Store.Queue
import PropertyGraph.Proofs.Store.Ranking
import PropertyGraph.Proofs.Store.Refusal
import PropertyGraph.Proofs.Store.Similarity
import PropertyGraph.Proofs.Store.Traversal
import PropertyGraph.Proofs.Text.Blank
import PropertyGraph.Proofs.Text.Case
import PropertyGraph.Proofs.Text.Digit
import PropertyGraph.Proofs.Text.Escape
import PropertyGraph.Proofs.Text.Split
import PropertyGraph.Proofs.Text.Word
import PropertyGraph.Proofs.Value.Json
import PropertyGraph.Proofs.Value.Key
import PropertyGraph.Proofs.Value.Literal
import PropertyGraph.Proofs.Value.Order
import PropertyGraph.Proofs.Value.OrderClass
import PropertyGraph.Proofs.Value.Part
import PropertyGraph.Query.Basic
import PropertyGraph.Query.Comparison
import PropertyGraph.Query.Key
import PropertyGraph.Query.Operation
import PropertyGraph.Query.Parts
import PropertyGraph.Query.Plan
import PropertyGraph.Record.Basic
import PropertyGraph.Record.Checked
import PropertyGraph.Record.Lax
import PropertyGraph.Record.Measure
import PropertyGraph.Record.Schema
import PropertyGraph.RunSort.Basic
import PropertyGraph.RunSort.Merge
import PropertyGraph.RunSort.Run
import PropertyGraph.RunSort.Search
import PropertyGraph.Store.Basic
import PropertyGraph.Store.Index
import PropertyGraph.Store.Similarity
import PropertyGraph.Store.Traversal
import PropertyGraph.Text.Blank
import PropertyGraph.Text.Case
import PropertyGraph.Text.Case.Table
import PropertyGraph.Text.Digit
import PropertyGraph.Text.Newline
import PropertyGraph.Text.Printable
import PropertyGraph.Text.Printable.Table
import PropertyGraph.Text.Quoted
import PropertyGraph.Text.Ranges
import PropertyGraph.Text.Split
import PropertyGraph.Text.Word
import PropertyGraph.Text.Word.Table
import PropertyGraph.Value.Basic
import PropertyGraph.Value.Json
import PropertyGraph.Value.Key
import PropertyGraph.Value.Order
import PropertyGraph.Value.Text
