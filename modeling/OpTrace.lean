import OpTrace.Span
import OpTrace.Decimal.Text
import OpTrace.Json.Printer
import OpTrace.Event.Record
import OpTrace.Interval
import OpTrace.Store.Pattern
import OpTrace.Store.Expression
import OpTrace.Store.Window
import OpTrace.Text.Utf8
import OpTrace.Store.Trace
import OpTrace.Store.Database
import OpTrace.Category.Table
import OpTrace.Breakdown.Basic
import OpTrace.CallTree.Build
import OpTrace.Histogram.Extract
import OpTrace.Report.Document
import OpTrace.Report.Csv
import OpTrace.Report.Dot
import OpTrace.Report.Chart
import OpTrace.Report.Text
import OpTrace.Category.File
import OpTrace.CommandLine.Reader
import OpTrace.CommandLine.Directory
import OpTrace.Main
import OpTrace.Proofs.CallTree.Members
import OpTrace.Proofs.Histogram.Batch
import OpTrace.Proofs.Histogram.Reference
import OpTrace.Proofs.Breakdown.Descent
import OpTrace.Proofs.Breakdown.Coverage
import OpTrace.Proofs.Breakdown.Decision
import OpTrace.Proofs.Breakdown.Sums
import OpTrace.Proofs.CallTree.Clearance
import OpTrace.Proofs.CallTree.Bounded
import OpTrace.Proofs.CallTree.Skips
import OpTrace.Proofs.CallTree.Children
import OpTrace.Proofs.Store.Alike
import OpTrace.Proofs.Breakdown.Order
import OpTrace.Proofs.Breakdown.Naming
import OpTrace.Proofs.Interval
import OpTrace.Proofs.Store.Like
import OpTrace.Proofs.Breakdown.Subtree
import OpTrace.Proofs.Breakdown.Independence
import OpTrace.Proofs.Store.Arrival
import OpTrace.Proofs.Store.Precedence
import OpTrace.Proofs.Histogram.Selection
import OpTrace.Proofs.Histogram.Sorting
import OpTrace.Proofs.Decimal.Normal
import OpTrace.Proofs.Histogram.Percentile
import OpTrace.Proofs.Decimal.Rounding
import OpTrace.Proofs.Histogram.Summary
import OpTrace.Proofs.Category.Table
import OpTrace.Proofs.Report.Outline
import OpTrace.Proofs.Report.Csv
import OpTrace.Proofs.Json.Value
import OpTrace.Proofs.Report.Document
import OpTrace.Proofs.CallTree.Attaching
import OpTrace.Proofs.Event.Marker
import OpTrace.Proofs.Text.Brackets
import OpTrace.Proofs.Text.Markup
import OpTrace.Proofs.Text.Entity
import OpTrace.Proofs.Text.Number
import OpTrace.Proofs.Report.Chart
import OpTrace.Proofs.Report.Dot
