import LogQuery.Flow.Health
import LogQuery.Flow.Levels
import LogQuery.Flow.Logs
import LogQuery.Json.Printer
import LogQuery.Session.Iterate
import LogQuery.Proofs.Aggregation.Displacement
import LogQuery.Proofs.Aggregation.Documents
import LogQuery.Proofs.Aggregation.HiddenBuckets
import LogQuery.Proofs.Aggregation.Values
import LogQuery.Proofs.Flow.Folder
import LogQuery.Proofs.Flow.Window
import LogQuery.Proofs.Query.Edits
import LogQuery.Proofs.Query.Negation
import LogQuery.Proofs.Query.Nesting
import LogQuery.Proofs.Query.Quoted
import LogQuery.Proofs.Query.Table
import LogQuery.Proofs.Session.Exchanges
import LogQuery.Proofs.Session.History
import LogQuery.Proofs.Session.Hits
import LogQuery.Proofs.Session.Release
import LogQuery.Proofs.Session.Shaping
import LogQuery.Proofs.Aggregation.Written
import LogQuery.Proofs.Aggregation.TreeKeys
import LogQuery.Proofs.Session.Grouping
import LogQuery.Proofs.Flow.Preview
import LogQuery.Proofs.Flow.Report
import LogQuery.Proofs.Session.Rejection
import LogQuery.Proofs.Query.Everything
import LogQuery.Proofs.Query.Blocks
import LogQuery.Proofs.Query.FieldTables
import LogQuery.Proofs.Query.Decoding
import LogQuery.Proofs.Query.Addresses
import LogQuery.Proofs.Token.RangeParts
import LogQuery.Proofs.Number.Place
import LogQuery.Proofs.Text.Halving
import LogQuery.Proofs.Token.Escape
import LogQuery.Proofs.Token.Order
import LogQuery.Proofs.Query.Order
import LogQuery.Proofs.Net.Canonical
import LogQuery.Proofs.Net.Block
import LogQuery.Proofs.Token.BlockBounds
import LogQuery.Proofs.File.Records
import LogQuery.Proofs.File.LineOrder
import LogQuery.Proofs.File.Faults
import LogQuery.Proofs.File.Places
import LogQuery.Proofs.Aggregation.Rearranged
import LogQuery.Proofs.Aggregation.OrderNames
import LogQuery.Proofs.Aggregation.Readable
import LogQuery.Proofs.Flow.ReportedRows
import LogQuery.Proofs.Index.Fields
import LogQuery.Proofs.Aggregation.Wrapping
import LogQuery.Proofs.Session.Directions
import LogQuery.Proofs.Index.Patterns
import LogQuery.Proofs.Session.Lifetimes
