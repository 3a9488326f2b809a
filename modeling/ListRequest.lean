import ListRequest.Decimal.Notation
import ListRequest.Decimal.Shortest
import ListRequest.Field.Node
import ListRequest.Field.Scan
import ListRequest.Field.Symbol
import ListRequest.Field.Trace
import ListRequest.FilterValue
import ListRequest.Json.Basic
import ListRequest.Json.Event
import ListRequest.Json.Number
import ListRequest.Json.Quoted
import ListRequest.Json.Scalar
import ListRequest.Json.Token
import ListRequest.Json.Value
import ListRequest.Json.Writer
import ListRequest.Main
import ListRequest.Parameters.File
import ListRequest.Parameters.Reader
import ListRequest.Proofs.Field.Acceptance
import ListRequest.Proofs.Field.Content
import ListRequest.Proofs.Field.Grammar
import ListRequest.Proofs.Field.Comma
import ListRequest.Proofs.Field.Offset
import ListRequest.Proofs.Field.Rendering
import ListRequest.Proofs.Field.Spelling
import ListRequest.Proofs.Field.Symbol
import ListRequest.Proofs.Field.Take
import ListRequest.Proofs.Field.Token
import ListRequest.Request.Basic
import ListRequest.Request.Log
import ListRequest.Request.Raw
import ListRequest.Session
import ListRequest.SortKey
import ListRequest.Text.Cluster.Class
import ListRequest.Text.Cluster.Split
import ListRequest.Text.Cluster.Table
import ListRequest.Text.Correction
import ListRequest.Text.Basic
import ListRequest.Proofs.Field.Diagnosis
import ListRequest.Proofs.Field.Runs
import ListRequest.Proofs.Field.Continuation
import ListRequest.Proofs.Field.Stack
import ListRequest.Proofs.Field.Placed
import ListRequest.Proofs.Field.Events
import ListRequest.Proofs.Request.Line
import ListRequest.Proofs.Request.Log
import ListRequest.Proofs.SortEntry
import ListRequest.Proofs.SortKey
import ListRequest.Proofs.SortOrder
import ListRequest.Proofs.FilterValue
import ListRequest.Proofs.Request.Canonical
import ListRequest.Proofs.Request.Filters
import ListRequest.Proofs.Request.Outcome
import ListRequest.Proofs.Request.Printed
import ListRequest.Proofs.Request.Agreement
import ListRequest.Proofs.Field.Composition
import ListRequest.Proofs.Text.Correction
import ListRequest.Proofs.Session
import ListRequest.Proofs.Json.Grammar
import ListRequest.Proofs.Json.Spelling
import ListRequest.Proofs.Json.Reading
import ListRequest.Proofs.Parameters.Reading
