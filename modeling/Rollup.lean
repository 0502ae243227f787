import Rollup.Batch.Basic
import Rollup.Batch.Plan
import Rollup.Bytes
import Rollup.Decimal.Layout
import Rollup.Decimal.Shortest
import Rollup.Fault
import Rollup.Format.Csv
import Rollup.Format.Encode
import Rollup.Format.Json
import Rollup.Format.Name
import Rollup.Format.Pickle.Encode
import Rollup.Format.Pickle.Frame
import Rollup.Format.Pickle.Opcode
import Rollup.Format.Protobuf.Encode
import Rollup.Format.Protobuf.Schema
import Rollup.Format.Protobuf.Wire
import Rollup.Format.Raw
import Rollup.Groups
import Rollup.Metric
import Rollup.Operation
import Rollup.Proofs.Batch.Arrangement
import Rollup.Proofs.Batch.Budget
import Rollup.Proofs.Batch.Factor
import Rollup.Proofs.Batch.Isolation
import Rollup.Proofs.Batch.Monotone
import Rollup.Proofs.Batch.Plan
import Rollup.Proofs.Batch.Rejection
import Rollup.Proofs.Batch.Repeat
import Rollup.Proofs.Batch.Reports
import Rollup.Proofs.Batch.Tags
import Rollup.Proofs.Bytes
import Rollup.Proofs.Csv.Reader
import Rollup.Proofs.Decimal.Balanced
import Rollup.Proofs.Decimal.Interval
import Rollup.Proofs.Decimal.Minimal
import Rollup.Proofs.Decimal.Numeral
import Rollup.Proofs.Decimal.ReadBack
import Rollup.Proofs.Format.Csv
import Rollup.Proofs.Format.Faults
import Rollup.Proofs.Format.Json
import Rollup.Proofs.Format.Pickle
import Rollup.Proofs.Format.Protobuf
import Rollup.Proofs.Format.Raw
import Rollup.Proofs.Format.Samples
import Rollup.Proofs.Groups
import Rollup.Proofs.Json.Denotes
import Rollup.Proofs.Json.Reader
import Rollup.Proofs.Metric.Descent
import Rollup.Proofs.Metric.Tagged
import Rollup.Proofs.Pickle.Blocks
import Rollup.Proofs.Pickle.Filling
import Rollup.Proofs.Pickle.Machine
import Rollup.Proofs.Pickle.Objects
import Rollup.Proofs.Pickle.Reader
import Rollup.Proofs.Pickle.Writing
import Rollup.Proofs.Protobuf.Reader
import Rollup.Proofs.Reduce.Mean
import Rollup.Proofs.Reduce.Order
import Rollup.Proofs.Reduce.Selection
import Rollup.Proofs.Reduce.Totals
import Rollup.Proofs.Sample.Order
import Rollup.Proofs.Sample.Rounding
import Rollup.Proofs.Sample.Text
import Rollup.Proofs.Sample.Whole
import Rollup.Proofs.Sample.Words
import Rollup.Proofs.Series.Coherence
import Rollup.Proofs.Series.Failure
import Rollup.Proofs.Series.Regrouped
import Rollup.Proofs.Series.Step
import Rollup.Proofs.Series.Times
import Rollup.Proofs.Sorting
import Rollup.Proofs.Store.Evolution
import Rollup.Proofs.Store.Frame
import Rollup.Proofs.Store.Remembered
import Rollup.Proofs.Store.Resolution
import Rollup.Proofs.Store.Snapshot
import Rollup.Proofs.Store.Soundness
import Rollup.Proofs.Store.Views
import Rollup.Proofs.Store.Walk
import Rollup.Proofs.Tags
import Rollup.Proofs.Text.Reading
import Rollup.Proofs.Time.Gregorian
import Rollup.Proofs.Time.Instants
import Rollup.Proofs.Time.Reading
import Rollup.Reduce.Registry
import Rollup.Reduce.Statistic
import Rollup.Reduce.Summation
import Rollup.Runtime
import Rollup.Sample.Arithmetic
import Rollup.Sample.Basic
import Rollup.Sample.Rounding
import Rollup.Sample.Text
import Rollup.Series.Basic
import Rollup.Series.View
import Rollup.Tags
import Rollup.Text.Basic
import Rollup.Text.Casing
import Rollup.Text.Literal
import Rollup.Text.Lowercase
import Rollup.Text.Unprintable
import Rollup.Time.Calendar
import Rollup.Time.Label
import Rollup.Time.Zone
