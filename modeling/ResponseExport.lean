import ResponseExport.Batch.Command
import ResponseExport.Disk.Usual
import ResponseExport.Http.Answer
import ResponseExport.Main
import ResponseExport.Store.Migration
import ResponseExport.Proofs.Store.Joins
import ResponseExport.Proofs.Store.Keyed
import ResponseExport.Proofs.Keyset.Order
import ResponseExport.Proofs.Keyset.Pages
import ResponseExport.Proofs.Keyset.Log
import ResponseExport.Proofs.Keyset.Walk
import ResponseExport.Proofs.Stream.Steps
import ResponseExport.Proofs.Stream.Trace
import ResponseExport.Proofs.Stream.ChangingTables
import ResponseExport.Proofs.Csv.Reader
import ResponseExport.Proofs.Csv.Records
import ResponseExport.Proofs.Csv.RoundTrip
import ResponseExport.Proofs.Csv.Writing
import ResponseExport.Proofs.Survey.Columns
import ResponseExport.Proofs.Export.Writing
import ResponseExport.Proofs.Export.Delivery
import ResponseExport.Proofs.Jobs.Lifecycle
import ResponseExport.Proofs.Queue.Steps
import ResponseExport.Proofs.Queue.Accounting
import ResponseExport.Proofs.Queue.Stopping
import ResponseExport.Proofs.Queue.Holding
import ResponseExport.Proofs.Time.ReadBack
import ResponseExport.Proofs.Jobs.Usable
import ResponseExport.Proofs.Export.TaskSteps
import ResponseExport.Proofs.System.Steps
import ResponseExport.Proofs.System.Orderly
import ResponseExport.Proofs.System.Settled
import ResponseExport.Proofs.Export.Files
import ResponseExport.Proofs.Jobs.Kept
import ResponseExport.Proofs.Scene.Attempts
import ResponseExport.Proofs.Scene.Steps
import ResponseExport.Proofs.Scene.Finished
import ResponseExport.Proofs.Text.Ascii
import ResponseExport.Proofs.Text.Trim
import ResponseExport.Proofs.Text.Sextets
import ResponseExport.Proofs.Text.Parameters
import ResponseExport.Proofs.Json.Literals
import ResponseExport.Proofs.Json.Arrays
import ResponseExport.Proofs.Http.Targets
import ResponseExport.Proofs.Survey.Tokens
import ResponseExport.Proofs.Listing.Visits
import ResponseExport.Proofs.Text.Order
import ResponseExport.Proofs.Store.Sorting
import ResponseExport.Proofs.Callers.Rows
import ResponseExport.Proofs.Callers.Isolation
import ResponseExport.Proofs.Scene.Reading
import ResponseExport.Proofs.System.Filed
import ResponseExport.Proofs.System.Unchanged
import ResponseExport.Proofs.Http.ExportFiles
import ResponseExport.Proofs.Http.SurveyParameter
import ResponseExport.Proofs.Stream.Partition
import ResponseExport.Proofs.Stream.Spans
import ResponseExport.Proofs.Stream.ReadAhead
import ResponseExport.Proofs.Stream.AnySource
import ResponseExport.Proofs.Settings.Accepted
import ResponseExport.Csv.LineWriter
import ResponseExport.Proofs.Stream.Cancellation
import ResponseExport.Proofs.Csv.LineWriter
import ResponseExport.Proofs.Csv.Calls
import ResponseExport.Proofs.Csv.Faults
import ResponseExport.Proofs.Http.Downloads
import ResponseExport.Proofs.Jobs.Frame
import ResponseExport.Proofs.Export.FileNames
import ResponseExport.Proofs.Export.Finishing
import ResponseExport.Proofs.Time.Dates
import ResponseExport.Proofs.Time.Order
import ResponseExport.Proofs.Jobs.Feed
import ResponseExport.Proofs.Store.Versions
import ResponseExport.Proofs.Http.FormData
import ResponseExport.Proofs.Json.Values
import ResponseExport.Proofs.Json.Spelling
import ResponseExport.Proofs.Json.Written
import ResponseExport.Proofs.Json.Embedding
import ResponseExport.Proofs.Json.Meaning
import ResponseExport.Proofs.Survey.Cells
import ResponseExport.Proofs.Batch.CommandLines
import ResponseExport.Proofs.Settings.Grammar
import ResponseExport.Proofs.Csv.Flushing
import ResponseExport.Proofs.Json.Contents
import ResponseExport.Proofs.Text.Canonical
import ResponseExport.Proofs.Json.TextArrays
import ResponseExport.Proofs.Survey.Acceptance
import ResponseExport.Proofs.Time.Relaxed
import ResponseExport.Proofs.Json.Records
import ResponseExport.Proofs.Survey.Wire
import ResponseExport.Proofs.Export.Wire
import ResponseExport.Proofs.Decimal.Rounding
import ResponseExport.Proofs.Decimal.Shortest
import ResponseExport.Proofs.Decimal.Text
import ResponseExport.Proofs.Survey.Leaves
