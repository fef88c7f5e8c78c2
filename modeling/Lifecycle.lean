import Lifecycle.Draft
import Lifecycle.Main
import Lifecycle.Proofs.CommandLine.Immersion
import Lifecycle.Proofs.Comparison.Containment
import Lifecycle.Proofs.Comparison.Order
import Lifecycle.Proofs.Config
import Lifecycle.Proofs.Dispatch
import Lifecycle.Proofs.Dispatch.Bulk
import Lifecycle.Proofs.Evaluation.Flattening
import Lifecycle.Proofs.Evaluation.Readings
import Lifecycle.Proofs.Evaluation.Refusals
import Lifecycle.Proofs.Evaluation.Regrouping
import Lifecycle.Proofs.Files.Tree
import Lifecycle.Proofs.Fingerprint
import Lifecycle.Proofs.Formula.Comparands
import Lifecycle.Proofs.Formula.Grammar
import Lifecycle.Proofs.Formula.Lexing
import Lifecycle.Proofs.Formula.Literals
import Lifecycle.Proofs.Formula.Positions
import Lifecycle.Proofs.Formula.RoundTrip
import Lifecycle.Proofs.Formula.Scanning
import Lifecycle.Proofs.Formula.Spans
import Lifecycle.Proofs.Formula.Validation
import Lifecycle.Proofs.Formula.Viability
import Lifecycle.Proofs.Json.Delimited
import Lifecycle.Proofs.Json.Document
import Lifecycle.Proofs.Json.Escapes
import Lifecycle.Proofs.Json.Fields
import Lifecycle.Proofs.Json.Numbers
import Lifecycle.Proofs.Json.Reals
import Lifecycle.Proofs.Record.Action
import Lifecycle.Proofs.Record.Bounds
import Lifecycle.Proofs.Record.Facts
import Lifecycle.Proofs.Record.Graph
import Lifecycle.Proofs.Replay.Answers
import Lifecycle.Proofs.Replay.Arrival
import Lifecycle.Proofs.Replay.Batch
import Lifecycle.Proofs.Replay.Census
import Lifecycle.Proofs.Replay.Depth
import Lifecycle.Proofs.Replay.Immersion
import Lifecycle.Proofs.Replay.Isolation
import Lifecycle.Proofs.Replay.Saving
import Lifecycle.Proofs.Replay.Verification
import Lifecycle.Proofs.Sample.History
import Lifecycle.Proofs.Selection.Ordering
import Lifecycle.Proofs.Selection.Rank
import Lifecycle.Proofs.StockGraph.Classification
import Lifecycle.Proofs.StockGraph.Edges
import Lifecycle.Proofs.Store.Keyed
import Lifecycle.Proofs.Store.Reloading
import Lifecycle.Proofs.Store.RoundTrip
import Lifecycle.Proofs.Tally
import Lifecycle.Proofs.Timestamp.Calendar
import Lifecycle.Proofs.Timestamp.Clock
import Lifecycle.Proofs.Timestamp.Digits
import Lifecycle.Proofs.Timestamp.Reading
import Lifecycle.Proofs.Timestamp.RoundTrip
import Lifecycle.Scenario.Trial
