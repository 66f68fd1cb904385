import Pacing.Samples
import Pacing.Session
import Pacing.Run.Solo
import Pacing.Cli.Settings
import Pacing.Main
import Pacing.Proofs.Polling
import Pacing.Proofs.Slots
import Pacing.Proofs.Stream.Track
import Pacing.Proofs.Stream.Pacing
import Pacing.Proofs.Stream.Failures
import Pacing.Proofs.Interleaving
import Pacing.Proofs.Long.Cluster
import Pacing.Proofs.Long.Parallelism
import Pacing.Proofs.Lines
import Pacing.Proofs.Run.Output
import Pacing.Proofs.Run.Worker
import Pacing.Proofs.Run.Delivery
import Pacing.Proofs.Run.EndToEnd
import Pacing.Proofs.Run.Progress
import Pacing.Proofs.Run.Shutdown
import Pacing.Proofs.Long.Configuration
import Pacing.Proofs.Long.Saturation
import Pacing.Proofs.Long.StartTime
import Pacing.Proofs.Run.WindingDown
import Pacing.Proofs.Session
import Pacing.Proofs.Json.Grammar
import Pacing.Proofs.Json.Lexing
import Pacing.Proofs.Json.Reading
import Pacing.Proofs.Json.Limits
import Pacing.Proofs.Json.Printing
import Pacing.Proofs.Json.Recognition
import Pacing.Proofs.Config.Fields
import Pacing.Proofs.Config.Spelling
import Pacing.Proofs.Config.RoundTrip
import Pacing.Proofs.Run.Writing
import Pacing.Proofs.Records
import Pacing.Proofs.Isolation
import Pacing.Proofs.Stream.Batch
import Pacing.Proofs.Stream.Clocks
import Pacing.Proofs.Hints
import Pacing.Proofs.Backlog
import Pacing.Proofs.Config.Construction
import Pacing.Proofs.Buckets
import Pacing.Proofs.Stream.EventTimes
import Pacing.Proofs.Stream.SteadyPolling
import Pacing.Proofs.Long.Drain
import Pacing.Proofs.Throughput
import Pacing.Proofs.Long.Delay
import Pacing.Proofs.Overflow
import Pacing.Proofs.Run.Numbering
import Pacing.Proofs.Run.IdealTime
import Pacing.Proofs.Run.Starting
import Pacing.Proofs.Settings
import Pacing.Proofs.Items
import Pacing.Proofs.Replay
import Pacing.Proofs.Transport
import Pacing.Proofs.Stream.ClosedForm
import Pacing.Proofs.ClockHistory
import Pacing.Proofs.TimeOfDay
import Pacing.Proofs.Json.Parts
import Pacing.Proofs.Json.RecordTexts
import Pacing.Proofs.Wire
import Pacing.Proofs.Rounding
