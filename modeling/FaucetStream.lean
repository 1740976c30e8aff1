import FaucetStream.Budget.Merge
import FaucetStream.Budget.GovernedRun
import FaucetStream.Chunking.Windows
import FaucetStream.Delivery.RunToken
import FaucetStream.FileFormat.LineCap
import FaucetStream.Governance.Drift
import FaucetStream.Governance.Validation
import FaucetStream.History.Reclaim
import FaucetStream.History.Replay
import FaucetStream.Interpolate.Splice
import FaucetStream.Json.DecimalText
import FaucetStream.KeyedWrites.Ordered
import FaucetStream.KeyedWrites.Rollback
import FaucetStream.Keys.FileName
import FaucetStream.Keys.Migration
import FaucetStream.Keys.RoundTrip
import FaucetStream.Logship.Accounting
import FaucetStream.Mirror.Delivery
import FaucetStream.Mirror.HandOff
import FaucetStream.Mirror.Marker
import FaucetStream.Mirror.Pausing
import FaucetStream.OracleCdc.ExactlyOnce
import FaucetStream.OracleCdc.FoldEffect
import FaucetStream.OracleCdc.LobReassembly
import FaucetStream.OracleCdc.LogCoverage
import FaucetStream.OracleCdc.RedoDecoder
import FaucetStream.Pipeline.Accounting
import FaucetStream.Pipeline.CleanupSpares
import FaucetStream.Pipeline.DistinctKeys
import FaucetStream.Pipeline.EarlyExit
import FaucetStream.Pipeline.ModeChange
import FaucetStream.Pipeline.RowConservation
import FaucetStream.PostgresCdc.ArrayText
import FaucetStream.PostgresCdc.Coverage
import FaucetStream.PostgresCdc.Money
import FaucetStream.PostgresCdc.WireFormat
import FaucetStream.Replication.CursorResume
import FaucetStream.Replication.TotalOrder
import FaucetStream.Resilience.Execute
import FaucetStream.Rest.KeysetWalk
import FaucetStream.Rest.PaginationEnds
import FaucetStream.SealedLines.Verifier
import FaucetStream.Select.Selection
import FaucetStream.Shard.Sizes
import FaucetStream.Slicing.RenderedEnd
import FaucetStream.Verify.KeyRange
import FaucetStream.Verify.Matching
import FaucetStream.FileSink.ReplaceRun
import FaucetStream.Lease.Exclusion
import FaucetStream.Profiling.Sketch
import FaucetStream.Topology.ExactlyOnce
import FaucetStream.Topology.NestedLoop
