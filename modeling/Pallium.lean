import Pallium.Rebuild.Coverage
import Pallium.Queue.ScopeLeases
import Pallium.Queue.PackageFencing
import Pallium.Ingest.Completeness
import Pallium.Memory.FactRuns
import Pallium.Memory.NearDuplicate
import Pallium.Memory.AllOrNothing
import Pallium.Memory.MergeHistory
import Pallium.Vector.Reconcile
import Pallium.Vector.RebuildResume
import Pallium.Relay.Fencing
import Pallium.Relay.Conversations
import Pallium.Relay.RepairLedger
import Pallium.Relay.Aliases
import Pallium.ClaudeWake.Reservations
import Pallium.ClaudeWake.Reload
import Pallium.Queue.Progress
import Pallium.CodexWake.Agreement
import Pallium.CodexWake.Closure
import Pallium.CodexWake.Trial
import Pallium.CodexWake.Eligibility
import Pallium.Ingest.Coverage
import Pallium.Retention.Runs
import Pallium.Purge.Drift
import Pallium.Purge.Reversal
import Pallium.Search.Concurrent
import Pallium.Relay.Replay
import Pallium.Relay.NativeProgress
import Pallium.Snapshot.Worker
import Pallium.Snapshot.Histories
import Pallium.Bridge.Pipe
import Pallium.Vector.Identity
import Pallium.Relay.TurnBudgets
import Pallium.Workstreams.Isolation
import Pallium.Workstreams.Reruns
import Pallium.Workstreams.Totality
import Pallium.Memory.Guidance
import Pallium.Expansion.Neighborhood
import Pallium.Consolidation.Groups
import Pallium.Routing.AnchorTiers
import Pallium.Search.VectorBatches
import Pallium.Search.SourceOnly
import Pallium.Search.Fusion
import Pallium.Knowledge.FactDedup
import Pallium.Integration.AgentsBlock
import Pallium.Queue.TaskLeases
