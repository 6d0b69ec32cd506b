import Tinkerfin.Messaging.Cleanup
import Tinkerfin.Messaging.Follow
import Tinkerfin.Messaging.Ownership
import Tinkerfin.Messaging.Settlement
import Tinkerfin.Messaging.Reads
import Tinkerfin.Messaging.Sequence
import Tinkerfin.Messaging.Expiry
import Tinkerfin.Messaging.CommittedLog
import Tinkerfin.Messaging.MemoryRefinement
import Tinkerfin.Automation.Cancellation
import Tinkerfin.Automation.ClaimFencing
import Tinkerfin.Automation.Occurrences
import Tinkerfin.Automation.Slots
import Tinkerfin.Automation.Starts
import Tinkerfin.Automation.Interleaving
import Tinkerfin.Tracing.Fencing
import Tinkerfin.Tracing.Lineage
import Tinkerfin.Tracing.Permanence
import Tinkerfin.Agui.PatchPlaces
import Tinkerfin.Checkpoint.ToolReview
import Tinkerfin.Checkpoint.ResumeWrites
import Tinkerfin.Redis.LeaseExclusion
import Tinkerfin.Plan.WorkflowSafety
import Tinkerfin.Checkpoint.NamespaceIsolation
import Tinkerfin.Plan.HandoffSafety
import Tinkerfin.Run.OwnerSettlement
import Tinkerfin.Messaging.RetryIdentity
import Tinkerfin.Sandbox.OutageEvents
import Tinkerfin.Sandbox.HandleRuns
import Tinkerfin.Automation.MisfireAccounting
import Tinkerfin.Automation.WakeupProgress
import Tinkerfin.Sandbox.OffloadReports
import Tinkerfin.Sandbox.GrepWalk
import Tinkerfin.Sandbox.ReadPages
import Tinkerfin.Agui.StateDelta
import Tinkerfin.Tracing.RedactPaths
import Tinkerfin.Agui.MicroBatch
import Tinkerfin.Agui.HitlExactness
import Tinkerfin.Tracing.EventPages
import Tinkerfin.Tracing.GraphDelta
import Tinkerfin.Run.CoordinationSafety
import Tinkerfin.Agui.ScopedIds
import Tinkerfin.Sandbox.Exclusivity
import Tinkerfin.Tracing.EventSize
import Tinkerfin.Agui.InterruptSources
import Tinkerfin.Run.Sse
import Tinkerfin.Run.OwnedJoins
