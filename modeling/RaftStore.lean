import RaftStore.Types
import RaftStore.Lease
import RaftStore.Queues
import RaftStore.Collaborators
import RaftStore.Peer
import RaftStore.Inspect
import RaftStore.Propose
import RaftStore.Ready
import RaftStore.System
import RaftStore.Frame
import RaftStore.ReadQueue
import RaftStore.Callbacks
import RaftStore.ApplyPipeline
import RaftStore.Messages
import RaftStore.ConfChange
import RaftStore.CommittedEntries
import RaftStore.Policy
import RaftStore.LocalRead
import RaftStore.Liveness
import RaftStore.Operations
import RaftStore.Addressing
import RaftStore.Removal
import RaftStore.ReadContexts
import RaftStore.PdReports
import RaftStore.MergeGate
