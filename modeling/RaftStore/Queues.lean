import RaftStore.Types

/-!
# RaftStore.Queues

The small records of `peer.go` that the peer keeps between ready cycles (lines 52–248):

* `ProposalContext` — the one-byte bitset the peer attaches to each proposal
  (`SYNC_LOG`, `SPLIT`, `PREPARE_MERGE`), with its byte encoding;
* `ProposalQueue` — the metas of in-flight proposals, popped by term;
* `ReadIndexQueue` — the read-index requests awaiting or holding a confirmation, with the
  counter `readyCnt` of those the consensus library has already confirmed;
* `RecentAddedPeer` — the time window in which a leader transfer to a new peer is refused.

Each operation is a pure function of the record; the few that complete callbacks return the
completions they make, in order, for the peer to record.
-/

set_option autoImplicit false

namespace RaftStore

/-! ## Proposal contexts -/

/-- `ProposalContext`: a byte of flags. -/
abbrev ProposalContext := UInt8

/-- `ProposalContextSyncLog`. -/
def proposalContextSyncLog : ProposalContext := 1

/-- `ProposalContextSplit`. -/
def proposalContextSplit : ProposalContext := (1 : UInt8) <<< 1

/-- `ProposalContextPrepareMerge`. -/
def proposalContextPrepareMerge : ProposalContext := (1 : UInt8) <<< 2

/-- `ProposalContext.ToBytes`. -/
def ProposalContext.toBytes (c : ProposalContext) : List UInt8 := [c]

/-- `NewProposalContextFromBytes`: no context for no bytes, the byte itself for one byte, and a
panic for more. -/
def newProposalContextFromBytes (ctx : List UInt8) : Except String (Option ProposalContext) :=
  match ctx with
  | [] => .ok none
  | [b] => .ok (some b)
  | _ => .error "Invalid ProposalContext"

/-- `ProposalContext.contains`. -/
def ProposalContext.contains (c flag : ProposalContext) : Bool := c &&& flag != 0

/-- `ProposalContext.insert`. -/
def ProposalContext.insert (c flag : ProposalContext) : ProposalContext := c ||| flag

/-- **Round trip**: a context's bytes decode back to the context. -/
@[simp] theorem newProposalContextFromBytes_toBytes (c : ProposalContext) :
    newProposalContextFromBytes c.toBytes = .ok (some c) := rfl

/-- The zero context holds no flag. -/
@[simp] theorem contains_zero (flag : ProposalContext) :
    ProposalContext.contains 0 flag = false := by
  have h : (0 : UInt8) &&& flag = 0 := by
    apply UInt8.eq_of_val_eq; apply Fin.ext
    simp only [HAnd.hAnd, AndOp.and, UInt8.land, Fin.land]
    exact Nat.zero_and _
  simp [ProposalContext.contains, h]

/-! ## The proposal queue -/

/-- `ProposalMeta`: the index and term a proposal got, and the time to renew the lease from
once it commits. -/
structure ProposalMeta where
  index : Nat
  term : Nat
  renewLeaseTime : Option Time
  deriving DecidableEq, Repr

/-- `ProposalQueue`. -/
structure ProposalQueue where
  queue : List ProposalMeta
  deriving DecidableEq, Repr

namespace ProposalQueue

/-- `ProposalQueue.PopFront(term)`: the head, unless it belongs to a later term. -/
def popFront (q : ProposalQueue) (term : Nat) : Option ProposalMeta × ProposalQueue :=
  match q.queue with
  | [] => (none, q)
  | m :: rest => if m.term > term then (none, q) else (some m, ⟨rest⟩)

/-- `ProposalQueue.Push`. -/
def push (q : ProposalQueue) (meta : ProposalMeta) : ProposalQueue := ⟨q.queue ++ [meta]⟩

/-- `ProposalQueue.Clear`. -/
def clear (_ : ProposalQueue) : ProposalQueue := ⟨[]⟩

/-- The loop of `Peer.findProposeTime(index, term)` over the queue's metas: pop heads of terms
up to `term` until one has exactly this index and term, and return its renew time. -/
def findIn (index term : Nat) : List ProposalMeta → Option Time × List ProposalMeta
  | [] => (none, [])
  | m :: rest =>
    if m.term > term then (none, m :: rest)
    else if m.index = index ∧ m.term = term then (m.renewLeaseTime, rest)
    else findIn index term rest

/-- `Peer.findProposeTime(index, term)`, on the queue it pops. -/
def findProposeTime (q : ProposalQueue) (index term : Nat) : Option Time × ProposalQueue :=
  let r := findIn index term q.queue
  (r.1, ⟨r.2⟩)

/-- `findProposeTime` is the source's loop: pop with `PopFront(term)`, stop on an empty pop, return
a matching meta's time, and go on otherwise. -/
theorem findProposeTime_eq (q : ProposalQueue) (index term : Nat) :
    q.findProposeTime index term =
      match q.popFront term with
      | (none, q') => (none, q')
      | (some m, q') =>
        if m.index = index ∧ m.term = term then (m.renewLeaseTime, q')
        else q'.findProposeTime index term := by
  obtain ⟨_ | ⟨m, rest⟩⟩ := q
  · rfl
  · by_cases h1 : m.term > term
    · simp [findProposeTime, popFront, findIn, h1]
    · by_cases h2 : m.index = index ∧ m.term = term <;>
        simp [findProposeTime, popFront, findIn, h1, h2]

end ProposalQueue

/-! ## The read-index queue -/

/-- `ReqCbPair`: a read command and the callback waiting for its answer. -/
structure ReqCbPair where
  req : RaftCmdRequest
  cb : Callback
  deriving DecidableEq, Repr

/-- `ReadIndexRequest`: one read-index round and the commands answered by it. -/
structure ReadIndexRequest where
  id : Nat
  cmds : List ReqCbPair
  renewLeaseTime : Option Time
  deriving DecidableEq, Repr

/-- `binary.BigEndian.PutUint64`: the eight bytes of `v`, most significant first. -/
def putUint64BE (v : Nat) : List UInt8 :=
  (List.range 8).reverse.map fun i => UInt8.ofNat (v / Nat.pow 256 i)

/-- `ReadIndexRequest.binaryID`: the context the request is known by to the consensus
library. -/
def ReadIndexRequest.binaryID (r : ReadIndexRequest) : List UInt8 := putUint64BE r.id

/-- `ReadIndexQueue`: `reads` in issue order; the first `readyCnt` of them are confirmed by the
consensus library and wait to be answered. -/
structure ReadIndexQueue where
  idAllocator : Nat
  reads : List ReadIndexRequest
  readyCnt : Nat
  deriving DecidableEq, Repr

/-- `NotifyStaleReq(term, cb)` for each command of a request. -/
def notifyStale (term : Nat) (r : ReadIndexRequest) : List (Callback × RaftCmdResponse) :=
  r.cmds.map fun p => (p.cb, errRespStaleCommand term)

/-- `NotifyReqRegionRemoved(regionID, cb)` for each command of a request. -/
def notifyRegionRemoved (regionId : Nat) (r : ReadIndexRequest) :
    List (Callback × RaftCmdResponse) :=
  r.cmds.map fun p => (p.cb, errResp (.regionNotFound regionId))

namespace ReadIndexQueue

/-- `ReadIndexQueue.PopFront()`. -/
def popFront (q : ReadIndexQueue) : Option ReadIndexRequest × ReadIndexQueue :=
  match q.reads with
  | [] => (none, q)
  | r :: rest => (some r, { q with reads := rest })

/-- `ReadIndexQueue.NextID()`. -/
def nextID (q : ReadIndexQueue) : Nat × ReadIndexQueue :=
  (q.idAllocator + 1, { q with idAllocator := q.idAllocator + 1 })

/-- `ReadIndexQueue.ClearUncommitted(term)`: keep the confirmed prefix, and answer every command
of the rest as stale. Slicing at `readyCnt` panics past the end of `reads`. -/
def clearUncommitted (q : ReadIndexQueue) (term : Nat) :
    Except String (ReadIndexQueue × List (Callback × RaftCmdResponse)) :=
  if q.readyCnt ≤ q.reads.length then
    .ok ({ q with reads := q.reads.take q.readyCnt },
      (q.reads.drop q.readyCnt).flatMap (notifyStale term))
  else .error "slice bounds out of range"

end ReadIndexQueue

/-! ## Recently added peers -/

/-- `RecentAddedPeer`. -/
structure RecentAddedPeer where
  rejectDurationAsSecs : Nat
  id : Nat
  addedTime : Time
  deriving DecidableEq, Repr

/-- `RecentAddedPeer.Update(id, now)`. -/
def RecentAddedPeer.update (r : RecentAddedPeer) (id : Nat) (now : Time) : RecentAddedPeer :=
  { r with id := id, addedTime := now }

/-- `RecentAddedPeer.Contains(id)` at time `now`: the peer was added less than the reject
duration ago (whole seconds, truncated). -/
def RecentAddedPeer.contains (r : RecentAddedPeer) (id : Nat) (now : Time) : Bool :=
  r.id == id && decide ((now - r.addedTime) / 1000000000 < r.rejectDurationAsSecs)

end RaftStore
