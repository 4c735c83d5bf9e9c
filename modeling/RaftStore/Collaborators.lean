import RaftStore.Queues

/-!
# RaftStore.Collaborators

The peer's collaborators (spec §6): the consensus library's node, the peer storage, the
transport, the apply worker's inbox and the store's configuration. None of them is part of the
source; they are modelled from the interfaces the spec lists, as far as `peer.go` calls into
them.

Where the library or the storage may answer one call in more than one way, the model takes the
answer as an argument: a proposal is appended, forwarded or dropped; a read-index request is
accepted or dropped; an applying snapshot has finished or not. `Step`, `Campaign` and
`ReadySince` are the environment's outright: the peer receives the node's new state or the
ready. Each run invariant states what it assumes of these answers.
-/

set_option autoImplicit false

namespace RaftStore

/-! ## The consensus library -/

/-- How the consensus library takes a proposal: it appends an entry, it forwards or ignores it
without an error, or it refuses it with an error. -/
inductive ProposeAnswer
  | append | forward | drop
  deriving DecidableEq, Repr

/-- Modelled from the spec: the consensus library's node (`raft.RawNode`), as the fields the peer
reads. `progress` is `Status().Progress`, learners included; `readFifo` holds the read-index
contexts the library has accepted and not yet echoed in a ready. -/
structure RawNode where
  state : StateType
  term : Nat
  lead : Nat
  isLearner : Bool
  inLease : Bool
  firstIndex : Nat
  lastIndex : Nat
  log : List Entry
  pendingConfIndex : Nat
  progress : List (Nat × Progress)
  readFifo : List (List UInt8)
  pendingReadCount : Nat
  readyReadCount : Nat
  snap : Option Snapshot
  skipBcastCommit : Bool
  applied : Nat
  leadTransferee : Option Nat
  deriving DecidableEq, Repr

namespace RawNode

/-- The entry the library appends for a proposal. -/
def nextEntry (r : RawNode) (entryType : EntryType) (ctx data : List UInt8) : Entry :=
  { entryType := entryType, term := r.term, index := r.lastIndex + 1, data := data,
    context := ctx }

/-- Modelled from the spec: `RawNode.Propose(ctx, data)`. -/
def propose (r : RawNode) (ctx data : List UInt8) (answer : ProposeAnswer) :
    Except RaftError RawNode :=
  match answer with
  | .append =>
    .ok { r with lastIndex := r.lastIndex + 1, log := r.log ++ [r.nextEntry .entryNormal ctx data] }
  | .forward => .ok r
  | .drop => .error .proposalDropped

/-- Modelled from the spec: `RawNode.ProposeConfChange(ctx, cc)`; an appended conf change is the
pending one. -/
def proposeConfChange (codec : Codec) (r : RawNode) (ctx : List UInt8) (cc : ConfChange)
    (answer : ProposeAnswer) : Except RaftError RawNode :=
  match answer with
  | .append =>
    .ok { r with
      lastIndex := r.lastIndex + 1
      log := r.log ++ [r.nextEntry .entryConfChange ctx (codec.marshalConfChange cc)]
      pendingConfIndex := r.lastIndex + 1 }
  | .forward => .ok r
  | .drop => .error .proposalDropped

/-- Modelled from the spec: `RawNode.ReadIndex(ctx)`, accepted (queued) or dropped. -/
def readIndex (r : RawNode) (ctx : List UInt8) (accepted : Bool) : RawNode :=
  if accepted then
    { r with readFifo := r.readFifo ++ [ctx], pendingReadCount := r.pendingReadCount + 1 }
  else r

/-- Modelled from the spec: `RaftLog.Entries(lo, MaxUint64)`. -/
def entries (r : RawNode) (lo : Nat) : Except RaftError (List Entry) :=
  if lo < r.firstIndex then .error .compacted else .ok (r.log.filter (lo ≤ ·.index))

/-- Modelled from the spec: `RawNode.Advance(ready)` acknowledges a ready: its read states leave
the library's queue (all of it when the ready reports a role change), and its snapshot is no
longer pending. -/
def advance (r : RawNode) (rd : Ready) : RawNode :=
  { r with
    readFifo := if rd.softState.isSome then [] else r.readFifo.drop rd.readStates.length
    snap := if rd.snapshot.isSome then none else r.snap }

/-- Modelled from the spec: `RawNode.AdvanceApply(idx)`. -/
def advanceApply (r : RawNode) (idx : Nat) : RawNode := { r with applied := idx }

/-- Modelled from the spec: `RawNode.SkipBcastCommit(b)`. -/
def setSkipBcastCommit (r : RawNode) (b : Bool) : RawNode := { r with skipBcastCommit := b }

/-- Modelled from the spec: `RawNode.TransferLeader(id)`. -/
def transferLeader (r : RawNode) (id : Nat) : RawNode := { r with leadTransferee := some id }

@[simp] theorem readIndex_term (r : RawNode) (ctx : List UInt8) (b : Bool) :
    (r.readIndex ctx b).term = r.term := by
  unfold readIndex; split <;> rfl

@[simp] theorem readIndex_state (r : RawNode) (ctx : List UInt8) (b : Bool) :
    (r.readIndex ctx b).state = r.state := by
  unfold readIndex; split <;> rfl

/-- Advancing the applied index only under a condition moves only the applied index. -/
@[simp] theorem ite_advanceApply (c : Prop) [Decidable c] (r : RawNode) (idx : Nat) :
    (if c then r.advanceApply idx else r) = { r with applied := if c then idx else r.applied } := by
  split <;> rfl

@[simp] theorem advance_term (r : RawNode) (rd : Ready) : (r.advance rd).term = r.term := rfl

@[simp] theorem advance_state (r : RawNode) (rd : Ready) : (r.advance rd).state = r.state := rfl

end RawNode

/-! ## The peer storage -/

/-- `applyState`: how far the apply worker has got, and where the log is truncated. -/
structure ApplyState where
  appliedIndex : Nat
  truncatedIndex : Nat
  truncatedTerm : Nat
  deriving DecidableEq, Repr

/-- Modelled from the spec: what `SaveReadyState` hands to `PostReadyPersistent`. -/
structure InvokeContext where
  snapshot : Option Snapshot
  deriving DecidableEq, Repr

/-- Modelled from the spec: the result of installing a snapshot's region. -/
structure ApplySnapResult where
  prevRegion : Region
  region : Region
  deriving DecidableEq, Repr

/-- Modelled from the spec: `PeerStorage`, with the fields the peer reads. `applying` is
`snapState == Applying`; it is set when a persisted ready carries a snapshot and cleared only
when `CheckApplyingSnap` sees the job finished, or `CancelApplyingSnap` cancels it.
`genSnapTask` records whether a generated snapshot waits to be handed to the apply worker. -/
structure PeerStorage where
  region : Region
  applyState : ApplyState
  appliedIndexTerm : Nat
  lastIndex : Nat
  applying : Bool
  genSnapTask : Bool
  deriving DecidableEq, Repr

namespace PeerStorage

/-- Modelled from the spec: `isInitialized()`: the region has peers. -/
def isInitialized (ps : PeerStorage) : Bool := !ps.region.peers.isEmpty

/-- `AppliedIndex()`. -/
def appliedIndex (ps : PeerStorage) : Nat := ps.applyState.appliedIndex

/-- `truncatedIndex()`. -/
def truncatedIndex (ps : PeerStorage) : Nat := ps.applyState.truncatedIndex

/-- Modelled from the spec: `CheckApplyingSnap()` reports an applying snapshot, and settles the
snapshot state when the job has finished. -/
def checkApplyingSnap (ps : PeerStorage) (finished : Bool) : Bool × PeerStorage :=
  if ps.applying then
    if finished then (false, { ps with applying := false }) else (true, ps)
  else (false, ps)

/-- Modelled from the spec: `CancelApplyingSnap()` succeeds on an applying snapshot whose job
has not started running. -/
def cancelApplyingSnap (ps : PeerStorage) (cancelled : Bool) : Bool × PeerStorage :=
  if ps.applying ∧ cancelled then (true, { ps with applying := false }) else (false, ps)

/-- Modelled from the spec: `SaveReadyState(kvWB, raftWB, ready)` writes the ready's entries
and snapshot metadata into the write batches. -/
def saveReadyState (ps : PeerStorage) (rd : Ready) : PeerStorage × InvokeContext :=
  let last := match rd.snapshot with
    | some snap => snap.index
    | none => ps.lastIndex
  let last := match rd.entries.getLast? with
    | some e => e.index
    | none => last
  ({ ps with lastIndex := last }, { snapshot := rd.snapshot })

/-- Modelled from the spec: `PostReadyPersistent(ctx)`. Once a ready with a snapshot is
persisted, the storage takes the snapshot's region, sets its applied and truncated index to the
snapshot's, and starts applying it. -/
def postReadyPersistent (ps : PeerStorage) (ctx : InvokeContext) :
    PeerStorage × Option ApplySnapResult :=
  match ctx.snapshot with
  | some snap =>
    ({ ps with
        region := snap.region
        applyState := { appliedIndex := snap.index, truncatedIndex := snap.index,
                        truncatedTerm := snap.term }
        appliedIndexTerm := snap.term
        applying := true },
     some { prevRegion := ps.region, region := snap.region })
  | none => (ps, none)

end PeerStorage

/-! ## Transport, apply worker, configuration -/

/-- Modelled from the spec: the transport, as whether `Send` accepts a message. -/
structure Transport where
  accepts : RaftMessage → Bool

/-- `proposal`: a proposed command waiting to be handed to the apply worker. -/
structure Proposal where
  isConfChange : Bool
  index : Nat
  term : Nat
  cb : Callback
  deriving DecidableEq, Repr

/-- `regionProposal`: the proposals of one region, handed to the apply worker together. -/
structure RegionProposal where
  id : Nat
  regionId : Nat
  props : List Proposal
  deriving DecidableEq, Repr

/-- The messages the peer appends to `applyMsgs`. -/
inductive ApplyMsg
  /-- `MsgTypeApplyRegistration`. -/
  | registration (peerId regionId : Nat)
  /-- `MsgTypeApplySnapshot`: a generated snapshot task. -/
  | applySnapshot (regionId : Nat)
  /-- `newApplyMsg(&apply{regionID, term, entries})`. -/
  | apply (regionId term : Nat) (entries : List Entry)
  deriving DecidableEq, Repr

/-- `Config`, the fields the peer reads. Durations are in the clock's unit, except
`raftRejectTransferLeaderDuration`, which is in whole seconds. -/
structure Config where
  raftStoreMaxLeaderLease : Nat
  raftEntryMaxSize : Nat
  leaderTransferMaxLogLag : Nat
  allowRemoveLeader : Bool
  mergeMaxLogGap : Nat
  maxLeaderMissingDuration : Nat
  abnormalLeaderMissingDuration : Nat
  raftRejectTransferLeaderDuration : Nat
  deriving DecidableEq, Repr

end RaftStore
