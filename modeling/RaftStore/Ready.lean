import RaftStore.Propose

/-!
# RaftStore.Ready

The ready cycle (spec §4.8, "Ready/apply cycle") and the apply worker's acknowledgement:

1. `handleRaftReadyAppend` — flush the messages buffered during a snapshot, wait for the apply
   pipeline to drain before a pending snapshot, take the ready, observe a role change, send the
   leader's messages before persisting, and persist;
2. `postRaftReadyPersistent` — once the write is durable: install a snapshot, and send or buffer
   a follower's messages;
3. `handleRaftReadyApply` — hand the committed entries to the apply worker (renewing the lease
   and recording split and merge indices on the way) and answer the ready's read states;
4. `postApply` — the apply worker's report: the new applied state, and the reads that can now be
   answered.

A panic of the source is an `.error` with its message.
-/

set_option autoImplicit false

namespace RaftStore

/-- The clock and the collaborators' answers for one `HandleRaftReadyAppend`: whether an applying
snapshot's job has finished, and the ready the consensus library has since the last applying
index, if any. -/
structure AppendEnv where
  now : Time
  snapFinished : Bool
  ready : Option Ready
  deriving DecidableEq, Repr

/-- `applyMetrics`, as `PostApply` reads it. -/
structure ApplyMetrics where
  sizeDiffHint : Nat
  deleteKeysHint : Nat
  writtenBytes : Nat
  writtenKeys : Nat
  deriving DecidableEq, Repr

/-- `maxUint64`. -/
def maxUint64 : Nat := 18446744073709551615

/-- Modelled from the spec: `PeerEqual(l, r)` compares two peer descriptors; a nil `l` is
dereferenced. -/
def peerEqual (l : Option MetaPeer) (r : MetaPeer) : Except String Bool :=
  match l with
  | some l => .ok (l == r)
  | none => .error nilDeref

namespace Peer

/-! ## Append and persist -/

/-- The start of `HandleRaftReadyAppend` once no snapshot is being applied: send the messages
buffered while one was. -/
def flushPendingMessages (p : Peer) (trans : Transport) (now : Time) : Peer :=
  if p.pendingMessages.isEmpty then p
  else ({ p with pendingMessages := [] }.send trans now p.pendingMessages).1

/-- Hand a generated snapshot to the apply worker. -/
def scheduleGenSnapTask (p : Peer) : Peer :=
  if p.peerStorage.genSnapTask then
    { p with
      applyMsgs := p.applyMsgs ++ [.applySnapshot p.regionID]
      peerStorage := { p.peerStorage with genSnapTask := false } }
  else p

/-- The end of `HandleRaftReadyAppend`, on the ready the library has: observe a role change, let
a leader send the ready's messages before persisting, and write the ready. -/
def appendReady (p : Peer) (trans : Transport) (rd : Ready) (now : Time) :
    Peer × Ready × InvokeContext :=
  let p := p.onRoleChanged rd now
  let (p, rd) := if p.isLeader then ((p.send trans now rd.messages).1, { rd with messages := [] })
    else (p, rd)
  let (ps, ctx) := p.peerStorage.saveReadyState rd
  ({ p with peerStorage := ps }, rd, ctx)

/-- `HandleRaftReadyAppend(trans, applyMsgs, kvWB, raftWB, observer)`. -/
def handleRaftReadyAppend (p : Peer) (trans : Transport) (env : AppendEnv) :
    Peer × Option (Ready × InvokeContext) :=
  if p.pendingRemove then (p, none) else
  let (applying, ps) := p.peerStorage.checkApplyingSnap env.snapFinished
  let p := { p with peerStorage := ps }
  if applying then (p, none) else
  let p := p.flushPendingMessages trans env.now
  if p.hasPendingSnapshot && !p.readyToHandlePendingSnap then (p, none) else
  let p := p.scheduleGenSnapTask
  match env.ready with
  | none => (p, none)
  | some rd =>
    let (p, rd, ctx) := p.appendReady trans rd env.now
    (p, some (rd, ctx))

/-- The peer's own descriptor in its region, as `PostRaftReadyPersistent` rebuilds it. -/
def selfInRegion (p : Peer) : Option MetaPeer :=
  p.region.peers.foldl (fun pr peer => if peer.id == p.meta.id then some peer else pr) none

/-- The part of `PostRaftReadyPersistent` that sends a follower's messages, or buffers them while
the snapshot is applied; a leader has sent them before persisting. -/
def sendFollowerMessages (p : Peer) (trans : Transport) (rd : Ready) (now : Time) : Peer × Ready :=
  if !p.isLeader then
    if p.isApplyingSnapshot then ({ p with pendingMessages := rd.messages }, { rd with messages := [] })
    else ((p.send trans now rd.messages).1, rd)
  else (p, rd)

/-- `PostRaftReadyPersistent(trans, applyMsgs, ready, invokeCtx)`: after the write, the storage
installs a snapshot (a learner picks up its new role from it); a follower sends its messages, or
buffers them while the snapshot is applied. -/
def postRaftReadyPersistent (p : Peer) (trans : Transport) (rd : Ready) (ctx : InvokeContext)
    (now : Time) : Except String (Peer × Ready × Option ApplySnapResult) :=
  let p := if ctx.snapshot.isSome then { p with raftLogSizeHint := 0 } else p
  let (ps, applySnapResult) := p.peerStorage.postReadyPersistent ctx
  let p := { p with peerStorage := ps }
  let meta : Except String MetaPeer :=
    if applySnapResult.isSome && p.meta.role == .learner then
      let pr := p.selfInRegion
      (peerEqual pr p.meta).map fun same => if same then p.meta else pr.getD p.meta
    else .ok p.meta
  meta.map fun meta =>
    let (p, rd) := { p with meta := meta }.sendFollowerMessages trans rd now
    let p := if applySnapResult.isSome then p.activate else p
    (p, rd, applySnapResult)

/-! ## Reads -/

/-- Answer each command of a read-index request, in order (`handleRead` with the epoch
checked, then `cb.Done`). -/
def answerReads (p : Peer) : List ReqCbPair → Except String Peer
  | [] => .ok p
  | c :: cs =>
    match p.handleRead c.req true with
    | .error e => .error e
    | .ok resp => answerReads (p.complete c.cb resp) cs

/-- The first loop of `ApplyReads`, for a peer ready to read: each read state answers the
request at the head of the queue, which must be the one it echoes. -/
def applyReadyReads (p : Peer) (proposeTime : Option Time) :
    List ReadState → Except String (Peer × Option Time)
  | [] => .ok (p, proposeTime)
  | state :: states =>
    match p.pendingReads.popFront with
    | (none, _) => .error "read should exist"
    | (some read, q) =>
      if state.requestCtx != read.binaryID then .error "request ctx not equal to read id"
      else
        match answerReads { p with pendingReads := q } read.cmds with
        | .error e => .error e
        | .ok p => applyReadyReads p read.renewLeaseTime states

/-- The second loop of `ApplyReads`, for a peer not ready to read: each read state marks the
request at `readyCnt` as confirmed, which must be the one it echoes. -/
def markReadyReads (p : Peer) (proposeTime : Option Time) :
    List ReadState → Except String (Peer × Option Time)
  | [] => .ok (p, proposeTime)
  | state :: states =>
    match p.pendingReads.reads[p.pendingReads.readyCnt]? with
    | none => .error "index out of range"
    | some read =>
      if state.requestCtx != read.binaryID then .error "request ctx not equal to read id"
      else
        markReadyReads
          { p with pendingReads := { p.pendingReads with readyCnt := p.pendingReads.readyCnt + 1 } }
          read.renewLeaseTime states

/-- `ClearUncommitted(Term())` on the peer's queue, recording the stale answers. -/
def clearUncommitted (p : Peer) : Except String Peer :=
  (p.pendingReads.clearUncommitted p.term).map fun (q, notes) =>
    { p with pendingReads := q, done := p.done ++ notes }

/-- The end of `ApplyReads`: renew the lease from the time of the last confirmed read, unless the
lease is suspect at that time. -/
def renewFromReads (p : Peer) : Option Time → Peer
  | none => p
  | some t => if p.leaderLease.inspect t == .suspect then p else p.maybeRenewLeaderLease t

/-- `ApplyReads(kv, ready)`: pair the ready's read states with the queue, drop the unconfirmed
reads on a role change, and renew the lease from the last confirmed read. -/
def applyReads (p : Peer) (rd : Ready) : Except String Peer := do
  let (p, proposeTime) ← (if p.readyToHandleRead then p.applyReadyReads none rd.readStates
    else p.markReadyReads none rd.readStates)
  let p ← (if rd.softState.isSome then p.clearUncommitted else pure p)
  pure (p.renewFromReads proposeTime)

/-! ## Apply -/

/-- One iteration of the committed-entries loop of `HandleRaftReadyApply`, over the peer and
the flags `leaseToBeUpdated`, `splitToBeUpdated`, `mergeToBeUpdated`. The proposal context is
decoded from the constant `[]byte{0}`, as the source does, not from `entry.Context`. -/
def handleCommittedEntry (now : Time) (s : Peer × Bool × Bool × Bool) (entry : Entry) :
    Except String (Peer × Bool × Bool × Bool) :=
  let (p, lease, split, merge) := s
  let p := { p with raftLogSizeHint := p.raftLogSizeHint + entry.data.length }
  let (p, lease) :=
    if lease then
      match p.findProposeTime entry.index entry.term with
      | (some t, p) => (p.maybeRenewLeaderLease t, false)
      | (none, p) => (p, true)
    else (p, lease)
  if entry.term == p.term && (split || merge) then
    match newProposalContextFromBytes [0] with
    | .error e => .error e
    | .ok none => .error nilDeref
    | .ok (some ctx) =>
      let (p, split) :=
        if split && ctx.contains proposalContextSplit then
          ({ p with lastCommittedSplitIdx := entry.index }, false)
        else (p, split)
      let (p, merge) :=
        if merge && ctx.contains proposalContextPrepareMerge then
          ({ p with
              lastCommittedPrepareMergeIdx := entry.index
              leaderLease := p.leaderLease.suspect now }, false)
        else (p, merge)
      .ok (p, lease, split, merge)
  else .ok (p, lease, split, merge)

/-- The committed-entries loop of `HandleRaftReadyApply`. -/
def handleCommittedEntries (now : Time) :
    Peer × Bool × Bool × Bool → List Entry → Except String (Peer × Bool × Bool × Bool)
  | s, [] => .ok s
  | s, entry :: entries =>
    match handleCommittedEntry now s entry with
    | .error e => .error e
    | .ok s => handleCommittedEntries now s entries

/-- The part of `HandleRaftReadyApply` that hands the committed entries to the apply worker:
the loop, the new applying index, and the apply message. -/
def applyCommittedEntries (p : Peer) (entries : List Entry) (now : Time) : Except String Peer := do
  let p := if p.isLeader then p else { p with proposals := p.proposals.clear }
  let (p, _) ← handleCommittedEntries now (p, p.isLeader, p.isLeader, p.isLeader) entries
  match entries.getLast? with
  | none => pure p
  | some last =>
    let p := { p with lastApplyingIdx := last.index }
    let p := if p.lastApplyingIdx ≥ p.lastUrgentProposalIdx then
      { p with
        raftGroup := p.raftGroup.setSkipBcastCommit true
        lastUrgentProposalIdx := maxUint64 }
      else p
    pure { p with applyMsgs := p.applyMsgs ++ [.apply p.regionID p.term entries] }

/-- `HandleRaftReadyApply(kv, applyMsgs, ready)`. While a snapshot is applied, the applying
index jumps to the truncated index and the committed entries are not handed over. -/
def handleRaftReadyApply (p : Peer) (rd : Ready) (now : Time) : Except String Peer := do
  let p ← (if p.isApplyingSnapshot then
      pure { p with lastApplyingIdx := p.peerStorage.truncatedIndex }
    else p.applyCommittedEntries rd.committedEntries now)
  let rd := { rd with committedEntries := [] }
  let p ← p.applyReads rd
  let raftGroup := p.raftGroup.advance rd
  pure { p with
    raftGroup := if p.isApplyingSnapshot then raftGroup.advanceApply p.lastApplyingIdx else raftGroup }

/-- The loop of `PostApply` that answers the confirmed reads once the peer is ready to read. -/
def drainReadyReads (p : Peer) : Nat → Except String Peer
  | 0 => .ok p
  | n + 1 =>
    match p.pendingReads.popFront with
    | (none, _) => .error "read is nil, this should not happen"
    | (some read, q) =>
      match answerReads { p with pendingReads := q } read.cmds with
      | .error e => .error e
      | .ok p => drainReadyReads p n

/-- The block of `PostApply` over the reads: when some are confirmed and the peer is ready to
read, answer them all and reset `readyCnt`. -/
def answerConfirmedReads (p : Peer) : Except String Peer :=
  if p.pendingReads.readyCnt > 0 && p.readyToHandleRead then
    (p.drainReadyReads p.pendingReads.readyCnt).map fun p =>
      { p with pendingReads := { p.pendingReads with readyCnt := 0 } }
  else pure p

/-- The part of `PostApply` that records the apply worker's report: the library's applied index
(unless the region was merged), the storage's apply state and applied term, and the
statistics. -/
def recordApplyState (p : Peer) (applyState : ApplyState) (appliedIndexTerm : Nat) (merged : Bool)
    (metrics : ApplyMetrics) : Peer :=
  let diff := p.sizeDiffHint + metrics.sizeDiffHint
  { p with
    raftGroup := if !merged then p.raftGroup.advanceApply applyState.appliedIndex else p.raftGroup
    peerStorage := { p.peerStorage with applyState := applyState, appliedIndexTerm := appliedIndexTerm }
    peerStat := { writtenBytes := p.peerStat.writtenBytes + metrics.writtenBytes,
                  writtenKeys := p.peerStat.writtenKeys + metrics.writtenKeys }
    deleteKeysHint := p.deleteKeysHint + metrics.deleteKeysHint
    sizeDiffHint := if diff > 0 then diff else 0 }

/-- `PostApply(kv, applyState, appliedIndexTerm, merged, applyMetrics)`: `true` when a pending
snapshot can now be handled. -/
def postApply (p : Peer) (applyState : ApplyState) (appliedIndexTerm : Nat) (merged : Bool)
    (metrics : ApplyMetrics) : Except String (Peer × Bool) :=
  if p.isApplyingSnapshot then throw "should not applying snapshot" else do
  let progressToBeUpdated := p.peerStorage.appliedIndexTerm != appliedIndexTerm
  let p := p.recordApplyState applyState appliedIndexTerm merged metrics
  let hasReady := p.hasPendingSnapshot && p.readyToHandlePendingSnap
  let p ← p.answerConfirmedReads
  pure ({ p with
    leaderChecker := if progressToBeUpdated && p.isLeader && !p.pendingRemove then
      { p.leaderChecker with appliedIndexTerm := appliedIndexTerm } else p.leaderChecker },
    hasReady)

end Peer

end RaftStore
