import RaftStore.Lease
import RaftStore.Collaborators

/-!
# RaftStore.Peer

The peer controller's state (`type Peer` of `peer.go`) and its operations that do not belong to
a ready cycle or to the propose path: creation, the peer cache, region publication, lease renewal,
role changes, sending, stepping, the liveness checks and the PD heartbeat, campaigning after a
split, and destruction.

The peer holds its consensus node and its storage, as the source holds pointers to them. It also
records what its collaborators observe of it: the messages handed to the transport (`sent`),
the callbacks completed with their responses (`done`) and the messages appended to the apply
worker's inbox (`applyMsgs`). Go maps are association lists with one entry per key.
-/

set_option autoImplicit false

namespace RaftStore

/-- `InvalidID`. -/
def invalidID : Nat := 0

/-- The Go map assignment `m[k] = v` on an association list. -/
def mapSet {α : Type} (m : List (Nat × α)) (k : Nat) (v : α) : List (Nat × α) :=
  (k, v) :: m.filter (·.1 != k)

/-- The Go map lookup `v, ok := m[k]`. -/
def mapGet {α : Type} (m : List (Nat × α)) (k : Nat) : Option α :=
  (m.find? (·.1 == k)).map (·.2)

/-- The Go map deletion `delete(m, k)`. -/
def mapDelete {α : Type} (m : List (Nat × α)) (k : Nat) : List (Nat × α) :=
  m.filter (·.1 != k)

/-- `leaderChecker`: what the peer publishes to foreign readers. `leaderLease` points into the
leader lease's remote leases. -/
structure LeaderChecker where
  peerID : Nat
  invalid : Bool
  term : Nat
  appliedIndexTerm : Nat
  leaderLease : Option Nat
  region : Region
  deriving DecidableEq, Repr

/-- `PeerStat`. -/
structure PeerStat where
  writtenBytes : Nat
  writtenKeys : Nat
  deriving DecidableEq, Repr

/-- `pdpb.PeerStats`: a peer reported down, with how long it has been silent. -/
structure PeerStats where
  peer : MetaPeer
  downSeconds : Nat
  deriving DecidableEq, Repr

/-- `pdRegionHeartbeatTask`: what `HeartbeatPd` hands to the PD worker. -/
structure PdRegionHeartbeatTask where
  region : Region
  peer : MetaPeer
  downPeers : List PeerStats
  pendingPeers : List MetaPeer
  writtenBytes : Nat
  writtenKeys : Nat
  approximateSize : Option Nat
  approximateKeys : Option Nat
  deriving DecidableEq, Repr

/-- `StaleState`: what `CheckStaleState` reports. -/
inductive StaleState
  | valid | toValidate | leaderMissing
  deriving DecidableEq, Repr

/-- `DestroyPeerJob`. -/
structure DestroyPeerJob where
  initialized : Bool
  asyncRemove : Bool
  regionId : Nat
  peer : MetaPeer
  deriving DecidableEq, Repr

/-- `Peer`. `pendingMergeState` is whether `PendingMergeState` is set: no modelled function reads
the merge state itself. The last three fields are what the transport, the callbacks and the
apply worker have received from the peer. -/
structure Peer where
  meta : MetaPeer
  regionID : Nat
  raftGroup : RawNode
  peerStorage : PeerStorage
  proposals : ProposalQueue
  applyProposals : List Proposal
  pendingReads : ReadIndexQueue
  peerCache : List (Nat × MetaPeer)
  peerHeartbeats : List (Nat × Time)
  peersStartPendingTime : List (Nat × Time)
  recentAddedPeer : RecentAddedPeer
  sizeDiffHint : Nat
  deleteKeysHint : Nat
  lastApplyingIdx : Nat
  lastUrgentProposalIdx : Nat
  lastCommittedSplitIdx : Nat
  raftLogSizeHint : Nat
  pendingRemove : Bool
  lastCommittedPrepareMergeIdx : Nat
  pendingMergeState : Bool
  leaderMissingTime : Option Time
  leaderLease : Lease
  leaderChecker : LeaderChecker
  pendingMessages : List Message
  peerStat : PeerStat
  sent : List RaftMessage
  done : List (Callback × RaftCmdResponse)
  applyMsgs : List ApplyMsg
  deriving DecidableEq, Repr

namespace Peer

/-! ## Reading the peer -/

/-- `PeerID()`. -/
def peerID (p : Peer) : Nat := p.meta.id

/-- `Term()`. -/
def term (p : Peer) : Nat := p.raftGroup.term

/-- `LeaderID()`. -/
def leaderID (p : Peer) : Nat := p.raftGroup.lead

/-- `IsLeader()`. -/
def isLeader (p : Peer) : Bool := p.raftGroup.state == .leader

/-- `Region()`. -/
def region (p : Peer) : Region := p.peerStorage.region

/-- `IsApplyingSnapshot()`. -/
def isApplyingSnapshot (p : Peer) : Bool := p.peerStorage.applying

/-- `HasPendingSnapshot()`: the consensus library holds a snapshot not yet persisted. -/
def hasPendingSnapshot (p : Peer) : Bool := p.raftGroup.snap.isSome

/-- `nextProposalIndex()`. -/
def nextProposalIndex (p : Peer) : Nat := p.raftGroup.lastIndex + 1

/-- `isSplitting()`. -/
def isSplitting (p : Peer) : Bool := p.lastCommittedSplitIdx > p.peerStorage.appliedIndex

/-- `isMerging()`. -/
def isMerging (p : Peer) : Bool :=
  p.lastCommittedPrepareMergeIdx > p.peerStorage.appliedIndex || p.pendingMergeState

/-- `ReadyToHandlePendingSnap()`: every batch handed to the apply worker has been applied. -/
def readyToHandlePendingSnap (p : Peer) : Bool :=
  p.lastApplyingIdx == p.peerStorage.appliedIndex

/-- `readyToHandleRead()`. -/
def readyToHandleRead (p : Peer) : Bool :=
  p.peerStorage.appliedIndexTerm == p.term && !p.isSplitting && !p.isMerging

/-! ## Creation and activation -/

/-- `NewPeer(storeID, cfg, engines, region, regionSched, peer)`. `ps` is the storage
`NewPeerStorage` loads, `raftGroup` the node `NewRawNode` builds, and `campaigned` that node
after `Campaign`, which a region whose only peer is on this store runs at once. -/
def newPeer (storeID : Nat) (cfg : Config) (region : Region) (peer : MetaPeer)
    (ps : PeerStorage) (raftGroup campaigned : RawNode) (now : Time) : Except RaftError Peer :=
  if peer.id = invalidID then .error .invalidPeerId else
  let ps := { ps with region := region }
  let single := match region.peers with
    | [only] => only.storeId == storeID
    | _ => false
  .ok {
    meta := peer, regionID := region.id
    raftGroup := if single then campaigned else raftGroup
    peerStorage := ps, proposals := ⟨[]⟩, applyProposals := []
    pendingReads := { idAllocator := 0, reads := [], readyCnt := 0 }
    peerCache := [], peerHeartbeats := [], peersStartPendingTime := []
    recentAddedPeer :=
      { rejectDurationAsSecs := cfg.raftRejectTransferLeaderDuration, id := 0, addedTime := now }
    sizeDiffHint := 0, deleteKeysHint := 0
    lastApplyingIdx := ps.appliedIndex
    lastUrgentProposalIdx := 9223372036854775807
    lastCommittedSplitIdx := 0, raftLogSizeHint := 0, pendingRemove := false
    lastCommittedPrepareMergeIdx := 0, pendingMergeState := false
    leaderMissingTime := some now
    leaderLease := newLease cfg.raftStoreMaxLeaderLease
    leaderChecker :=
      { peerID := peer.id, invalid := false, term := raftGroup.term,
        appliedIndexTerm := ps.appliedIndexTerm, leaderLease := none, region := region }
    pendingMessages := [], peerStat := ⟨0, 0⟩
    sent := [], done := [], applyMsgs := [] }

/-- `cb.Done(resp)`. -/
def complete (p : Peer) (cb : Callback) (resp : RaftCmdResponse) : Peer :=
  { p with done := p.done ++ [(cb, resp)] }

/-- `Activate(applyMsgs)`: register with the apply worker. -/
def activate (p : Peer) : Peer :=
  { p with applyMsgs := p.applyMsgs ++ [.registration p.peerID p.regionID] }

/-! ## Peer cache and sending -/

/-- `insertPeerCache(peer)`. -/
def insertPeerCache (p : Peer) (peer : MetaPeer) : Peer :=
  { p with peerCache := mapSet p.peerCache peer.id peer }

/-- `removePeerCache(peerID)`. -/
def removePeerCache (p : Peer) (peerID : Nat) : Peer :=
  { p with peerCache := mapDelete p.peerCache peerID }

/-- `getPeerFromCache(peerID)`: from the cache, or else from the region's peers (then cached). -/
def getPeerFromCache (p : Peer) (peerID : Nat) : Option MetaPeer × Peer :=
  match p.peerCache.find? (·.1 == peerID) with
  | some (_, peer) => (some peer, p)
  | none =>
    match p.region.peers.find? (·.id == peerID) with
    | some peer => (some peer, { p with peerCache := mapSet p.peerCache peerID peer })
    | none => (none, p)

/-- Modelled from the spec: `isInitialMsg(msg)`, the messages that may reach a peer not created
yet: vote requests, and heartbeats that commit nothing. -/
def isInitialMsg (msg : Message) : Bool :=
  msg.msgType == .msgRequestVote || msg.msgType == .msgRequestPreVote ||
    (msg.msgType == .msgHeartbeat && msg.commit == 0)

/-- The `RaftMessage` that `sendRaftMessage` hands to the transport. -/
def raftMessage (p : Peer) (toPeer : MetaPeer) (msg : Message) : RaftMessage :=
  let keys := p.peerStorage.isInitialized && isInitialMsg msg
  { regionId := p.regionID, regionEpoch := p.region.regionEpoch, fromPeer := p.meta,
    toPeer := toPeer, message := msg,
    startKey := if keys then p.region.startKey else [],
    endKey := if keys then p.region.endKey else [] }

/-- `sendRaftMessage(msg, trans)`: wrap the message and hand it to the transport. -/
def sendRaftMessage (p : Peer) (trans : Transport) (msg : Message) : Peer × Option RaftError :=
  match p.getPeerFromCache msg.toId with
  | (none, p) => (p, some (.recipientNotFound msg.toId p.regionID))
  | (some toPeer, p) =>
    let m := p.raftMessage toPeer msg
    ({ p with sent := p.sent ++ [m] }, if trans.accepts m then none else some .transport)

/-- `Send(trans, msgs)`: send in order and stop at the first error; after a `MsgTimeoutNow` the
lease becomes suspect. -/
def send (p : Peer) (trans : Transport) (now : Time) : List Message → Peer × Option RaftError
  | [] => (p, none)
  | msg :: msgs =>
    match p.sendRaftMessage trans msg with
    | (p, some err) => (p, some err)
    | (p, none) =>
      let p := if msg.msgType == .msgTimeoutNow then
        { p with leaderLease := p.leaderLease.suspect now } else p
      p.send trans now msgs

/-- `Step(m)`: note who is alive, then let the consensus library step to `raftGroup`. -/
def step (p : Peer) (m : Message) (now : Time) (raftGroup : RawNode) : Peer :=
  let p :=
    if p.isLeader && m.fromId != invalidID then
      { p with peerHeartbeats := mapSet p.peerHeartbeats m.fromId now, leaderMissingTime := none }
    else if m.fromId == p.leaderID then { p with leaderMissingTime := none }
    else p
  { p with raftGroup := raftGroup }

/-! ## Heartbeats -/

/-- The loop of `CheckPeers`: add, at `now`, each of `peers` the map `hb` lacks. -/
def fillHeartbeats (hb : List (Nat × Time)) : List MetaPeer → Time → List (Nat × Time)
  | [], _ => hb
  | peer :: peers, now =>
    fillHeartbeats (match mapGet hb peer.id with
      | some _ => hb
      | none => mapSet hb peer.id now) peers now

/-- `CheckPeers()`, at time `now`: a peer that is not the leader forgets the heartbeats; a
leader whose map has as many entries as the region has peers changes nothing; otherwise it adds,
at `now`, each peer of the region the map lacks. The map's Go length is the list's length: its
keys are distinct. -/
def checkPeers (p : Peer) (now : Time) : Peer :=
  if !p.isLeader then
    if p.peerHeartbeats.length > 0 then { p with peerHeartbeats := [] } else p
  else if p.peerHeartbeats.length == p.region.peers.length then p
  else
    { p with peerHeartbeats := fillHeartbeats p.peerHeartbeats p.region.peers now }

/-- `CollectDownPeers(maxDuration)`, at time `now`: the region's other peers whose last
heartbeat is more than `maxDuration` old. A peer without a heartbeat is not reported. -/
def collectDownPeers (p : Peer) (maxDuration now : Time) : List PeerStats :=
  p.region.peers.filterMap fun peer =>
    if peer.id == p.meta.id then none
    else
      match mapGet p.peerHeartbeats peer.id with
      | some hb =>
        if now - hb > maxDuration then some ⟨peer, (now - hb) / 1000000000⟩ else none
      | none => none

/-- The loop of `CollectPendingPeers` over the library's progress, `(id, progress)` pairs in the
list's order (Go's map order is unspecified): a peer other than this one whose match is below
`truncatedIdx` is reported if `getPeerFromCache` finds it, and its start time is recorded unless
it has one. -/
def collectPendingPeersFrom (truncatedIdx : Nat) (now : Time) :
    List (Nat × Progress) → List MetaPeer × Peer → List MetaPeer × Peer
  | [], acc => acc
  | (id, progress) :: prs, (pendingPeers, p) =>
    collectPendingPeersFrom truncatedIdx now prs <|
      if id == p.meta.id then (pendingPeers, p)
      else if progress.matchIdx < truncatedIdx then
        match p.getPeerFromCache id with
        | (some peer, p) =>
          (pendingPeers ++ [peer],
            match mapGet p.peersStartPendingTime id with
            | some _ => p
            | none => { p with peersStartPendingTime := mapSet p.peersStartPendingTime id now })
        | (none, p) => (pendingPeers, p)
      else (pendingPeers, p)

/-- `CollectPendingPeers()`, at time `now`: the peers whose log lags behind the truncated index
(`Status().Progress` includes the learners). -/
def collectPendingPeers (p : Peer) (now : Time) : List MetaPeer × Peer :=
  collectPendingPeersFrom p.peerStorage.truncatedIndex now p.raftGroup.progress ([], p)

/-- `AnyNewPeerCatchUp(peerID)`: whether a peer recorded as pending has caught up with the
truncated index, which then forgets its start time. A peer that is no longer the leader forgets
every start time (`clearPeersStartPendingTime`). The library's progress of voters and of
learners is one list here. -/
def anyNewPeerCatchUp (p : Peer) (peerID : Nat) : Bool × Peer :=
  if p.peersStartPendingTime.length == 0 then (false, p)
  else if !p.isLeader then (false, { p with peersStartPendingTime := [] })
  else
    match mapGet p.peersStartPendingTime peerID, mapGet p.raftGroup.progress peerID with
    | some _, some progress =>
      if progress.matchIdx ≥ p.peerStorage.truncatedIndex then
        (true, { p with peersStartPendingTime := mapDelete p.peersStartPendingTime peerID })
      else (false, p)
    | _, _ => (false, p)

/-- `CheckStaleState(cfg)`, at time `now`: a leader is valid and not missing its leader; a
follower starts the leader-missing clock, reports `ToValidate` (and restarts the clock) once it
has run `MaxLeaderMissingDuration`, and `LeaderMissing` once it has run
`AbnormalLeaderMissingDuration` unless it is uninitialized or a learner. -/
def checkStaleState (p : Peer) (cfg : Config) (now : Time) : StaleState × Peer :=
  if p.isLeader then (.valid, { p with leaderMissingTime := none })
  else
    let naivePeer := !p.peerStorage.isInitialized || p.raftGroup.isLearner
    match p.leaderMissingTime with
    | none => (.valid, { p with leaderMissingTime := some now })
    | some t =>
      if now - t ≥ cfg.maxLeaderMissingDuration then
        (.toValidate, { p with leaderMissingTime := some now })
      else if now - t ≥ cfg.abnormalLeaderMissingDuration && !naivePeer then (.leaderMissing, p)
      else (.valid, p)

/-- `HeartbeatPd(pdScheduler)`, at time `now`: the task it hands to the PD worker, with the peers
silent for five minutes and the pending peers. The approximate size and key count are fields of
the peer that no other modelled function reads; they are arguments here. -/
def heartbeatPd (p : Peer) (now : Time) (approximateSize approximateKeys : Option Nat) :
    PdRegionHeartbeatTask × Peer :=
  let downPeers := p.collectDownPeers 300000000000 now
  let (pendingPeers, p') := p.collectPendingPeers now
  ({ region := p.region, peer := p.meta, downPeers := downPeers, pendingPeers := pendingPeers,
     writtenBytes := p.peerStat.writtenBytes, writtenKeys := p.peerStat.writtenKeys,
     approximateSize := approximateSize, approximateKeys := approximateKeys }, p')

/-! ## Region and lease -/

/-- `SetRegion(region)`: a newer epoch version disables local reads; the region is published to
the leader checker unless the peer is being removed. -/
def setRegion (p : Peer) (region : Region) : Peer :=
  let p := if p.region.regionEpoch.version < region.regionEpoch.version then
    { p with leaderLease := p.leaderLease.expireRemoteLease } else p
  let p := { p with peerStorage := { p.peerStorage with region := region } }
  if !p.pendingRemove then { p with leaderChecker := { p.leaderChecker with region := region } }
  else p

/-- `MaybeRenewLeaderLease(ts)`: only a leader that is neither splitting nor merging renews, and
it publishes its remote lease. -/
def maybeRenewLeaderLease (p : Peer) (ts : Time) : Peer :=
  if !p.isLeader || p.isSplitting || p.isMerging then p else
  let (lease, remote) := (p.leaderLease.renew ts).maybeNewRemoteLease p.term
  let p := { p with leaderLease := lease }
  match remote with
  | some r =>
    if !p.pendingRemove then { p with leaderChecker := { p.leaderChecker with leaderLease := some r } }
    else p
  | none => p

/-- `OnRoleChanged(observer, ready)`: a ready that reports leadership renews the lease and
publishes the term; one that reports a follower expires the lease. -/
def onRoleChanged (p : Peer) (rd : Ready) (now : Time) : Peer :=
  match rd.softState with
  | some ss =>
    if ss.raftState == .leader then
      let p := p.maybeRenewLeaderLease now
      if !p.pendingRemove then { p with leaderChecker := { p.leaderChecker with term := p.term } }
      else p
    else if ss.raftState == .follower then { p with leaderLease := p.leaderLease.expire }
    else p
  | none => p

/-- `findProposeTime(index, term)`. -/
def findProposeTime (p : Peer) (index term : Nat) : Option Time × Peer :=
  let (t, q) := p.proposals.findProposeTime index term
  (t, { p with proposals := q })

/-! ## Apply proposals and destruction -/

/-- `takeApplyProposals()`. -/
def takeApplyProposals (p : Peer) : Peer × Option RegionProposal :=
  match p.applyProposals with
  | [] => (p, none)
  | props => ({ p with applyProposals := [] }, some ⟨p.peerID, p.regionID, props⟩)

/-- `MaybeDestroy()`: mark the peer for removal and return the job, unless it is already being
removed or its applying snapshot cannot be cancelled. -/
def maybeDestroy (p : Peer) (cancelled : Bool) : Peer × Option DestroyPeerJob :=
  if p.pendingRemove then (p, none) else
  let initialized := p.peerStorage.isInitialized
  let (ok, asyncRemove, ps) :=
    if p.isApplyingSnapshot then
      let (ok, ps) := p.peerStorage.cancelApplyingSnap cancelled
      (ok, false, ps)
    else (true, initialized, p.peerStorage)
  if !ok then ({ p with peerStorage := ps }, none) else
  ({ p with
      peerStorage := ps, pendingRemove := true
      leaderChecker := { p.leaderChecker with invalid := true } },
   some { initialized := initialized, asyncRemove := asyncRemove, regionId := p.regionID,
          peer := p.meta })

/-- `Destroy(engine, keepData)`, after its durable writes: every pending read and every apply
proposal is answered with region-not-found. -/
def destroy (p : Peer) (_keepData : Bool) : Peer :=
  let regionId := p.region.id
  { p with
    pendingReads := { p.pendingReads with reads := [] }
    applyProposals := []
    done := p.done ++ p.pendingReads.reads.flatMap (notifyRegionRemoved regionId) ++
      p.applyProposals.map fun pr => (pr.cb, errResp (.regionNotFound regionId)) }

/-! ## Campaigning, stopping, splitting -/

/-- `MaybeCampaign(parentIsLeader)`: a peer split from a leader campaigns at once, unless its
region has a single peer (which campaigned when it was created). `campaigned` is the node after
`Campaign`, whose error is only logged. -/
def maybeCampaign (p : Peer) (parentIsLeader : Bool) (campaigned : RawNode) : Bool × Peer :=
  if p.region.peers.length ≤ 1 || !parentIsLeader then (false, p)
  else (true, { p with raftGroup := campaigned })

/-- `Stop()`: cancel the snapshot being applied; `cancelled` is whether the job could be. -/
def stop (p : Peer) (cancelled : Bool) : Peer :=
  { p with peerStorage := (p.peerStorage.cancelApplyingSnap cancelled).2 }

/-- `PostSplit()`. -/
def postSplit (p : Peer) : Peer := { p with deleteKeysHint := 0, sizeDiffHint := 0 }

end Peer

end RaftStore
