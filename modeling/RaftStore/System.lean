import RaftStore.Ready

/-!
# RaftStore.System

The peer as one state machine: the operations the store drives it through, each with the
environment's answers, and `run`, which replays a sequence of them. A ready cycle is
`HandleRaftReadyAppend`, then `PostRaftReadyPersistent` once the store has written the batches,
then `HandleRaftReadyApply`. A panic ends a run.

The configuration, the protobuf codec and the transport are the same for every step.

The store also calls the peer outside the ready loop and the propose path (`StoreCall`): an
operation (`Op`) is an action or such a call, and `runOps` replays a sequence of operations.
`runOps_invariant` is the induction every invariant over whole runs of operations rests on.
-/

set_option autoImplicit false

namespace RaftStore

/-- The operations the store calls on a peer, with the environment's answers. -/
inductive Action
  /-- `Step(m)`; the consensus library steps to `raftGroup`. -/
  | step (m : Message) (now : Time) (raftGroup : RawNode)
  /-- `Propose(kv, cfg, cb, rlog, errResp)`. -/
  | propose (cb : Callback) (rlog : RaftLog) (errResp : RaftCmdResponse) (env : ProposeEnv)
  /-- One ready cycle. -/
  | readyCycle (env : AppendEnv)
  /-- `PostApply(kv, applyState, appliedIndexTerm, merged, applyMetrics)`. -/
  | postApply (applyState : ApplyState) (appliedIndexTerm : Nat) (merged : Bool)
      (metrics : ApplyMetrics)
  /-- `takeApplyProposals()`, whose batch goes to the apply worker. -/
  | takeApplyProposals
  /-- `MaybeDestroy()`. -/
  | maybeDestroy (cancelled : Bool)
  /-- `Destroy(engines, keepData)`. -/
  | destroy (keepData : Bool)
  /-- `SetRegion(region)`. -/
  | setRegion (region : Region)
  /-- `CheckPeers()`, on the store's heartbeat tick. -/
  | checkPeers (now : Time)
  deriving DecidableEq, Repr

variable (cfg : Config) (codec : Codec) (trans : Transport)

namespace Peer

/-- One ready cycle: append and persist, then, if there was a ready, finish it and apply it. -/
def readyCycle (p : Peer) (env : AppendEnv) : Except String Peer :=
  match p.handleRaftReadyAppend trans env with
  | (p, none) => .ok p
  | (p, some (rd, ctx)) => do
    let (p, rd, _) ← p.postRaftReadyPersistent trans rd ctx env.now
    p.handleRaftReadyApply rd env.now

/-- The peer after one action. -/
def exec (p : Peer) : Action → Except String Peer
  | .step m now raftGroup => .ok (p.step m now raftGroup)
  | .propose cb rlog errResp env => (p.propose cfg codec cb rlog errResp env).map (·.1)
  | .readyCycle env => p.readyCycle trans env
  | .postApply applyState appliedIndexTerm merged metrics =>
    (p.postApply applyState appliedIndexTerm merged metrics).map (·.1)
  | .takeApplyProposals => .ok p.takeApplyProposals.1
  | .maybeDestroy cancelled => .ok (p.maybeDestroy cancelled).1
  | .destroy keepData => .ok (p.destroy keepData)
  | .setRegion region => .ok (p.setRegion region)
  | .checkPeers now => .ok (p.checkPeers now)

/-- The peer after a sequence of actions, or the first panic. -/
def run (p : Peer) : List Action → Except String Peer
  | [] => .ok p
  | a :: as => (p.exec cfg codec trans a).bind (run · as)

end Peer

/-! ## The store's other calls -/

/-- The calls the store makes on a peer besides the actions: from its message handler, its
ticks and its PD worker, after a split, and on shutdown. Each carries the environment's
answers. -/
inductive StoreCall
  /-- `insertPeerCache(peer)`, for the sender of a message. -/
  | insertPeerCache (peer : MetaPeer)
  /-- `removePeerCache(peerID)`, after a conf change removes the peer. -/
  | removePeerCache (peerID : Nat)
  /-- `RecentAddedPeer.Update(id, now)`, after a conf change adds the peer. -/
  | updateRecentAddedPeer (id : Nat) (now : Time)
  /-- `HeartbeatPd(pdScheduler)`. -/
  | heartbeatPd (now : Time) (approximateSize approximateKeys : Option Nat)
  /-- `AnyNewPeerCatchUp(peerID)`, on a heartbeat response. -/
  | anyNewPeerCatchUp (peerID : Nat)
  /-- `CheckStaleState(cfg)`. -/
  | checkStaleState (now : Time)
  /-- `MaybeCampaign(parentIsLeader)`; the library campaigns to `campaigned`. -/
  | maybeCampaign (parentIsLeader : Bool) (campaigned : RawNode)
  /-- `Stop()`. -/
  | stop (cancelled : Bool)
  /-- `PostSplit()`. -/
  | postSplit
  deriving DecidableEq, Repr

/-- One operation on a peer: an action, or another call of the store. -/
inductive Op
  | action (a : Action)
  | call (c : StoreCall)
  deriving DecidableEq, Repr

namespace Peer

/-- The peer after a call; none of them panics, and what they return is dropped. -/
def call (p : Peer) : StoreCall → Peer
  | .insertPeerCache peer => p.insertPeerCache peer
  | .removePeerCache peerID => p.removePeerCache peerID
  | .updateRecentAddedPeer id now => { p with recentAddedPeer := p.recentAddedPeer.update id now }
  | .heartbeatPd now size keys => (p.heartbeatPd now size keys).2
  | .anyNewPeerCatchUp peerID => (p.anyNewPeerCatchUp peerID).2
  | .checkStaleState now => (p.checkStaleState cfg now).2
  | .maybeCampaign parentIsLeader campaigned => (p.maybeCampaign parentIsLeader campaigned).2
  | .stop cancelled => p.stop cancelled
  | .postSplit => p.postSplit

/-- The peer after one operation. -/
def perform (p : Peer) : Op → Except String Peer
  | .action a => p.exec cfg codec trans a
  | .call c => .ok (p.call cfg c)

/-- The peer after a sequence of operations, or the first panic. -/
def runOps (p : Peer) : List Op → Except String Peer
  | [] => .ok p
  | o :: os => (p.perform cfg codec trans o).bind (runOps · os)

/-- What every action and every call of a run keeps holds in every state of the run. -/
theorem runOps_invariant (Inv : Peer → Prop) {os : List Op}
    (hexec : ∀ {p p' : Peer} {a : Action}, Inv p → p.exec cfg codec trans a = .ok p' → Inv p')
    (hcall : ∀ {p : Peer} (c : StoreCall), Op.call c ∈ os → Inv p → Inv (p.call cfg c))
    {p p' : Peer} (h : p.runOps cfg codec trans os = .ok p') (hi : Inv p) : Inv p' := by
  induction os generalizing p with
  | nil => cases h; exact hi
  | cons o os ih =>
    simp only [runOps] at h
    cases hq : p.perform cfg codec trans o with
    | error e => rw [hq] at h; cases h
    | ok q =>
      rw [hq] at h
      cases o with
      | action a => exact ih (fun c hc => hcall c (List.mem_cons_of_mem _ hc)) h (hexec hi hq)
      | call c =>
        cases hq
        exact ih (fun c hc => hcall c (List.mem_cons_of_mem _ hc)) h
          (hcall c (List.mem_cons_self _ _) hi)

end Peer

/-! ## A concrete store

A three-voter region on stores 1 to 3 and the peer `NewPeer` creates on store 1: a follower at
term 1 that has applied its log up to index 5. The witnesses and the failing traces of the proof
modules start from it. -/

/-- A configuration with a lease of 10 time units. -/
def sampleConfig : Config :=
  { raftStoreMaxLeaderLease := 10, raftEntryMaxSize := 1024, leaderTransferMaxLogLag := 10,
    allowRemoveLeader := false, mergeMaxLogGap := 10, maxLeaderMissingDuration := 100,
    abnormalLeaderMissingDuration := 50, raftRejectTransferLeaderDuration := 1 }

/-- A codec that marshals everything to nothing. -/
def sampleCodec : Codec :=
  { marshalRequest := fun _ => [], unmarshalRequest := fun _ => none,
    marshalConfChange := fun _ => [] }

/-- A transport that accepts every message. -/
def sampleTransport : Transport := { accepts := fun _ => true }

/-- Region 1, epoch version 1, with a voter on each of stores 1 to 3. -/
def sampleRegion : Region :=
  { id := 1, startKey := [], endKey := [], regionEpoch := { confVer := 1, version := 1 },
    peers := [⟨1, 1, .voter⟩, ⟨2, 2, .voter⟩, ⟨3, 3, .voter⟩] }

/-- A follower's node at term 1 whose log ends at index 5. -/
def sampleNode : RawNode :=
  { state := .follower, term := 1, lead := 0, isLearner := false, inLease := false,
    firstIndex := 1, lastIndex := 5, log := [], pendingConfIndex := 0, progress := [],
    readFifo := [], pendingReadCount := 0, readyReadCount := 0, snap := none,
    skipBcastCommit := false, applied := 5, leadTransferee := none }

/-- A storage that has applied index 5, of term 1. -/
def sampleStorage : PeerStorage :=
  { region := sampleRegion, applyState := { appliedIndex := 5, truncatedIndex := 5, truncatedTerm := 1 },
    appliedIndexTerm := 1, lastIndex := 5, applying := false, genSnapTask := false }

/-- The peer `NewPeer` creates for peer 1 of `sampleRegion` at time 0. -/
def samplePeer : Peer :=
  { meta := ⟨1, 1, .voter⟩, regionID := 1, raftGroup := sampleNode, peerStorage := sampleStorage,
    proposals := ⟨[]⟩, applyProposals := [],
    pendingReads := { idAllocator := 0, reads := [], readyCnt := 0 },
    peerCache := [], peerHeartbeats := [], peersStartPendingTime := [],
    recentAddedPeer := { rejectDurationAsSecs := 1, id := 0, addedTime := 0 },
    sizeDiffHint := 0, deleteKeysHint := 0, lastApplyingIdx := 5,
    lastUrgentProposalIdx := 9223372036854775807, lastCommittedSplitIdx := 0, raftLogSizeHint := 0,
    pendingRemove := false, lastCommittedPrepareMergeIdx := 0, pendingMergeState := false,
    leaderMissingTime := some 0, leaderLease := newLease 10,
    leaderChecker := { peerID := 1, invalid := false, term := 1, appliedIndexTerm := 1,
                       leaderLease := none, region := sampleRegion },
    pendingMessages := [], peerStat := ⟨0, 0⟩, sent := [], done := [], applyMsgs := [] }

example : Peer.newPeer 1 sampleConfig sampleRegion ⟨1, 1, .voter⟩ sampleStorage sampleNode sampleNode 0 =
    .ok samplePeer := rfl

/-- A heartbeat from peer 1 to peer 2. -/
def heartbeat : Message := { msgType := .msgHeartbeat, toId := 2, fromId := 1, term := 1, commit := 0 }

/-- The node of `sampleNode` elected leader of term 1, in its lease. -/
def leaderNode : RawNode := { sampleNode with state := .leader, inLease := true, lead := 1 }

/-- A ready that reports the peer the leader. -/
def becomeLeader : Ready :=
  { softState := some ⟨1, .leader⟩, entries := [], snapshot := none, committedEntries := [],
    messages := [], readStates := [] }

/-- A read of region 1 at epoch version 1, without a read quorum. -/
def snapReadRequest : RaftCmdRequest :=
  { header := some { regionId := 1, regionEpoch := some ⟨1, 1⟩, term := 1, syncLog := false,
                     readQuorum := false }
    requests := [⟨.snap⟩], adminRequest := none }

end RaftStore
