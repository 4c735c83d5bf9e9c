import RaftStore.Inspect

/-!
# RaftStore.Propose

The propose path of the peer (spec §4.8, "Propose path"): `Propose` classifies a command and
then reads it locally, queues it behind a read-index round, proposes it as a normal entry or a
conf change, or asks for a leader transfer.

Every path ends in one of two ways for the command's callback: it is completed at once, or it is
handed on (to a read-index request, or to `applyProposals` by `PostPropose`). The functions that
call the consensus library take its answer from `ProposeEnv`. A Go function that returns an error
and may also panic returns `Except String (Except RaftError α)`: the outer error is the panic.
-/

set_option autoImplicit false

namespace RaftStore

/-- The clock and the consensus library's answers for one `Propose`: whether it accepts a
read-index request, and what it does with the one proposal the call may make. -/
structure ProposeEnv where
  now : Time
  readIndexAccepted : Bool
  answer : ProposeAnswer
  deriving DecidableEq, Repr

/-- The message of a nil pointer dereference. -/
def nilDeref : String := "invalid memory address or nil pointer dereference"

/-- `uint64` subtraction, which wraps below zero. -/
def subUint64 (a b : Nat) : Nat := (a + 18446744073709551616 - b) % 18446744073709551616

/-- `Quorum(total)`. -/
def quorum (total : Nat) : Nat := total / 2 + 1

/-- `raft.Progress{}`: the progress `checkConfChange` gives a node it adds. -/
def emptyProgress : Progress := { matchIdx := 0, isLearner := false, state := .probe }

/-- `new(raft_cmdpb.RaftCmdRequest)`. -/
def emptyRequest : RaftCmdRequest := { header := none, requests := [], adminRequest := none }

/-- The request with `AdminRequest.PrepareMerge.MinIndex` set. -/
def setMinIndex (req : RaftCmdRequest) (minIndex : Nat) : RaftCmdRequest :=
  { req with adminRequest := req.adminRequest.map fun a => { a with prepareMerge := some minIndex } }

/-- The loop of `preProposePrepareMerge` over the log gap: it adds up the entries' sizes, and
refuses conf changes and admin requests that can change the epoch or the log gap. Data that does
not unmarshal is a corruption panic. -/
def scanMergeGap (codec : Codec) : List Entry → Nat → Except String (Except RaftError Nat)
  | [], size => .ok (.ok size)
  | e :: es, size =>
    let size := size + e.data.length
    if e.entryType == .entryConfChange then .ok (.error .logGapConfChange)
    else if e.data.length == 0 then scanMergeGap codec es size
    else
      match codec.unmarshalRequest e.data with
      | none => .error "data is corrupted"
      | some cmd =>
        match cmd.adminRequest with
        | none => scanMergeGap codec es size
        | some admin =>
          match admin.cmdType with
          | .transferLeader | .computeHash | .verifyHash | .invalidAdmin => scanMergeGap codec es size
          | t => .ok (.error (.logGapAdmin t))

namespace Peer

/-! ## Proposal bookkeeping -/

/-- `PostPropose(meta, isConfChange, cb)`: the meta gets the time now, and the command waits in
`applyProposals`. -/
def postPropose (p : Peer) (meta : ProposalMeta) (isConfChange : Bool) (cb : Callback)
    (now : Time) : Peer :=
  let meta := { meta with renewLeaseTime := some now }
  { p with
    applyProposals := p.applyProposals ++ [⟨isConfChange, meta.index, meta.term, cb⟩]
    proposals := p.proposals.push meta }

/-- `GetMinProgress()`: the least match of the group, and 0 for no progress. -/
def getMinProgress (p : Peer) : Nat :=
  match p.raftGroup.progress with
  | [] => 0
  | prs => prs.foldl (fun m e => min m e.2.matchIdx) 18446744073709551615

/-! ## Normal proposals -/

/-- `preProposePrepareMerge(cfg, req)`: a merge is refused when the log gap to the slowest peer
is empty or too long, holds a conf change or an epoch-changing admin request, or is too large;
otherwise the request's `MinIndex` is set. The size check `entrySize > RaftEntryMaxSize * 0.9`
is taken exactly. -/
def preProposePrepareMerge (p : Peer) (cfg : Config) (codec : Codec) (req : RaftCmdRequest) :
    Except String (Except RaftError RaftCmdRequest) :=
  let lastIndex := p.raftGroup.lastIndex
  let minProgress := p.getMinProgress
  let minIndex := minProgress + 1
  if minProgress == 0 || subUint64 lastIndex minProgress > cfg.mergeMaxLogGap then
    .ok (.error (.logGapTooLarge minProgress lastIndex))
  else
    match p.raftGroup.entries minIndex with
    | .error err => .ok (.error err)
    | .ok ents =>
      match scanMergeGap codec ents 0 with
      | .error e => .error e
      | .ok (.error err) => .ok (.error err)
      | .ok (.ok entrySize) =>
        if 10 * entrySize > 9 * cfg.raftEntryMaxSize then .ok (.error .logGapSize)
        else .ok (.ok (setMinIndex req minIndex))

/-- `PrePropose(cfg, rlog)`: the proposal context of a command — sync-log, split, and
prepare-merge once the merge passes its checks — and the log, updated in place. -/
def prePropose (p : Peer) (cfg : Config) (codec : Codec) (rlog : RaftLog) :
    Except String (Except RaftError (ProposalContext × RaftLog)) :=
  match rlog.getRaftCmdRequest with
  | none => .ok (.ok (0, rlog))
  | some req =>
    let ctx : ProposalContext :=
      if getSyncLogFromRequest req then ProposalContext.insert 0 proposalContextSyncLog else 0
    match req.adminRequest with
    | none => .ok (.ok (ctx, rlog))
    | some admin =>
      let ctx := if admin.cmdType == .split || admin.cmdType == .batchSplit then
        ProposalContext.insert ctx proposalContextSplit else ctx
      match admin.prepareMerge with
      | none => .ok (.ok (ctx, rlog))
      | some _ =>
        match p.preProposePrepareMerge cfg codec req with
        | .error e => .error e
        | .ok (.error err) => .ok (.error err)
        | .ok (.ok req) =>
          .ok (.ok (ProposalContext.insert ctx proposalContextPrepareMerge, rlog.setRequest req))

/-- `ProposeNormal(cfg, rlog)`: propose the command with its context; it returns the index the
entry gets. A proposal the library takes without appending is `ErrNotLeader`. -/
def proposeNormal (p : Peer) (cfg : Config) (codec : Codec) (rlog : RaftLog)
    (answer : ProposeAnswer) : Except String (Except RaftError (Nat × Peer)) :=
  let adminType := ((rlog.getRaftCmdRequest.bind (·.adminRequest)).map (·.cmdType)).getD
    .invalidAdmin
  if p.pendingMergeState && adminType != .rollbackMerge then .ok (.error .mergingMode) else
  match p.prePropose cfg codec rlog with
  | .error e => .error e
  | .ok (.error err) => .ok (.error err)
  | .ok (.ok (ctx, rlog)) =>
    let data := rlog.marshal codec
    if data.length > cfg.raftEntryMaxSize then
      .ok (.error (.raftEntryTooLarge p.regionID data.length))
    else
      let proposeIndex := p.nextProposalIndex
      match p.raftGroup.propose (ProposalContext.toBytes ctx) data answer with
      | .error err => .ok (.error err)
      | .ok raftGroup =>
        let p := { p with raftGroup := raftGroup }
        if proposeIndex == p.nextProposalIndex then .ok (.error (.notLeader p.regionID))
        else .ok (.ok (proposeIndex, p))

/-! ## Conf changes -/

/-- `countHealthyNode(progress)`: the nodes whose match reaches the truncated index. -/
def countHealthyNode (p : Peer) (progress : List (Nat × Progress)) : Nat :=
  progress.countP fun e => decide (p.peerStorage.truncatedIndex ≤ e.2.matchIdx)

/-- The progress map after a conf change, as `checkConfChange` simulates it: `none` when the
change is safe without counting. -/
def progressAfterChange (progress : List (Nat × Progress)) (changeType : ConfChangeType)
    (peer : MetaPeer) : Option (List (Nat × Progress)) :=
  match changeType with
  | .addNode =>
    match mapGet progress peer.id with
    | some pr =>
      if pr.isLearner then some (mapSet progress peer.id { pr with isLearner := false })
      else some (mapSet progress peer.id emptyProgress)
    | none => some (mapSet progress peer.id emptyProgress)
  | .removeNode =>
    if peer.role == .learner then none
    else if (mapGet progress peer.id).isSome then some (mapDelete progress peer.id)
    else none
  | .addLearnerNode => none

/-- `checkConfChange(cfg, cmd)`: refuse malformed requests and the removal of the leader when
the configuration forbids it, then refuse a change after which fewer than a quorum of the
progress map's nodes would be healthy. -/
def checkConfChange (p : Peer) (cfg : Config) (cmd : RaftCmdRequest) :
    Except String (Option RaftError) :=
  match getChangePeerCmd cmd with
  | none => .error nilDeref
  | some changePeer =>
    let changeType := changePeer.changeType
    let peer := changePeer.peer
    if (changeType == .addNode && peer.role == .learner) ||
        (changeType == .addLearnerNode && !(peer.role == .learner)) then
      .ok (some .invalidConfChange)
    else if changeType == .removeNode && !cfg.allowRemoveLeader && peer.id == p.peerID then
      .ok (some .ignoreRemoveLeader)
    else
      let total := p.raftGroup.progress.length
      if total == 1 then .ok none else
      match progressAfterChange p.raftGroup.progress changeType peer with
      | none => .ok none
      | some progress =>
        let healthy := p.countHealthyNode progress
        let quorumAfterChange := quorum progress.length
        if healthy ≥ quorumAfterChange then .ok none
        else .ok (some (.unsafeConfChange changePeer total healthy quorumAfterChange))

/-- `ProposeConfChange(cfg, req)`: refuse while merging or while a conf change is pending, check
the change, and propose it with the sync-log context. -/
def proposeConfChange (p : Peer) (cfg : Config) (codec : Codec) (req : RaftCmdRequest)
    (answer : ProposeAnswer) : Except String (Except RaftError (Nat × Peer)) :=
  if p.pendingMergeState then .ok (.error .mergingMode)
  else if p.raftGroup.pendingConfIndex > p.peerStorage.appliedIndex then
    .ok (.error .pendingConfChange)
  else
    match p.checkConfChange cfg req with
    | .error e => .error e
    | .ok (some err) => .ok (.error err)
    | .ok none =>
      match getChangePeerCmd req with
      | none => .error nilDeref
      | some changePeer =>
        let cc : ConfChange :=
          { changeType := changePeer.changeType, nodeId := changePeer.peer.id,
            context := codec.marshalRequest req }
        let proposeIndex := p.nextProposalIndex
        match p.raftGroup.proposeConfChange codec (ProposalContext.toBytes proposalContextSyncLog)
            cc answer with
        | .error err => .ok (.error err)
        | .ok raftGroup =>
          let p := { p with raftGroup := raftGroup }
          if p.nextProposalIndex == proposeIndex then .ok (.error (.notLeader p.regionID))
          else .ok (.ok (proposeIndex, p))

/-! ## Leader transfer -/

/-- `readyToTransferLeader(cfg, peer)`: the target is in the group, nobody is receiving a
snapshot, the target was not added recently, and it lags at most the allowed log gap. -/
def readyToTransferLeader (p : Peer) (cfg : Config) (peer : MetaPeer) (now : Time) : Bool :=
  let progress := p.raftGroup.progress
  match mapGet progress peer.id with
  | none => false
  | some pr =>
    if progress.any (·.2.state == .snapshot) then false
    else if p.recentAddedPeer.contains peer.id now then false
    else p.peerStorage.lastIndex ≤ pr.matchIdx + cfg.leaderTransferMaxLogLag

/-- `ProposeTransferLeader(cfg, req, cb)`: transfer when ready; the callback is answered at
once either way. -/
def proposeTransferLeader (p : Peer) (cfg : Config) (req : RaftCmdRequest) (cb : Callback)
    (now : Time) : Except String (Peer × Bool) :=
  match getTransferLeaderCmd req with
  | none => .error nilDeref
  | some peer =>
    let transferred := p.readyToTransferLeader cfg peer now
    let p := if transferred then { p with raftGroup := p.raftGroup.transferLeader peer.id } else p
    .ok (p.complete cb makeTransferLeaderResponse, transferred)

/-! ## Reads -/

/-- `readLocal(kv, req, cb)`. -/
def readLocal (p : Peer) (req : RaftCmdRequest) (cb : Callback) : Except String Peer :=
  (p.handleRead req false).map (p.complete cb ·)

/-- `preReadIndex()`. -/
def preReadIndex (p : Peer) : Option RaftError :=
  if p.isSplitting then some .splitting else if p.isMerging then some .merging else none

/-- The second half of `readIndex`: a new read-index round. A request the library drops is
answered as stale; an accepted one is queued, and under a suspect lease an empty entry is
proposed so that the new term gets acknowledged. -/
def newReadIndexRound (p : Peer) (cfg : Config) (codec : Codec) (req : RaftCmdRequest)
    (cb : Callback) (env : ProposeEnv) : Except String (Peer × Bool) :=
  let lastPendingReadCount := p.raftGroup.pendingReadCount
  let lastReadyReadCount := p.raftGroup.readyReadCount
  let (id, pendingReads) := p.pendingReads.nextID
  let raftGroup := p.raftGroup.readIndex (putUint64BE id) env.readIndexAccepted
  let p := { p with pendingReads := pendingReads, raftGroup := raftGroup }
  if raftGroup.pendingReadCount == lastPendingReadCount &&
      raftGroup.readyReadCount == lastReadyReadCount then
    .ok (p.complete cb (errRespStaleCommand p.term), false)
  else
    let p := { p with
      pendingReads := { p.pendingReads with
        reads := p.pendingReads.reads ++ [⟨id, [⟨req, cb⟩], some env.now⟩] } }
    if p.leaderLease.inspect env.now == .suspect then
      match p.proposeNormal cfg codec (.request emptyRequest) env.answer with
      | .error e => .error e
      | .ok (.error _) => .ok (p, true)
      | .ok (.ok (index, p)) =>
        .ok (p.postPropose ⟨index, p.term, some env.now⟩ false .internal env.now, true)
    else .ok (p, true)

/-- `readIndex(cfg, req, errResp, cb)`: refuse while splitting or merging; join the last read
when it is less than a lease old; otherwise start a new round. -/
def readIndex (p : Peer) (cfg : Config) (codec : Codec) (req : RaftCmdRequest)
    (errResp : RaftCmdResponse) (cb : Callback) (env : ProposeEnv) :
    Except String (Peer × Bool) :=
  match p.preReadIndex with
  | some err => .ok (p.complete cb (bindRespError errResp err), false)
  | none =>
    match p.pendingReads.reads.getLast? with
    | some read =>
      match read.renewLeaseTime with
      | none => .error nilDeref
      | some t =>
        if t + cfg.raftStoreMaxLeaderLease > env.now then
          .ok ({ p with
            pendingReads := { p.pendingReads with
              reads := p.pendingReads.reads.dropLast ++ [{ read with cmds := read.cmds ++ [⟨req, cb⟩] }] } },
            false)
        else p.newReadIndexRound cfg codec req cb env
    | none => p.newReadIndexRound cfg codec req cb env

/-! ## Propose -/

/-- The end of `Propose` for a command proposed to the log: answer the error, or mark an urgent
proposal and hand the command to `PostPropose`. -/
def finishPropose (p : Peer) (cb : Callback) (errResp : RaftCmdResponse) (isUrgent : Bool)
    (isConfChange : Bool) (now : Time) : Except String (Except RaftError (Nat × Peer)) →
    Except String (Peer × Bool)
  | .error e => .error e
  | .ok (.error err) => .ok (p.complete cb (bindRespError errResp err), false)
  | .ok (.ok (idx, p)) =>
    let p := if isUrgent then
      { p with lastUrgentProposalIdx := idx, raftGroup := p.raftGroup.setSkipBcastCommit false }
      else p
    .ok (p.postPropose ⟨idx, p.term, none⟩ isConfChange cb now, true)

/-- `Propose(kv, cfg, cb, rlog, errResp)`: `true` when the command was proposed to the log. -/
def propose (p : Peer) (cfg : Config) (codec : Codec) (cb : Callback) (rlog : RaftLog)
    (errResp : RaftCmdResponse) (env : ProposeEnv) : Except String (Peer × Bool) :=
  if p.pendingRemove then .ok (p, false) else
  let isUrgent := isUrgentRequest rlog
  let ((policy, err), p) := p.inspect rlog env.now
  match err with
  | some err => .ok (p.complete cb (bindRespError errResp err), false)
  | none =>
    match policy, rlog.getRaftCmdRequest with
    | .readLocal, some req => (p.readLocal req cb).map (·, false)
    | .readIndex, some req => p.readIndex cfg codec req errResp cb env
    | .proposeNormal, _ =>
      p.finishPropose cb errResp isUrgent false env.now (p.proposeNormal cfg codec rlog env.answer)
    | .proposeTransferLeader, some req => p.proposeTransferLeader cfg req cb env.now
    | .proposeConfChange, some req =>
      p.finishPropose cb errResp isUrgent true env.now
        (p.proposeConfChange cfg codec req env.answer)
    | .invalid, _ => p.finishPropose cb errResp isUrgent false env.now (.ok (.ok (0, p)))
    | _, none => .error nilDeref

end Peer

end RaftStore
