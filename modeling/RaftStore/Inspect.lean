import RaftStore.Peer

/-!
# RaftStore.Inspect

How the peer classifies a command (spec §4.7) and serves reads:

* `inspect` — `Inspect(i, req)`: admin commands by their kind; data commands by a scan that
  fails on `Prewrite`/`Invalid` and on a mix of reads and writes; then reads by read-quorum,
  by whether the current term is applied, and by the lease;
* `ReadExecutor.execute` — `Execute`, which answers `Snap` commands and panics on any other;
* `LeaderChecker.isExpired` — the check foreign readers make against what the peer published
  (`read.go`).
-/

set_option autoImplicit false

namespace RaftStore

/-- `RequestPolicy`. -/
inductive RequestPolicy
  | readLocal | readIndex | proposeNormal | proposeTransferLeader | proposeConfChange | invalid
  deriving DecidableEq, Repr

/-- `GetChangePeerCmd(msg)`. -/
def getChangePeerCmd (req : RaftCmdRequest) : Option ChangePeerRequest :=
  req.adminRequest.bind (·.changePeer)

/-- `getTransferLeaderCmd(req)`. -/
def getTransferLeaderCmd (req : RaftCmdRequest) : Option MetaPeer :=
  req.adminRequest.bind (·.transferLeader)

/-- `getSyncLogFromRequest(req)`. -/
def getSyncLogFromRequest (req : RaftCmdRequest) : Bool :=
  match req.adminRequest with
  | some admin =>
    match admin.cmdType with
    | .changePeer | .split | .batchSplit | .prepareMerge | .commitMerge | .rollbackMerge => true
    | _ => false
  | none => (req.header.map (·.syncLog)).getD false

/-- `IsUrgentRequest(rlog)`. -/
def isUrgentRequest (rlog : RaftLog) : Bool :=
  match rlog.getRaftCmdRequest.bind (·.adminRequest) with
  | none => false
  | some admin =>
    match admin.cmdType with
    | .split | .batchSplit | .changePeer | .computeHash | .verifyHash | .prepareMerge
    | .commitMerge | .rollbackMerge => true
    | _ => false

/-- `makeTransferLeaderResponse()`. -/
def makeTransferLeaderResponse : RaftCmdResponse :=
  { error := none, currentTerm := 0, responses := [], adminResponse := some .transferLeader }

/-! ## Inspecting a command -/

namespace Peer

/-- `hasAppliedToCurrentTerm()`. -/
def hasAppliedToCurrentTerm (p : Peer) : Bool := p.peerStorage.appliedIndexTerm == p.term

/-- `inspectLease()` at time `now`: suspect outside the consensus library's lease; a lease found
expired is expired for good. -/
def inspectLease (p : Peer) (now : Time) : LeaseState × Peer :=
  if !p.raftGroup.inLease then (.suspect, p) else
  let state := p.leaderLease.inspect now
  if state == .expired then (state, { p with leaderLease := p.leaderLease.expire }) else (state, p)

end Peer

/-- The loop of `Inspect` over the data commands: it returns at the first `Prewrite` or
`Invalid`, and as soon as both a read and a write have been seen. -/
def inspectRequests (hasRead hasWrite : Bool) : List Request → Except RaftError (Bool × Bool)
  | [] => .ok (hasRead, hasWrite)
  | r :: rs =>
    let seen : Except RaftError (Bool × Bool) :=
      match r.cmdType with
      | .get | .snap => .ok (true, hasWrite)
      | .delete | .put | .deleteRange | .ingestSST => .ok (hasRead, true)
      | .prewrite | .invalid => .error (.invalidCmdType r.cmdType)
      | _ => .ok (hasRead, hasWrite)
    match seen with
    | .error e => .error e
    | .ok (hasRead, hasWrite) =>
      if hasRead && hasWrite then .error .mixedReadWrite else inspectRequests hasRead hasWrite rs

/-- `Inspect(i, req)`, with the peer as the inspector and `now` as the time it inspects its lease
at. It returns the policy and the error, `RequestPolicyInvalid` with every error. -/
def inspect (p : Peer) (req : RaftCmdRequest) (now : Time) :
    (RequestPolicy × Option RaftError) × Peer :=
  if req.adminRequest.isSome then
    if (getChangePeerCmd req).isSome then ((.proposeConfChange, none), p)
    else if (getTransferLeaderCmd req).isSome then ((.proposeTransferLeader, none), p)
    else ((.proposeNormal, none), p)
  else
    match inspectRequests false false req.requests with
    | .error e => ((.invalid, some e), p)
    | .ok (_, hasWrite) =>
      if hasWrite then ((.proposeNormal, none), p)
      else if (req.header.map (·.readQuorum)).getD false then ((.readIndex, none), p)
      else if !p.hasAppliedToCurrentTerm then ((.readIndex, none), p)
      else
        match p.inspectLease now with
        | (.valid, p) => ((.readLocal, none), p)
        | (_, p) => ((.readIndex, none), p)

/-- `Peer.inspect(rlog)`: a log without a request is proposed as is. -/
def Peer.inspect (p : Peer) (rlog : RaftLog) (now : Time) :
    (RequestPolicy × Option RaftError) × Peer :=
  match rlog.getRaftCmdRequest with
  | none => ((.proposeNormal, none), p)
  | some req => RaftStore.inspect p req now

/-! ## Serving reads -/

/-- Modelled from the spec: `CheckRegionEpoch(req, region, true)` for a data request, which
checks the epoch version the request was sent with. -/
def checkRegionEpoch (req : RaftCmdRequest) (region : Region) : Option RaftError :=
  match req.header.bind (·.regionEpoch) with
  | none => some .missingEpoch
  | some sent =>
    if sent.version != region.regionEpoch.version then
      some (.epochNotMatch region.id region.regionEpoch sent)
    else none

/-- `ReadExecutor`. -/
structure ReadExecutor where
  checkEpoch : Bool

/-- The loop of `Execute` over the commands: a `Snap` is answered, anything else panics. -/
def executeRequests : List Request → Except String (List Response)
  | [] => .ok []
  | r :: rs =>
    match r.cmdType with
    | .snap => (executeRequests rs).map ({ cmdType := r.cmdType } :: ·)
    | _ => .error "unreachable"

/-- `ReadExecutor.Execute(msg, region)`. -/
def ReadExecutor.execute (e : ReadExecutor) (msg : RaftCmdRequest) (region : Region) :
    Except String RaftCmdResponse :=
  match (if e.checkEpoch then checkRegionEpoch msg region else none) with
  | some err => .ok (errResp err)
  | none =>
    (executeRequests msg.requests).map fun resps =>
      { error := none, currentTerm := 0, responses := resps, adminResponse := none }

/-- `handleRead(kv, req, checkEpoch)`: execute against the current region and bind the term. -/
def Peer.handleRead (p : Peer) (req : RaftCmdRequest) (checkEpoch : Bool) :
    Except String RaftCmdResponse :=
  (ReadExecutor.execute ⟨checkEpoch⟩ req p.region).map (bindRespTerm · p.term)

/-! ## The leader checker -/

/-- `kvrpcpb.Context`, the fields `isExpired` reads. -/
structure ReadContext where
  regionId : Nat
  peerId : Nat
  regionEpoch : Option RegionEpoch
  term : Nat
  deriving DecidableEq, Repr

/-- `leaderChecker.isExpired(ctx, snapTime)` (`read.go`), over the remote leases `remotes` its
pointer designates into. Its `(bool, error)` result is the inner `Except`; the outer one is the
nil dereference of a lease pointer that was never published. -/
def LeaderChecker.isExpired (c : LeaderChecker) (remotes : List RemoteLease) (ctx : ReadContext)
    (snapTime : Time) : Except String (Except RaftError Bool) :=
  if c.invalid then .ok (.error (.regionNotFound ctx.regionId))
  else if ctx.peerId != c.peerID then .ok (.error (.mismatchPeerId ctx.peerId c.peerID))
  else if !(ctx.term == 0 || c.term ≤ ctx.term + 1) then .ok (.error .staleCommand)
  else
    match ctx.regionEpoch with
    | none => .ok (.error .missingEpoch)
    | some sent =>
      if sent.version != c.region.regionEpoch.version then
        .ok (.error (.epochNotMatch c.region.id c.region.regionEpoch sent))
      else if c.appliedIndexTerm != c.term then .ok (.ok true)
      else
        match c.leaderLease.bind (remotes[·]?) with
        | some lease => .ok (.ok (lease.inspect snapTime == .expired))
        | none => .error "invalid memory address or nil pointer dereference"

end RaftStore
