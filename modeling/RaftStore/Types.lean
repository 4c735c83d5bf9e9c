import Mathlib.Data.List.Basic

/-!
# RaftStore.Types

The records the peer controller of `raftstore/peer.go` reads and writes: the `metapb` region
and peer descriptors, the `eraftpb` entries, messages and readies of the consensus library,
the `raft_cmdpb` requests a store proposes, and the responses and errors the peer hands back
through callbacks.

Only the fields that a modelled function reads or writes are kept. Unsigned 64-bit indices,
terms and ids are `Nat`: no modelled function computes near `2 ^ 64`, and the two sentinels of
the source (`math.MaxInt64`, `math.MaxUint64`) are kept as numbers where they are used.
-/

set_option autoImplicit false

namespace RaftStore

/-- `time.Time`: nanoseconds on one clock. A `*time.Time` is an `Option Time`. -/
abbrev Time := Nat

/-! ## Regions and peers (`metapb`) -/

/-- `metapb.PeerRole`. -/
inductive PeerRole
  | voter | learner | incomingVoter | demotingVoter
  deriving DecidableEq, Repr

/-- `metapb.Peer`: one replica of a region, on one store. -/
structure MetaPeer where
  id : Nat
  storeId : Nat
  role : PeerRole
  deriving DecidableEq, Repr

/-- `metapb.RegionEpoch`: `confVer` moves on membership changes, `version` on splits and
merges. -/
structure RegionEpoch where
  confVer : Nat
  version : Nat
  deriving DecidableEq, Repr

/-- `metapb.Region`. -/
structure Region where
  id : Nat
  startKey : List UInt8
  endKey : List UInt8
  regionEpoch : RegionEpoch
  peers : List MetaPeer
  deriving DecidableEq, Repr

/-! ## The consensus library's records (`eraftpb`, `raft`) -/

/-- `raft.StateType`: the role of the local raft node. -/
inductive StateType
  | follower | candidate | leader | preCandidate
  deriving DecidableEq, Repr

/-- `eraftpb.MessageType`. -/
inductive MessageType
  | msgHup | msgBeat | msgPropose | msgAppend | msgAppendResponse | msgRequestVote
  | msgRequestVoteResponse | msgSnapshot | msgHeartbeat | msgHeartbeatResponse
  | msgUnreachable | msgSnapStatus | msgCheckQuorum | msgTransferLeader | msgTimeoutNow
  | msgReadIndex | msgReadIndexResp | msgRequestPreVote | msgRequestPreVoteResponse
  deriving DecidableEq, Repr

/-- `eraftpb.Message`, with the fields the peer reads (`To` and `From` are `toId` and
`fromId`). -/
structure Message where
  msgType : MessageType
  toId : Nat
  fromId : Nat
  term : Nat
  commit : Nat
  deriving DecidableEq, Repr

/-- `raft_serverpb.RaftMessage`: a consensus message wrapped with its region, epoch and peers;
an initial message also carries the region's key range. -/
structure RaftMessage where
  regionId : Nat
  fromPeer : MetaPeer
  toPeer : MetaPeer
  regionEpoch : RegionEpoch
  message : Message
  startKey : List UInt8
  endKey : List UInt8
  deriving DecidableEq, Repr

/-- `eraftpb.EntryType`. -/
inductive EntryType
  | entryNormal | entryConfChange
  deriving DecidableEq, Repr

/-- `eraftpb.Entry`. -/
structure Entry where
  entryType : EntryType
  term : Nat
  index : Nat
  data : List UInt8
  context : List UInt8
  deriving DecidableEq, Repr

/-- `eraftpb.ConfChangeType`. -/
inductive ConfChangeType
  | addNode | removeNode | addLearnerNode
  deriving DecidableEq, Repr

/-- `eraftpb.ConfChange`; `context` holds the marshalled admin request. -/
structure ConfChange where
  changeType : ConfChangeType
  nodeId : Nat
  context : List UInt8
  deriving DecidableEq, Repr

/-- An `eraftpb.Snapshot`: its metadata and the region stored in its data. -/
structure Snapshot where
  index : Nat
  term : Nat
  region : Region
  deriving DecidableEq, Repr

/-- `raft.SoftState`: the volatile leader id and role, present in a ready when they changed. -/
structure SoftState where
  lead : Nat
  raftState : StateType
  deriving DecidableEq, Repr

/-- `raft.ReadState`: a read-index context the library confirmed at `index`. -/
structure ReadState where
  index : Nat
  requestCtx : List UInt8
  deriving DecidableEq, Repr

/-- `raft.Ready`. A snapshot-less ready has `snapshot = none` (the source fills in empty
metadata instead). -/
structure Ready where
  softState : Option SoftState
  entries : List Entry
  snapshot : Option Snapshot
  committedEntries : List Entry
  messages : List Message
  readStates : List ReadState
  deriving DecidableEq, Repr

/-- `raft.ProgressStateType`. -/
inductive ProgressStateType
  | probe | replicate | snapshot
  deriving DecidableEq, Repr

/-- `raft.Progress`, as `Status()` reports it (`Match` is `matchIdx`). -/
structure Progress where
  matchIdx : Nat
  isLearner : Bool
  state : ProgressStateType
  deriving DecidableEq, Repr

/-! ## Requests (`raft_cmdpb`) -/

/-- `raft_cmdpb.CmdType`. -/
inductive CmdType
  | invalid | get | put | delete | snap | prewrite | deleteRange | ingestSST | readIndex
  deriving DecidableEq, Repr

/-- `raft_cmdpb.Request`: one data command of a batch. -/
structure Request where
  cmdType : CmdType
  deriving DecidableEq, Repr

/-- `raft_cmdpb.AdminCmdType`. -/
inductive AdminCmdType
  | invalidAdmin | changePeer | split | compactLog | transferLeader | computeHash
  | verifyHash | prepareMerge | commitMerge | rollbackMerge | batchSplit
  deriving DecidableEq, Repr

/-- `raft_cmdpb.ChangePeerRequest`. -/
structure ChangePeerRequest where
  changeType : ConfChangeType
  peer : MetaPeer
  deriving DecidableEq, Repr

/-- `raft_cmdpb.AdminRequest`, with the sub-requests the peer reads. `prepareMerge` holds the
`MinIndex` the peer fills in before proposing. -/
structure AdminRequest where
  cmdType : AdminCmdType
  changePeer : Option ChangePeerRequest
  transferLeader : Option MetaPeer
  prepareMerge : Option Nat
  deriving DecidableEq, Repr

/-- `raft_cmdpb.RaftRequestHeader`. -/
structure RaftRequestHeader where
  regionId : Nat
  regionEpoch : Option RegionEpoch
  term : Nat
  syncLog : Bool
  readQuorum : Bool
  deriving DecidableEq, Repr

/-- `raft_cmdpb.RaftCmdRequest`. -/
structure RaftCmdRequest where
  header : Option RaftRequestHeader
  requests : List Request
  adminRequest : Option AdminRequest
  deriving DecidableEq, Repr

/-- The `kvproto` codec the peer calls into: marshalling requests and conf changes, and
unmarshalling entry data back into a request. -/
structure Codec where
  marshalRequest : RaftCmdRequest → List UInt8
  unmarshalRequest : List UInt8 → Option RaftCmdRequest
  marshalConfChange : ConfChange → List UInt8

/-- `raftlog.RaftLog` (the interface of `raftlog/log.go`): a log made by `raftlog.NewRequest`
around a request, or a log with its own encoding and the request it converts to, if any. -/
inductive RaftLog
  | request (req : RaftCmdRequest)
  | custom (req : Option RaftCmdRequest) (data : List UInt8)
  deriving DecidableEq, Repr

namespace RaftLog

/-- `GetRaftCmdRequest()`. -/
def getRaftCmdRequest : RaftLog → Option RaftCmdRequest
  | .request req => some req
  | .custom req _ => req

/-- `Marshal()`: a request log is marshalled from its request as it is now. -/
def marshal (codec : Codec) : RaftLog → List UInt8
  | .request req => codec.marshalRequest req
  | .custom _ data => data

/-- An in-place update of the request a log points to; a custom log's request is a converted
copy, so its encoding does not see the update. -/
def setRequest (l : RaftLog) (req : RaftCmdRequest) : RaftLog :=
  match l with
  | .request _ => .request req
  | .custom _ data => .custom (some req) data

end RaftLog

/-! ## Errors and responses -/

/-- The errors the peer binds into responses or returns, one constructor per site, each
carrying what its message formats. -/
inductive RaftError
  /-- `ErrRegionNotFound{RegionID}`. -/
  | regionNotFound (regionId : Nat)
  /-- `ErrStaleCommand{}`. -/
  | staleCommand
  /-- `ErrNotLeader{RegionID}`: the consensus library dropped the proposal silently. -/
  | notLeader (regionId : Nat)
  /-- `ErrRaftEntryTooLarge{RegionID, EntrySize}`. -/
  | raftEntryTooLarge (regionId entrySize : Nat)
  /-- `ErrEpochNotMatch`: "current epoch of region %d is %s, but you sent %s". -/
  | epochNotMatch (regionId : Nat) (current : RegionEpoch) (sent : RegionEpoch)
  /-- "mismatch peer id %d != %d". -/
  | mismatchPeerId (sent expected : Nat)
  /-- "missing epoch". -/
  | missingEpoch
  /-- "invalid peer id". -/
  | invalidPeerId
  /-- "failed to lookup recipient peer %v in region %v". -/
  | recipientNotFound (peerId regionId : Nat)
  /-- The transport refused a message. -/
  | transport
  /-- The consensus library refused a proposal with an error. -/
  | proposalDropped
  /-- The consensus library's log no longer holds the entries asked for. -/
  | compacted
  /-- "can not read index due to split". -/
  | splitting
  /-- "can not read index due to merge". -/
  | merging
  /-- "peer in merging mode, can't do proposal". -/
  | mergingMode
  /-- "%v there is a pending conf change, try later". -/
  | pendingConfChange
  /-- "invalid conf change request". -/
  | invalidConfChange
  /-- "ignore remove leader". -/
  | ignoreRemoveLeader
  /-- "unsafe to perform conf change %v, total %v, healthy %v, quorum after chagne %v". -/
  | unsafeConfChange (changePeer : ChangePeerRequest) (total healthy quorum : Nat)
  /-- "invalid cmd type %v, message maybe corrupted". -/
  | invalidCmdType (cmdType : CmdType)
  /-- "read and write can't be mixed in one batch". -/
  | mixedReadWrite
  /-- "log gap (%v, %v] is too large, skip merge". -/
  | logGapTooLarge (minProgress lastIndex : Nat)
  /-- "log gap contains conf change, skip merging". -/
  | logGapConfChange
  /-- "log gap contains admin request %v, skip merging". -/
  | logGapAdmin (cmdType : AdminCmdType)
  /-- "log gap size exceed entry size limit, skip merging". -/
  | logGapSize
  deriving DecidableEq, Repr

/-- `raft_cmdpb.Response`: the answer to one data command. -/
structure Response where
  cmdType : CmdType
  deriving DecidableEq, Repr

/-- `raft_cmdpb.RaftCmdResponse`: the header's error and current term, the data responses, and
the admin response's command type. -/
structure RaftCmdResponse where
  error : Option RaftError
  currentTerm : Nat
  responses : List Response
  adminResponse : Option AdminCmdType
  deriving DecidableEq, Repr

/-- Modelled from the spec: `ErrResp` (outside the source) makes a response that carries only
`err`. -/
def errResp (err : RaftError) : RaftCmdResponse :=
  { error := some err, currentTerm := 0, responses := [], adminResponse := none }

/-- Modelled from the spec: `BindRespTerm(resp, term)` binds the current term to a response. -/
def bindRespTerm (resp : RaftCmdResponse) (term : Nat) : RaftCmdResponse :=
  { resp with currentTerm := term }

/-- Modelled from the spec: `BindRespError(resp, err)` sets the error of a caller-made
response. -/
def bindRespError (resp : RaftCmdResponse) (err : RaftError) : RaftCmdResponse :=
  { resp with error := some err }

/-- Modelled from the spec: `ErrRespStaleCommand(term)` is a stale-command error bound to the
current term. -/
def errRespStaleCommand (term : Nat) : RaftCmdResponse :=
  bindRespTerm (errResp .staleCommand) term

/-- A `*Callback`: one handed in by whoever proposes a command, or one the peer makes itself
with `NewCallback()` (nobody waits on those). -/
inductive Callback
  | handed (id : Nat)
  | internal
  deriving DecidableEq, Repr

end RaftStore
