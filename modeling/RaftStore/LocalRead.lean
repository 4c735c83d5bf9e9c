import RaftStore.Frame
import RaftStore.Policy

/-!
# RaftStore.LocalRead

When the peer serves a read from its own state (spec §4.7). `Inspect` chooses `ReadLocal` for a
read-only request exactly when the current term is applied, the consensus library says the
leader is in its lease, and the leader lease inspects as valid (`referencePolicy`, which
`Inspect` computes by `inspect_policy_eq_referencePolicy`).
Nothing else is checked, neither the role nor a merge: local reads are safe only if the lease is
expired or suspect whenever the peer may not serve them. Two runs from the peer `NewPeer`
creates show that it is not:

* `merging_leader_reads_locally` — a leader that has handed a prepare-merge entry of its term to
  the apply worker, and so is merging, still reads locally: the entry's context is never
  decoded, so the lease is not made suspect;
* `candidate_keeps_valid_lease` — a leader whose next ready reports it a candidate keeps a valid
  lease and a valid published remote lease: `OnRoleChanged` expires the lease only for a
  follower.

What a read is served with, on either path, is `handleRead`, and `Execute` answers only `Snap`:

* `read_policy_execute_panics` — past the epoch check, a request `Inspect` admits as a read
  panics in `handleRead` exactly when it holds a command other than `Snap`, such as a `Get`.
-/

set_option autoImplicit false

namespace RaftStore

/-! ## Two runs -/

/-- A prepare-merge entry of term 1 at index 6, its context as `ProposeNormal` writes it. -/
def prepareMergeEntry : Entry :=
  { entryType := .entryNormal, term := 1, index := 6, data := []
    context := proposalContextPrepareMerge.toBytes }

/-- The peer is elected at time 0, and at time 1 a ready commits the prepare-merge entry. -/
def mergeTrace : Except String Peer :=
  samplePeer.run sampleConfig sampleCodec sampleTransport
    [.step heartbeat 0 leaderNode, .readyCycle ⟨0, false, some becomeLeader⟩,
     .readyCycle ⟨1, false, some { becomeLeader with softState := none,
                                                     committedEntries := [prepareMergeEntry] }⟩]

/-- At time 2 the leader has handed its prepare-merge entry to the apply worker and has applied
only up to index 5, so it is merging; `Inspect` lets the read go local. -/
theorem merging_leader_reads_locally :
    (newProposalContextFromBytes prepareMergeEntry.context).map
        (·.map (·.contains proposalContextPrepareMerge)) = .ok (some true) ∧
    (mergeTrace.map fun p =>
      (p.isLeader, p.term, p.applyMsgs.getLast?, p.peerStorage.appliedIndex,
        (inspect p snapReadRequest 2).1)) =
      .ok (true, 1, some (.apply 1 1 [prepareMergeEntry]), 5, (.readLocal, none)) :=
  ⟨rfl, rfl⟩

/-- The peer is elected at time 0; at time 1 the library steps to a candidate of term 2 and the
next ready reports it. -/
def candidateTrace : Except String Peer :=
  samplePeer.run sampleConfig sampleCodec sampleTransport
    [.step heartbeat 0 leaderNode, .readyCycle ⟨0, false, some becomeLeader⟩,
     .step heartbeat 1 { sampleNode with state := .candidate, term := 2 },
     .readyCycle ⟨1, false, some { becomeLeader with softState := some ⟨0, .candidate⟩ }⟩]

/-- After the ready that reports it a candidate, the peer is no leader, and at time 2 both its
lease and the remote lease it published inspect as valid. -/
theorem candidate_keeps_valid_lease :
    (candidateTrace.map fun p =>
      (p.isLeader, p.leaderLease.inspect 2,
        (p.leaderChecker.leaderLease.bind (p.leaderLease.remotes[·]?)).map (·.inspect 2))) =
      .ok (false, .valid, some .valid) :=
  rfl

/-! ## Executing what `Inspect` admits as a read -/

/-- `Execute`'s loop answers a list of `Snap` commands, one response each, and panics on a list
with any other command. -/
theorem executeRequests_eq (rs : List Request) :
    executeRequests rs =
      if rs.all (·.cmdType == .snap) then .ok (rs.map fun r => ⟨r.cmdType⟩)
      else .error "unreachable" := by
  induction rs with
  | nil => rfl
  | cons r rs ih =>
    unfold executeRequests
    split <;> rename_i h
    · rw [ih]
      simp only [List.all_cons, List.map_cons, h, beq_self_eq_true, Bool.true_and]
      split <;> rfl
    · simp only [List.all_cons, beq_eq_false_iff_ne.2 h, Bool.false_and, Bool.false_eq_true,
        if_false]

/-- Past the epoch check, `handleRead` answers each command of a request of `Snap` commands and
panics on any other request. -/
theorem handleRead_eq_of_epoch (p : Peer) (req : RaftCmdRequest) {checkEpoch : Bool}
    (hepoch : checkEpoch = true → checkRegionEpoch req p.region = none) :
    (p.handleRead req checkEpoch).map (·.responses) =
      if req.requests.all (·.cmdType == .snap) then .ok (req.requests.map fun r => ⟨r.cmdType⟩)
      else .error "unreachable" := by
  have hnone : (if checkEpoch then checkRegionEpoch req p.region else none) = none := by
    cases checkEpoch
    · rfl
    · exact hepoch rfl
  simp only [Peer.handleRead, ReadExecutor.execute, hnone, executeRequests_eq]
  split <;> rfl

/-- `Inspect` admits a request as a read exactly when it is a data request with neither a
rejected command nor a write. -/
theorem inspect_read_iff (p : Peer) (req : RaftCmdRequest) (now : Time) :
    ((inspect p req now).1.1 = .readLocal ∨ (inspect p req now).1.1 = .readIndex) ↔
      req.adminRequest = none ∧ mixedOrRejected req.requests = false ∧
        anyCmd CmdType.isWrite req.requests = false := by
  rw [(inspect_policy_error p req now).1]
  unfold referencePolicy
  cases req.adminRequest with
  | some a =>
    dsimp only
    split_ifs <;> simp
  | none =>
    dsimp only
    split_ifs <;> simp [*]

/-- **`Inspect` admits reads that `Execute` cannot serve.** Past the epoch check, a request that
`Inspect` admits as a read panics in `handleRead` exactly when it is a data request with neither
a rejected command nor a write, and with a command other than `Snap`: a `Get` or a `ReadIndex`.
This holds on the local path and on the read-index path alike. -/
theorem read_policy_execute_panics (p : Peer) (req : RaftCmdRequest) (now : Time)
    {checkEpoch : Bool} (hepoch : checkEpoch = true → checkRegionEpoch req p.region = none) :
    ((inspect p req now).1.1 = .readLocal ∨ (inspect p req now).1.1 = .readIndex) ∧
        p.handleRead req checkEpoch = .error "unreachable" ↔
      req.adminRequest = none ∧ mixedOrRejected req.requests = false ∧
        anyCmd CmdType.isWrite req.requests = false ∧ ∃ r ∈ req.requests, r.cmdType ≠ .snap := by
  have hexec := handleRead_eq_of_epoch p req hepoch
  have hpanic : p.handleRead req checkEpoch = .error "unreachable" ↔
      ∃ r ∈ req.requests, r.cmdType ≠ .snap := by
    rw [← except_map_eq_error (g := (·.responses)), hexec]
    split <;> rename_i h <;> simp_all
  rw [inspect_read_iff, hpanic, and_assoc, and_assoc]

/-- A `Get` of region 1 at epoch version 1, without a read quorum. -/
def getReadRequest : RaftCmdRequest := { snapReadRequest with requests := [⟨.get⟩] }

/-- The follower `NewPeer` creates sends a `Get` through read index, and `handleRead`, which
answers it once the index is confirmed, panics. -/
theorem read_policy_execute_panics_samplePeer :
    ((inspect samplePeer getReadRequest 0).1.1 = .readLocal ∨
        (inspect samplePeer getReadRequest 0).1.1 = .readIndex) ∧
      samplePeer.handleRead getReadRequest true = .error "unreachable" :=
  (read_policy_execute_panics samplePeer getReadRequest 0 fun _ => rfl).2
    ⟨rfl, rfl, rfl, ⟨.get⟩, List.mem_singleton_self _, nofun⟩

/-- On the local path: the peer elected at time 0 serves a `Get` locally at time 2, and the
proposal panics. -/
example : (samplePeer.run sampleConfig sampleCodec sampleTransport
    [.step heartbeat 0 leaderNode, .readyCycle ⟨0, false, some becomeLeader⟩]).map (fun p =>
      ((inspect p getReadRequest 2).1.1,
        p.exec sampleConfig sampleCodec sampleTransport
          (.propose (.handed 0) (.request getReadRequest) (errResp .staleCommand) ⟨2, true, .append⟩))) =
    .ok (.readLocal, .error "unreachable") := rfl

end RaftStore
