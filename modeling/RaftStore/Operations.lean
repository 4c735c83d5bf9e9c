import RaftStore.Liveness

/-!
# RaftStore.Operations

What whole operations may change, for the invariants over runs of operations (`runOps`):

* `newPeer_ok` — what the peer `NewPeer` creates starts from;
* `call_eq` — the store's calls change the cache, the recently added peer, the pending peers'
  start times, the leader-missing clock, the node, the storage's snapshot state and the size
  hints, and nothing else;
* `readyCycle_invariant` — a ready cycle keeps what its three stages keep: the append, the
  persist, and the apply;
* `exec_keeps` — no action changes the region id, the recently added peer or the start times,
  or starts the leader-missing clock, and the removal flag changes only with the checker's
  validity;
* `recentAddedPeer_run` — only `RecentAddedPeer.Update` changes the recently added peer;
* `transfer_refused_after_update` — so once the store has recorded a newly added peer
  (`RecentAddedPeer.Update`), every leader transfer to it is refused until the reject duration
  has passed, whatever else the peer does in between.
-/

set_option autoImplicit false

namespace RaftStore

namespace Peer

variable {cfg : Config} {codec : Codec} {trans : Transport} {p p' : Peer}

/-! ## Creation -/

/-- The peer `NewPeer` creates: its descriptor and region id, nothing cached, sent or queued, and
not being removed. -/
theorem newPeer_ok {storeID : Nat} {region : Region} {peer : MetaPeer} {ps : PeerStorage}
    {raftGroup campaigned : RawNode} {now : Time}
    (hn : newPeer storeID cfg region peer ps raftGroup campaigned now = .ok p) :
    p.meta = peer ∧ p.regionID = region.id ∧ p.peerCache = [] ∧ p.sent = [] ∧
      p.pendingReads = ⟨0, [], 0⟩ ∧ p.pendingRemove = false ∧ p.leaderChecker.invalid = false := by
  unfold newPeer at hn
  split at hn
  · cases hn
  · cases hn
    exact ⟨rfl, rfl, rfl, rfl, rfl, rfl, rfl⟩

/-! ## The store's calls -/

/-- What a call may change; only the cache's own calls and the PD heartbeat change the cache,
only `RecentAddedPeer.Update` changes the recently added peer, and only the PD heartbeat records
start times, keeping those recorded, while `AnyNewPeerCatchUp` forgets some; only
`CheckStaleState` moves the leader-missing clock. -/
theorem call_eq (cfg : Config) (p : Peer) (c : StoreCall) :
    ∃ pc rap st lm rg a dk sd, p.call cfg c = { p with
      peerCache := pc, recentAddedPeer := rap, peersStartPendingTime := st,
      leaderMissingTime := lm, raftGroup := rg, peerStorage := { p.peerStorage with applying := a },
      deleteKeysHint := dk, sizeDiffHint := sd } ∧
      (pc = p.peerCache ∨ (∃ peer, c = .insertPeerCache peer) ∨ (∃ id, c = .removePeerCache id) ∨
        ∃ now size keys, c = .heartbeatPd now size keys) ∧
      (rap = p.recentAddedPeer ∨ ∃ i t, c = .updateRecentAddedPeer i t) ∧
      (st = p.peersStartPendingTime ∨
        (∃ id, c = .anyNewPeerCatchUp id ∧ List.Sublist st p.peersStartPendingTime) ∨
        ∃ now size keys, c = .heartbeatPd now size keys ∧
          ∀ j t, mapGet p.peersStartPendingTime j = some t → mapGet st j = some t) ∧
      (lm = p.leaderMissingTime ∨ ∃ now, c = .checkStaleState now) := by
  cases c with
  | insertPeerCache peer =>
    exact ⟨_, _, _, _, _, _, _, _, rfl, .inr (.inl ⟨peer, rfl⟩), .inl rfl, .inl rfl, .inl rfl⟩
  | removePeerCache id =>
    exact ⟨_, _, _, _, _, _, _, _, rfl, .inr (.inr (.inl ⟨id, rfl⟩)), .inl rfl, .inl rfl, .inl rfl⟩
  | updateRecentAddedPeer i t =>
    exact ⟨_, _, _, _, _, _, _, _, rfl, .inl rfl, .inr ⟨i, t, rfl⟩, .inl rfl, .inl rfl⟩
  | heartbeatPd now size keys =>
    obtain ⟨-, ⟨pc, st, he⟩, -, hkeep, -⟩ :=
      collectPendingPeersFrom_spec p.peerStorage.truncatedIndex now p.raftGroup.progress [] p
    exact ⟨pc, _, st, _, _, _, _, _, he, .inr (.inr (.inr ⟨now, size, keys, rfl⟩)), .inl rfl,
      .inr (.inr ⟨now, size, keys, rfl, fun j t h => by simpa only [he] using hkeep j t h⟩),
      .inl rfl⟩
  | anyNewPeerCatchUp peerID =>
    simp only [call, anyNewPeerCatchUp_eq]
    refine ⟨_, _, _, _, _, _, _, _, rfl, .inl rfl, .inl rfl, .inr (.inl ⟨peerID, rfl, ?_⟩),
      .inl rfl⟩
    split_ifs
    exacts [List.filter_sublist _, .refl _, List.nil_sublist _]
  | checkStaleState now =>
    simp only [call, checkStaleState]
    split
    · exact ⟨_, _, _, _, _, _, _, _, rfl, .inl rfl, .inl rfl, .inl rfl, .inr ⟨now, rfl⟩⟩
    · split
      · exact ⟨_, _, _, _, _, _, _, _, rfl, .inl rfl, .inl rfl, .inl rfl, .inr ⟨now, rfl⟩⟩
      · split_ifs <;> exact ⟨_, _, _, _, _, _, _, _, rfl, .inl rfl, .inl rfl, .inl rfl, .inr ⟨now, rfl⟩⟩
  | maybeCampaign parentIsLeader campaigned =>
    simp only [call, maybeCampaign]
    split <;> exact ⟨_, _, _, _, _, _, _, _, rfl, .inl rfl, .inl rfl, .inl rfl, .inl rfl⟩
  | stop cancelled =>
    simp only [call, stop, PeerStorage.cancelApplyingSnap]
    split <;> exact ⟨_, _, _, _, _, _, _, _, rfl, .inl rfl, .inl rfl, .inl rfl, .inl rfl⟩
  | postSplit => exact ⟨_, _, _, _, _, _, _, _, rfl, .inl rfl, .inl rfl, .inl rfl, .inl rfl⟩

/-! ## The ready cycle -/

/-- A ready cycle keeps what the append stage, the persist stage and the apply stage keep. -/
theorem readyCycle_invariant (Inv : Peer → Prop) {env : AppendEnv}
    (happend : ∀ q, Inv q → Inv (q.handleRaftReadyAppend trans env).1)
    (hpersist : ∀ {q q' : Peer} {rd rd' : Ready} {ctx : InvokeContext} {r : Option ApplySnapResult},
      Inv q → q.postRaftReadyPersistent trans rd ctx env.now = .ok (q', rd', r) → Inv q')
    (happly : ∀ {q q' : Peer} {rd : Ready}, Inv q → q.handleRaftReadyApply rd env.now = .ok q' →
      Inv q')
    (h : p.readyCycle trans env = .ok p') (hi : Inv p) : Inv p' := by
  have h1 := happend p hi
  unfold readyCycle at h
  split at h <;> rename_i hg <;> rw [hg] at h1
  · cases h
    exact h1
  · obtain ⟨⟨p2, rd2, r⟩, h2, h⟩ := except_bind_eq_ok.1 h
    exact happly (hpersist h1 h2) h

/-- The apply stage changes the read queue, the proposals, the lease and the node, and besides
only the fields `HandedOver` lets it. -/
theorem handleRaftReadyApply_frame {rd : Ready} {now : Time}
    (h : p.handleRaftReadyApply rd now = .ok p') :
    p'.regionID = p.regionID ∧ p'.meta = p.meta ∧ p'.peerCache = p.peerCache ∧ p'.sent = p.sent ∧
      p'.recentAddedPeer = p.recentAddedPeer ∧ p'.pendingRemove = p.pendingRemove ∧
      p'.peersStartPendingTime = p.peersStartPendingTime ∧
      p'.leaderMissingTime = p.leaderMissingTime ∧
      p'.leaderChecker = { p.leaderChecker with leaderLease := p'.leaderChecker.leaderLease } := by
  obtain ⟨p1, ⟨q, hh, l, c, u, s, rfl⟩, he⟩ := handleRaftReadyApply_eq p rd now
  rw [he] at h
  obtain ⟨p2, h2, rfl⟩ := except_map_eq_ok.1 h
  obtain ⟨rs, l', c', rfl, -⟩ := applyReads_ok h2
  exact ⟨rfl, rfl, rfl, rfl, rfl, rfl, rfl, rfl, rfl⟩

/-! ## Actions -/

/-- No action changes the region id, the recently added peer or the pending peers' start times,
or starts the leader-missing clock; an action either keeps the removal flag and the checker's
validity, or sets both. -/
theorem exec_keeps {a : Action} (h : p.exec cfg codec trans a = .ok p') :
    p'.regionID = p.regionID ∧ p'.recentAddedPeer = p.recentAddedPeer ∧
      p'.peersStartPendingTime = p.peersStartPendingTime ∧
      (p'.leaderMissingTime = p.leaderMissingTime ∨ p'.leaderMissingTime = none) ∧
      (p'.pendingRemove = p.pendingRemove ∧ p'.leaderChecker.invalid = p.leaderChecker.invalid ∨
        p'.pendingRemove = true ∧ p'.leaderChecker.invalid = true) := by
  cases a with
  | step m now raftGroup =>
    cases h
    obtain ⟨hb, lm, he⟩ := step_eq p m now raftGroup
    have hlm := step_leaderMissingTime p m now raftGroup
    rw [he] at hlm ⊢
    exact ⟨rfl, rfl, rfl, hlm, .inl ⟨rfl, rfl⟩⟩
  | propose cb rlog errResp env =>
    obtain ⟨⟨q, b⟩, hq, rfl⟩ := except_map_eq_ok.1 h
    obtain ⟨_, _, _, _, _, _, _, rfl⟩ := propose_proposed hq
    exact ⟨rfl, rfl, rfl, .inl rfl, .inl ⟨rfl, rfl⟩⟩
  | readyCycle env =>
    refine readyCycle_invariant (fun q => q.regionID = p.regionID ∧
        q.recentAddedPeer = p.recentAddedPeer ∧ q.peersStartPendingTime = p.peersStartPendingTime ∧
        q.leaderMissingTime = p.leaderMissingTime ∧ q.pendingRemove = p.pendingRemove ∧
        q.leaderChecker.invalid = p.leaderChecker.invalid)
      (fun q hq => ?_) (fun hq hp => ?_) (fun hq hp => ?_) h ⟨rfl, rfl, rfl, rfl, rfl, rfl⟩ |>.elim
      fun hr ⟨hk, hs, hlm, hrem⟩ => ⟨hr, hk, hs, .inl hlm, .inl hrem⟩
    · obtain ⟨_, _, _, _, _, _, _, _, _, _, he, -⟩ := handleRaftReadyAppend_appended q trans env
      rw [he]
      exact hq
    · obtain ⟨-, -, _, _, _, _, _, he, -⟩ := postRaftReadyPersistent_eq hp
      rw [he]
      exact hq
    · obtain ⟨hr, -, -, -, hk, hrem, hs, hlm, hc⟩ := handleRaftReadyApply_frame hp
      rw [hr, hk, hrem, hs, hlm, hc]
      exact hq
  | postApply applyState appliedIndexTerm merged metrics =>
    obtain ⟨⟨q, b⟩, hq, rfl⟩ := except_map_eq_ok.1 h
    obtain ⟨-, p2, a, h2, rfl⟩ := postApply_ok hq
    rcases answerConfirmedReads_ok h2 with ⟨rfl, -⟩ | ⟨rs, rfl, -⟩ <;>
      exact ⟨rfl, rfl, rfl, .inl rfl, .inl ⟨rfl, rfl⟩⟩
  | takeApplyProposals =>
    cases h
    rw [takeApplyProposals_eq]
    exact ⟨rfl, rfl, rfl, .inl rfl, .inl ⟨rfl, rfl⟩⟩
  | maybeDestroy cancelled =>
    cases h
    unfold maybeDestroy
    split
    · exact ⟨rfl, rfl, rfl, .inl rfl, .inl ⟨rfl, rfl⟩⟩
    · dsimp only
      split <;> split <;> first
        | exact ⟨rfl, rfl, rfl, .inl rfl, .inl ⟨rfl, rfl⟩⟩
        | exact ⟨rfl, rfl, rfl, .inl rfl, .inr ⟨rfl, rfl⟩⟩
  | destroy keepData =>
    cases h
    exact ⟨rfl, rfl, rfl, .inl rfl, .inl ⟨rfl, rfl⟩⟩
  | setRegion region =>
    cases h
    obtain ⟨l, c, he⟩ := setRegion_eq p region
    rw [he]
    exact ⟨rfl, rfl, rfl, .inl rfl, .inl ⟨rfl, rfl⟩⟩
  | checkPeers now =>
    cases h
    obtain ⟨hb, he⟩ := checkPeers_eq p now
    rw [he]
    exact ⟨rfl, rfl, rfl, .inl rfl, .inl ⟨rfl, rfl⟩⟩

/-! ## Recently added peers -/

/-- A leader refuses to transfer to a peer added within the reject duration. -/
theorem readyToTransferLeader_of_contains {peer : MetaPeer} {now : Time}
    (h : p.recentAddedPeer.contains peer.id now = true) :
    p.readyToTransferLeader cfg peer now = false := by
  simp only [readyToTransferLeader, h, if_true, ite_self]
  split <;> rfl

/-- A run of operations with no `RecentAddedPeer.Update` keeps the recently added peer. -/
theorem recentAddedPeer_run {os : List Op} (hos : ∀ i t, Op.call (.updateRecentAddedPeer i t) ∉ os)
    (h : p.runOps cfg codec trans os = .ok p') : p'.recentAddedPeer = p.recentAddedPeer :=
  runOps_invariant cfg codec trans (fun q => q.recentAddedPeer = p.recentAddedPeer)
    (fun hq he => (exec_keeps he).2.1.trans hq)
    (fun c hc hq => by
      obtain ⟨_, rap, _, _, _, _, _, _, he, -, hrap, -⟩ := call_eq cfg _ c
      rw [he]
      rcases hrap with rfl | ⟨i, t, rfl⟩
      · exact hq
      · exact absurd hc (hos i t))
    h rfl

/-- **A newly added peer is not made leader too early.** After `RecentAddedPeer.Update` records
the transferee at `t0`, and any run of operations with no other update, a leader transfer to it
proposed less than the reject duration after `t0` answers its callback and leaves the node as it
is. -/
theorem transfer_refused_after_update {t0 : Time} {os : List Op}
    (hos : ∀ i t, Op.call (.updateRecentAddedPeer i t) ∉ os) {req : RaftCmdRequest}
    {peer : MetaPeer} (hreq : getTransferLeaderCmd req = some peer)
    (h : (p.call cfg (.updateRecentAddedPeer peer.id t0)).runOps cfg codec trans os = .ok p')
    {now : Time} (hnow : (now - t0) / 1000000000 < p.recentAddedPeer.rejectDurationAsSecs)
    (cb : Callback) :
    p'.proposeTransferLeader cfg req cb now = .ok (p'.complete cb makeTransferLeaderResponse, false) := by
  have hr : p'.recentAddedPeer = p.recentAddedPeer.update peer.id t0 := recentAddedPeer_run hos h
  have hc : p'.recentAddedPeer.contains peer.id now = true := by
    simp [hr, RecentAddedPeer.contains, RecentAddedPeer.update, hnow]
  simp only [proposeTransferLeader, hreq, readyToTransferLeader_of_contains hc]
  rfl

/-- A transfer to peer 2 of `sampleRegion`. -/
def transferToTwo : RaftCmdRequest :=
  { header := none, requests := []
    adminRequest := some { cmdType := .transferLeader, changePeer := none,
                           transferLeader := some ⟨2, 2, .voter⟩, prepareMerge := none } }

/-- Peer 2 is recorded at time 0; the peer is elected and hears from peer 2; a transfer to it a
nanosecond later is refused. -/
theorem transfer_refused_after_update_samplePeer :
    ∃ q, (samplePeer.call sampleConfig (.updateRecentAddedPeer 2 0)).runOps sampleConfig sampleCodec
        sampleTransport
        [.action (.step heartbeat 0 leaderNode), .action (.step (heartbeatResponse 2) 1 leaderNode)] =
        .ok q ∧
      q.proposeTransferLeader sampleConfig transferToTwo .internal 1 =
        .ok (q.complete .internal makeTransferLeaderResponse, false) :=
  ⟨_, rfl, @transfer_refused_after_update sampleConfig sampleCodec sampleTransport samplePeer _ 0
    [.action (.step heartbeat 0 leaderNode), .action (.step (heartbeatResponse 2) 1 leaderNode)]
    (by simp) transferToTwo ⟨2, 2, .voter⟩ rfl rfl 1 (by decide) .internal⟩

end Peer

end RaftStore
