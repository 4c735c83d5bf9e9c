import RaftStore.Operations

/-!
# RaftStore.Removal

What a peer being removed publishes to foreign readers. `MaybeDestroy` marks the peer
(`PendingRemove`) and invalidates its leader checker in the same step. Every later publication
is skipped for a peer being removed: the region (`SetRegion`), the term and the remote lease
(`OnRoleChanged`, `MaybeRenewLeaderLease`), and the applied term (`PostApply`); the ready loop
stops at once, and `MaybeDestroy` does nothing more.

* `exec_checker_of_pendingRemove` — no action changes the checker of a peer being removed;
* `checker_invalid_run` — from the peer `NewPeer` creates, over every run of operations, the
  checker is invalid exactly when the peer is being removed, so a peer being removed answers
  every foreign read check with region-not-found;
* `removal_freezes_checker` — from a peer being removed, no run of operations changes the
  checker or clears the removal flag;
* `propose_dropped_after_removal` — and every later `Propose` returns false without proposing,
  queueing or answering anything.
-/

set_option autoImplicit false

namespace RaftStore

/-- An invalid checker answers every read check with region-not-found. -/
theorem LeaderChecker.isExpired_of_invalid {c : LeaderChecker} (h : c.invalid = true)
    (remotes : List RemoteLease) (ctx : ReadContext) (t : Time) :
    c.isExpired remotes ctx t = .ok (.error (.regionNotFound ctx.regionId)) := by
  simp [isExpired, h]

namespace Peer

variable {cfg : Config} {codec : Codec} {trans : Transport} {p p' : Peer}

/-! ## One operation -/

/-- `PostApply` publishes no applied term for a peer being removed. -/
theorem postApply_checker_of_pendingRemove {applyState : ApplyState} {appliedIndexTerm : Nat}
    {merged : Bool} {metrics : ApplyMetrics} {hasReady : Bool}
    (h : p.postApply applyState appliedIndexTerm merged metrics = .ok (p', hasReady))
    (hr : p.pendingRemove = true) : p'.pendingRemove = true ∧ p'.leaderChecker = p.leaderChecker := by
  unfold postApply at h
  split at h
  · cases h
  obtain ⟨p2, h2, h⟩ := except_bind_eq_ok.1 h
  cases h
  have hp2 : p2.pendingRemove = true ∧ p2.leaderChecker = p.leaderChecker := by
    rcases answerConfirmedReads_ok h2 with ⟨rfl, -⟩ | ⟨rs, rfl, -⟩ <;> exact ⟨hr, rfl⟩
  simp [hp2.1, hp2.2]

/-- No action changes the checker of a peer being removed, or clears the flag. -/
theorem exec_checker_of_pendingRemove {a : Action} (h : p.exec cfg codec trans a = .ok p')
    (hr : p.pendingRemove = true) : p'.pendingRemove = true ∧ p'.leaderChecker = p.leaderChecker := by
  cases a with
  | step m now raftGroup =>
    cases h
    obtain ⟨hb, lm, he⟩ := step_eq p m now raftGroup
    rw [he]
    exact ⟨hr, rfl⟩
  | propose cb rlog errResp env =>
    obtain ⟨⟨q, b⟩, hq, rfl⟩ := except_map_eq_ok.1 h
    obtain ⟨_, _, _, _, _, _, _, rfl⟩ := propose_proposed hq
    exact ⟨hr, rfl⟩
  | readyCycle env =>
    have ha : p.handleRaftReadyAppend trans env = (p, none) := by simp [handleRaftReadyAppend, hr]
    simp only [exec, readyCycle, ha] at h
    cases h
    exact ⟨hr, rfl⟩
  | postApply applyState appliedIndexTerm merged metrics =>
    obtain ⟨⟨q, b⟩, hq, rfl⟩ := except_map_eq_ok.1 h
    exact postApply_checker_of_pendingRemove hq hr
  | takeApplyProposals =>
    cases h
    rw [takeApplyProposals_eq]
    exact ⟨hr, rfl⟩
  | maybeDestroy cancelled =>
    cases h
    simp [maybeDestroy, hr]
  | destroy keepData =>
    cases h
    exact ⟨hr, rfl⟩
  | setRegion region =>
    cases h
    unfold setRegion
    dsimp only
    split <;> simp [hr]
  | checkPeers now =>
    cases h
    obtain ⟨hb, he⟩ := checkPeers_eq p now
    rw [he]
    exact ⟨hr, rfl⟩

/-! ## Runs -/

/-- **The checker is invalid exactly while the peer is being removed.** From the peer `NewPeer`
creates, over every run of operations, the checker's validity follows the removal flag, and a
peer being removed answers every foreign read check with region-not-found. -/
theorem checker_invalid_run {storeID : Nat} {region : Region} {peer : MetaPeer} {ps : PeerStorage}
    {raftGroup campaigned : RawNode} {now : Time} {os : List Op}
    (hn : newPeer storeID cfg region peer ps raftGroup campaigned now = .ok p)
    (h : p.runOps cfg codec trans os = .ok p') :
    p'.leaderChecker.invalid = p'.pendingRemove ∧
      (p'.pendingRemove = true → ∀ remotes ctx t,
        p'.leaderChecker.isExpired remotes ctx t = .ok (.error (.regionNotFound ctx.regionId))) := by
  obtain ⟨-, -, -, -, -, hr, hi⟩ := newPeer_ok hn
  have hinv : p'.leaderChecker.invalid = p'.pendingRemove :=
    runOps_invariant cfg codec trans (fun q => q.leaderChecker.invalid = q.pendingRemove)
      (fun hq he => by
        rcases (exec_keeps he).2.2.2.2 with ⟨hr', hi'⟩ | ⟨hr', hi'⟩
        · rw [hr', hi', hq]
        · rw [hr', hi'])
      (fun c _ hq => by
        obtain ⟨_, _, _, _, _, _, _, _, he, -⟩ := call_eq cfg _ c
        rw [he]
        exact hq)
      h (hi.trans hr.symm)
  exact ⟨hinv, fun hrem => LeaderChecker.isExpired_of_invalid (hinv.trans hrem)⟩

/-- The peer `NewPeer` creates, once `MaybeDestroy` has marked it. -/
theorem checker_invalid_run_samplePeer :
    ∃ q, samplePeer.runOps sampleConfig sampleCodec sampleTransport [.action (.maybeDestroy false)] =
        .ok q ∧ q.pendingRemove = true ∧
      (q.leaderChecker.invalid = q.pendingRemove ∧
        (q.pendingRemove = true → ∀ remotes ctx t,
          q.leaderChecker.isExpired remotes ctx t = .ok (.error (.regionNotFound ctx.regionId)))) :=
  ⟨_, rfl, rfl, @checker_invalid_run sampleConfig sampleCodec sampleTransport samplePeer _ 1
    sampleRegion ⟨1, 1, .voter⟩ sampleStorage sampleNode sampleNode 0 [.action (.maybeDestroy false)]
    rfl rfl⟩

/-- From a peer being removed, no run of operations clears the removal flag or changes the
checker: each action keeps both (`exec_checker_of_pendingRemove`), and no call touches either. -/
theorem pendingRemove_run {os : List Op} (h : p.runOps cfg codec trans os = .ok p')
    (hr : p.pendingRemove = true) : p'.pendingRemove = true ∧ p'.leaderChecker = p.leaderChecker :=
  runOps_invariant cfg codec trans
    (fun q => q.pendingRemove = true ∧ q.leaderChecker = p.leaderChecker)
    (fun hq he => (exec_checker_of_pendingRemove he hq.1).imp id fun hc => hc.trans hq.2)
    (fun c _ hq => by
      obtain ⟨_, _, _, _, _, _, _, _, he, -⟩ := call_eq cfg _ c
      rw [he]
      exact hq)
    h ⟨hr, rfl⟩

/-- **Removal freezes the checker.** From a peer being removed, every run of operations keeps the
removal flag and leaves the published checker as it was. -/
theorem removal_freezes_checker {os : List Op} (h : p.runOps cfg codec trans os = .ok p')
    (hr : p.pendingRemove = true) : p'.pendingRemove = true ∧ p'.leaderChecker = p.leaderChecker :=
  pendingRemove_run h hr

/-- The peer `NewPeer` creates, marked for removal, is elected and splits: the checker keeps the
region and the term it had. -/
theorem removal_freezes_checker_samplePeer :
    ∃ q, (samplePeer.maybeDestroy false).1.runOps sampleConfig sampleCodec sampleTransport
          [.action (.step heartbeat 0 leaderNode), .action (.readyCycle ⟨0, false, some becomeLeader⟩),
           .action (.setRegion { sampleRegion with regionEpoch := ⟨1, 2⟩ })] = .ok q ∧
      (q.pendingRemove = true ∧ q.leaderChecker = (samplePeer.maybeDestroy false).1.leaderChecker) :=
  ⟨_, rfl, @removal_freezes_checker sampleConfig sampleCodec sampleTransport
    (samplePeer.maybeDestroy false).1 _
    [.action (.step heartbeat 0 leaderNode), .action (.readyCycle ⟨0, false, some becomeLeader⟩),
     .action (.setRegion { sampleRegion with regionEpoch := ⟨1, 2⟩ })] rfl rfl⟩

/-! ## Proposals -/

/-- **A peer being removed drops every command.** From a peer marked for removal, after any run
of operations, `Propose` returns false and leaves the peer as it is: nothing is proposed or
queued, and the callback is not answered. -/
theorem propose_dropped_after_removal {os : List Op} (hr : p.pendingRemove = true)
    (h : p.runOps cfg codec trans os = .ok p') (cb : Callback) (rlog : RaftLog)
    (errResp : RaftCmdResponse) (env : ProposeEnv) :
    p'.propose cfg codec cb rlog errResp env = .ok (p', false) := by
  rw [propose, if_pos (pendingRemove_run h hr).1]

/-- The peer `NewPeer` creates, marked for removal and then elected, drops a read. -/
theorem propose_dropped_after_removal_samplePeer :
    ∃ q, (samplePeer.maybeDestroy false).1.pendingRemove = true ∧
      (samplePeer.maybeDestroy false).1.runOps sampleConfig sampleCodec sampleTransport
        [.action (.step heartbeat 0 leaderNode)] = .ok q ∧
      q.propose sampleConfig sampleCodec (.handed 0) (.request snapReadRequest)
        (RaftStore.errResp .staleCommand) ⟨1, true, .append⟩ = .ok (q, false) :=
  ⟨_, rfl, rfl, @propose_dropped_after_removal sampleConfig sampleCodec sampleTransport
    (samplePeer.maybeDestroy false).1 _ [.action (.step heartbeat 0 leaderNode)] rfl rfl (.handed 0)
    (.request snapReadRequest) (RaftStore.errResp .staleCommand) ⟨1, true, .append⟩⟩

end Peer

end RaftStore
