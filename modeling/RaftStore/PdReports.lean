import RaftStore.Addressing

/-!
# RaftStore.PdReports

What the peer tells the PD worker over time: which peers lag, when a lagging peer has caught
up, and when its leader has been missing too long.

`CollectPendingPeers`, run by `HeartbeatPd`, reports the peers whose match lags the truncated
index and records a start time for each unless it has one; `AnyNewPeerCatchUp(peerID)` reports a
peer with a start time whose match has reached the truncated index and forgets that start time,
and a peer that is no longer the leader forgets every start time. `CheckStaleState` reports
`ToValidate` once the leader-missing clock has run `MaxLeaderMissingDuration`, and restarts the
clock. No action touches the start times or starts the clock (`exec_keeps`), and no call but
these touches them (`call_eq`).

* `startTime_kept_run`, `startTime_absent_run` — a run with no `AnyNewPeerCatchUp` keeps every
  recorded start time, and one with no PD heartbeat records none;
* `heartbeatPd_records` — every peer the PD heartbeat reports as pending has a start time;
* `anyNewPeerCatchUp_reports_pending` — so, after the heartbeat, the first `AnyNewPeerCatchUp`
  made as leader reports a pending peer exactly when its match has reached the truncated index;
* `anyNewPeerCatchUp_reported_once` — and once reported, a peer is not reported again until a PD
  heartbeat records it anew;
* `leaderMissingTime_run` — a run never sets the leader-missing clock before the earliest time
  its `CheckStaleState` calls read;
* `checkStaleState_toValidate_spaced_run` — so two `ToValidate` reports are
  `MaxLeaderMissingDuration` apart, whatever runs between them, as long as the clock does not
  go back.
-/

set_option autoImplicit false

namespace RaftStore

namespace Peer

variable {cfg : Config} {codec : Codec} {trans : Transport} {p p' : Peer}

/-! ## Pending peers -/

/-- A run of operations with no `AnyNewPeerCatchUp` keeps every recorded start time. -/
theorem startTime_kept_run {os : List Op} (hos : ∀ j, Op.call (.anyNewPeerCatchUp j) ∉ os)
    {id : Nat} (h : p.runOps cfg codec trans os = .ok p')
    (hs : (mapGet p.peersStartPendingTime id).isSome) :
    (mapGet p'.peersStartPendingTime id).isSome :=
  runOps_invariant cfg codec trans (fun q => (mapGet q.peersStartPendingTime id).isSome)
    (fun hq he => by simpa only [(exec_keeps he).2.2.1] using hq)
    (fun c hc hq => by
      obtain ⟨_, _, _, _, _, _, _, _, he, -, -, hst, -⟩ := call_eq cfg _ c
      rw [he]
      rcases hst with rfl | ⟨j, rfl, -⟩ | ⟨t, size, k, rfl, hkeep⟩
      · exact hq
      · exact absurd hc (hos j)
      · obtain ⟨t0, ht0⟩ := Option.isSome_iff_exists.1 hq
        simp [hkeep _ _ ht0])
    h hs

/-- A run of operations with no PD heartbeat records no new start time. -/
theorem startTime_absent_run {os : List Op}
    (hos : ∀ now size keys, Op.call (.heartbeatPd now size keys) ∉ os) {id : Nat}
    (h : p.runOps cfg codec trans os = .ok p') (hs : id ∉ keys p.peersStartPendingTime) :
    id ∉ keys p'.peersStartPendingTime :=
  runOps_invariant cfg codec trans (fun q => id ∉ keys q.peersStartPendingTime)
    (fun hq he => by simpa only [(exec_keeps he).2.2.1] using hq)
    (fun c hc hq => by
      obtain ⟨_, _, _, _, _, _, _, _, he, -, -, hst, -⟩ := call_eq cfg _ c
      rw [he]
      rcases hst with rfl | ⟨j, rfl, hs⟩ | ⟨t, size, k, rfl, -⟩
      · exact hq
      · exact fun hm => hq ((hs.map _).subset hm)
      · exact absurd hc (hos t size k))
    h hs

/-- Every peer the PD heartbeat reports as pending, looked up in a coherent cache, has a start
time afterwards. -/
theorem heartbeatPd_records {now : Time} {size keys : Option Nat} {q : MetaPeer}
    (hc : ∀ e ∈ p.peerCache, e.2.id = e.1) (hq : q ∈ (p.heartbeatPd now size keys).1.pendingPeers) :
    (mapGet (p.call cfg (.heartbeatPd now size keys)).peersStartPendingTime q.id).isSome := by
  obtain ⟨h1, -, -, h4⟩ := collectPendingPeers_spec p now
  change q ∈ (p.collectPendingPeers now).1 at hq
  rw [h1, List.mem_filterMap] at hq
  obtain ⟨e, he, hf⟩ := hq
  rw [getPeerFromCache_id hc hf]
  exact h4 e he (by rw [hf]; rfl)

/-- **A pending peer's catch-up is reported.** After `HeartbeatPd` has reported a peer as
pending, and any run of operations with no `AnyNewPeerCatchUp`, an `AnyNewPeerCatchUp` for it
made while the peer is leader reports it exactly when its match has reached the truncated
index. -/
theorem anyNewPeerCatchUp_reports_pending {now : Time} {size keys : Option Nat} {q : MetaPeer}
    (hc : ∀ e ∈ p.peerCache, e.2.id = e.1) (hq : q ∈ (p.heartbeatPd now size keys).1.pendingPeers)
    {os : List Op} (hos : ∀ j, Op.call (.anyNewPeerCatchUp j) ∉ os)
    (h : (p.call cfg (.heartbeatPd now size keys)).runOps cfg codec trans os = .ok p')
    (hl : p'.isLeader = true) :
    (p'.anyNewPeerCatchUp q.id).1 = (mapGet p'.raftGroup.progress q.id).any
      fun pr => decide (p'.peerStorage.truncatedIndex ≤ pr.matchIdx) := by
  have hs := startTime_kept_run hos h (heartbeatPd_records hc hq)
  simp [anyNewPeerCatchUp_eq, hl, hs]

/-- A leader's node whose progress shows peer 2 at `matchIdx`. -/
def progressNode (matchIdx : Nat) : RawNode :=
  { leaderNode with progress := [(2, ⟨matchIdx, false, .replicate⟩)] }

/-- A leader whose progress shows peer 2 behind the truncated index. -/
def laggingLeader : Peer := { samplePeer with raftGroup := progressNode 3 }

/-- The heartbeat reports peer 2 pending; after a step at which peer 2 has caught up, the
leader reports it. -/
theorem anyNewPeerCatchUp_reports_pending_laggingLeader :
    ∃ q, (⟨2, 2, .voter⟩ : MetaPeer) ∈ (laggingLeader.heartbeatPd 0 none none).1.pendingPeers ∧
      (laggingLeader.call sampleConfig (.heartbeatPd 0 none none)).runOps sampleConfig sampleCodec
        sampleTransport [.action (.step heartbeat 1 (progressNode 5))] = .ok q ∧
      q.isLeader = true ∧ (q.anyNewPeerCatchUp 2).1 = true ∧
      (q.anyNewPeerCatchUp 2).1 = (mapGet q.raftGroup.progress 2).any
        fun pr => decide (q.peerStorage.truncatedIndex ≤ pr.matchIdx) :=
  ⟨_, by decide, rfl, rfl, rfl, @anyNewPeerCatchUp_reports_pending sampleConfig sampleCodec
    sampleTransport laggingLeader _ 0 none none ⟨2, 2, .voter⟩ (by simp [laggingLeader, samplePeer])
    (by decide) [.action (.step heartbeat 1 (progressNode 5))] (by simp) rfl rfl⟩

/-- **A caught-up peer is reported once.** After `AnyNewPeerCatchUp` has reported `peerID`
caught up, and any run of operations without a PD heartbeat (whose `CollectPendingPeers` is the
only place a start time is recorded), `AnyNewPeerCatchUp` does not report `peerID` again. -/
theorem anyNewPeerCatchUp_reported_once {peerID : Nat} {os : List Op}
    (hos : ∀ now size keys, Op.call (.heartbeatPd now size keys) ∉ os)
    (hc : (p.anyNewPeerCatchUp peerID).1 = true)
    (h : (p.anyNewPeerCatchUp peerID).2.runOps cfg codec trans os = .ok p') :
    (p'.anyNewPeerCatchUp peerID).1 = false := by
  have h0 : peerID ∉ keys (p.anyNewPeerCatchUp peerID).2.peersStartPendingTime := by
    simp only [anyNewPeerCatchUp_eq] at hc ⊢
    simp only [hc, if_true]
    exact not_mem_keys_mapDelete _ _
  have hs : (mapGet p'.peersStartPendingTime peerID).isSome = false :=
    Bool.eq_false_iff.2 fun hm => startTime_absent_run hos h h0 ((mapGet_isSome_iff _ _).1 hm)
  simp [anyNewPeerCatchUp_eq, hs]

/-- A leader that recorded peer 2 as pending at time 0, and that peer 2 has since caught up
with. -/
def caughtUpLeader : Peer :=
  { samplePeer with raftGroup := progressNode 5, peersStartPendingTime := [(2, 0)] }

/-- A step, a `CheckPeers` and another `AnyNewPeerCatchUp`. -/
def afterCatchUpTrace : List Op :=
  [.action (.step heartbeat 1 (progressNode 5)), .action (.checkPeers 2), .call (.anyNewPeerCatchUp 2)]

/-- The leader reports peer 2 caught up, and after `afterCatchUpTrace` does not report it
again. -/
theorem anyNewPeerCatchUp_reported_once_caughtUpLeader :
    ∃ q, (caughtUpLeader.anyNewPeerCatchUp 2).1 = true ∧
      (caughtUpLeader.anyNewPeerCatchUp 2).2.runOps sampleConfig sampleCodec sampleTransport
        afterCatchUpTrace = .ok q ∧
      (q.anyNewPeerCatchUp 2).1 = false :=
  ⟨_, rfl, rfl, @anyNewPeerCatchUp_reported_once sampleConfig sampleCodec sampleTransport
    caughtUpLeader _ 2 afterCatchUpTrace (by simp [afterCatchUpTrace]) rfl rfl⟩

/-! ## Stale state -/

/-- A run whose `CheckStaleState` calls read the clock no earlier than `t0` never sets the
leader-missing clock to a time before `t0`: `Step` only stops it, and no other operation but
`CheckStaleState` moves it. -/
theorem leaderMissingTime_run {t0 : Time} {os : List Op}
    (hos : ∀ t, Op.call (.checkStaleState t) ∈ os → t0 ≤ t)
    (h : p.runOps cfg codec trans os = .ok p') (hp : ∀ t, p.leaderMissingTime = some t → t0 ≤ t) :
    ∀ t, p'.leaderMissingTime = some t → t0 ≤ t := by
  refine runOps_invariant cfg codec trans (fun q => ∀ t, q.leaderMissingTime = some t → t0 ≤ t)
    (fun hq he t ht => ?_) (fun {q} c hc hq t ht => ?_) h hp
  · rcases (exec_keeps he).2.2.2.1 with hlm | hlm <;> rw [hlm] at ht
    · exact hq t ht
    · cases ht
  · obtain ⟨_, _, _, _, _, _, _, _, he, -, -, -, hlm⟩ := call_eq cfg q c
    rcases hlm with rfl | ⟨s, rfl⟩
    · rw [he] at ht
      exact hq t ht
    · change (q.checkStaleState cfg s).2.leaderMissingTime = some t at ht
      rcases checkStaleState_leaderMissingTime q cfg s with hl | hl | hl <;> rw [hl] at ht
      · exact hq t ht
      · cases ht
      · exact Option.some.inj ht ▸ hos s hc

/-- **Validation requests are spaced over every run.** After `CheckStaleState` has reported
`ToValidate` at `t0`, and any run of operations whose `CheckStaleState` calls read the clock no
earlier than `t0`, a `CheckStaleState` that reports `ToValidate` at `now` comes at least
`MaxLeaderMissingDuration` after `t0`. -/
theorem checkStaleState_toValidate_spaced_run {t0 now : Time} {os : List Op}
    (hos : ∀ t, Op.call (.checkStaleState t) ∈ os → t0 ≤ t)
    (h0 : (p.checkStaleState cfg t0).1 = .toValidate)
    (h : (p.checkStaleState cfg t0).2.runOps cfg codec trans os = .ok p')
    (h1 : (p'.checkStaleState cfg now).1 = .toValidate) :
    cfg.maxLeaderMissingDuration ≤ now - t0 := by
  -- the report restarted the clock at `t0`
  have hinv := leaderMissingTime_run hos h fun t ht => by
    rw [(checkStaleState_toValidate_iff p cfg t0).2 h0] at ht
    exact (Option.some.inj ht).le
  obtain ⟨-, t, ht, hle⟩ := (checkStaleState_toValidate_iff p' cfg now).1.1 h1
  exact hle.trans (Nat.sub_le_sub_left (hinv t ht) now)

/-- The follower `NewPeer` creates reports `ToValidate` at time 100; after a `CheckPeers` and a
`CheckStaleState` at 150, it reports `ToValidate` again at 200. -/
theorem checkStaleState_toValidate_spaced_run_samplePeer :
    ∃ q, (samplePeer.checkStaleState sampleConfig 100).1 = .toValidate ∧
      (samplePeer.checkStaleState sampleConfig 100).2.runOps sampleConfig sampleCodec
        sampleTransport [.action (.checkPeers 120), .call (.checkStaleState 150)] = .ok q ∧
      (q.checkStaleState sampleConfig 200).1 = .toValidate ∧
      sampleConfig.maxLeaderMissingDuration ≤ 200 - 100 :=
  ⟨_, rfl, rfl, rfl, @checkStaleState_toValidate_spaced_run sampleConfig sampleCodec
    sampleTransport samplePeer _ 100 200 [.action (.checkPeers 120), .call (.checkStaleState 150)]
    (by simp) rfl rfl rfl⟩

end Peer

end RaftStore
