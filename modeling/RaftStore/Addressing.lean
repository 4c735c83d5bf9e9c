import RaftStore.Operations

/-!
# RaftStore.Addressing

Where the peer's messages go. `sendRaftMessage` wraps each raft message in an envelope: the
region's id, the peer's own descriptor as sender, the recipient `getPeerFromCache` finds for the
message's `To`, and the region's keys when the peer is initialized and the message may create a
peer. The cache is filled by `getPeerFromCache` from the region and by the store
(`insertPeerCache`), and emptied by the store (`removePeerCache`); after a snapshot,
`PostRaftReadyPersistent` may rebuild the peer's descriptor from the region.

* `Addressed` — the invariant: the cache maps each id to a descriptor with that id, and every
  envelope handed to the transport is the peer's own (`Envelope`);
* `send_addressed`, `handleRaftReadyAppend_addressed`, `postRaftReadyPersistent_addressed` —
  every path that sends keeps it, and the descriptor a snapshot rebuilds keeps the peer's id;
* `exec_addressed`, `call_addressed` — so does every action and every call;
* `envelopes_addressed_run` — from the peer `NewPeer` creates, over every run of operations,
  every envelope carries the region's id, the peer's id as sender, and as recipient a descriptor
  of the peer its raft message is for;
* `heartbeatPd_reports` — in every such state, the PD heartbeat reports the peer itself neither
  as down nor as pending, and each pending peer under the id of a lagging progress entry.
-/

set_option autoImplicit false

namespace RaftStore

/-- An envelope of peer `self` of region `regionID`, as `sendRaftMessage` makes them: the
recipient is the peer the raft message is for, and the region's keys go only with the messages
that may create a peer. -/
def Envelope (regionID self : Nat) (m : RaftMessage) : Prop :=
  m.regionId = regionID ∧ m.fromPeer.id = self ∧ m.toPeer.id = m.message.toId ∧
    (Peer.isInitialMsg m.message = true ∨ m.startKey = [] ∧ m.endKey = [])

namespace Peer

/-- The peer is peer `selfID` of region `regionID`, its cache maps each id to a descriptor with
that id, and every envelope it has handed to the transport is its own. -/
structure Addressed (regionID selfID : Nat) (p : Peer) : Prop where
  region : p.regionID = regionID
  self : p.meta.id = selfID
  cache : ∀ e ∈ p.peerCache, e.2.id = e.1
  sent : ∀ m ∈ p.sent, Envelope regionID selfID m

variable {r s : Nat} {p p' : Peer} {trans : Transport}

/-- Only the region id, the peer's id, the cache and the envelopes matter. -/
theorem Addressed.congr (h : Addressed r s p) {q : Peer} (hr : q.regionID = p.regionID)
    (hm : q.meta.id = p.meta.id) (hc : q.peerCache = p.peerCache) (hs : q.sent = p.sent) :
    Addressed r s q :=
  ⟨hr.trans h.region, hm.trans h.self, hc ▸ h.cache, hs ▸ h.sent⟩

/-! ## The cache -/

/-- Caching a descriptor under its own id keeps the cache coherent. -/
theorem coherent_mapSet {c : List (Nat × MetaPeer)} (hc : ∀ e ∈ c, e.2.id = e.1) {k : Nat}
    {peer : MetaPeer} (hk : peer.id = k) : ∀ e ∈ mapSet c k peer, e.2.id = e.1 := by
  simp only [mapSet, List.mem_cons, List.mem_filter]
  rintro e (rfl | ⟨he, -⟩)
  · exact hk
  · exact hc e he

/-- A lookup in a coherent cache finds a descriptor with the id looked up. -/
theorem getPeerFromCache_id (hc : ∀ e ∈ p.peerCache, e.2.id = e.1) {id : Nat} {peer : MetaPeer}
    (h : (p.getPeerFromCache id).1 = some peer) : peer.id = id := by
  unfold getPeerFromCache at h
  split at h
  · next k q hf =>
    cases h
    exact (hc _ (List.mem_of_find?_eq_some hf)).trans (by simpa using List.find?_some hf)
  · split at h
    · next q hf =>
      cases h
      simpa using List.find?_some hf
    · cases h

/-- A lookup finds a descriptor with the id looked up, and keeps the invariant. -/
theorem getPeerFromCache_addressed (h : Addressed r s p) (id : Nat) :
    Addressed r s (p.getPeerFromCache id).2 ∧
      ∀ peer, (p.getPeerFromCache id).1 = some peer → peer.id = id := by
  refine ⟨?_, fun _ => getPeerFromCache_id h.cache⟩
  unfold getPeerFromCache
  split
  · exact h
  · split
    · next peer hf =>
      exact ⟨h.region, h.self, coherent_mapSet h.cache (by simpa using List.find?_some hf), h.sent⟩
    · exact h

/-! ## Sending -/

/-- The envelope `sendRaftMessage` makes for a recipient with the message's id is the peer's
own. -/
theorem raftMessage_envelope (h : Addressed r s p) {toPeer : MetaPeer} {msg : Message}
    (hto : toPeer.id = msg.toId) : Envelope r s (p.raftMessage toPeer msg) := by
  refine ⟨h.region, h.self, hto, ?_⟩
  by_cases hi : isInitialMsg msg = true
  · exact .inl hi
  · exact .inr (by simp [raftMessage, hi])

theorem sendRaftMessage_addressed (h : Addressed r s p) (msg : Message) :
    Addressed r s (p.sendRaftMessage trans msg).1 := by
  obtain ⟨hq, hid⟩ := getPeerFromCache_addressed h msg.toId
  unfold sendRaftMessage
  split
  · next q hg =>
    rw [hg] at hq
    exact hq
  · next toPeer q hg =>
    rw [hg] at hq hid
    refine ⟨hq.region, hq.self, hq.cache, fun m hm => ?_⟩
    rcases List.mem_append.1 hm with hm | hm
    · exact hq.sent m hm
    · rw [List.mem_singleton.1 hm]
      exact raftMessage_envelope hq (hid _ rfl)

theorem send_addressed (now : Time) (msgs : List Message) (h : Addressed r s p) :
    Addressed r s (p.send trans now msgs).1 := by
  induction msgs generalizing p with
  | nil => exact h
  | cons msg msgs ih =>
    have h1 : Addressed r s (p.sendRaftMessage trans msg).1 := sendRaftMessage_addressed h msg
    unfold send
    split <;> rename_i hg <;> rw [hg] at h1
    · exact h1
    · apply ih
      split <;> exact h1.congr rfl rfl rfl rfl

theorem flushPendingMessages_addressed (now : Time) (h : Addressed r s p) :
    Addressed r s (p.flushPendingMessages trans now) := by
  unfold flushPendingMessages
  split
  · exact h
  · exact send_addressed now _ (h.congr rfl rfl rfl rfl)

theorem appendReady_addressed (rd : Ready) (now : Time) (h : Addressed r s p) :
    Addressed r s (p.appendReady trans rd now).1 := by
  obtain ⟨l, lc, t, ho⟩ := onRoleChanged_eq p rd now
  have h1 : Addressed r s (p.onRoleChanged rd now) := ho ▸ h.congr rfl rfl rfl rfl
  unfold appendReady
  dsimp only
  cases (p.onRoleChanged rd now).isLeader
  · exact h1.congr rfl rfl rfl rfl
  · exact (send_addressed now _ h1).congr rfl rfl rfl rfl

theorem scheduleGenSnapTask_addressed (h : Addressed r s p) : Addressed r s p.scheduleGenSnapTask := by
  unfold scheduleGenSnapTask
  split <;> exact h.congr rfl rfl rfl rfl

/-- The append stage keeps the invariant. -/
theorem handleRaftReadyAppend_addressed (env : AppendEnv) (h : Addressed r s p) :
    Addressed r s (p.handleRaftReadyAppend trans env).1 := by
  unfold handleRaftReadyAppend
  split
  · exact h
  dsimp only
  let q1 : Peer := { p with peerStorage := (p.peerStorage.checkApplyingSnap env.snapFinished).2 }
  have h1 : Addressed r s q1 := h.congr rfl rfl rfl rfl
  split
  · exact h1
  have h2 : Addressed r s (q1.flushPendingMessages trans env.now) :=
    flushPendingMessages_addressed env.now h1
  split
  · exact h2
  have h3 := scheduleGenSnapTask_addressed h2
  split
  · exact h3
  · exact appendReady_addressed _ env.now h3

/-! ## Persisting -/

/-- The descriptor a snapshot rebuilds has the peer's id. -/
theorem selfInRegion_id {peer : MetaPeer} (h : p.selfInRegion = some peer) :
    peer.id = p.meta.id := by
  suffices ∀ (l : List MetaPeer) (acc : Option MetaPeer), (∀ x, acc = some x → x.id = p.meta.id) →
      ∀ x, l.foldl (fun pr peer => if peer.id == p.meta.id then some peer else pr) acc = some x →
        x.id = p.meta.id from
    this _ none (fun _ h => by cases h) peer h
  intro l
  induction l with
  | nil => exact fun acc hacc => hacc
  | cons y l ih =>
    refine fun acc hacc => ih _ fun x hx => ?_
    by_cases hy : y.id = p.meta.id
    · simp only [hy, beq_self_eq_true, if_true, Option.some.injEq] at hx
      exact hx ▸ hy
    · simp only [beq_eq_false_iff_ne.2 hy, Bool.false_eq_true, if_false] at hx
      exact hacc x hx

theorem selfInRegion_getD_id (p : Peer) : (p.selfInRegion.getD p.meta).id = p.meta.id := by
  cases hs : p.selfInRegion with
  | none => rfl
  | some x => exact selfInRegion_id hs

theorem sendFollowerMessages_addressed (rd : Ready) (now : Time) (h : Addressed r s p) :
    Addressed r s (p.sendFollowerMessages trans rd now).1 := by
  unfold sendFollowerMessages
  split
  · split
    · exact h.congr rfl rfl rfl rfl
    · exact send_addressed now _ h
  · exact h

/-- The persist stage keeps the invariant: the descriptor it may rebuild keeps the peer's id. -/
theorem postRaftReadyPersistent_addressed {rd rd' : Ready} {ctx : InvokeContext} {now : Time}
    {res : Option ApplySnapResult}
    (hp : p.postRaftReadyPersistent trans rd ctx now = .ok (p', rd', res)) (h : Addressed r s p) :
    Addressed r s p' := by
  unfold postRaftReadyPersistent at hp
  have hq : (if ctx.snapshot.isSome then { p with raftLogSizeHint := 0 } else p) =
      { p with raftLogSizeHint := if ctx.snapshot.isSome then 0 else p.raftLogSizeHint } := by
    split <;> rfl
  simp only [hq] at hp
  rcases hps : p.peerStorage.postReadyPersistent ctx with ⟨ps, asr⟩
  simp only [hps] at hp
  obtain ⟨meta, hmeta, hp⟩ := except_map_eq_ok.1 hp
  have hid : meta.id = p.meta.id := by
    split at hmeta
    · obtain ⟨same, -, rfl⟩ := except_map_eq_ok.1 hmeta
      split
      · rfl
      · exact selfInRegion_getD_id _
    · cases hmeta
      rfl
  let q : Peer := { p with
    raftLogSizeHint := if ctx.snapshot.isSome then 0 else p.raftLogSizeHint, peerStorage := ps
    meta := meta }
  have h1 : Addressed r s (q.sendFollowerMessages trans rd now).1 :=
    sendFollowerMessages_addressed rd now (h.congr (q := q) rfl hid rfl rfl)
  cases hp
  split <;> exact h1.congr rfl rfl rfl rfl

/-! ## Operations -/

theorem readyCycle_addressed {env : AppendEnv} (h : p.readyCycle trans env = .ok p')
    (ha : Addressed r s p) : Addressed r s p' :=
  readyCycle_invariant (Addressed r s) (fun _ hq => handleRaftReadyAppend_addressed env hq)
    (fun hq hp => postRaftReadyPersistent_addressed hp hq)
    (fun hq hp => by
      obtain ⟨hr, hm, hc, hs, -⟩ := handleRaftReadyApply_frame hp
      exact hq.congr hr (congrArg MetaPeer.id hm) hc hs) h ha

/-- Every action keeps the invariant. -/
theorem exec_addressed {cfg : Config} {codec : Codec} {a : Action}
    (h : p.exec cfg codec trans a = .ok p') (ha : Addressed r s p) : Addressed r s p' := by
  cases a with
  | step m now raftGroup =>
    cases h
    obtain ⟨hb, lm, he⟩ := step_eq p m now raftGroup
    rw [he]
    exact ha.congr rfl rfl rfl rfl
  | propose cb rlog errResp env =>
    obtain ⟨⟨q, b⟩, hq, rfl⟩ := except_map_eq_ok.1 h
    obtain ⟨_, _, _, _, _, _, _, rfl⟩ := propose_proposed hq
    exact ha.congr rfl rfl rfl rfl
  | readyCycle env => exact readyCycle_addressed h ha
  | postApply applyState appliedIndexTerm merged metrics =>
    obtain ⟨⟨q, b⟩, hq, rfl⟩ := except_map_eq_ok.1 h
    obtain ⟨-, p2, a, h2, rfl⟩ := postApply_ok hq
    rcases answerConfirmedReads_ok h2 with ⟨rfl, -⟩ | ⟨rs, rfl, -⟩ <;>
      exact ha.congr rfl rfl rfl rfl
  | takeApplyProposals =>
    cases h
    rw [takeApplyProposals_eq]
    exact ha.congr rfl rfl rfl rfl
  | maybeDestroy cancelled =>
    cases h
    obtain ⟨_, _, _, he, -⟩ := maybeDestroy_eq p cancelled
    rw [he]
    exact ha.congr rfl rfl rfl rfl
  | destroy keepData =>
    cases h
    exact ha.congr rfl rfl rfl rfl
  | setRegion region =>
    cases h
    obtain ⟨l, c, he⟩ := setRegion_eq p region
    rw [he]
    exact ha.congr rfl rfl rfl rfl
  | checkPeers now =>
    cases h
    obtain ⟨hb, he⟩ := checkPeers_eq p now
    rw [he]
    exact ha.congr rfl rfl rfl rfl

/-- The loop of `CollectPendingPeers` keeps the invariant. -/
theorem collectPendingPeersFrom_addressed (truncatedIdx : Nat) (now : Time)
    (prs : List (Nat × Progress)) (acc : List MetaPeer × Peer) (h : Addressed r s acc.2) :
    Addressed r s (collectPendingPeersFrom truncatedIdx now prs acc).2 := by
  induction prs generalizing acc with
  | nil => exact h
  | cons e prs ih =>
    obtain ⟨pending, q⟩ := acc
    apply ih
    dsimp only
    split
    · exact h
    split
    · have h1 := (getPeerFromCache_addressed h e.1).1
      split <;> rename_i hg <;> rw [hg] at h1
      · split <;> exact h1.congr rfl rfl rfl rfl
      · exact h1
    · exact h

/-- Every call keeps the invariant. -/
theorem call_addressed (cfg : Config) (c : StoreCall) (ha : Addressed r s p) :
    Addressed r s (p.call cfg c) := by
  cases c with
  | insertPeerCache peer => exact ⟨ha.region, ha.self, coherent_mapSet ha.cache rfl, ha.sent⟩
  | removePeerCache peerID =>
    exact ⟨ha.region, ha.self, fun e he => ha.cache e (List.mem_filter.1 he).1, ha.sent⟩
  | heartbeatPd now size keys => exact collectPendingPeersFrom_addressed _ now _ ([], p) ha
  | _ =>
    obtain ⟨pc, _, _, _, _, _, _, _, he, hpc, -⟩ := call_eq cfg p _
    rw [he]
    rcases hpc with rfl | ⟨_, hc⟩ | ⟨_, hc⟩ | ⟨_, _, _, hc⟩
    · exact ha.congr rfl rfl rfl rfl
    all_goals cases hc

/-! ## Runs -/

section Runs

variable {cfg : Config} {codec : Codec} {storeID : Nat} {region : Region} {peer : MetaPeer}
  {ps : PeerStorage} {raftGroup campaigned : RawNode} {now : Time} {os : List Op}

/-- The invariant holds in every state reached from the peer `NewPeer` creates. -/
theorem addressed_run (hn : newPeer storeID cfg region peer ps raftGroup campaigned now = .ok p)
    (h : p.runOps cfg codec trans os = .ok p') : Addressed region.id peer.id p' := by
  obtain ⟨hm, hr, hc, hs, -⟩ := newPeer_ok hn
  refine runOps_invariant cfg codec trans (Addressed region.id peer.id)
    (fun hq he => exec_addressed he hq) (fun c _ hq => call_addressed cfg c hq) h
    ⟨hr, by rw [hm], ?_, ?_⟩
  · simp [hc]
  · simp [hs]

/-- **Every envelope is the peer's own.** From the peer `NewPeer` creates, over every run of
operations, the peer keeps its region id and its own id, its cache maps each id to a descriptor
with that id, and every envelope handed to the transport carries the region's id, the peer's id
as sender, and as recipient a descriptor of the peer its raft message is for; the region's keys
go only with the messages that may create a peer. -/
theorem envelopes_addressed_run
    (hn : newPeer storeID cfg region peer ps raftGroup campaigned now = .ok p)
    (h : p.runOps cfg codec trans os = .ok p') :
    p'.regionID = region.id ∧ p'.meta.id = peer.id ∧ (∀ e ∈ p'.peerCache, e.2.id = e.1) ∧
      ∀ m ∈ p'.sent, Envelope region.id peer.id m :=
  let ha := addressed_run hn h
  ⟨ha.region, ha.self, ha.cache, ha.sent⟩

/-- The store caches peer 2; the peer is elected and its first ready carries a heartbeat to
peer 2, which goes out. -/
def heartbeatTrace : List Op :=
  [.call (.insertPeerCache ⟨2, 2, .voter⟩), .action (.step heartbeat 0 leaderNode),
   .action (.readyCycle ⟨0, false, some { becomeLeader with messages := [heartbeat] }⟩)]

/-- The theorem at the peer `NewPeer` creates, after `heartbeatTrace`. -/
theorem envelopes_addressed_run_heartbeatTrace :
    ∃ q, samplePeer.runOps sampleConfig sampleCodec sampleTransport heartbeatTrace = .ok q ∧
      q.sent.length = 1 ∧
      (q.regionID = sampleRegion.id ∧ q.meta.id = (⟨1, 1, .voter⟩ : MetaPeer).id ∧
        (∀ e ∈ q.peerCache, e.2.id = e.1) ∧
        ∀ m ∈ q.sent, Envelope sampleRegion.id (⟨1, 1, .voter⟩ : MetaPeer).id m) :=
  ⟨_, rfl, rfl, @envelopes_addressed_run samplePeer _ sampleTransport sampleConfig sampleCodec 1
    sampleRegion ⟨1, 1, .voter⟩ sampleStorage sampleNode sampleNode 0 heartbeatTrace rfl rfl⟩

/-- **The PD heartbeat reports other peers.** In every state reached from the peer `NewPeer`
creates, the heartbeat carries the peer's own descriptor, reports as down only members of the
region other than the peer, and as pending only descriptors of progress entries other than the
peer whose match lags the truncated index. -/
theorem heartbeatPd_reports (hn : newPeer storeID cfg region peer ps raftGroup campaigned now = .ok p)
    (h : p.runOps cfg codec trans os = .ok p') (t : Time) (size keys : Option Nat) :
    let task := (p'.heartbeatPd t size keys).1
    task.peer.id = peer.id ∧
      (∀ d ∈ task.downPeers, d.peer ∈ p'.region.peers ∧ d.peer.id ≠ peer.id) ∧
      ∀ q ∈ task.pendingPeers, q.id ≠ peer.id ∧
        ∃ pr, (q.id, pr) ∈ p'.raftGroup.progress ∧ pr.matchIdx < p'.peerStorage.truncatedIndex := by
  have ha := addressed_run hn h
  obtain ⟨hpend, -⟩ := collectPendingPeersFrom_spec p'.peerStorage.truncatedIndex t
    p'.raftGroup.progress [] p'
  refine ⟨ha.self, fun d hd => ?_, fun q hq => ?_⟩
  · obtain ⟨hmem, hself, -⟩ := (p'.mem_collectDownPeers _ t d).1 hd
    exact ⟨hmem, ha.self ▸ hself⟩
  · change q ∈ (collectPendingPeersFrom _ t _ ([], p')).1 at hq
    rw [hpend, List.nil_append, List.mem_filterMap] at hq
    obtain ⟨⟨id, pr⟩, he, hget⟩ := hq
    obtain ⟨hmem, hlag⟩ := List.mem_filter.1 he
    have hid : q.id = id := getPeerFromCache_id ha.cache hget
    simp only [Bool.and_eq_true, bne_iff_ne, ne_eq, decide_eq_true_eq] at hlag
    exact ⟨hid ▸ ha.self ▸ hlag.1, pr, hid ▸ hmem, hlag.2⟩

/-- The theorem after `heartbeatTrace`, at time 0. -/
theorem heartbeatPd_reports_heartbeatTrace :
    ∃ q, samplePeer.runOps sampleConfig sampleCodec sampleTransport heartbeatTrace = .ok q ∧
      (let task := (q.heartbeatPd 0 none none).1
       task.peer.id = (⟨1, 1, .voter⟩ : MetaPeer).id ∧
        (∀ d ∈ task.downPeers, d.peer ∈ q.region.peers ∧ d.peer.id ≠ (⟨1, 1, .voter⟩ : MetaPeer).id) ∧
        ∀ r ∈ task.pendingPeers, r.id ≠ (⟨1, 1, .voter⟩ : MetaPeer).id ∧
          ∃ pr, (r.id, pr) ∈ q.raftGroup.progress ∧ pr.matchIdx < q.peerStorage.truncatedIndex) :=
  ⟨_, rfl, @heartbeatPd_reports samplePeer _ sampleTransport sampleConfig sampleCodec 1 sampleRegion
    ⟨1, 1, .voter⟩ sampleStorage sampleNode sampleNode 0 heartbeatTrace rfl rfl 0 none none⟩

end Runs

end Peer

end RaftStore
