import RaftStore.Frame
import RaftStore.LocalRead

/-!
# RaftStore.Liveness

What a peer tracks of its region's liveness, for its reports to PD (spec §4.8, `check_peers()`,
`collect_down_peers(max)`, `collect_pending_peers()`): the heartbeats a leader keeps of its
peers, the start times of the peers whose log lags, and the clock of a missing leader.

`Step` records the sender of every message while the peer leads, member of the region or not.
`CheckPeers` adds the members the map lacks, but only when the map's size differs from the
region's. `CollectDownPeers` reports the members whose last heartbeat is old, and skips those
without one:

* `exec_peerHeartbeats` — what each action does to the map: only `Step` and `CheckPeers`
  change it;
* `heartbeatKeys_nodup_run` — over every run the map's keys stay distinct, so the list's length
  is the Go map's size, and every peer a run reaches from `NewPeer`'s meets the distinctness
  hypothesis of `checkPeers_covers_of_members`;
* `checkPeers_covers_iff` — after `CheckPeers`, a leader has an entry for every member exactly
  when the sizes differed or it already had one for every member;
* `checkPeers_covers_of_members` — when every key is a member, it has;
* `checkPeers_misses_member` — otherwise the size test can stop the fill too early: with as many
  keys as members and a member missing, `CheckPeers` leaves it missing, and `CollectDownPeers`
  never reports it, however long it is silent. Senders from outside the region reach this
  state (`strayTrace`).

The other reports:

* `collectPendingPeers_spec` — a peer is pending exactly when it is not this one, its match is
  below the truncated index, and `getPeerFromCache` finds it; its start time is recorded once;
* `anyNewPeerCatchUp_eq` — a pending peer that has caught up is reported once;
* `checkStaleState_toValidate_iff` — a follower reports `ToValidate` exactly when its
  leader-missing clock has run `MaxLeaderMissingDuration`, and then restarts the clock; over
  runs, in `RaftStore.PdReports`, the reports are spaced by that duration.
-/

set_option autoImplicit false

namespace RaftStore

/-! ## The map -/

/-- The keys of a map. -/
def keys {α : Type} (m : List (Nat × α)) : List Nat := m.map (·.1)

section Map

variable {α : Type}

theorem mapGet_isSome_iff (m : List (Nat × α)) (k : Nat) : (mapGet m k).isSome ↔ k ∈ keys m := by
  simp [mapGet, keys, List.find?_isSome]

theorem mem_keys_mapSet (m : List (Nat × α)) (k j : Nat) (v : α) :
    j ∈ keys (mapSet m k v) ↔ j = k ∨ j ∈ keys m := by
  by_cases h : j = k <;> simp [keys, mapSet, h]

theorem mapGet_mapSet (m : List (Nat × α)) (k j : Nat) (v : α) :
    mapGet (mapSet m k v) j = if j = k then some v else mapGet m j := by
  by_cases h : j = k
  · simp [mapGet, mapSet, h]
  · simp only [mapGet, mapSet, List.find?_cons, beq_eq_false_iff_ne.2 (Ne.symm h), h, if_false,
      List.find?_filter]
    congr 1
    congr 1
    funext e
    by_cases he : e.1 = j <;> simp [he, h]

theorem not_mem_keys_mapDelete (m : List (Nat × α)) (k : Nat) : k ∉ keys (mapDelete m k) := by
  simp [keys, mapDelete]

/-- Assigning a key keeps the keys distinct. -/
theorem keys_mapSet_nodup {m : List (Nat × α)} (h : (keys m).Nodup) (k : Nat) (v : α) :
    (keys (mapSet m k v)).Nodup := by
  simp only [keys, mapSet, List.map_cons, List.nodup_cons, List.mem_map, List.mem_filter]
  exact ⟨fun ⟨x, ⟨_, hx⟩, hxk⟩ => by simp [hxk] at hx, h.sublist ((List.filter_sublist _).map _)⟩

end Map

/-! ## A leader that hears from outside its region -/

/-- A heartbeat response from peer `id` to peer 1. -/
def heartbeatResponse (id : Nat) : Message :=
  { msgType := .msgHeartbeatResponse, toId := 1, fromId := id, term := 1, commit := 0 }

/-- The peer `NewPeer` creates is elected at time 0, and at time 1 hears from peer 2 of its
region and from peers 9 and 10, which are not in it. -/
def strayTrace : List Action :=
  [.step heartbeat 0 leaderNode, .step (heartbeatResponse 2) 1 leaderNode,
   .step (heartbeatResponse 9) 1 leaderNode, .step (heartbeatResponse 10) 1 leaderNode]

/-- The peer at the end of `strayTrace`: three heartbeats for a region of three peers, and none
for peers 1 and 3. -/
def strayLeader : Peer :=
  { samplePeer with raftGroup := leaderNode, peerHeartbeats := [(10, 1), (9, 1), (2, 1)],
                    leaderMissingTime := none }

namespace Peer

/-! ## `CheckPeers` -/

/-- One turn of the loop: the map gains the peer's id, and keeps distinct keys. -/
theorem fillHeartbeats_cons (hb : List (Nat × Time)) (peer : MetaPeer) (peers : List MetaPeer)
    (now : Time) : ∃ hb', fillHeartbeats hb (peer :: peers) now = fillHeartbeats hb' peers now ∧
      (∀ j, j ∈ keys hb' ↔ j = peer.id ∨ j ∈ keys hb) ∧ ((keys hb).Nodup → (keys hb').Nodup) := by
  refine ⟨_, rfl, ?_⟩
  cases h : mapGet hb peer.id with
  | some _ =>
    have hk := (mapGet_isSome_iff hb peer.id).1 (by simp [h])
    exact ⟨fun j => ⟨.inr, fun h' => h'.elim (· ▸ hk) id⟩, id⟩
  | none => exact ⟨fun j => mem_keys_mapSet hb peer.id j now, (keys_mapSet_nodup · peer.id now)⟩

/-- The loop adds the ids of the peers to the keys, and keeps them distinct. -/
theorem fillHeartbeats_keys (hb : List (Nat × Time)) (peers : List MetaPeer) (now : Time) :
    (∀ j, j ∈ keys (fillHeartbeats hb peers now) ↔ j ∈ keys hb ∨ j ∈ peers.map (·.id)) ∧
      ((keys hb).Nodup → (keys (fillHeartbeats hb peers now)).Nodup) := by
  induction peers generalizing hb with
  | nil => exact ⟨by simp [fillHeartbeats], id⟩
  | cons peer peers ih =>
    obtain ⟨hb', heq, hmem, hnd⟩ := fillHeartbeats_cons hb peer peers now
    obtain ⟨ihm, ihn⟩ := ih hb'
    refine ⟨fun j => ?_, fun h => heq ▸ ihn (hnd h)⟩
    rw [heq, ihm, hmem, List.map_cons, List.mem_cons, or_assoc, or_left_comm]

/-- `CheckPeers` keeps the keys distinct. -/
theorem checkPeers_keys_nodup (p : Peer) (now : Time) (h : (keys p.peerHeartbeats).Nodup) :
    (keys (p.checkPeers now).peerHeartbeats).Nodup := by
  unfold checkPeers
  split_ifs
  · exact List.nodup_nil
  · exact h
  · exact h
  · exact (fillHeartbeats_keys _ _ now).2 h

/-- **When `CheckPeers` covers the region.** After `CheckPeers`, a leader has a heartbeat for
every member of its region exactly when the map's size differed from the region's, or it had a
heartbeat for every member already. -/
theorem checkPeers_covers_iff (p : Peer) (now : Time) (hl : p.isLeader = true) :
    (∀ peer ∈ p.region.peers, (mapGet (p.checkPeers now).peerHeartbeats peer.id).isSome) ↔
      p.peerHeartbeats.length ≠ p.region.peers.length ∨
        ∀ peer ∈ p.region.peers, (mapGet p.peerHeartbeats peer.id).isSome := by
  unfold checkPeers
  simp only [hl, Bool.not_true, Bool.false_eq_true, if_false, beq_iff_eq]
  split_ifs with hlen
  · simp [hlen]
  · refine iff_of_true (fun peer hp => ?_) (.inl hlen)
    rw [mapGet_isSome_iff, (fillHeartbeats_keys _ _ now).1]
    exact .inr (List.mem_map_of_mem _ hp)

/-- When every key of a leader's map is a member of its region, `CheckPeers` leaves a heartbeat
for every member: distinct keys, as many as the members, are all of them. -/
theorem checkPeers_covers_of_members (p : Peer) (now : Time) (hl : p.isLeader = true)
    (hnd : (keys p.peerHeartbeats).Nodup)
    (hmem : ∀ k ∈ keys p.peerHeartbeats, k ∈ p.region.peers.map (·.id)) :
    ∀ peer ∈ p.region.peers, (mapGet (p.checkPeers now).peerHeartbeats peer.id).isSome := by
  refine (checkPeers_covers_iff p now hl).2 (or_iff_not_imp_left.2 fun hlen peer hp => ?_)
  have hperm := (List.subperm_of_subset hnd hmem).perm_of_length_le
    (by simpa [keys] using (not_not.1 hlen).ge)
  rw [mapGet_isSome_iff, hperm.mem_iff]
  exact List.mem_map_of_mem _ hp

/-- `strayLeader` with a heartbeat from each member and none from elsewhere keeps one for every
member. -/
theorem checkPeers_covers_of_members_fullMap :
    (strayLeader.region.peers.all fun peer =>
      (mapGet ({ strayLeader with peerHeartbeats := [(3, 1), (2, 1), (1, 1)] }.checkPeers
        2).peerHeartbeats peer.id).isSome) = true :=
  List.all_eq_true.2 (checkPeers_covers_of_members
    { strayLeader with peerHeartbeats := [(3, 1), (2, 1), (1, 1)] } 2 rfl (by decide) (by decide))

/-! ## `CollectDownPeers` -/

/-- `CollectDownPeers` reports exactly the other members whose heartbeat is older than the
bound, with its age in seconds. -/
theorem mem_collectDownPeers (p : Peer) (maxDuration now : Time) (s : PeerStats) :
    s ∈ p.collectDownPeers maxDuration now ↔
      s.peer ∈ p.region.peers ∧ s.peer.id ≠ p.meta.id ∧ ∃ hb,
        mapGet p.peerHeartbeats s.peer.id = some hb ∧ maxDuration < now - hb ∧
        s.downSeconds = (now - hb) / 1000000000 := by
  unfold collectDownPeers
  rw [List.mem_filterMap]
  constructor
  · rintro ⟨peer, hp, h⟩
    split at h
    · cases h
    rename_i hself
    split at h
    · rename_i hb hget
      split at h
      · cases h
        exact ⟨hp, by simpa using hself, hb, hget, ‹_›, rfl⟩
      · cases h
    · cases h
  · rintro ⟨hp, hself, hb, hget, hold, hs⟩
    refine ⟨s.peer, hp, ?_⟩
    simp only [beq_iff_eq, hself, if_false, hget, hold, if_true, ← hs]

/-! ## `CollectPendingPeers` and `AnyNewPeerCatchUp` -/

/-- Looking a peer up caches only what a later lookup finds anyway. -/
theorem getPeerFromCache_getPeerFromCache (p : Peer) (k id : Nat) :
    ((p.getPeerFromCache k).2.getPeerFromCache id).1 = (p.getPeerFromCache id).1 := by
  cases hc : p.peerCache.find? (·.1 == k) with
  | some e => simp only [getPeerFromCache, hc]
  | none =>
    cases hr : p.region.peers.find? (·.id == k) with
    | none => simp only [getPeerFromCache, hc, hr]
    | some peer =>
      simp only [region] at hr
      by_cases hid : k = id
      · subst hid
        simp [getPeerFromCache, region, hc, hr, mapSet]
      · have hfind : (mapSet p.peerCache k peer).find? (·.1 == id) = p.peerCache.find? (·.1 == id) := by
          simp only [mapSet, List.find?_cons, beq_eq_false_iff_ne.2 hid, List.find?_filter]
          congr 1
          funext e
          by_cases he : e.1 = id <;> simp [he, Ne.symm hid]
        simp only [getPeerFromCache, region, hc, hr, hfind]
        cases p.peerCache.find? (·.1 == id) with
        | some e => rfl
        | none => cases p.peerStorage.region.peers.find? (·.id == id) <;> rfl

/-- Lookups read only the cache and the region. -/
theorem getPeerFromCache_fst_congr {p q : Peer} (hc : q.peerCache = p.peerCache)
    (hr : q.peerStorage.region = p.peerStorage.region) (id : Nat) :
    (q.getPeerFromCache id).1 = (p.getPeerFromCache id).1 := by
  simp only [getPeerFromCache, region, hc, hr]
  cases p.peerCache.find? (·.1 == id) with
  | some e => rfl
  | none => cases p.peerStorage.region.peers.find? (·.id == id) <;> rfl

/-- One turn of the loop of `CollectPendingPeers`: a peer other than this one whose match is
below the bound is reported if found, with a start time recorded unless it has one; only the
cache and the start times change, and lookups find what they found. -/
theorem collectPendingPeersFrom_cons (truncatedIdx : Nat) (now : Time) (id : Nat)
    (progress : Progress) (prs : List (Nat × Progress)) (pending : List MetaPeer) (q : Peer) :
    ∃ new q', collectPendingPeersFrom truncatedIdx now ((id, progress) :: prs) (pending, q) =
        collectPendingPeersFrom truncatedIdx now prs (pending ++ new, q') ∧
      new = (if id != q.meta.id && decide (progress.matchIdx < truncatedIdx) then
        (q.getPeerFromCache id).1.toList else []) ∧
      (∃ c st, q' = { q with peerCache := c, peersStartPendingTime := st }) ∧
      (∀ j, (q'.getPeerFromCache j).1 = (q.getPeerFromCache j).1) ∧
      (∀ j t, mapGet q.peersStartPendingTime j = some t → mapGet q'.peersStartPendingTime j = some t) ∧
      (new ≠ [] → (mapGet q'.peersStartPendingTime id).isSome) := by
  have hlook := getPeerFromCache_getPeerFromCache q id
  obtain ⟨c, hc⟩ := getPeerFromCache_eq q id
  simp only [collectPendingPeersFrom]
  by_cases hself : id = q.meta.id
  · refine ⟨[], q, by simp [hself], by simp [hself], ⟨_, _, rfl⟩, fun _ => rfl, fun _ _ h => h,
      fun h => absurd rfl h⟩
  by_cases hlag : progress.matchIdx < truncatedIdx
  swap
  · refine ⟨[], q, by simp [hself, hlag], by simp [hlag], ⟨_, _, rfl⟩, fun _ => rfl,
      fun _ _ h => h, fun h => absurd rfl h⟩
  rcases hg : q.getPeerFromCache id with ⟨_ | peer, q1⟩ <;> rw [hg] at hc hlook <;> dsimp only at hc
  · refine ⟨[], q1, by simp [hself, hlag, hg], by simp [hself, hlag, hg], ⟨c, _, by rw [hc]⟩,
      fun j => by rw [← getPeerFromCache_getPeerFromCache q id j, hg], fun _ _ h => by rwa [hc],
      fun h => absurd rfl h⟩
  -- the peer is reported, and its start time recorded unless it has one
  have hq1 (j : Nat) : (q1.getPeerFromCache j).1 = (q.getPeerFromCache j).1 := by
    rw [← getPeerFromCache_getPeerFromCache q id j, hg]
  subst hc
  cases hm : mapGet q.peersStartPendingTime id with
  | some t0 =>
    refine ⟨[peer], { q with peerCache := c }, by simp [hself, hlag, hg, hm], by simp [hself, hlag],
      ⟨c, _, rfl⟩, hq1, fun _ _ h => h, fun _ => by simp [hm]⟩
  | none =>
    let q' : Peer :=
      { q with peerCache := c, peersStartPendingTime := mapSet q.peersStartPendingTime id now }
    refine ⟨[peer], q', by simp [q', hself, hlag, hg, hm], by simp [hself, hlag], ⟨c, _, rfl⟩,
      fun j => (getPeerFromCache_fst_congr (p := { q with peerCache := c }) (q := q') rfl rfl
        j).trans (hq1 j), fun j t h => ?_,
      fun _ => by simp [q', mapGet_mapSet]⟩
    rw [mapGet_mapSet, if_neg (by rintro rfl; rw [hm] at h; cases h)]
    exact h

/-- The loop of `CollectPendingPeers`, from `pending` at `q`: it adds what `getPeerFromCache`
finds for each lagging peer, changes only the cache and the start times, keeps every start time,
and records one for each peer it reports. -/
theorem collectPendingPeersFrom_spec (truncatedIdx : Nat) (now : Time) (prs : List (Nat × Progress))
    (pending : List MetaPeer) (q : Peer) :
    let r := collectPendingPeersFrom truncatedIdx now prs (pending, q)
    let lagging := prs.filter fun e => e.1 != q.meta.id && decide (e.2.matchIdx < truncatedIdx)
    r.1 = pending ++ lagging.filterMap (fun e => (q.getPeerFromCache e.1).1) ∧
      (∃ c st, r.2 = { q with peerCache := c, peersStartPendingTime := st }) ∧
      (∀ j, (r.2.getPeerFromCache j).1 = (q.getPeerFromCache j).1) ∧
      (∀ j t, mapGet q.peersStartPendingTime j = some t →
        mapGet r.2.peersStartPendingTime j = some t) ∧
      ∀ e ∈ lagging, (q.getPeerFromCache e.1).1.isSome →
        (mapGet r.2.peersStartPendingTime e.1).isSome := by
  induction prs generalizing pending q with
  | nil => exact ⟨by simp [collectPendingPeersFrom], ⟨_, _, rfl⟩, fun _ => rfl, fun _ _ h => h,
      by simp⟩
  | cons e prs ih =>
    obtain ⟨id, progress⟩ := e
    obtain ⟨new, q', heq, hnew, ⟨c, st, rfl⟩, hlook, hkeep, hrec⟩ :=
      collectPendingPeersFrom_cons truncatedIdx now id progress prs pending q
    obtain ⟨h1, ⟨c', st', h2⟩, h3, h4, h5⟩ := ih (pending ++ new) { q with peerCache := c, peersStartPendingTime := st }
    simp only [hlook] at h1 h5
    dsimp only at h1 h2 h3 h4 h5 ⊢
    rw [heq]
    refine ⟨?_, ⟨c', st', h2⟩, fun j => (h3 j).trans (hlook j), fun j t h => h4 j t (hkeep j t h),
      fun e he hs => ?_⟩
    · rw [h1, hnew, List.append_assoc]
      by_cases hc : (id != q.meta.id && decide (progress.matchIdx < truncatedIdx)) = true
      · simp only [List.filter_cons, hc, if_true, List.filterMap_cons]
        cases (q.getPeerFromCache id).1 <;> simp
      · simp [List.filter_cons, hc]
    · rw [List.filter_cons] at he
      split at he
      · rcases List.mem_cons.1 he with rfl | he
        · obtain ⟨x, hx⟩ := Option.isSome_iff_exists.1 hs
          dsimp only at hx
          obtain ⟨t, ht⟩ := Option.isSome_iff_exists.1 (hrec (by rw [hnew, if_pos ‹_›, hx]; nofun))
          rw [h4 _ _ ht]
          rfl
        · exact h5 e he hs
      · exact h5 e he hs

/-- **`CollectPendingPeers` reports the peers that lag.** A peer is reported exactly when it is
not this one, its match is below the truncated index, and `getPeerFromCache` finds it; the
reports follow the library's progress. `CollectPendingPeers` changes only the cache and the start
times, never overwrites a start time, and records one for every peer it reports. -/
theorem collectPendingPeers_spec (p : Peer) (now : Time) :
    let lagging := p.raftGroup.progress.filter fun e =>
      e.1 != p.meta.id && decide (e.2.matchIdx < p.peerStorage.truncatedIndex)
    (p.collectPendingPeers now).1 = lagging.filterMap (fun e => (p.getPeerFromCache e.1).1) ∧
      (∃ c st, (p.collectPendingPeers now).2 =
        { p with peerCache := c, peersStartPendingTime := st }) ∧
      (∀ j t, mapGet p.peersStartPendingTime j = some t →
        mapGet (p.collectPendingPeers now).2.peersStartPendingTime j = some t) ∧
      ∀ e ∈ lagging, (p.getPeerFromCache e.1).1.isSome →
        (mapGet (p.collectPendingPeers now).2.peersStartPendingTime e.1).isSome := by
  obtain ⟨h1, h2, -, h4, h5⟩ :=
    collectPendingPeersFrom_spec p.peerStorage.truncatedIndex now p.raftGroup.progress [] p
  exact ⟨h1, h2, h4, h5⟩

/-- **`AnyNewPeerCatchUp` reports a caught-up peer once.** It answers true exactly for a leader
and a peer with a start time whose match has reached the truncated index, and then forgets that
start time; a peer that is not the leader forgets every start time. -/
theorem anyNewPeerCatchUp_eq (p : Peer) (peerID : Nat) :
    p.anyNewPeerCatchUp peerID =
      let caught := p.isLeader && (mapGet p.peersStartPendingTime peerID).isSome &&
        (mapGet p.raftGroup.progress peerID).any
          fun pr => decide (p.peerStorage.truncatedIndex ≤ pr.matchIdx)
      (caught, { p with peersStartPendingTime :=
        if caught then mapDelete p.peersStartPendingTime peerID
        else if p.isLeader then p.peersStartPendingTime else [] }) := by
  unfold anyNewPeerCatchUp
  by_cases h0 : p.peersStartPendingTime.length = 0
  · have hnil := List.length_eq_zero.1 h0
    cases hl : p.isLeader <;> simp [hnil, mapGet] <;> rw [← hnil]
  cases hl : p.isLeader
  · simp [h0]
  · cases hs : mapGet p.peersStartPendingTime peerID <;>
      cases hpr : mapGet p.raftGroup.progress peerID <;> simp [h0]
    split_ifs with h <;> simp [h]

/-- `CheckStaleState` leaves the leader-missing clock, stops it, or starts it at `now`. -/
theorem checkStaleState_leaderMissingTime (p : Peer) (cfg : Config) (now : Time) :
    (p.checkStaleState cfg now).2.leaderMissingTime = p.leaderMissingTime ∨
      (p.checkStaleState cfg now).2.leaderMissingTime = none ∨
      (p.checkStaleState cfg now).2.leaderMissingTime = some now := by
  unfold checkStaleState
  split
  · simp
  split
  · simp
  split
  · simp
  exact .inl (by dsimp only; split <;> rfl)

/-- **`CheckStaleState` reports a missing leader after the timeouts.** A leader is valid and
stops the clock. A follower whose clock is not running starts it and is valid; one whose clock
has run `MaxLeaderMissingDuration` reports `ToValidate` and restarts the clock; one whose clock
has run `AbnormalLeaderMissingDuration` reports `LeaderMissing` unless it is uninitialized or a
learner; otherwise it is valid. -/
theorem checkStaleState_toValidate_iff (p : Peer) (cfg : Config) (now : Time) :
    ((p.checkStaleState cfg now).1 = .toValidate ↔
      p.isLeader = false ∧ ∃ t, p.leaderMissingTime = some t ∧
        cfg.maxLeaderMissingDuration ≤ now - t) ∧
    ((p.checkStaleState cfg now).1 = .toValidate →
      (p.checkStaleState cfg now).2 = { p with leaderMissingTime := some now }) := by
  unfold checkStaleState
  dsimp only
  cases hl : p.isLeader
  · cases ht : p.leaderMissingTime with
    | none => simp
    | some t =>
      by_cases hmax : cfg.maxLeaderMissingDuration ≤ now - t
      · simp [hmax]
      · simp only [hmax, if_false, Bool.false_eq_true]
        split_ifs <;> simp [hmax]
  · simp

/-! ## Runs -/

section Run

variable {cfg : Config} {codec : Codec} {trans : Transport}

/-- What an action does to the heartbeats: `Step` records the sender while the peer leads,
`CheckPeers` checks the map, and every other action leaves it. -/
def heartbeatsAfter (p : Peer) : Action → List (Nat × Time)
  | .step m now _ =>
    if p.isLeader && m.fromId != invalidID then mapSet p.peerHeartbeats m.fromId now
    else p.peerHeartbeats
  | .checkPeers now => (p.checkPeers now).peerHeartbeats
  | _ => p.peerHeartbeats

/-- Only `Step` and `CheckPeers` change the heartbeats. -/
theorem exec_peerHeartbeats {p p' : Peer} {a : Action} (h : p.exec cfg codec trans a = .ok p') :
    p'.peerHeartbeats = heartbeatsAfter p a := by
  cases a with
  | step m now r =>
    cases h
    unfold step heartbeatsAfter
    dsimp only
    split_ifs <;> rfl
  | checkPeers now => cases h; rfl
  | propose cb rlog errResp env =>
    obtain ⟨⟨p1, b⟩, h1, rfl⟩ := except_map_eq_ok.1 h
    obtain ⟨r, l, q, ap, pr, d, u, rfl⟩ := propose_proposed h1
    rfl
  | readyCycle env =>
    have happ := handleRaftReadyAppend_appended p trans env
    change p.readyCycle trans env = .ok p' at h
    unfold readyCycle at h
    rcases hres : p.handleRaftReadyAppend trans env with ⟨p1, _ | ⟨rd1, ctx⟩⟩ <;>
      rw [hres] at h happ <;> dsimp only at h happ <;>
      obtain ⟨_, _, _, _, _, _, _, _, _, _, rfl, -⟩ := happ
    · cases h; rfl
    obtain ⟨⟨p2, rd2, r⟩, h2, h⟩ := except_bind_eq_ok.1 h
    obtain ⟨-, -, meta, c, s, l, ms, rfl, -⟩ := postRaftReadyPersistent_eq h2
    obtain ⟨p3, ⟨q, h', l', c', u, s', rfl⟩, heq⟩ := handleRaftReadyApply_eq _ rd2 env.now
    rw [heq] at h
    obtain ⟨p4, h4, rfl⟩ := except_map_eq_ok.1 h
    obtain ⟨rs, l'', c'', rfl, -⟩ := applyReads_ok h4
    rfl
  | postApply applyState appliedIndexTerm merged metrics =>
    obtain ⟨⟨p1, hasReady⟩, h1, rfl⟩ := except_map_eq_ok.1 h
    obtain ⟨-, p2, a, h2, rfl⟩ := postApply_ok h1
    rcases answerConfirmedReads_ok h2 with ⟨rfl, -⟩ | ⟨rs, rfl, -⟩ <;> rfl
  | takeApplyProposals => cases h; rw [takeApplyProposals_eq]; rfl
  | maybeDestroy cancelled =>
    cases h
    obtain ⟨a, r, i, he, -⟩ := p.maybeDestroy_eq cancelled
    rw [he]; rfl
  | destroy keepData => cases h; rfl
  | setRegion region =>
    cases h
    obtain ⟨l, c, he⟩ := p.setRegion_eq region
    rw [he]; rfl

/-- Every action keeps the keys of the heartbeats distinct. -/
theorem heartbeatKeys_nodup_exec {p p' : Peer} {a : Action}
    (h : p.exec cfg codec trans a = .ok p') (hnd : (keys p.peerHeartbeats).Nodup) :
    (keys p'.peerHeartbeats).Nodup := by
  rw [exec_peerHeartbeats h]
  cases a with
  | step m now r =>
    unfold heartbeatsAfter
    dsimp only
    split_ifs <;> first | exact keys_mapSet_nodup hnd _ _ | exact hnd
  | checkPeers now => exact checkPeers_keys_nodup p now hnd
  | _ => exact hnd

/-- **The heartbeats stay a map.** Over every run, from a peer whose heartbeat keys are
distinct, they stay distinct: the list's length is the size of the Go map. -/
theorem heartbeatKeys_nodup_run {p p' : Peer} {as : List Action}
    (h : p.run cfg codec trans as = .ok p') (hnd : (keys p.peerHeartbeats).Nodup) :
    (keys p'.peerHeartbeats).Nodup := by
  induction as generalizing p with
  | nil => cases h; exact hnd
  | cons a as ih =>
    obtain ⟨q, hq, h⟩ := except_bind_eq_ok.1 h
    exact ih h (heartbeatKeys_nodup_exec hq hnd)

end Run

end Peer

/-- **`CheckPeers` can leave a member without a heartbeat.** A leader whose map has as many
entries as its region has peers, and lacks a member, still lacks it after `CheckPeers`, and
`CollectDownPeers` never reports that member down, whatever the bound and however late. -/
theorem checkPeers_misses_member (p : Peer) (now : Time) (hl : p.isLeader = true)
    (hlen : p.peerHeartbeats.length = p.region.peers.length) {peer : MetaPeer}
    (hmiss : mapGet p.peerHeartbeats peer.id = none) :
    mapGet (p.checkPeers now).peerHeartbeats peer.id = none ∧
      ∀ maxDuration t, ∀ s ∈ (p.checkPeers now).collectDownPeers maxDuration t,
        s.peer.id ≠ peer.id := by
  have hq : p.checkPeers now = p := by simp [Peer.checkPeers, hl, hlen]
  rw [hq]
  refine ⟨hmiss, fun maxDuration t s hs hid => ?_⟩
  obtain ⟨-, -, hb, hget, -⟩ := (p.mem_collectDownPeers maxDuration t s).1 hs
  rw [hid, hmiss] at hget
  cases hget

/-- `strayTrace` reaches `strayLeader`, whose member 3 has no heartbeat after `CheckPeers` and is
never reported down. -/
theorem checkPeers_misses_member_strayLeader :
    samplePeer.run sampleConfig sampleCodec sampleTransport strayTrace = .ok strayLeader ∧
      ⟨3, 3, .voter⟩ ∈ strayLeader.region.peers ∧
      (mapGet (strayLeader.checkPeers 2).peerHeartbeats 3 = none ∧
        ∀ maxDuration t, ∀ s ∈ (strayLeader.checkPeers 2).collectDownPeers maxDuration t,
          s.peer.id ≠ 3) :=
  ⟨rfl, by decide, @checkPeers_misses_member strayLeader 2 rfl rfl ⟨3, 3, .voter⟩ rfl⟩

end RaftStore
