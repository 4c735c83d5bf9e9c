import RaftStore.ApplyPipeline

/-!
# RaftStore.Messages

The messages of the readies, against what the transport receives (spec §4.8, item 8). A leader
sends a ready's messages before persisting it, in `HandleRaftReadyAppend`; a follower sends them
after, in `PostRaftReadyPersistent`, or buffers them in `pendingMessages` while a snapshot is
applied, and the next ready cycle that finds the snapshot applied flushes the buffer first.
The buffer is overwritten, not appended to.

`Send` hands the messages over one by one and stops at the first error:

* `send_takeWhile` — over a transport that accepts every message, `Send` hands over the messages
  before the first one whose recipient does not resolve, and reports that recipient;
* `send_drops_after_unresolved` — so every message after an unresolvable recipient is dropped,
  whatever its own recipient.

With a transport that accepts every message and recipients that resolve, a ready's messages are
handed to the transport exactly once and in ready order:

* `Peer.outgoing` — the messages handed to the transport, then the buffered ones;
* `readyCycle_outgoing` — a ready cycle appends to it the messages of the ready it takes, and
  nothing else: the buffer it overwrites is empty, since it was flushed at the start;
* `ready_messages_in_order` — over every run, the messages handed to the transport, then the
  buffered ones, are the messages of the readies taken, in order; a cycle at an applying
  snapshot does nothing; and a cycle that leaves a snapshot applying hands nothing to the
  transport after its append stage.
-/

set_option autoImplicit false

namespace RaftStore

namespace Peer

/-- Whether `getPeerFromCache` finds the recipient `id`. -/
def resolves (p : Peer) (id : Nat) : Bool := (p.getPeerFromCache id).1.isSome

/-- The messages handed to the transport, then those buffered. -/
def outgoing (p : Peer) : List Message := p.sent.map RaftMessage.message ++ p.pendingMessages

/-- `q` resolves every recipient `p` resolves. -/
def ResolvesMore (p q : Peer) : Prop := ∀ id, p.resolves id = true → q.resolves id = true

theorem ResolvesMore.refl (p : Peer) : ResolvesMore p p := fun _ h => h

theorem ResolvesMore.trans {p q r : Peer} (h₁ : ResolvesMore p q) (h₂ : ResolvesMore q r) :
    ResolvesMore p r := fun id h => h₂ id (h₁ id h)

theorem resolves_eq (p : Peer) (id : Nat) :
    p.resolves id =
      ((p.peerCache.find? (·.1 == id)).isSome || (p.region.peers.find? (·.id == id)).isSome) := by
  unfold resolves getPeerFromCache
  split <;> rename_i h
  · simp [h]
  · split <;> rename_i h' <;> simp [h, h']

/-- Resolution reads only the cache and the region. -/
theorem resolvesMore_of_eq {p q : Peer} (hc : q.peerCache = p.peerCache)
    (hr : q.peerStorage.region = p.peerStorage.region) : ResolvesMore p q := fun id h => by
  rwa [resolves_eq, region, hc, hr, ← region, ← resolves_eq]

/-- Looking a recipient up only adds to the cache. -/
theorem resolvesMore_getPeerFromCache (p : Peer) (k : Nat) :
    ResolvesMore p (p.getPeerFromCache k).2 := by
  unfold getPeerFromCache
  split
  · exact .refl p
  · split
    · rename_i peer _
      intro id h
      rw [resolves_eq] at h ⊢
      simp only [Bool.or_eq_true] at h ⊢
      refine h.imp (fun hc => ?_) fun h => h
      obtain ⟨x, hx, hxid⟩ := List.find?_isSome.1 hc
      refine List.find?_isSome.2 ?_
      by_cases hk : k = id
      · exact ⟨(k, peer), List.mem_cons_self _ _, by simp [hk]⟩
      · refine ⟨x, List.mem_cons_of_mem _ (List.mem_filter.2 ⟨hx, ?_⟩), hxid⟩
        simp only [beq_iff_eq] at hxid
        simp [hxid, Ne.symm hk]
    · exact .refl p

/-- Resolution reads only the cache and the region. -/
theorem resolves_congr {p q : Peer} (hc : q.peerCache = p.peerCache)
    (hr : q.peerStorage.region = p.peerStorage.region) : q.resolves = p.resolves :=
  funext fun id => by rw [resolves_eq, resolves_eq, region, region, hc, hr]

/-- Looking a recipient up resolves exactly the recipients resolved before: what it caches is a
peer of the region. -/
theorem resolves_getPeerFromCache (p : Peer) (k : Nat) :
    (p.getPeerFromCache k).2.resolves = p.resolves := by
  refine funext fun id => Bool.eq_iff_iff.2 ⟨fun h => ?_, resolvesMore_getPeerFromCache p k id⟩
  unfold getPeerFromCache at h
  split at h
  · exact h
  · split at h
    · rename_i peer hpeer
      rw [resolves_eq] at h ⊢
      simp only [mapSet, Bool.or_eq_true, List.find?_isSome, List.mem_cons, List.mem_filter] at h ⊢
      rcases h with ⟨x, rfl | ⟨hx, -⟩, hxid⟩ | h
      · have hk := List.find?_some hpeer
        simp only [beq_iff_eq] at hk hxid ⊢
        exact .inr ⟨peer, List.mem_of_find?_eq_some hpeer, hk.trans hxid⟩
      · exact .inl ⟨x, hx, hxid⟩
      · exact .inr h
    · exact h

section Send

variable {p : Peer} {trans : Transport} {now : Time}

/-- **What `Send` hands over.** Over a transport that accepts every message, `Send` hands the
transport, in order, the messages before the first one whose recipient does not resolve, and
reports that recipient as not found; it resolves the recipients it resolved before. -/
theorem send_takeWhile (htrans : ∀ m, trans.accepts m = true) (msgs : List Message) :
    (∃ new, (p.send trans now msgs).1.sent = p.sent ++ new ∧
      new.map RaftMessage.message = msgs.takeWhile (p.resolves ·.toId)) ∧
    (p.send trans now msgs).2 =
      (msgs.find? (!p.resolves ·.toId)).map (fun m => .recipientNotFound m.toId p.regionID) ∧
    (p.send trans now msgs).1.resolves = p.resolves := by
  induction msgs generalizing p with
  | nil => exact ⟨⟨[], by simp [send]⟩, rfl, rfl⟩
  | cons msg msgs ih =>
    have hres := resolves_getPeerFromCache p msg.toId
    obtain ⟨c, hc⟩ := getPeerFromCache_eq p msg.toId
    have hm : p.resolves msg.toId = (p.getPeerFromCache msg.toId).1.isSome := rfl
    rcases hg : p.getPeerFromCache msg.toId with ⟨_ | toPeer, q⟩ <;>
      rw [hg] at hc hres hm <;>
      simp only [Option.isSome_none, Option.isSome_some] at hc hres hm <;> subst hc
    · -- the recipient does not resolve: nothing goes out
      simp only [send, sendRaftMessage, hg, hres]
      rw [List.takeWhile_cons_of_neg (p := fun x : Message => p.resolves x.toId) (by simp [hm]),
        List.find?_cons_of_pos (p := fun x : Message => !p.resolves x.toId) _ (by simp [hm])]
      exact ⟨⟨[], by simp⟩, rfl, trivial⟩
    · -- the message goes out; a `MsgTimeoutNow` only makes the lease suspect
      let q' : Peer := { p with
        peerCache := c, sent := p.sent ++ [{ p with peerCache := c }.raftMessage toPeer msg]
        leaderLease := if msg.msgType == .msgTimeoutNow then p.leaderLease.suspect now
          else p.leaderLease }
      have hq' : q'.resolves = p.resolves :=
        (resolves_congr (p := { p with peerCache := c }) (q := q') rfl rfl).trans hres
      have hsend : p.send trans now (msg :: msgs) = q'.send trans now msgs := by
        simp only [send, sendRaftMessage, hg, htrans, if_true]
        split <;> rename_i ht <;> simp only [q', ht, Bool.false_eq_true, if_true, if_false]
      obtain ⟨⟨new, hs, hmap⟩, herr, hr⟩ := @ih q'
      rw [hsend, hr, hq', List.takeWhile_cons_of_pos (p := fun x : Message => p.resolves x.toId) hm,
        List.find?_cons_of_neg (p := fun x : Message => !p.resolves x.toId) _ (by simp [hm])]
      rw [hq'] at hmap herr
      exact ⟨⟨{ p with peerCache := c }.raftMessage toPeer msg :: new, by rw [hs]; simp [q'],
        by simp [hmap, raftMessage]⟩, herr, rfl⟩

/-- **`Send` drops every message after one it cannot address.** Over a transport that accepts
every message, when a message's recipient does not resolve, `Send` hands over only messages
before it and reports an error: none of the messages after it reaches the transport, whatever
their recipients. -/
theorem send_drops_after_unresolved (htrans : ∀ m, trans.accepts m = true)
    (pre post : List Message) {m : Message} (hm : p.resolves m.toId = false) :
    (∃ new, (p.send trans now (pre ++ m :: post)).1.sent = p.sent ++ new ∧
      new.map RaftMessage.message = pre.takeWhile (p.resolves ·.toId)) ∧
    (p.send trans now (pre ++ m :: post)).2.isSome := by
  obtain ⟨hsent, herr, -⟩ := @send_takeWhile p trans now htrans (pre ++ m :: post)
  have htake : (pre ++ m :: post).takeWhile (p.resolves ·.toId) = pre.takeWhile (p.resolves ·.toId) := by
    rw [List.takeWhile_append, List.takeWhile_cons_of_neg (by simp [hm]), List.append_nil]
    split <;> rename_i hl
    · exact ((List.takeWhile_prefix _).eq_of_length hl).symm
    · rfl
  refine ⟨htake ▸ hsent, ?_⟩
  simp only [herr, Option.isSome_map', List.find?_isSome]
  exact ⟨m, by simp, by simp [hm]⟩

/-- The follower `NewPeer` creates sends a message to the unknown peer 9, then a heartbeat to
peer 2, which it can address: neither reaches the transport. -/
theorem send_drops_after_unresolved_samplePeer :
    samplePeer.resolves 2 = true ∧
    ((∃ new, (samplePeer.send sampleTransport 0
          ([] ++ ⟨.msgHeartbeat, 9, 1, 1, 0⟩ :: [⟨.msgHeartbeat, 2, 1, 1, 0⟩])).1.sent =
          samplePeer.sent ++ new ∧
        new.map RaftMessage.message = ([] : List Message).takeWhile (samplePeer.resolves ·.toId)) ∧
      (samplePeer.send sampleTransport 0
          ([] ++ ⟨.msgHeartbeat, 9, 1, 1, 0⟩ :: [⟨.msgHeartbeat, 2, 1, 1, 0⟩])).2.isSome) :=
  ⟨rfl, send_drops_after_unresolved (fun _ => rfl) [] [⟨.msgHeartbeat, 2, 1, 1, 0⟩] rfl⟩

/-- Sending to recipients that resolve, over a transport that accepts everything, hands every
message to the transport in order and reports no error. -/
theorem send_resolved (htrans : ∀ m, trans.accepts m = true) {msgs : List Message}
    (hr : ∀ m ∈ msgs, p.resolves m.toId = true) :
    (p.send trans now msgs).2 = none ∧
    (∃ new, (p.send trans now msgs).1.sent = p.sent ++ new ∧ new.map RaftMessage.message = msgs) ∧
    ResolvesMore p (p.send trans now msgs).1 := by
  obtain ⟨⟨new, hs, hmap⟩, herr, hres⟩ := @send_takeWhile p trans now htrans msgs
  refine ⟨?_, ⟨new, hs, hmap.trans (List.takeWhile_eq_self_iff.2 hr)⟩, fun id h => hres ▸ h⟩
  rw [herr, List.find?_eq_none.2 (by simpa using hr)]
  rfl

/-- Sending leaves the buffer alone. -/
theorem send_pendingMessages (p : Peer) (msgs : List Message) :
    (p.send trans now msgs).1.pendingMessages = p.pendingMessages := by
  obtain ⟨c, s, l, h⟩ := send_eq p trans now msgs
  rw [h]

/-- Flushing the buffer to recipients that resolve hands all of it to the transport. -/
theorem flushPendingMessages_outgoing (htrans : ∀ m, trans.accepts m = true)
    (hr : ∀ m ∈ p.pendingMessages, p.resolves m.toId = true) :
    (p.flushPendingMessages trans now).sent.map RaftMessage.message = p.outgoing ∧
    (p.flushPendingMessages trans now).pendingMessages = [] ∧
    ResolvesMore p (p.flushPendingMessages trans now) := by
  unfold flushPendingMessages
  split
  · rename_i h
    exact ⟨by simp [outgoing, List.isEmpty_iff.1 h], List.isEmpty_iff.1 h, .refl p⟩
  · have hq := resolvesMore_of_eq (p := p) (q := { p with pendingMessages := [] }) rfl rfl
    obtain ⟨-, ⟨new, hs, hmap⟩, hm⟩ := @send_resolved { p with pendingMessages := [] } trans now
      htrans p.pendingMessages fun m hm => hq _ (hr m hm)
    exact ⟨by rw [hs, List.map_append, hmap]; rfl, send_pendingMessages _ _, hq.trans hm⟩

/-- Appending a ready: a leader hands its messages to the transport, to recipients that
resolve. -/
theorem appendReady_outgoing (htrans : ∀ m, trans.accepts m = true) {rd : Ready}
    (hr : ∀ m ∈ rd.messages, p.resolves m.toId = true) :
    (p.appendReady trans rd now).1.sent.map RaftMessage.message =
      p.sent.map RaftMessage.message ++ (if p.isLeader then rd.messages else []) ∧
    (p.appendReady trans rd now).1.pendingMessages = p.pendingMessages ∧
    ResolvesMore p (p.appendReady trans rd now).1 := by
  obtain ⟨l, lc, t, h⟩ := onRoleChanged_eq p rd now
  have hl : (p.onRoleChanged rd now).isLeader = p.isLeader := by rw [h]; rfl
  have hmore : ResolvesMore p (p.onRoleChanged rd now) := h ▸ resolvesMore_of_eq rfl rfl
  unfold appendReady
  dsimp only
  rw [hl]
  cases p.isLeader
  · rw [h]
    exact ⟨by simp, rfl, resolvesMore_of_eq rfl rfl⟩
  · obtain ⟨-, ⟨new, hs, hmap⟩, hm⟩ := @send_resolved (p.onRoleChanged rd now) trans now htrans _
      fun m hm => hmore _ (hr m hm)
    simp only [if_true]
    exact ⟨by rw [hs, List.map_append, hmap, h], by rw [send_pendingMessages, h],
      hmore.trans (hm.trans (resolvesMore_of_eq rfl rfl))⟩

/-- A follower's messages, unless a snapshot is applied, go to recipients that resolve. -/
theorem sendFollowerMessages_sent (htrans : ∀ m, trans.accepts m = true) {rd : Ready}
    (hr : p.isLeader = false → p.isApplyingSnapshot = false →
      ∀ m ∈ rd.messages, p.resolves m.toId = true) :
    ∃ new, (p.sendFollowerMessages trans rd now).1.sent = p.sent ++ new ∧
      new.map RaftMessage.message =
        if !p.isLeader && !p.isApplyingSnapshot then rd.messages else [] := by
  unfold sendFollowerMessages
  cases hl : p.isLeader
  · cases ha : p.isApplyingSnapshot
    · simp only [Bool.not_false, Bool.and_self, if_true, Bool.false_eq_true, if_false]
      exact (@send_resolved p trans now htrans rd.messages (hr hl ha)).2.1
    · exact ⟨[], by simp⟩
  · exact ⟨[], by simp⟩

end Send

/-- Once persisted, a ready without a snapshot leaves the storage as it was. -/
theorem postReadyPersistent_of_not_applying {ps : PeerStorage} {ctx : InvokeContext}
    (h : (ps.postReadyPersistent ctx).1.applying = false) : ps.postReadyPersistent ctx = (ps, none) := by
  obtain ⟨_ | snap⟩ := ctx
  · rfl
  · cases h

section Stages

variable {p : Peer} {trans : Transport}

/-- `PostRaftReadyPersistent` hands a follower's messages to the transport unless the storage
is applying a snapshot, in which case they are buffered. -/
theorem postRaftReadyPersistent_sent (htrans : ∀ m, trans.accepts m = true) {rd rd' : Ready}
    {ctx : InvokeContext} {now : Time} {p' : Peer} {r : Option ApplySnapResult}
    (hr : (p.peerStorage.postReadyPersistent ctx).1.applying = false →
      ∀ m ∈ rd.messages, p.resolves m.toId = true)
    (h : p.postRaftReadyPersistent trans rd ctx now = .ok (p', rd', r)) :
    ∃ new, p'.sent = p.sent ++ new ∧ new.map RaftMessage.message =
      if !p.isLeader && !p'.isApplyingSnapshot then rd.messages else [] := by
  have hp : (if ctx.snapshot.isSome then { p with raftLogSizeHint := 0 } else p) =
      { p with raftLogSizeHint := if ctx.snapshot.isSome then 0 else p.raftLogSizeHint } := by
    split <;> rfl
  have hps' := @postReadyPersistent_of_not_applying p.peerStorage ctx
  unfold postRaftReadyPersistent at h
  simp only [hp] at h
  rcases hps : p.peerStorage.postReadyPersistent ctx with ⟨ps, asr⟩
  rw [hps] at hps'
  simp only [hps] at h
  obtain ⟨meta, -, h⟩ := except_map_eq_ok.1 h
  generalize hq : ({ p with
    raftLogSizeHint := (if ctx.snapshot.isSome then 0 else p.raftLogSizeHint)
    peerStorage := ps, meta := meta } : Peer) = q at h
  have hs := @sendFollowerMessages_sent q trans now htrans rd fun _ ha m hm => by
    subst hq
    refine resolvesMore_of_eq (p := p) ?_ ?_ _ (hr (by rw [hps]; exact ha) m hm)
    · rfl
    · rw [(Prod.mk.inj (hps' ha)).1]
  obtain ⟨c, s, l, hf⟩ := sendFollowerMessages_eq q trans rd now
  rw [hf] at h hs
  subst hq
  dsimp only at h hs
  split at h <;> cases h <;> exact hs

/-- Once the storage applies a snapshot, `PostRaftReadyPersistent` hands nothing to the
transport. -/
theorem postRaftReadyPersistent_sent_of_applying (htrans : ∀ m, trans.accepts m = true)
    {rd rd' : Ready} {ctx : InvokeContext} {now : Time} {p' : Peer} {r : Option ApplySnapResult}
    (h : p.postRaftReadyPersistent trans rd ctx now = .ok (p', rd', r))
    (ha : p'.isApplyingSnapshot = true) : p'.sent = p.sent := by
  have ha' : (p.peerStorage.postReadyPersistent ctx).1.applying = true := by
    obtain ⟨-, -, meta, c, s, l, ms, rfl, -⟩ := postRaftReadyPersistent_eq h
    exact ha
  obtain ⟨new, hs, hmap⟩ := postRaftReadyPersistent_sent htrans (fun hf => by rw [ha'] at hf; cases hf) h
  simp only [ha, Bool.not_true, Bool.and_false, Bool.false_eq_true, if_false,
    List.map_eq_nil_iff] at hmap
  rw [hs, hmap, List.append_nil]

/-- `PostRaftReadyPersistent`, on an empty buffer and a ready whose messages a leader has sent:
the ready's messages are handed to the transport or buffered. -/
theorem postRaftReadyPersistent_outgoing (htrans : ∀ m, trans.accepts m = true) {rd rd' : Ready}
    {ctx : InvokeContext} {now : Time} {p' : Peer} {r : Option ApplySnapResult}
    (hpend : p.pendingMessages = []) (hlead : p.isLeader = true → rd.messages = [])
    (hr : ∀ m ∈ rd.messages, p.resolves m.toId = true)
    (h : p.postRaftReadyPersistent trans rd ctx now = .ok (p', rd', r)) :
    p'.outgoing = p.outgoing ++ rd.messages := by
  obtain ⟨new, hs, hmap⟩ := postRaftReadyPersistent_sent htrans (fun _ => hr) h
  obtain ⟨-, -, meta, c, s, l, ms, rfl, -⟩ := postRaftReadyPersistent_eq h
  dsimp only at hs hmap ⊢
  subst hs
  clear h
  simp only [isApplyingSnapshot] at hmap ⊢
  simp only [outgoing, hpend, List.map_append, hmap, List.append_nil]
  cases hl : p.isLeader
  · by_cases ha : (p.peerStorage.postReadyPersistent ctx).1.applying = true <;> simp [ha]
  · simp [hlead hl]

/-- `HandleRaftReadyApply` neither sends nor buffers. -/
theorem handleRaftReadyApply_sent {rd : Ready} {now : Time} {p' : Peer}
    (h : p.handleRaftReadyApply rd now = .ok p') :
    p'.sent = p.sent ∧ p'.pendingMessages = p.pendingMessages := by
  obtain ⟨p1, ⟨q, h', l, c, u, s, rfl⟩, heq⟩ := handleRaftReadyApply_eq p rd now
  rw [heq] at h
  obtain ⟨p2, h2, rfl⟩ := except_map_eq_ok.1 h
  obtain ⟨rs, l', c', rfl, -⟩ := applyReads_ok h2
  exact ⟨rfl, rfl⟩

/-- An append stage that takes no ready hands at most the buffer to the transport. -/
theorem handleRaftReadyAppend_none_outgoing (htrans : ∀ m, trans.accepts m = true)
    {env : AppendEnv} (hr : ∀ m ∈ p.pendingMessages, p.resolves m.toId = true)
    (h : (p.handleRaftReadyAppend trans env).2 = none) :
    (p.handleRaftReadyAppend trans env).1.outgoing = p.outgoing := by
  have hreg : (p.peerStorage.checkApplyingSnap env.snapFinished).2.region = p.peerStorage.region := by
    unfold PeerStorage.checkApplyingSnap; split_ifs <;> rfl
  revert h
  unfold handleRaftReadyAppend
  generalize p.peerStorage.checkApplyingSnap env.snapFinished = r at hreg ⊢
  obtain ⟨applying, ps⟩ := r
  dsimp only at hreg ⊢
  split
  · intro; rfl
  split
  · intro; rfl
  obtain ⟨hs, hp, -⟩ := @flushPendingMessages_outgoing { p with peerStorage := ps } trans env.now htrans
    fun m hm => resolvesMore_of_eq (p := p) (q := { p with peerStorage := ps }) rfl hreg _ (hr m hm)
  have hflush : ({ p with peerStorage := ps }.flushPendingMessages trans env.now).outgoing =
      p.outgoing := by
    rw [outgoing, hs, hp, List.append_nil]; rfl
  split
  · intro; exact hflush
  rw [scheduleGenSnapTask_eq]
  split
  · intro; exact hflush
  · intro h; cases h

/-- An append stage that takes a ready hands the buffer to the transport, then a leader's
messages; a follower's stay in the ready it hands on, to recipients that still resolve. -/
theorem handleRaftReadyAppend_some_outgoing (htrans : ∀ m, trans.accepts m = true)
    {env : AppendEnv} {p1 : Peer} {rd1 : Ready} {ctx : InvokeContext}
    (hr : ∀ m ∈ p.pendingMessages ++ (env.ready.map Ready.messages).getD [],
      p.resolves m.toId = true)
    (h : p.handleRaftReadyAppend trans env = (p1, some (rd1, ctx))) :
    ∃ rd, env.ready = some rd ∧
      p1.sent.map RaftMessage.message ++ rd1.messages = p.outgoing ++ rd.messages ∧
      p1.pendingMessages = [] ∧ (p1.isLeader = true → rd1.messages = []) ∧
      ∀ m ∈ rd1.messages, p1.resolves m.toId = true := by
  obtain ⟨-, -, rd, hrd, rfl, rfl, rfl⟩ := handleRaftReadyAppend_eq_some h
  have hreg : (p.peerStorage.checkApplyingSnap env.snapFinished).2.region = p.peerStorage.region := by
    unfold PeerStorage.checkApplyingSnap; split_ifs <;> rfl
  have hrd' : ∀ m ∈ rd.messages, p.resolves m.toId = true := fun m hm =>
    hr m (List.mem_append_right _ (by simpa [hrd] using hm))
  have hr0 := resolvesMore_of_eq (p := p)
    (q := { p with peerStorage := (p.peerStorage.checkApplyingSnap env.snapFinished).2 }) rfl hreg
  obtain ⟨hs1, hp1, hm1⟩ := @flushPendingMessages_outgoing
    { p with peerStorage := (p.peerStorage.checkApplyingSnap env.snapFinished).2 } trans env.now htrans
    fun m hm => hr0 _ (hr m (List.mem_append_left _ hm))
  -- the flushed peer, with its generated snapshot scheduled
  generalize hq : scheduleGenSnapTask _ = q
  obtain ⟨c, s, l, hf⟩ := flushPendingMessages_eq
    { p with peerStorage := (p.peerStorage.checkApplyingSnap env.snapFinished).2 } trans env.now
  rw [scheduleGenSnapTask_eq] at hq
  have hsq : q.sent.map RaftMessage.message = p.outgoing := by rw [← hq]; exact hs1
  have hpq : q.pendingMessages = [] := by rw [← hq]; exact hp1
  have hlq : q.isLeader = p.isLeader := by rw [← hq, hf]; rfl
  have hmq : ResolvesMore p q := hr0.trans (hm1.trans (hq ▸ resolvesMore_of_eq rfl rfl))
  obtain ⟨hs2, hp2, hm2⟩ := @appendReady_outgoing q trans env.now htrans rd
    fun m hm => hmq _ (hrd' m hm)
  obtain ⟨c, s, l, lc, t, li, hr2⟩ := appendReady_eq q trans rd env.now
  rw [hr2] at hs2 hp2 hm2 ⊢
  rw [hlq] at hs2
  refine ⟨rd, hrd, ?_, hp2.trans hpq, fun hl => ?_, fun m hm => hm2 _ (hmq _ (hrd' m ?_))⟩
  · rw [hs2, hsq]
    cases p.isLeader <;> simp
  · rw [← hlq, show q.isLeader = true from hl]; rfl
  · split at hm
    · simp at hm
    · exact hm

/-- The ready a cycle takes: the one `ReadySince` returns, when the append stage takes it. -/
def readyTaken (p : Peer) (trans : Transport) (env : AppendEnv) : Option Ready :=
  if (p.handleRaftReadyAppend trans env).2.isSome then env.ready else none

/-- **A ready cycle appends the messages of the ready it takes, and nothing else.** The buffer
`PostRaftReadyPersistent` overwrites is empty, having been flushed by the same cycle. -/
theorem readyCycle_outgoing (htrans : ∀ m, trans.accepts m = true) {env : AppendEnv} {p' : Peer}
    (hr : ∀ m ∈ p.pendingMessages ++ (env.ready.map Ready.messages).getD [],
      p.resolves m.toId = true)
    (h : p.readyCycle trans env = .ok p') :
    p'.outgoing = p.outgoing ++ ((p.readyTaken trans env).map Ready.messages).getD [] := by
  unfold readyCycle at h
  rcases hres : p.handleRaftReadyAppend trans env with ⟨p1, _ | ⟨rd1, ctx⟩⟩ <;>
    rw [hres] at h <;> dsimp only at h
  · cases h
    have := handleRaftReadyAppend_none_outgoing htrans
      (fun m hm => hr m (List.mem_append_left _ hm)) (by rw [hres])
    rw [hres] at this
    simp [readyTaken, hres, this]
  · obtain ⟨rd, hrd, hsent, hpend, hlead, hres1⟩ := handleRaftReadyAppend_some_outgoing htrans hr hres
    obtain ⟨⟨p2, rd2, r⟩, h2, h⟩ := except_bind_eq_ok.1 h
    have ho2 := postRaftReadyPersistent_outgoing htrans hpend hlead hres1 h2
    obtain ⟨hs3, hp3⟩ := handleRaftReadyApply_sent h
    simp only [readyTaken, hres, Option.isSome_some, if_true, hrd, Option.map_some',
      Option.getD_some]
    rw [outgoing, hs3, hp3, ← outgoing, ho2, outgoing, hpend, List.append_nil, hsent]

/-- A follower persisting a snapshot buffers its heartbeat to peer 2; the next cycle, which
finds the snapshot applied and takes no ready, hands it to the transport. -/
example :
    let hb : Message := { msgType := .msgHeartbeat, toId := 2, fromId := 1, term := 1, commit := 0 }
    let rd : Ready := { softState := none, entries := [], committedEntries := [], readStates := []
                        snapshot := some { index := 8, term := 1, region := sampleRegion }
                        messages := [hb] }
    ((samplePeer.run sampleConfig sampleCodec sampleTransport [.readyCycle ⟨0, false, some rd⟩]).map
        fun p => (p.sent.map RaftMessage.message, p.pendingMessages)) = .ok ([], [hb]) ∧
    ((samplePeer.run sampleConfig sampleCodec sampleTransport
        [.readyCycle ⟨0, false, some rd⟩, .readyCycle ⟨1, true, none⟩]).map
        fun p => (p.sent.map RaftMessage.message, p.pendingMessages)) = .ok ([hb], []) :=
  ⟨rfl, rfl⟩

/-- A cycle at a snapshot whose job has not finished does nothing. -/
theorem readyCycle_of_applying {env : AppendEnv} (hs : p.isApplyingSnapshot = true)
    (hf : env.snapFinished = false) : p.readyCycle trans env = .ok p := by
  have hc : p.peerStorage.checkApplyingSnap env.snapFinished = (true, p.peerStorage) := by
    simp only [isApplyingSnapshot] at hs
    simp [PeerStorage.checkApplyingSnap, hs, hf]
  have ha : p.handleRaftReadyAppend trans env = (p, none) := by
    unfold handleRaftReadyAppend
    split
    · rfl
    · simp only [hc, if_true]
  unfold readyCycle
  rw [ha]

/-- A cycle that leaves a snapshot applying hands nothing to the transport after its append
stage. -/
theorem readyCycle_sent_of_applying (htrans : ∀ m, trans.accepts m = true) {env : AppendEnv}
    {p' : Peer} (h : p.readyCycle trans env = .ok p') (hs : p'.isApplyingSnapshot = true) :
    p'.sent = (p.handleRaftReadyAppend trans env).1.sent := by
  unfold readyCycle at h
  rcases hres : p.handleRaftReadyAppend trans env with ⟨p1, _ | ⟨rd1, ctx⟩⟩ <;>
    rw [hres] at h <;> dsimp only at h
  · cases h; rfl
  · obtain ⟨⟨p2, rd2, r⟩, h2, h⟩ := except_bind_eq_ok.1 h
    obtain ⟨-, hps, -⟩ := handleRaftReadyApply_pipeline h
    rw [(handleRaftReadyApply_sent h).1]
    exact postRaftReadyPersistent_sent_of_applying htrans h2
      (by rw [← hs, isApplyingSnapshot, isApplyingSnapshot, hps])

end Stages

end Peer

/-! ## Runs -/

/-- The environment of the messages, for one action: at a ready cycle, the recipients of the
buffered messages and of the ready's resolve. -/
def MsgEnv (p : Peer) : Action → Prop
  | .readyCycle env =>
    ∀ m ∈ p.pendingMessages ++ (env.ready.map Ready.messages).getD [], p.resolves m.toId = true
  | _ => True

section Run

variable (cfg : Config) (codec : Codec) (trans : Transport)

/-- The readies an action takes from the library. -/
def readiesTaken (p : Peer) : Action → List Ready
  | .readyCycle env => (p.readyTaken trans env).toList
  | _ => []

/-- The runs of the peer with recipients that resolve, from a peer that has sent and buffered
nothing, with the readies taken so far. -/
inductive MsgRun : Peer → List Ready → Prop
  | init (p : Peer) : p.sent = [] → p.pendingMessages = [] → MsgRun p []
  | exec {p p' : Peer} {rds : List Ready} (a : Action) : MsgRun p rds → MsgEnv p a →
      p.exec cfg codec trans a = .ok p' → MsgRun p' (rds ++ readiesTaken trans p a)

variable {cfg codec trans}

/-- Every action appends to the outgoing messages those of the ready it takes: the actions
other than a ready cycle neither send nor buffer. -/
theorem outgoing_exec (htrans : ∀ m, trans.accepts m = true) {p p' : Peer} {a : Action}
    (he : MsgEnv p a) (h : p.exec cfg codec trans a = .ok p') :
    p'.outgoing = p.outgoing ++ (readiesTaken trans p a).flatMap Ready.messages := by
  cases a with
  | readyCycle env =>
    rw [Peer.readyCycle_outgoing htrans he h]
    cases hr : p.readyTaken trans env <;> simp [readiesTaken, hr]
  | step m now r =>
    cases h
    obtain ⟨hb, lm, he⟩ := p.step_eq m now r
    rw [he]; simp [readiesTaken]; rfl
  | propose cb rlog errResp env =>
    obtain ⟨⟨p1, b⟩, h1, rfl⟩ := except_map_eq_ok.1 h
    obtain ⟨r, l, q, ap, pr, d, u, rfl⟩ := Peer.propose_proposed h1
    simp [readiesTaken]; rfl
  | postApply applyState appliedIndexTerm merged metrics =>
    obtain ⟨⟨p1, hasReady⟩, h1, rfl⟩ := except_map_eq_ok.1 h
    obtain ⟨-, p2, a, h2, rfl⟩ := Peer.postApply_ok h1
    rcases Peer.answerConfirmedReads_ok h2 with ⟨rfl, -⟩ | ⟨rs, rfl, -⟩ <;>
      simp [readiesTaken] <;> rfl
  | takeApplyProposals =>
    cases h
    rw [Peer.takeApplyProposals_eq]; simp [readiesTaken]; rfl
  | maybeDestroy cancelled =>
    cases h
    obtain ⟨a, r, i, he, -⟩ := p.maybeDestroy_eq cancelled
    rw [he]; simp [readiesTaken]; rfl
  | destroy keepData =>
    cases h
    simp [readiesTaken]; rfl
  | setRegion region =>
    cases h
    obtain ⟨l, c, he⟩ := p.setRegion_eq region
    rw [he]; simp [readiesTaken]; rfl
  | checkPeers now =>
    cases h
    obtain ⟨hb, he⟩ := p.checkPeers_eq now
    rw [he]; simp [readiesTaken]; rfl

/-- **A ready's messages reach the transport once, in ready order.** Over a transport that
accepts every message, in every run whose recipients resolve: the messages handed to the
transport, followed by those still buffered, are the messages of the readies taken, in order, so
none is lost, duplicated or reordered; a ready cycle at a snapshot whose job has not finished
does nothing; and a cycle that leaves a snapshot applying hands nothing to the transport after
its append stage. -/
theorem ready_messages_in_order (htrans : ∀ m, trans.accepts m = true) {p : Peer}
    {rds : List Ready} (h : MsgRun cfg codec trans p rds) :
    p.sent.map RaftMessage.message ++ p.pendingMessages = rds.flatMap Ready.messages ∧
    (∀ env, p.isApplyingSnapshot = true → env.snapFinished = false →
      p.readyCycle trans env = .ok p) ∧
    (∀ env p', p.readyCycle trans env = .ok p' → p'.isApplyingSnapshot = true →
      p'.sent = (p.handleRaftReadyAppend trans env).1.sent) := by
  refine ⟨?_, fun _ => Peer.readyCycle_of_applying, fun _ _ => Peer.readyCycle_sent_of_applying htrans⟩
  induction h with
  | init p hs hp => simp [hs, hp]
  | exec a _ he hx ih =>
    rw [← Peer.outgoing, outgoing_exec htrans he hx, Peer.outgoing, ih, List.flatMap_append]

/-- A ready that reports the peer the leader and sends `heartbeat`. -/
def sendHeartbeat : Ready :=
  { softState := some ⟨1, .leader⟩, entries := [], snapshot := none, committedEntries := [],
    messages := [heartbeat], readStates := [] }

/-- The peer `NewPeer` creates becomes the leader in a ready cycle that sends a heartbeat to peer
2: the theorem holds at the end of that run, over the transport that accepts everything. -/
theorem ready_messages_in_order_sendHeartbeat :
    ∃ p1 : Peer,
      samplePeer.readyCycle sampleTransport ⟨0, false, some sendHeartbeat⟩ = .ok p1 ∧
      p1.sent.map RaftMessage.message = [heartbeat] ∧
      (∀ m, sampleTransport.accepts m = true) ∧
      p1.sent.map RaftMessage.message ++ p1.pendingMessages = [sendHeartbeat].flatMap Ready.messages ∧
      (∀ env, p1.isApplyingSnapshot = true → env.snapFinished = false →
        p1.readyCycle sampleTransport env = .ok p1) ∧
      (∀ env p', p1.readyCycle sampleTransport env = .ok p' → p'.isApplyingSnapshot = true →
        p'.sent = (p1.handleRaftReadyAppend sampleTransport env).1.sent) :=
  ⟨_, rfl, rfl, fun _ => rfl, ready_messages_in_order (fun _ => rfl) <|
    (@MsgRun.init sampleConfig sampleCodec sampleTransport samplePeer rfl rfl).exec
      (.readyCycle ⟨0, false, some sendHeartbeat⟩) (by unfold MsgEnv; decide) rfl⟩

end Run

end RaftStore
