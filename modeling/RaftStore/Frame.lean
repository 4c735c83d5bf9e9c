import RaftStore.System

/-!
# RaftStore.Frame

What each operation of the peer changes, stated once so that the invariants never unfold the
operations again. Each lemma gives the peer after the operation as the peer before it with a few
fields replaced:

* `maybeRenewLeaderLease_eq` — only the lease and the leader checker;
* `handleCommittedEntries_eq` — the committed-entries loop touches the log-size hint, the
  proposal queue, the lease and the checker, never panics, and records no split or merge index
  (the context it decodes is the constant `[]byte{0}`);
* `applyCommittedEntries_eq` — hand-over of a batch: the applying index moves to the batch's
  last index and exactly one apply message is added, for a nonempty batch;
* `send_eq` — sending touches only `sent`, the lease and the peer cache;
* `handleRaftReadyAppend_eq_some` and `postRaftReadyPersistent_eq` — the two stages of a ready
  cycle around the write, and `Appended` — what the append stage may change, composed stage by
  stage from `Appended.refl` and `Appended.trans`;
* `postRaftReadyPersistent_keeps_checker` — the write leaves the leader checker as it was while
  the storage takes a snapshot's region, so `snapshot_region_not_published`: after a snapshot
  that moves the region to epoch version 2, the checker still holds version 1, and `isExpired`
  refuses a read sent at the current epoch;
* `Proposed` and `propose_proposed` — the same for `Propose` and its helpers.

The first section holds the facts about `Except` that every proof peeling a `do` block uses.
-/

set_option autoImplicit false

namespace RaftStore

/-! ## Peeling `Except` computations -/

section Except

variable {ε α β : Type} {x : Except ε α} {f : α → Except ε β}

theorem except_bind_eq_ok {b : β} : x >>= f = .ok b ↔ ∃ a, x = .ok a ∧ f a = .ok b := by
  cases x <;> simp [bind, Except.bind]

theorem except_bind_eq_error {e : ε} :
    x >>= f = .error e ↔ x = .error e ∨ ∃ a, x = .ok a ∧ f a = .error e := by
  cases x <;> simp [bind, Except.bind]

@[simp] theorem except_pure {a : α} : (pure a : Except ε α) = .ok a := rfl

@[simp] theorem except_ok_bind {a : α} : (.ok a : Except ε α) >>= f = f a := rfl

@[simp] theorem except_error_bind {e : ε} : (.error e : Except ε α) >>= f = .error e := rfl

theorem except_map_eq_ok {g : α → β} {b : β} :
    x.map g = .ok b ↔ ∃ a, x = .ok a ∧ g a = b := by
  cases x <;> simp [Except.map]

theorem except_map_eq_error {g : α → β} {e : ε} : x.map g = .error e ↔ x = .error e := by
  cases x <;> simp [Except.map]

theorem except_ite_map_eq_ok {c : Prop} [Decidable c] {g : α → β} {y b : β}
    (h : (if c then x.map g else pure y) = .ok b) :
    (c ∧ ∃ a, x = .ok a ∧ g a = b) ∨ (¬c ∧ y = b) := by
  split at h
  · exact .inl ⟨‹_›, except_map_eq_ok.1 h⟩
  · exact .inr ⟨‹_›, Except.ok.inj h⟩

end Except

/-! ## Callbacks of read requests -/

/-- The callbacks a list of read-index requests holds, in order. -/
def readCallbacks (rs : List ReadIndexRequest) : List Callback :=
  rs.flatMap fun r => r.cmds.map (·.cb)

@[simp] theorem readCallbacks_nil : readCallbacks [] = [] := rfl

@[simp] theorem readCallbacks_cons (r : ReadIndexRequest) (rs : List ReadIndexRequest) :
    readCallbacks (r :: rs) = r.cmds.map (·.cb) ++ readCallbacks rs := rfl

@[simp] theorem readCallbacks_append (rs rs' : List ReadIndexRequest) :
    readCallbacks (rs ++ rs') = readCallbacks rs ++ readCallbacks rs' := by
  simp [readCallbacks]

theorem readCallbacks_take_append_drop (n : Nat) (rs : List ReadIndexRequest) :
    readCallbacks (rs.take n) ++ readCallbacks (rs.drop n) = readCallbacks rs := by
  rw [← readCallbacks_append, List.take_append_drop]

/-- Answering requests as stale completes exactly their callbacks. -/
@[simp] theorem notifyStale_callbacks (term : Nat) (rs : List ReadIndexRequest) :
    (rs.flatMap (notifyStale term)).map Prod.fst = readCallbacks rs := by
  induction rs with
  | nil => rfl
  | cons r rs ih => simp [notifyStale, ih]

/-- Answering requests as region-removed completes exactly their callbacks. -/
@[simp] theorem notifyRegionRemoved_callbacks (regionId : Nat) (rs : List ReadIndexRequest) :
    (rs.flatMap (notifyRegionRemoved regionId)).map Prod.fst = readCallbacks rs := by
  induction rs with
  | nil => rfl
  | cons r rs ih => simp [notifyRegionRemoved, ih]

/-- The queue after `ApplyReads` has matched `k` read states: popped from the head when the peer
is ready to read, confirmed past `readyCnt` otherwise; after a role change only the confirmed
prefix stays. -/
def ReadIndexQueue.afterReads (q : ReadIndexQueue) (ready : Bool) (k : Nat) (roleChanged : Bool) :
    ReadIndexQueue :=
  let q := if ready then { q with reads := q.reads.drop k } else { q with readyCnt := q.readyCnt + k }
  if roleChanged then { q with reads := q.reads.take q.readyCnt } else q

namespace Peer

/-! ## Inspecting -/

/-- `inspectLease` changes only the lease. -/
theorem inspectLease_eq (p : Peer) (now : Time) :
    ∃ l, (p.inspectLease now).2 = { p with leaderLease := l } := by
  unfold inspectLease
  dsimp only
  split
  · exact ⟨_, rfl⟩
  · split <;> exact ⟨_, rfl⟩

/-- `Inspect` changes only the lease. -/
theorem inspect_eq (p : Peer) (rlog : RaftLog) (now : Time) :
    ∃ l, (p.inspect rlog now).2 = { p with leaderLease := l } := by
  obtain ⟨l, hl⟩ := inspectLease_eq p now
  unfold Peer.inspect RaftStore.inspect
  repeat' split
  all_goals first | exact ⟨_, rfl⟩ | exact ⟨l, by rw [← hl, ‹p.inspectLease now = _›]⟩

/-! ## Lease renewal -/

/-- `MaybeRenewLeaderLease` changes only the lease and the remote lease the checker points to. -/
theorem maybeRenewLeaderLease_eq (p : Peer) (t : Time) :
    ∃ l c, p.maybeRenewLeaderLease t =
      { p with leaderLease := l, leaderChecker := { p.leaderChecker with leaderLease := c } } := by
  unfold maybeRenewLeaderLease
  dsimp only
  split
  · exact ⟨_, _, rfl⟩
  · split
    · split <;> exact ⟨_, _, rfl⟩
    · exact ⟨_, _, rfl⟩

/-! ## The committed-entries loop -/

/-- One iteration changes the log-size hint, the proposal queue, the lease and the checker, and
keeps the split and merge flags: the decoded context `0` holds neither flag. -/
theorem handleCommittedEntry_eq (now : Time) (p : Peer) (lease split merge : Bool) (e : Entry) :
    ∃ h q l c lease', handleCommittedEntry now (p, lease, split, merge) e =
      .ok ({ p with
        raftLogSizeHint := h, proposals := q, leaderLease := l
        leaderChecker := { p.leaderChecker with leaderLease := c } }, lease', split, merge) := by
  cases lease <;>
    simp only [handleCommittedEntry, newProposalContextFromBytes, contains_zero, Bool.and_false,
      Bool.false_eq_true, if_false, if_true, ite_self, findProposeTime]
  · exact ⟨_, _, _, _, _, rfl⟩
  · cases (p.proposals.findProposeTime e.index e.term).1 with
    | none => exact ⟨_, _, _, _, _, rfl⟩
    | some t =>
      obtain ⟨l, c, hp⟩ := maybeRenewLeaderLease_eq
        { p with proposals := (p.proposals.findProposeTime e.index e.term).2,
                 raftLogSizeHint := p.raftLogSizeHint + e.data.length } t
      exact ⟨_, _, l, c, false, by dsimp only; rw [hp]⟩

/-- The loop never panics, keeps the split and merge flags, and changes only the fields one
iteration does. -/
theorem handleCommittedEntries_eq (now : Time) (entries : List Entry) (p : Peer)
    (lease split merge : Bool) :
    ∃ h q l c lease', handleCommittedEntries now (p, lease, split, merge) entries =
      .ok ({ p with
        raftLogSizeHint := h, proposals := q, leaderLease := l
        leaderChecker := { p.leaderChecker with leaderLease := c } }, lease', split, merge) := by
  induction entries generalizing p lease with
  | nil => exact ⟨_, _, _, _, _, rfl⟩
  | cons e es ih =>
    obtain ⟨h, q, l, c, lease', he⟩ := handleCommittedEntry_eq now p lease split merge e
    obtain ⟨h', q', l', c', lease'', hes⟩ := ih
      { p with
        raftLogSizeHint := h, proposals := q, leaderLease := l
        leaderChecker := { p.leaderChecker with leaderLease := c } } lease'
    exact ⟨h', q', l', c', lease'', by simp only [handleCommittedEntries, he, hes]⟩

/-- Handing a batch to the apply worker: the applying index becomes the batch's last index, one
apply message is added for a nonempty batch, and besides the loop's fields only the urgent
index and the library's skip-broadcast flag may change. -/
theorem applyCommittedEntries_eq (p : Peer) (entries : List Entry) (now : Time) :
    ∃ q h l c u s, p.applyCommittedEntries entries now = .ok { p with
      proposals := q, raftLogSizeHint := h, leaderLease := l
      leaderChecker := { p.leaderChecker with leaderLease := c }
      lastApplyingIdx := (entries.getLast?.map (·.index)).getD p.lastApplyingIdx
      lastUrgentProposalIdx := u, raftGroup := { p.raftGroup with skipBcastCommit := s }
      applyMsgs := p.applyMsgs ++
        (entries.getLast?.map fun _ => ApplyMsg.apply p.regionID p.term entries).toList } := by
  -- a follower first drops its proposal metas, which changes only the queue
  obtain ⟨q0, hq0⟩ : ∃ q0, (if p.isLeader then p else { p with proposals := p.proposals.clear }) =
      { p with proposals := q0 } := by
    split <;> exact ⟨_, rfl⟩
  have hl : ({ p with proposals := q0 } : Peer).isLeader = p.isLeader := rfl
  obtain ⟨h, q, l, c, lease', hes⟩ := handleCommittedEntries_eq now entries
    { p with proposals := q0 } p.isLeader p.isLeader p.isLeader
  simp only [applyCommittedEntries, hq0, hl, hes, except_ok_bind, except_pure]
  rcases entries.getLast? with _ | last
  · exact ⟨q, h, l, c, p.lastUrgentProposalIdx, p.raftGroup.skipBcastCommit,
      by simp only [Option.map_none', Option.toList_none, List.append_nil]; rfl⟩
  · by_cases hu : last.index ≥ p.lastUrgentProposalIdx
    · exact ⟨q, h, l, c, maxUint64, true, by simp only [hu, if_true]; rfl⟩
    · exact ⟨q, h, l, c, p.lastUrgentProposalIdx, p.raftGroup.skipBcastCommit,
        by simp only [hu, if_false]; rfl⟩

/-! ## Reads

Each read function, when it returns, has done exactly this to the queue and to `done`. -/

/-- Answering a request's commands completes their callbacks in order. -/
theorem answerReads_ok {p p' : Peer} {cs : List ReqCbPair} (h : p.answerReads cs = .ok p') :
    ∃ rs, p' = { p with done := p.done ++ rs } ∧ rs.map Prod.fst = cs.map (·.cb) := by
  induction cs generalizing p with
  | nil => cases h; exact ⟨[], by simp only [List.append_nil], rfl⟩
  | cons c cs ih =>
    simp only [answerReads] at h
    split at h
    · cases h
    · rename_i resp _
      obtain ⟨rs, rfl, hrs⟩ := ih h
      exact ⟨(c.cb, resp) :: rs, by simp [complete], by simp [hrs]⟩

/-- The ready branch of `ApplyReads` pops one request per read state and answers its commands. -/
theorem applyReadyReads_ok {p p' : Peer} {t t' : Option Time} {states : List ReadState}
    (h : p.applyReadyReads t states = .ok (p', t')) :
    ∃ rs, p' = { p with
        pendingReads := { p.pendingReads with reads := p.pendingReads.reads.drop states.length }
        done := p.done ++ rs } ∧
      rs.map Prod.fst = readCallbacks (p.pendingReads.reads.take states.length) := by
  induction states generalizing p t with
  | nil => cases h; exact ⟨[], by simp only [List.length_nil, List.drop_zero, List.append_nil], rfl⟩
  | cons s states ih =>
    simp only [applyReadyReads] at h
    cases hr : p.pendingReads.reads with
    | nil => simp [ReadIndexQueue.popFront, hr] at h
    | cons r rest =>
      simp only [ReadIndexQueue.popFront, hr] at h
      split at h
      · cases h
      · split at h
        · cases h
        · rename_i h1
          obtain ⟨rs1, rfl, hrs1⟩ := answerReads_ok h1
          obtain ⟨rs2, rfl, hrs2⟩ := ih h
          exact ⟨rs1 ++ rs2, by simp, by simp [hrs1, hrs2]⟩

/-- The other branch of `ApplyReads` confirms one request per read state, past `readyCnt`. -/
theorem markReadyReads_ok {p p' : Peer} {t t' : Option Time} {states : List ReadState}
    (h : p.markReadyReads t states = .ok (p', t')) :
    p' = { p with pendingReads := { p.pendingReads with
      readyCnt := p.pendingReads.readyCnt + states.length } } := by
  induction states generalizing p t with
  | nil => cases h; rfl
  | cons s states ih =>
    simp only [markReadyReads] at h
    split at h
    · cases h
    · split at h
      · cases h
      · rw [ih h]
        simp only [List.length_cons, Nat.add_assoc, Nat.add_comm 1]

/-- `ClearUncommitted` succeeds within bounds, keeps the confirmed prefix, and answers the rest
as stale. -/
theorem clearUncommitted_ok {p p' : Peer} (h : p.clearUncommitted = .ok p') :
    p.pendingReads.readyCnt ≤ p.pendingReads.reads.length ∧ p' = { p with
      pendingReads := { p.pendingReads with
        reads := p.pendingReads.reads.take p.pendingReads.readyCnt }
      done := p.done ++
        (p.pendingReads.reads.drop p.pendingReads.readyCnt).flatMap (notifyStale p.term) } := by
  simp only [clearUncommitted, ReadIndexQueue.clearUncommitted] at h
  split at h
  · cases h
    exact ⟨‹_›, rfl⟩
  · cases h

/-- The lease renewal at the end of `ApplyReads` changes only the lease and the checker. -/
theorem renewFromReads_eq (p : Peer) (t : Option Time) :
    ∃ l c, p.renewFromReads t =
      { p with leaderLease := l, leaderChecker := { p.leaderChecker with leaderLease := c } } := by
  cases t with
  | none => exact ⟨_, _, rfl⟩
  | some t =>
    simp only [renewFromReads]
    split
    · exact ⟨_, _, rfl⟩
    · exact maybeRenewLeaderLease_eq p t

/-- `ApplyReads` leaves the queue `afterReads`, completes every callback that leaves it, and
changes besides only the lease and the checker. -/
theorem applyReads_ok {p p' : Peer} {rd : Ready} (h : p.applyReads rd = .ok p') :
    ∃ rs l c, p' = { p with
        pendingReads := p.pendingReads.afterReads p.readyToHandleRead rd.readStates.length
          rd.softState.isSome
        done := p.done ++ rs, leaderLease := l
        leaderChecker := { p.leaderChecker with leaderLease := c } } ∧
      (rs.map Prod.fst ++ readCallbacks (p.pendingReads.afterReads p.readyToHandleRead
        rd.readStates.length rd.softState.isSome).reads).Perm (readCallbacks p.pendingReads.reads) := by
  unfold applyReads at h
  obtain ⟨⟨p1, t⟩, h1, h⟩ := except_bind_eq_ok.1 h
  obtain ⟨p2, h2, h⟩ := except_bind_eq_ok.1 h
  cases h
  obtain ⟨l, c, hl⟩ := renewFromReads_eq p2 t
  rw [hl]
  cases hr : p.readyToHandleRead <;> cases hs : rd.softState.isSome <;>
    simp only [hr, hs, Bool.false_eq_true, if_true, if_false] at h1 h2 <;>
    simp only [ReadIndexQueue.afterReads, Bool.false_eq_true, if_true, if_false]
  · cases markReadyReads_ok h1
    cases h2
    exact ⟨[], l, c, by simp only [List.append_nil], by simp⟩
  · cases markReadyReads_ok h1
    obtain ⟨-, rfl⟩ := clearUncommitted_ok h2
    refine ⟨_, l, c, rfl, ?_⟩
    simp only [notifyStale_callbacks]
    rw [← readCallbacks_take_append_drop (p.pendingReads.readyCnt + rd.readStates.length)
      p.pendingReads.reads]
    exact List.perm_append_comm
  · obtain ⟨rs, rfl, hrs⟩ := applyReadyReads_ok h1
    cases h2
    exact ⟨rs, l, c, rfl, by simp [hrs, readCallbacks_take_append_drop]⟩
  · obtain ⟨rs, rfl, hrs⟩ := applyReadyReads_ok h1
    obtain ⟨-, rfl⟩ := clearUncommitted_ok h2
    refine ⟨_, l, c, by simp only [List.append_assoc]; rfl, ?_⟩
    simp only [List.map_append, hrs, notifyStale_callbacks, List.append_assoc]
    rw [← readCallbacks_take_append_drop rd.readStates.length p.pendingReads.reads,
      ← readCallbacks_take_append_drop p.pendingReads.readyCnt
        (p.pendingReads.reads.drop rd.readStates.length)]
    exact (List.perm_append_comm.append_left _)

/-! ## The apply step -/

/-- What the hand-over part of `HandleRaftReadyApply` leaves: the applying index and the apply
messages it sets, with the loop's fields, the urgent index and the skip-broadcast flag free. -/
def HandedOver (p : Peer) (rd : Ready) (p1 : Peer) : Prop :=
  ∃ q h l c u s, p1 = { p with
    proposals := q, raftLogSizeHint := h, leaderLease := l
    leaderChecker := { p.leaderChecker with leaderLease := c }
    lastUrgentProposalIdx := u, raftGroup := { p.raftGroup with skipBcastCommit := s }
    lastApplyingIdx := if p.isApplyingSnapshot then p.peerStorage.truncatedIndex
      else (rd.committedEntries.getLast?.map (·.index)).getD p.lastApplyingIdx
    applyMsgs := if p.isApplyingSnapshot then p.applyMsgs else p.applyMsgs ++
      (rd.committedEntries.getLast?.map fun _ => ApplyMsg.apply p.regionID p.term
        rd.committedEntries).toList }

/-- `HandleRaftReadyApply` is the hand-over, then `ApplyReads` on the ready without its
committed entries, then advancing the library (and its applied index, under a snapshot). -/
theorem handleRaftReadyApply_eq (p : Peer) (rd : Ready) (now : Time) :
    ∃ p1, HandedOver p rd p1 ∧ p.handleRaftReadyApply rd now =
      (p1.applyReads { rd with committedEntries := [] }).map fun p2 =>
        let raftGroup := p2.raftGroup.advance { rd with committedEntries := [] }
        { p2 with raftGroup := if p2.isApplyingSnapshot then
            raftGroup.advanceApply p2.lastApplyingIdx else raftGroup } := by
  unfold handleRaftReadyApply
  cases happ : p.isApplyingSnapshot
  · obtain ⟨q, h, l, c, u, s, hp⟩ := applyCommittedEntries_eq p rd.committedEntries now
    refine ⟨_, ⟨q, h, l, c, u, s, rfl⟩, ?_⟩
    simp only [happ, hp, Bool.false_eq_true, if_false, except_ok_bind, bind_pure_comp]
    rfl
  · refine ⟨{ p with lastApplyingIdx := p.peerStorage.truncatedIndex }, ⟨p.proposals, p.raftLogSizeHint, p.leaderLease, p.leaderChecker.leaderLease,
      p.lastUrgentProposalIdx, p.raftGroup.skipBcastCommit, by simp only [happ, if_true]⟩, ?_⟩
    simp only [happ, if_true, except_pure, except_ok_bind, bind_pure_comp]
    rfl

/-! ## The apply worker's report -/

/-- Draining `n` confirmed reads pops the first `n` requests and answers their commands. -/
theorem drainReadyReads_ok {p p' : Peer} {n : Nat} (h : p.drainReadyReads n = .ok p') :
    n ≤ p.pendingReads.reads.length ∧ ∃ rs, p' = { p with
        pendingReads := { p.pendingReads with reads := p.pendingReads.reads.drop n }
        done := p.done ++ rs } ∧
      rs.map Prod.fst = readCallbacks (p.pendingReads.reads.take n) := by
  induction n generalizing p with
  | zero => cases h; exact ⟨Nat.zero_le _, [], by simp only [List.drop_zero, List.append_nil], rfl⟩
  | succ n ih =>
    simp only [drainReadyReads] at h
    cases hr : p.pendingReads.reads with
    | nil => simp [ReadIndexQueue.popFront, hr] at h
    | cons r rest =>
      simp only [ReadIndexQueue.popFront, hr] at h
      split at h
      · cases h
      · rename_i h1
        obtain ⟨rs1, rfl, hrs1⟩ := answerReads_ok h1
        obtain ⟨hn, rs2, rfl, hrs2⟩ := ih h
        exact ⟨by simpa using hn, rs1 ++ rs2, by simp, by simp [hrs1, hrs2]⟩

/-- Answering the confirmed reads: nothing while none is confirmed or the peer cannot read;
otherwise the confirmed prefix is popped and its commands answered. -/
theorem answerConfirmedReads_ok {p p' : Peer} (h : p.answerConfirmedReads = .ok p') :
    (p' = p ∧ (0 < p.pendingReads.readyCnt → p.readyToHandleRead = false)) ∨
    ∃ rs, p' = { p with
        pendingReads := { p.pendingReads with
          reads := p.pendingReads.reads.drop p.pendingReads.readyCnt, readyCnt := 0 }
        done := p.done ++ rs } ∧
      rs.map Prod.fst = readCallbacks (p.pendingReads.reads.take p.pendingReads.readyCnt) := by
  rcases except_ite_map_eq_ok h with ⟨-, p3, h3, rfl⟩ | ⟨hc, rfl⟩
  · obtain ⟨-, rs, rfl, hrs⟩ := drainReadyReads_ok h3
    exact .inr ⟨rs, rfl, hrs⟩
  · exact .inl ⟨rfl, fun hpos => by simpa [hpos] using hc⟩

/-- `PostApply` succeeds only when no snapshot is being applied; it records the apply state,
answers the confirmed reads, and publishes the applied term. -/
theorem postApply_ok {p p' : Peer} {applyState : ApplyState} {appliedIndexTerm : Nat}
    {merged : Bool} {metrics : ApplyMetrics} {hasReady : Bool}
    (h : p.postApply applyState appliedIndexTerm merged metrics = .ok (p', hasReady)) :
    p.isApplyingSnapshot = false ∧ ∃ p2 a,
      (p.recordApplyState applyState appliedIndexTerm merged metrics).answerConfirmedReads = .ok p2 ∧
      p' = { p2 with leaderChecker := { p2.leaderChecker with appliedIndexTerm := a } } := by
  unfold postApply at h
  split at h
  · cases h
  · rename_i happ
    obtain ⟨p2, h2, h⟩ := except_bind_eq_ok.1 h
    cases h
    refine ⟨by simpa using happ, p2, if (p.peerStorage.appliedIndexTerm != appliedIndexTerm &&
      p2.isLeader && !p2.pendingRemove) = true then appliedIndexTerm
      else p2.leaderChecker.appliedIndexTerm, h2, ?_⟩
    split <;> rfl

/-! ## Stepping, the region, and destruction -/

/-- `Step` notes who is alive and takes the library's new node. -/
theorem step_eq (p : Peer) (m : Message) (now : Time) (raftGroup : RawNode) :
    ∃ hb lm, p.step m now raftGroup =
      { p with peerHeartbeats := hb, leaderMissingTime := lm, raftGroup := raftGroup } := by
  unfold step
  split
  · exact ⟨_, _, rfl⟩
  · split <;> exact ⟨_, _, rfl⟩

/-- `Step` stops the leader-missing clock or leaves it. -/
theorem step_leaderMissingTime (p : Peer) (m : Message) (now : Time) (raftGroup : RawNode) :
    (p.step m now raftGroup).leaderMissingTime = p.leaderMissingTime ∨
      (p.step m now raftGroup).leaderMissingTime = none := by
  unfold step
  split_ifs <;> simp

/-- `CheckPeers` changes only the heartbeats. -/
theorem checkPeers_eq (p : Peer) (now : Time) :
    ∃ hb, p.checkPeers now = { p with peerHeartbeats := hb } := by
  unfold checkPeers
  split_ifs <;> exact ⟨_, rfl⟩

/-- `SetRegion` sets the storage's region, and may expire the remote lease and publish the
region. -/
theorem setRegion_eq (p : Peer) (region : Region) :
    ∃ l c, p.setRegion region = { p with
      leaderLease := l, peerStorage := { p.peerStorage with region := region }
      leaderChecker := { p.leaderChecker with region := c } } := by
  unfold setRegion
  dsimp only
  split <;> split <;> exact ⟨_, _, rfl⟩

/-- `takeApplyProposals` empties the waiting proposals into the batch it returns. -/
theorem takeApplyProposals_eq (p : Peer) :
    p.takeApplyProposals.1 = { p with applyProposals := [] } := by
  unfold takeApplyProposals
  split
  · rename_i h
    cases p
    cases h
    rfl
  · rfl

/-- `MaybeDestroy` may cancel an applying snapshot, mark the peer for removal, and invalidate
the checker. -/
theorem maybeDestroy_eq (p : Peer) (cancelled : Bool) :
    ∃ a r i, (p.maybeDestroy cancelled).1 = { p with
      peerStorage := { p.peerStorage with applying := a }, pendingRemove := r
      leaderChecker := { p.leaderChecker with invalid := i } } ∧
      (a = true → p.peerStorage.applying = true) := by
  unfold maybeDestroy PeerStorage.cancelApplyingSnap
  split
  · exact ⟨_, _, _, rfl, id⟩
  · dsimp only
    split
    · split
      · split <;> exact ⟨false, _, _, rfl, by simp⟩
      · split <;> exact ⟨_, _, _, rfl, id⟩
    · split <;> exact ⟨_, _, _, rfl, id⟩

/-! ## Sending and persisting -/

/-- Looking up a recipient may cache it, and changes nothing else. -/
theorem getPeerFromCache_eq (p : Peer) (id : Nat) :
    ∃ c, (p.getPeerFromCache id).2 = { p with peerCache := c } := by
  unfold getPeerFromCache
  split
  · exact ⟨_, rfl⟩
  · split <;> exact ⟨_, rfl⟩

/-- Sending one message caches its recipient and records what goes to the transport. -/
theorem sendRaftMessage_eq (p : Peer) (trans : Transport) (msg : Message) :
    ∃ c s, (p.sendRaftMessage trans msg).1 = { p with peerCache := c, sent := s } := by
  obtain ⟨c, hc⟩ := getPeerFromCache_eq p msg.toId
  unfold sendRaftMessage
  split <;> rename_i h <;> rw [h] at hc <;> subst hc <;> exact ⟨_, _, rfl⟩

/-- Sending caches recipients, records what goes to the transport, and may make the lease
suspect. -/
theorem send_eq (p : Peer) (trans : Transport) (now : Time) (msgs : List Message) :
    ∃ c s l, (p.send trans now msgs).1 = { p with peerCache := c, sent := s, leaderLease := l } := by
  induction msgs generalizing p with
  | nil => exact ⟨_, _, _, rfl⟩
  | cons msg msgs ih =>
    obtain ⟨c, s, hq⟩ := sendRaftMessage_eq p trans msg
    unfold send
    split <;> rename_i h <;> rw [h] at hq <;> subst hq
    · exact ⟨_, _, _, rfl⟩
    · dsimp only
      split <;> obtain ⟨c', s', l', h'⟩ := ih _ <;> rw [h'] <;> exact ⟨_, _, _, rfl⟩

/-- A follower's messages are sent, or buffered while a snapshot is applied. -/
theorem sendFollowerMessages_eq (p : Peer) (trans : Transport) (rd : Ready) (now : Time) :
    ∃ c s l, p.sendFollowerMessages trans rd now = ({ p with
      peerCache := c, sent := s, leaderLease := l
      pendingMessages := if !p.isLeader && p.isApplyingSnapshot then rd.messages
        else p.pendingMessages },
      if !p.isLeader && p.isApplyingSnapshot then { rd with messages := [] } else rd) := by
  unfold sendFollowerMessages
  cases hl : p.isLeader
  · cases ha : p.isApplyingSnapshot
    · obtain ⟨c, s, l, h⟩ := send_eq p trans now rd.messages
      simp only [Bool.not_false, if_true, Bool.false_eq_true, if_false, Bool.true_and, ha]
      rw [h]
      exact ⟨_, _, _, rfl⟩
    · exact ⟨_, _, _, rfl⟩
  · exact ⟨_, _, _, rfl⟩

/-- After the write, the storage installs the snapshot; besides, the peer may change its
descriptor, sends a follower's messages or buffers them while the snapshot is applied, and
registers with the apply worker after a snapshot. -/
theorem postRaftReadyPersistent_eq {p p' : Peer} {trans : Transport} {rd rd' : Ready}
    {ctx : InvokeContext} {now : Time} {r : Option ApplySnapResult}
    (h : p.postRaftReadyPersistent trans rd ctx now = .ok (p', rd', r)) :
    let buffer := !p.isLeader && (p.peerStorage.postReadyPersistent ctx).1.applying
    r = (p.peerStorage.postReadyPersistent ctx).2 ∧
    rd' = (if buffer then { rd with messages := [] } else rd) ∧
    ∃ meta c s l ms, p' = { p with
      meta := meta, peerCache := c, sent := s, leaderLease := l
      pendingMessages := if buffer then rd.messages else p.pendingMessages
      applyMsgs := p.applyMsgs ++ ms, raftLogSizeHint := if ctx.snapshot.isSome then 0 else p.raftLogSizeHint
      peerStorage := (p.peerStorage.postReadyPersistent ctx).1 } ∧
    ∀ m ∈ ms, ∃ a b, m = .registration a b := by
  unfold postRaftReadyPersistent at h
  have hp : (if ctx.snapshot.isSome then { p with raftLogSizeHint := 0 } else p) =
      { p with raftLogSizeHint := if ctx.snapshot.isSome then 0 else p.raftLogSizeHint } := by
    split <;> rfl
  simp only [hp] at h
  rcases hps : p.peerStorage.postReadyPersistent ctx with ⟨ps, asr⟩
  simp only [hps] at h
  obtain ⟨meta, -, h⟩ := except_map_eq_ok.1 h
  obtain ⟨c, s, l, hf⟩ := sendFollowerMessages_eq
    { p with raftLogSizeHint := if ctx.snapshot.isSome then 0 else p.raftLogSizeHint,
             peerStorage := ps, meta := meta } trans rd now
  rw [hf] at h
  dsimp only at h ⊢
  split at h <;> cases h
  · exact ⟨rfl, rfl, _, _, _, _, _, rfl, by simp⟩
  · exact ⟨rfl, rfl, _, _, _, _, [], by rw [List.append_nil]; rfl, by simp⟩

/-- **`PostRaftReadyPersistent` publishes no region.** It leaves the leader checker as it was,
while the storage takes the region of the snapshot it installs. -/
theorem postRaftReadyPersistent_keeps_checker {p p' : Peer} {trans : Transport} {rd rd' : Ready}
    {ctx : InvokeContext} {now : Time} {r : Option ApplySnapResult}
    (h : p.postRaftReadyPersistent trans rd ctx now = .ok (p', rd', r)) :
    p'.leaderChecker = p.leaderChecker ∧
      ∀ snap, ctx.snapshot = some snap → p'.region = snap.region := by
  obtain ⟨-, -, meta, c, s, l, ms, rfl, -⟩ := postRaftReadyPersistent_eq h
  exact ⟨rfl, fun snap hs => by simp [region, PeerStorage.postReadyPersistent, hs]⟩

end Peer

/-! So the region a snapshot installs is never published to foreign readers: `NewPeer` and
`SetRegion` are the only writers of the checker's region. -/

/-- Region 1 at epoch version 2. -/
def region2 : Region := { sampleRegion with regionEpoch := ⟨1, 2⟩ }

/-- A snapshot at index 8 of term 1 that carries `region2`. -/
def snapshot2 : Snapshot := { index := 8, term := 1, region := region2 }

/-- The library steps to hold `snapshot2`, and the next ready carries it. -/
def snapshotTrace : Except String Peer :=
  samplePeer.run sampleConfig sampleCodec sampleTransport
    [.step heartbeat 0 { sampleNode with snap := some snapshot2 },
     .readyCycle ⟨0, false, some { becomeLeader with softState := none, snapshot := some snapshot2 }⟩]

/-- A read of region 1 sent to peer 1 at term 1 and epoch version 2. -/
def readAtVersion2 : ReadContext := { regionId := 1, peerId := 1, regionEpoch := some ⟨1, 2⟩, term := 1 }

/-- After installing the snapshot, the peer (not being removed) holds region version 2 and
publishes version 1, and a foreign read at version 2 is refused as an epoch mismatch. -/
theorem snapshot_region_not_published :
    (snapshotTrace.map fun p =>
      (p.pendingRemove, p.region.regionEpoch.version, p.leaderChecker.region.regionEpoch.version,
        p.leaderChecker.isExpired p.leaderLease.remotes readAtVersion2 0)) =
      .ok (false, 2, 1, .ok (.error (.epochNotMatch 1 ⟨1, 1⟩ ⟨1, 2⟩))) :=
  rfl

namespace Peer

/-! ## Appending a ready -/

/-- Flushing the buffered messages sends them and empties the buffer. -/
theorem flushPendingMessages_eq (p : Peer) (trans : Transport) (now : Time) :
    ∃ c s l, p.flushPendingMessages trans now =
      { p with peerCache := c, sent := s, leaderLease := l, pendingMessages := [] } := by
  unfold flushPendingMessages
  split
  · rename_i h
    refine ⟨p.peerCache, p.sent, p.leaderLease, ?_⟩
    cases p
    obtain rfl := List.isEmpty_iff.1 h
    rfl
  · obtain ⟨c, s, l, h⟩ := send_eq { p with pendingMessages := [] } trans now p.pendingMessages
    exact ⟨c, s, l, h⟩

theorem scheduleGenSnapTask_eq (p : Peer) :
    p.scheduleGenSnapTask = { p with
      applyMsgs := p.applyMsgs ++ if p.peerStorage.genSnapTask then [.applySnapshot p.regionID] else []
      peerStorage := { p.peerStorage with genSnapTask := false } } := by
  unfold scheduleGenSnapTask
  cases h : p.peerStorage.genSnapTask
  · simp only [Bool.false_eq_true, if_false, List.append_nil]
    rw [← h]
  · rfl

/-- `OnRoleChanged` changes only the lease and, in the checker, the remote lease and the term. -/
theorem onRoleChanged_eq (p : Peer) (rd : Ready) (now : Time) :
    ∃ l c t, p.onRoleChanged rd now = { p with
      leaderLease := l, leaderChecker := { p.leaderChecker with leaderLease := c, term := t } } := by
  unfold onRoleChanged
  split
  · split
    · obtain ⟨l, c, h⟩ := maybeRenewLeaderLease_eq p now
      dsimp only
      rw [h]
      split <;> exact ⟨_, _, _, rfl⟩
    · split <;> exact ⟨_, _, _, rfl⟩
  · exact ⟨_, _, _, rfl⟩

/-- Appending a ready: the role change, a leader's messages sent, and the ready written. -/
theorem appendReady_eq (p : Peer) (trans : Transport) (rd : Ready) (now : Time) :
    ∃ c s l lc t li, p.appendReady trans rd now = ({ p with
        peerCache := c, sent := s, leaderLease := l
        leaderChecker := { p.leaderChecker with leaderLease := lc, term := t }
        peerStorage := { p.peerStorage with lastIndex := li } },
      if p.isLeader then { rd with messages := [] } else rd, ⟨rd.snapshot⟩) := by
  obtain ⟨l, lc, t, h⟩ := onRoleChanged_eq p rd now
  have hl : (p.onRoleChanged rd now).isLeader = p.isLeader := by rw [h]; rfl
  unfold appendReady
  dsimp only
  rw [hl]
  cases p.isLeader
  · rw [h]
    exact ⟨_, _, _, _, _, _, rfl⟩
  · obtain ⟨c, s, l', hs⟩ := send_eq (p.onRoleChanged rd now) trans now rd.messages
    simp only [if_true]
    rw [hs, h]
    exact ⟨_, _, _, _, _, _, rfl⟩

/-- What the append stage may do to a peer: settle the storage's snapshot state (an applying
snapshot can only finish), clear its generated-snapshot flag, move its last index, send (the
peer cache, `sent` and the lease), change the checker's remote lease and term, set the buffered
messages, and hand generated snapshots to the apply worker. -/
def Appended (p p1 : Peer) : Prop :=
  ∃ a g li c s l lc t pm ms, p1 = { p with
      peerStorage := { p.peerStorage with applying := a, genSnapTask := g, lastIndex := li }
      peerCache := c, sent := s, leaderLease := l
      leaderChecker := { p.leaderChecker with leaderLease := lc, term := t }
      pendingMessages := pm, applyMsgs := p.applyMsgs ++ ms } ∧
    (a = true → p.peerStorage.applying = true) ∧ ∀ m ∈ ms, m = .applySnapshot p.regionID

namespace Appended

variable {p p1 p2 : Peer}

theorem refl (p : Peer) : Appended p p :=
  ⟨p.peerStorage.applying, p.peerStorage.genSnapTask, p.peerStorage.lastIndex, p.peerCache, p.sent,
    p.leaderLease, p.leaderChecker.leaderLease, p.leaderChecker.term, p.pendingMessages, [],
    by rw [List.append_nil], id, by simp⟩

theorem trans (h1 : Appended p p1) (h2 : Appended p1 p2) : Appended p p2 := by
  obtain ⟨a, g, li, c, s, l, lc, t, pm, ms, rfl, ha, hms⟩ := h1
  obtain ⟨a', g', li', c', s', l', lc', t', pm', ms', rfl, ha', hms'⟩ := h2
  refine ⟨a', g', li', c', s', l', lc', t', pm', ms ++ ms', by rw [List.append_assoc],
    fun h => ha (ha' h), fun m hm => ?_⟩
  rcases List.mem_append.1 hm with hm | hm
  · exact hms m hm
  · exact hms' m hm

end Appended

theorem checkApplyingSnap_appended (p : Peer) (finished : Bool) :
    Appended p { p with peerStorage := (p.peerStorage.checkApplyingSnap finished).2 } := by
  unfold PeerStorage.checkApplyingSnap
  split
  · split
    · exact ⟨false, _, _, _, _, _, _, _, _, [], by rw [List.append_nil], by simp, by simp⟩
    · exact Appended.refl p
  · exact Appended.refl p

theorem flushPendingMessages_appended (p : Peer) (trans : Transport) (now : Time) :
    Appended p (p.flushPendingMessages trans now) := by
  obtain ⟨c, s, l, h⟩ := flushPendingMessages_eq p trans now
  exact h ▸ ⟨p.peerStorage.applying, p.peerStorage.genSnapTask, p.peerStorage.lastIndex, c, s, l,
    p.leaderChecker.leaderLease, p.leaderChecker.term, [], [], by rw [List.append_nil], id, by simp⟩

theorem scheduleGenSnapTask_appended (p : Peer) : Appended p p.scheduleGenSnapTask := by
  rw [scheduleGenSnapTask_eq]
  refine ⟨p.peerStorage.applying, false, p.peerStorage.lastIndex, p.peerCache, p.sent, p.leaderLease,
    p.leaderChecker.leaderLease, p.leaderChecker.term, p.pendingMessages, _, rfl, id, ?_⟩
  split <;> simp

theorem appendReady_appended (p : Peer) (trans : Transport) (rd : Ready) (now : Time) :
    Appended p (p.appendReady trans rd now).1 := by
  obtain ⟨c, s, l, lc, t, li, h⟩ := appendReady_eq p trans rd now
  rw [h]
  exact ⟨p.peerStorage.applying, p.peerStorage.genSnapTask, li, c, s, l, lc, t, p.pendingMessages,
    [], by rw [List.append_nil], id, by simp⟩

/-- Everything `HandleRaftReadyAppend` may change. -/
theorem handleRaftReadyAppend_appended (p : Peer) (trans : Transport) (env : AppendEnv) :
    Appended p (p.handleRaftReadyAppend trans env).1 := by
  have hc := checkApplyingSnap_appended p env.snapFinished
  unfold handleRaftReadyAppend
  split
  · exact Appended.refl p
  dsimp only
  split
  · exact hc
  have hf := hc.trans (flushPendingMessages_appended _ trans env.now)
  split
  · exact hf
  have hs := hf.trans (scheduleGenSnapTask_appended _)
  split
  · exact hs
  · exact hs.trans (appendReady_appended _ trans _ env.now)

/-- When `HandleRaftReadyAppend` takes a ready: the peer is not being removed, no snapshot is
being applied, a pending snapshot waits for the apply worker to catch up, and the ready is the
library's, appended after flushing the buffer and scheduling a generated snapshot. -/
theorem handleRaftReadyAppend_some {p : Peer} {trans : Transport} {env : AppendEnv}
    {rd' : Ready} {ctx : InvokeContext}
    (h : (p.handleRaftReadyAppend trans env).2 = some (rd', ctx)) :
    p.pendingRemove = false ∧ (p.peerStorage.checkApplyingSnap env.snapFinished).1 = false ∧
    (p.hasPendingSnapshot = true → p.readyToHandlePendingSnap = true) ∧
    ∃ rd, env.ready = some rd ∧ p.handleRaftReadyAppend trans env =
      let q := ({ p with peerStorage := (p.peerStorage.checkApplyingSnap env.snapFinished).2 }
        |>.flushPendingMessages trans env.now).scheduleGenSnapTask
      ((q.appendReady trans rd env.now).1, some (q.appendReady trans rd env.now).2) := by
  have hps : (p.peerStorage.checkApplyingSnap env.snapFinished).2.applyState =
      p.peerStorage.applyState := by
    unfold PeerStorage.checkApplyingSnap; split_ifs <;> rfl
  unfold handleRaftReadyAppend at h ⊢
  generalize p.peerStorage.checkApplyingSnap env.snapFinished = r at h hps ⊢
  obtain ⟨applying, ps⟩ := r
  dsimp only at h hps ⊢
  cases hr : p.pendingRemove <;> cases applying <;>
    simp only [hr, Bool.false_eq_true, if_true, if_false] at h ⊢ <;> try cases h
  split at h
  · cases h
  · rename_i hg
    split at h
    · cases h
    · rename_i rd hrd
      refine ⟨trivial, trivial, fun hs => ?_, rd, hrd,
        by simp only [hrd, hg, Bool.false_eq_true, if_false]⟩
      have hflush : ∀ q : Peer,
          (q.flushPendingMessages trans env.now).hasPendingSnapshot = q.hasPendingSnapshot ∧
          (q.flushPendingMessages trans env.now).readyToHandlePendingSnap =
            q.readyToHandlePendingSnap := fun q => by
        obtain ⟨c, s, l, hf⟩ := flushPendingMessages_eq q trans env.now
        rw [hf]
        exact ⟨rfl, rfl⟩
      rw [(hflush _).1, (hflush _).2] at hg
      simp only [hasPendingSnapshot, readyToHandlePendingSnap, PeerStorage.appliedIndex] at hg hs ⊢
      simpa [hps, hs] using hg

/-- The same, read off the pair: the peer is the appended one, and the ready handed on is the
library's, without the messages a leader has sent before persisting it. -/
theorem handleRaftReadyAppend_eq_some {p p1 : Peer} {trans : Transport} {env : AppendEnv}
    {rd1 : Ready} {ctx : InvokeContext}
    (h : p.handleRaftReadyAppend trans env = (p1, some (rd1, ctx))) :
    (p.peerStorage.checkApplyingSnap env.snapFinished).1 = false ∧
    (p.hasPendingSnapshot = true → p.readyToHandlePendingSnap = true) ∧
    ∃ rd, env.ready = some rd ∧
      p1 = ((({ p with peerStorage := (p.peerStorage.checkApplyingSnap env.snapFinished).2 }
        |>.flushPendingMessages trans env.now).scheduleGenSnapTask).appendReady trans rd env.now).1 ∧
      rd1 = (if p.isLeader then { rd with messages := [] } else rd) ∧ ctx = ⟨rd.snapshot⟩ := by
  obtain ⟨-, hcheck, hgate, rd, hrd, heq⟩ := handleRaftReadyAppend_some (by rw [h])
  rw [h] at heq
  generalize hq : scheduleGenSnapTask _ = q at heq ⊢
  have hl : q.isLeader = p.isLeader := by
    obtain ⟨c, s, l, hf⟩ := flushPendingMessages_eq
      { p with peerStorage := (p.peerStorage.checkApplyingSnap env.snapFinished).2 } trans env.now
    rw [← hq, scheduleGenSnapTask_eq, hf]; rfl
  obtain ⟨c, s, l, lc, t, li, hr⟩ := appendReady_eq q trans rd env.now
  dsimp only at heq
  rw [hr] at heq
  simp only [Prod.mk.injEq, Option.some.injEq] at heq
  obtain ⟨rfl, rfl, rfl⟩ := heq
  exact ⟨hcheck, hgate, rd, hrd, by rw [hr], by rw [hl], rfl⟩

/-! ## Proposals -/

/-- The library's answer to a proposal only moves its log. -/
theorem RawNode.propose_ok {r r' : RawNode} {ctx data : List UInt8} {answer : ProposeAnswer}
    (h : r.propose ctx data answer = .ok r') :
    r' = r ∨ ∃ e, r' = { r with lastIndex := r.lastIndex + 1, log := r.log ++ [e] } := by
  cases answer <;> simp only [RawNode.propose] at h <;> cases h
  · exact .inr ⟨_, rfl⟩
  · exact .inl rfl

/-- `ProposeNormal` changes only the library's node, which takes the proposal. -/
theorem proposeNormal_ok {p p' : Peer} {cfg : Config} {codec : Codec} {rlog : RaftLog}
    {answer : ProposeAnswer} {i : Nat} (h : p.proposeNormal cfg codec rlog answer = .ok (.ok (i, p'))) :
    ∃ ctx data, p.raftGroup.propose ctx data answer = .ok p'.raftGroup ∧
      p' = { p with raftGroup := p'.raftGroup } := by
  unfold proposeNormal at h
  dsimp only at h
  repeat' split at h
  all_goals cases h
  exact ⟨_, _, ‹_›, rfl⟩

/-- `ProposeConfChange` changes only the library's node, which takes the proposal. -/
theorem proposeConfChange_ok {p p' : Peer} {cfg : Config} {codec : Codec} {req : RaftCmdRequest}
    {answer : ProposeAnswer} {i : Nat}
    (h : p.proposeConfChange cfg codec req answer = .ok (.ok (i, p'))) :
    ∃ r, p' = { p with raftGroup := r } := by
  unfold proposeConfChange at h
  dsimp only at h
  repeat' split at h
  all_goals cases h
  exact ⟨_, rfl⟩

/-! ## Issuing a read -/

/-- A new read-index round: a request the library drops is answered as stale; an accepted one is
queued, its context appended to the FIFO, possibly behind an internal empty proposal. -/
theorem newReadIndexRound_cases {p p' : Peer} {cfg : Config} {codec : Codec}
    {req : RaftCmdRequest} {cb : Callback} {env : ProposeEnv} {b : Bool}
    (h : p.newReadIndexRound cfg codec req cb env = .ok (p', b)) :
    (∃ resp, p' = ({ p with pendingReads := { p.pendingReads with
        idAllocator := p.pendingReads.idAllocator + 1 } } : Peer).complete cb resp) ∨
    ∃ r props pq, p' = { p with
        pendingReads := { p.pendingReads with
          idAllocator := p.pendingReads.idAllocator + 1
          reads := p.pendingReads.reads ++
            [⟨p.pendingReads.idAllocator + 1, [⟨req, cb⟩], some env.now⟩] }
        raftGroup := r, applyProposals := p.applyProposals ++ props, proposals := pq } ∧
      r.readFifo = p.raftGroup.readFifo ++ [putUint64BE (p.pendingReads.idAllocator + 1)] ∧
      r.term = p.raftGroup.term ∧ r.state = p.raftGroup.state ∧
      ∀ pr ∈ props, pr.cb = .internal := by
  unfold newReadIndexRound at h
  cases hacc : env.readIndexAccepted <;>
    simp only [hacc, RawNode.readIndex, ReadIndexQueue.nextID, Bool.false_eq_true, if_true,
      if_false, beq_self_eq_true, Bool.and_self, Nat.succ_ne_self, beq_iff_eq] at h
  · cases h
    exact .inl ⟨_, rfl⟩
  · simp only [Bool.and_true, beq_iff_eq, Nat.succ_ne_self, if_false] at h
    split at h
    · split at h
      · cases h
      · cases h
        exact .inr ⟨p.raftGroup.readIndex (putUint64BE (p.pendingReads.idAllocator + 1)) true, [], _,
          by rw [List.append_nil]; rfl, by simp [RawNode.readIndex], rfl, rfl, by simp⟩
      · cases h
        rename_i p2 hp2
        obtain ⟨ctx, data, hprop, hp2eq⟩ := proposeNormal_ok hp2
        have hr : p2.raftGroup.readFifo = p.raftGroup.readFifo ++
              [putUint64BE (p.pendingReads.idAllocator + 1)] ∧
            p2.raftGroup.term = p.raftGroup.term ∧ p2.raftGroup.state = p.raftGroup.state := by
          rcases RawNode.propose_ok hprop with hr | ⟨e, hr⟩ <;> rw [hr] <;> simp
        rw [hp2eq]
        exact .inr ⟨p2.raftGroup, [_], _, rfl, hr.1, hr.2.1, hr.2.2, by simp⟩
    · cases h
      exact .inr ⟨p.raftGroup.readIndex (putUint64BE (p.pendingReads.idAllocator + 1)) true, [], _,
          by rw [List.append_nil]; rfl, by simp [RawNode.readIndex], rfl, rfl, by simp⟩

/-- Everything `readIndex` can do: answer at once while splitting or merging, add the command
to the last request while it is less than a lease old, or start a new round. -/
theorem readIndex_cases {p p' : Peer} {cfg : Config} {codec : Codec} {req : RaftCmdRequest}
    {errResp : RaftCmdResponse} {cb : Callback} {env : ProposeEnv} {b : Bool}
    (h : p.readIndex cfg codec req errResp cb env = .ok (p', b)) :
    (∃ resp, p' = p.complete cb resp) ∨
    (∃ init read, p.pendingReads.reads = init ++ [read] ∧ p' = { p with
      pendingReads := { p.pendingReads with
        reads := init ++ [{ read with cmds := read.cmds ++ [⟨req, cb⟩] }] } }) ∨
    p.newReadIndexRound cfg codec req cb env = .ok (p', b) := by
  unfold readIndex at h
  split at h
  · cases h
    exact .inl ⟨_, rfl⟩
  · split at h
    · rename_i read hlast
      obtain ⟨init, hinit⟩ := List.getLast?_eq_some_iff.1 hlast
      split at h
      · cases h
      · split at h
        · cases h
          refine .inr (.inl ⟨init, read, hinit, ?_⟩)
          simp only [hinit, List.dropLast_concat]
        · exact .inr (.inr h)
    · exact .inr (.inr h)

/-! ## Propose -/

/-- What the propose path may change: the library's node, the lease, the read queue, the
proposals waiting for the apply worker and their metas, the completed callbacks, and the urgent
index. -/
def Proposed (p p' : Peer) : Prop :=
  ∃ r l q ap pr d u, p' = { p with
    raftGroup := r, leaderLease := l, pendingReads := q, applyProposals := ap, proposals := pr
    done := d, lastUrgentProposalIdx := u }

namespace Proposed

variable {p p1 p2 : Peer}

theorem refl (p : Peer) : Proposed p p := ⟨_, _, _, _, _, _, _, rfl⟩

theorem trans (h1 : Proposed p p1) (h2 : Proposed p1 p2) : Proposed p p2 := by
  obtain ⟨r, l, q, ap, pr, d, u, rfl⟩ := h1
  obtain ⟨r', l', q', ap', pr', d', u', rfl⟩ := h2
  exact ⟨r', l', q', ap', pr', d', u', rfl⟩

theorem complete (h : Proposed p p1) (cb : Callback) (resp : RaftCmdResponse) :
    Proposed p (p1.complete cb resp) :=
  h.trans ⟨_, _, _, _, _, _, _, rfl⟩

theorem postPropose (h : Proposed p p1) (meta : ProposalMeta) (isConfChange : Bool) (cb : Callback)
    (now : Time) : Proposed p (p1.postPropose meta isConfChange cb now) :=
  h.trans ⟨_, _, _, _, _, _, _, rfl⟩

end Proposed

section ProposeFrame

variable {p p' : Peer} {cfg : Config} {codec : Codec} {cb : Callback} {b : Bool}

theorem finishPropose_proposed {errResp : RaftCmdResponse} {isUrgent isConfChange : Bool}
    {now : Time} {res : Except String (Except RaftError (Nat × Peer))}
    (hres : ∀ i p2, res = .ok (.ok (i, p2)) → Proposed p p2)
    (h : p.finishPropose cb errResp isUrgent isConfChange now res = .ok (p', b)) :
    Proposed p p' := by
  match res, h with
  | .ok (.error _), h =>
    cases h
    exact (Proposed.refl p).complete _ _
  | .ok (.ok (i, p2)), h =>
    cases h
    refine Proposed.postPropose ?_ _ _ _ _
    split
    · exact (hres i p2 rfl).trans ⟨_, _, _, _, _, _, _, rfl⟩
    · exact hres i p2 rfl

theorem readIndex_proposed {req : RaftCmdRequest} {errResp : RaftCmdResponse} {env : ProposeEnv}
    (h : p.readIndex cfg codec req errResp cb env = .ok (p', b)) : Proposed p p' := by
  rcases readIndex_cases h with ⟨resp, rfl⟩ | ⟨init, read, -, rfl⟩ | hnew
  · exact (Proposed.refl p).complete _ _
  · exact ⟨_, _, _, _, _, _, _, rfl⟩
  · rcases newReadIndexRound_cases hnew with ⟨resp, rfl⟩ | ⟨r, props, pq, rfl, -⟩
    · exact Proposed.complete ⟨_, _, _, _, _, _, _, rfl⟩ _ _
    · exact ⟨_, _, _, _, _, _, _, rfl⟩

theorem proposeTransferLeader_proposed {req : RaftCmdRequest} {now : Time}
    (h : p.proposeTransferLeader cfg req cb now = .ok (p', b)) : Proposed p p' := by
  unfold proposeTransferLeader at h
  split at h
  · cases h
  · cases h
    refine Proposed.complete ?_ _ _
    split
    · exact ⟨_, _, _, _, _, _, _, rfl⟩
    · exact Proposed.refl p

/-- Everything `Propose` may change. -/
theorem propose_proposed {rlog : RaftLog} {errResp : RaftCmdResponse} {env : ProposeEnv}
    (h : p.propose cfg codec cb rlog errResp env = .ok (p', b)) : Proposed p p' := by
  unfold propose at h
  split at h
  · cases h
    exact Proposed.refl p
  obtain ⟨l, hl⟩ := inspect_eq p rlog env.now
  have h1 : Proposed p (p.inspect rlog env.now).2 := hl ▸ ⟨_, _, _, _, _, _, _, rfl⟩
  generalize p.inspect rlog env.now = res at h h1
  obtain ⟨⟨policy, err⟩, p1⟩ := res
  dsimp only at h h1
  split at h
  · cases h
    exact h1.complete _ _
  · split at h
    · obtain ⟨p2, h2, h⟩ := except_map_eq_ok.1 h
      cases h
      obtain ⟨resp, -, rfl⟩ := except_map_eq_ok.1 h2
      exact h1.complete _ _
    · exact h1.trans (readIndex_proposed h)
    · refine h1.trans (finishPropose_proposed (fun i p2 hres => ?_) h)
      obtain ⟨_, _, -, hp2⟩ := proposeNormal_ok hres
      exact hp2 ▸ ⟨_, _, _, _, _, _, _, rfl⟩
    · exact h1.trans (proposeTransferLeader_proposed h)
    · refine h1.trans (finishPropose_proposed (fun i p2 hres => ?_) h)
      obtain ⟨_, rfl⟩ := proposeConfChange_ok hres
      exact ⟨_, _, _, _, _, _, _, rfl⟩
    · exact h1.trans (finishPropose_proposed (fun i p2 hres => by cases hres; exact .refl _) h)
    · cases h

end ProposeFrame

end Peer

end RaftStore
