import RaftStore.Frame

/-!
# RaftStore.ReadQueue

The read-index queue against the consensus library's read-index FIFO (spec §4.8, invariant 4).

The library is modelled as a FIFO of accepted contexts (`RawNode.readFifo`): `ReadIndex`
appends a context or drops it, a ready's read states echo a prefix of the FIFO (`EchoesFifo`),
and a ready that reports a role change discards the rest. The peer's queue matches it: the
requests past `readyCnt` are, in order, the FIFO's contexts (`ReadQueueInv`). So the ready branch
of `ApplyReads`, which pops from the head, and `ClearUncommitted`, which slices at `readyCnt`,
are only reached when the confirmed prefix has been drained.

* the panic lemmas (`applyReads_error`, `answerConfirmedReads_error`): under the queue's bounds
  and a ready that echoes the FIFO, the read functions panic only in `Execute`; what they do when
  they succeed is in `RaftStore.Frame`;
* `readIndex_cases` lists everything `readIndex` can do;
* `readQueueInv_readIndex`, `readQueueInv_handleRaftReadyApply`, `readQueueInv_postApply` —
  the invariant is kept by each step;
* `read_queue_matches_fifo` — over every run, the invariant holds and the read paths panic only
  where `Execute` does.
-/

set_option autoImplicit false

namespace RaftStore

/-! ## Serving a read -/

/-- `Execute`'s loop answers every command or panics with `unreachable`. -/
theorem executeRequests_cases (rs : List Request) :
    executeRequests rs = .error "unreachable" ∨ ∃ v, executeRequests rs = .ok v := by
  induction rs with
  | nil => exact .inr ⟨[], rfl⟩
  | cons r rs ih =>
    unfold executeRequests
    split
    · rcases ih with h | ⟨v, h⟩ <;> simp [h, Except.map]
    · exact .inl rfl

/-- `handleRead` answers, or panics with `unreachable`. -/
theorem handleRead_cases (p : Peer) (req : RaftCmdRequest) (checkEpoch : Bool) :
    p.handleRead req checkEpoch = .error "unreachable" ∨
      ∃ resp, p.handleRead req checkEpoch = .ok resp := by
  simp only [Peer.handleRead, ReadExecutor.execute]
  split
  · exact .inr ⟨_, rfl⟩
  · rcases executeRequests_cases req.requests with h | ⟨v, h⟩ <;> simp [h, Except.map]

namespace Peer

/-- Answering a request's commands panics only in `Execute`. -/
theorem answerReads_error {p : Peer} {cs : List ReqCbPair} {e : String}
    (h : p.answerReads cs = .error e) : e = "unreachable" := by
  induction cs generalizing p with
  | nil => cases h
  | cons c cs ih =>
    simp only [answerReads] at h
    split at h
    · rename_i e' he
      cases h
      rcases handleRead_cases p c.req true with h' | ⟨_, h'⟩ <;> rw [h'] at he <;> cases he
      rfl
    · exact ih h

/-- The first request of a queue whose contexts start with `ctx :: ctxs`. -/
theorem exists_cons_of_prefix {ctx : List UInt8} {ctxs : List (List UInt8)}
    {reads : List ReadIndexRequest} (h : ctx :: ctxs <+: reads.map (·.binaryID)) :
    ∃ r rest, reads = r :: rest ∧ ctx = r.binaryID ∧ ctxs <+: rest.map (·.binaryID) := by
  cases reads with
  | nil => simp at h
  | cons r rest =>
    simp only [List.map_cons, List.cons_prefix_cons] at h
    exact ⟨r, rest, rfl, h.1, h.2⟩

/-- The ready branch of `ApplyReads`, on read states that echo a prefix of the queue, panics
only in `Execute`. -/
theorem applyReadyReads_error {p : Peer} {t : Option Time} {states : List ReadState} {e : String}
    (hpre : states.map (·.requestCtx) <+: p.pendingReads.reads.map (·.binaryID))
    (h : p.applyReadyReads t states = .error e) : e = "unreachable" := by
  induction states generalizing p t with
  | nil => cases h
  | cons s states ih =>
    obtain ⟨r, rest, hreads, hs, hpre⟩ := exists_cons_of_prefix hpre
    simp only [applyReadyReads, ReadIndexQueue.popFront, hreads, hs, bne_self_eq_false,
      Bool.false_eq_true, if_false] at h
    split at h
    · cases h
      exact answerReads_error ‹_›
    · rename_i h1
      obtain ⟨rs, rfl, -⟩ := answerReads_ok h1
      exact ih hpre h

/-- The other branch of `ApplyReads`, on read states that echo a prefix of the unconfirmed
requests, does not panic. -/
theorem markReadyReads_isOk {p : Peer} {t : Option Time} {states : List ReadState}
    (hpre : states.map (·.requestCtx) <+:
      (p.pendingReads.reads.drop p.pendingReads.readyCnt).map (·.binaryID)) :
    ∃ r, p.markReadyReads t states = .ok r := by
  induction states generalizing p t with
  | nil => exact ⟨_, rfl⟩
  | cons s states ih =>
    obtain ⟨r, rest, hdrop, hs, hpre⟩ := exists_cons_of_prefix hpre
    have hget : p.pendingReads.reads[p.pendingReads.readyCnt]? = some r := by
      rw [← List.head?_drop, hdrop]; rfl
    have hrest : p.pendingReads.reads.drop (p.pendingReads.readyCnt + 1) = rest := by
      rw [← List.tail_drop, hdrop]; rfl
    simp only [markReadyReads, hget, hs, bne_self_eq_false, Bool.false_eq_true, if_false]
    exact ih (by simpa [hrest] using hpre)

/-- `ApplyReads` on a queue whose confirmed prefix is empty when the peer is ready to read, with
read states echoing the unconfirmed requests, panics only in `Execute`. -/
theorem applyReads_error {p : Peer} {rd : Ready} {e : String}
    (hcnt : p.pendingReads.readyCnt ≤ p.pendingReads.reads.length)
    (hready : p.readyToHandleRead = true → p.pendingReads.readyCnt = 0)
    (hecho : rd.readStates.map (·.requestCtx) <+:
      (p.pendingReads.reads.drop p.pendingReads.readyCnt).map (·.binaryID))
    (h : p.applyReads rd = .error e) : e = "unreachable" := by
  unfold applyReads at h
  rcases except_bind_eq_error.1 h with h1 | ⟨⟨p1, t⟩, h1, h⟩
  · cases hr : p.readyToHandleRead <;> simp only [hr, Bool.false_eq_true, if_true, if_false] at h1
    · obtain ⟨_, h'⟩ := markReadyReads_isOk (t := none) hecho
      rw [h'] at h1
      cases h1
    · exact applyReadyReads_error (by simpa [hready hr] using hecho) h1
  · rcases except_bind_eq_error.1 h with h2 | ⟨_, -, h2⟩
    · split at h2
      · -- the queue is within bounds after either branch, so `ClearUncommitted` succeeds
        have hk : p1.pendingReads.readyCnt ≤ p1.pendingReads.reads.length := by
          cases hr : p.readyToHandleRead <;> simp only [hr, Bool.false_eq_true, if_true,
            if_false] at h1
          · rw [markReadyReads_ok h1]
            have := hecho.length_le
            simp only [List.length_map, List.length_drop] at this ⊢
            omega
          · obtain ⟨rs, rfl, -⟩ := applyReadyReads_ok h1
            simp [hready hr]
        simp [clearUncommitted, ReadIndexQueue.clearUncommitted, hk, Except.map] at h2
      · cases h2
    · cases h2

/-- Draining at most the queue's length panics only in `Execute`. -/
theorem drainReadyReads_error {p : Peer} {n : Nat} {e : String}
    (hn : n ≤ p.pendingReads.reads.length) (h : p.drainReadyReads n = .error e) :
    e = "unreachable" := by
  induction n generalizing p with
  | zero => cases h
  | succ n ih =>
    obtain ⟨r, rest, hreads⟩ : ∃ r rest, p.pendingReads.reads = r :: rest := by
      cases hr : p.pendingReads.reads with
      | nil => simp [hr] at hn
      | cons r rest => exact ⟨r, rest, rfl⟩
    simp only [drainReadyReads, ReadIndexQueue.popFront, hreads] at h
    split at h
    · cases h
      exact answerReads_error ‹_›
    · rename_i h1
      obtain ⟨rs, rfl, -⟩ := answerReads_ok h1
      exact ih (by simp [hreads] at hn ⊢; omega) h

/-- Answering the confirmed reads, within bounds, panics only in `Execute`. -/
theorem answerConfirmedReads_error {p : Peer} {e : String}
    (hcnt : p.pendingReads.readyCnt ≤ p.pendingReads.reads.length)
    (h : p.answerConfirmedReads = .error e) : e = "unreachable" := by
  unfold answerConfirmedReads at h
  split at h
  · exact drainReadyReads_error hcnt (except_map_eq_error.1 h)
  · cases h

end Peer

/-! ## The invariant -/

/-- The consensus library echoes, in a ready's read states, a prefix of its read-index FIFO. -/
def EchoesFifo (r : RawNode) (rd : Ready) : Prop :=
  rd.readStates.map (·.requestCtx) <+: r.readFifo

/-- The read queue matches the library's FIFO. -/
structure ReadQueueInv (p : Peer) : Prop where
  /-- The confirmed prefix lies within the queue. -/
  readyCnt_le : p.pendingReads.readyCnt ≤ p.pendingReads.reads.length
  /-- The unconfirmed requests carry, in order, the FIFO's contexts. -/
  unconfirmed_eq_fifo :
    (p.pendingReads.reads.drop p.pendingReads.readyCnt).map (·.binaryID) = p.raftGroup.readFifo
  /-- Nothing is confirmed while the peer is ready to read. -/
  drained_when_ready : p.readyToHandleRead = true → p.pendingReads.readyCnt = 0

/-- An empty queue matches an empty FIFO. -/
theorem readQueueInv_init {p : Peer} (hr : p.pendingReads.reads = [])
    (hc : p.pendingReads.readyCnt = 0) (hf : p.raftGroup.readFifo = []) : ReadQueueInv p where
  readyCnt_le := by simp [hc]
  unconfirmed_eq_fifo := by simp [hr, hf]
  drained_when_ready := fun _ => hc

namespace Peer

variable {p p' : Peer}

/-- `readIndex` keeps the invariant: a joined request keeps its id, and a new one is queued
together with its context in the FIFO. -/
theorem readQueueInv_readIndex {cfg : Config} {codec : Codec} {req : RaftCmdRequest}
    {errResp : RaftCmdResponse} {cb : Callback} {env : ProposeEnv} {b : Bool}
    (hi : ReadQueueInv p) (h : p.readIndex cfg codec req errResp cb env = .ok (p', b)) :
    ReadQueueInv p' := by
  rcases readIndex_cases h with ⟨resp, rfl⟩ | ⟨init, read, hreads, rfl⟩ | hnew
  · exact ⟨hi.1, hi.2, hi.3⟩
  · have h2 := hi.2
    rw [List.map_drop, hreads] at h2
    refine ⟨by simpa [hreads] using hi.1, ?_, hi.3⟩
    simpa [List.map_drop, ReadIndexRequest.binaryID] using h2
  · rcases newReadIndexRound_cases hnew with ⟨resp, rfl⟩ | ⟨r, props, pq, rfl, hfifo, hterm, -, -⟩
    · exact ⟨hi.1, hi.2, hi.3⟩
    · have := hi.1
      refine ⟨by simp; omega, ?_, fun hr => hi.3 ?_⟩
      · simp [hfifo, List.drop_append_of_le_length hi.1, ← hi.2, ReadIndexRequest.binaryID]
      · simpa [readyToHandleRead, isSplitting, isMerging, term, hterm] using hr

/-- The invariant after `ApplyReads` and `Advance`, from the queue and the FIFO they leave. -/
theorem readQueueInv_afterReads {rd : Ready} (hi : ReadQueueInv p) (he : EchoesFifo p.raftGroup rd)
    (hq : p'.pendingReads = p.pendingReads.afterReads p.readyToHandleRead rd.readStates.length
      rd.softState.isSome)
    (hf : p'.raftGroup.readFifo =
      if rd.softState.isSome then [] else p.raftGroup.readFifo.drop rd.readStates.length)
    (hr : p'.readyToHandleRead = p.readyToHandleRead) : ReadQueueInv p' := by
  have hk : p.pendingReads.readyCnt + rd.readStates.length ≤ p.pendingReads.reads.length := by
    have := he.length_le
    rw [← hi.2] at this
    simp only [List.length_map, List.length_drop] at this
    have := hi.1
    omega
  have h2 := hi.2
  rw [List.map_drop] at h2
  cases hready : p.readyToHandleRead
  · -- not ready: the echoed requests become confirmed
    have hnr : p'.readyToHandleRead = true → False := by simp [hr, hready]
    cases hs : rd.softState.isSome <;>
      simp only [ReadIndexQueue.afterReads, hready, hs, Bool.false_eq_true, if_false,
        if_true] at hq hf
    · refine ⟨by rw [hq]; exact hk, ?_, fun h => (hnr h).elim⟩
      simp only [hq, hf, ← h2, List.drop_drop, List.map_drop]
    · refine ⟨by simp [hq, Nat.min_eq_left hk], by simp [hq, hf, Nat.min_eq_left hk],
        fun h => (hnr h).elim⟩
  · -- ready: nothing is confirmed, and the echoed requests are popped
    have h0 := hi.3 hready
    cases hs : rd.softState.isSome <;>
      simp only [ReadIndexQueue.afterReads, hready, hs, Bool.false_eq_true, if_false,
        if_true] at hq hf
    · refine ⟨by simp [hq, h0], ?_, fun _ => by simp [hq, h0]⟩
      simp only [hq, hf, ← h2, h0, List.drop_zero, List.map_drop]
    · exact ⟨by simp [hq, h0], by simp [hq, hf, h0], fun _ => by simp [hq, h0]⟩

/-- `HandleRaftReadyApply` on a ready that echoes a prefix of the FIFO keeps the invariant, and
only `Execute` can panic in it. -/
theorem readQueueInv_handleRaftReadyApply {rd : Ready} {now : Time} (hi : ReadQueueInv p)
    (he : EchoesFifo p.raftGroup rd) :
    (∀ e, p.handleRaftReadyApply rd now = .error e → e = "unreachable") ∧
    ∀ p', p.handleRaftReadyApply rd now = .ok p' → ReadQueueInv p' := by
  obtain ⟨p1, ⟨q, h, l, c, u, s, rfl⟩, heq⟩ := handleRaftReadyApply_eq p rd now
  rw [heq]
  refine ⟨fun e h => applyReads_error (by exact hi.1) (by exact hi.3) (by rw [hi.2]; exact he)
    (except_map_eq_error.1 h), fun p' h => ?_⟩
  obtain ⟨p2, h2, rfl⟩ := except_map_eq_ok.1 h
  obtain ⟨rs, l', c', rfl, -⟩ := applyReads_ok h2
  exact readQueueInv_afterReads hi he rfl (by simp [RawNode.advance])
    (by simp only [RawNode.ite_advanceApply]; rfl)

/-- `PostApply` keeps the invariant; it panics only under a snapshot or in `Execute`. -/
theorem readQueueInv_postApply {applyState : ApplyState} {appliedIndexTerm : Nat} {merged : Bool}
    {metrics : ApplyMetrics} (hi : ReadQueueInv p) :
    (∀ e, p.postApply applyState appliedIndexTerm merged metrics = .error e →
      e = "should not applying snapshot" ∨ e = "unreachable") ∧
    ∀ p' hasReady, p.postApply applyState appliedIndexTerm merged metrics = .ok (p', hasReady) →
      ReadQueueInv p' := by
  have hfifo : (p.recordApplyState applyState appliedIndexTerm merged metrics).raftGroup.readFifo =
      p.raftGroup.readFifo := by
    cases merged <;> rfl
  refine ⟨fun e h => ?_, fun p' hasReady h => ?_⟩
  · unfold postApply at h
    split at h
    · exact .inl (by cases h; rfl)
    · obtain h | ⟨a, -, h⟩ := except_bind_eq_error.1 h
      · exact .inr (answerConfirmedReads_error (by exact hi.1) h)
      · cases h
  · obtain ⟨-, p2, c, h2, rfl⟩ := postApply_ok h
    rcases answerConfirmedReads_ok h2 with ⟨rfl, hnot⟩ | ⟨rs, rfl, -⟩
    · refine ⟨hi.1, hi.2.trans hfifo.symm, fun hr => ?_⟩
      by_contra hpos
      exact Bool.false_ne_true ((hnot (Nat.pos_of_ne_zero hpos)).symm.trans hr)
    · exact ⟨by simp, by simpa using hi.2.trans hfifo.symm, fun _ => rfl⟩

end Peer

/-! ## Runs of the read path -/

/-- The runs of the read path: from a peer whose queue and FIFO are empty, any sequence of
`readIndex`, `HandleRaftReadyApply` on a ready whose read states echo a prefix of the FIFO, and
`PostApply`. -/
inductive ReadRun (cfg : Config) (codec : Codec) : Peer → Prop
  | init (p : Peer) : p.pendingReads.reads = [] → p.pendingReads.readyCnt = 0 →
      p.raftGroup.readFifo = [] → ReadRun cfg codec p
  | readIndex {p p' : Peer} (req : RaftCmdRequest) (errResp : RaftCmdResponse) (cb : Callback)
      (env : ProposeEnv) (b : Bool) : ReadRun cfg codec p →
      p.readIndex cfg codec req errResp cb env = .ok (p', b) → ReadRun cfg codec p'
  | apply {p p' : Peer} (rd : Ready) (now : Time) : ReadRun cfg codec p →
      EchoesFifo p.raftGroup rd → p.handleRaftReadyApply rd now = .ok p' → ReadRun cfg codec p'
  | postApply {p p' : Peer} (applyState : ApplyState) (appliedIndexTerm : Nat) (merged : Bool)
      (metrics : ApplyMetrics) (hasReady : Bool) : ReadRun cfg codec p →
      p.postApply applyState appliedIndexTerm merged metrics = .ok (p', hasReady) →
      ReadRun cfg codec p'

/-- Every state of the read path satisfies the invariant. -/
theorem readRun_inv {cfg : Config} {codec : Codec} {p : Peer} (h : ReadRun cfg codec p) :
    ReadQueueInv p := by
  induction h with
  | init p hr hc hf => exact readQueueInv_init hr hc hf
  | readIndex _ _ _ _ _ _ h ih => exact Peer.readQueueInv_readIndex ih h
  | apply _ _ _ he h ih => exact (Peer.readQueueInv_handleRaftReadyApply ih he).2 _ h
  | postApply _ _ _ _ _ _ h ih => exact (Peer.readQueueInv_postApply ih).2 _ _ h

/-- **The read queue follows the FIFO.** In every state of the read path the confirmed prefix
lies within the queue, and the requests after it carry, in order, exactly the FIFO's contexts.
So `HandleRaftReadyApply` (with `ApplyReads`) and `PostApply` never reach their own panics — a
missing read, a context mismatch, a nil pop, an index or a slice out of range: the only panics
left are `Execute`'s and the snapshot check of `PostApply`. -/
theorem read_queue_matches_fifo {cfg : Config} {codec : Codec} {p : Peer}
    (h : ReadRun cfg codec p) :
    p.pendingReads.readyCnt ≤ p.pendingReads.reads.length ∧
    (p.pendingReads.reads.drop p.pendingReads.readyCnt).map (·.binaryID) = p.raftGroup.readFifo ∧
    (∀ rd now e, EchoesFifo p.raftGroup rd → p.handleRaftReadyApply rd now = .error e →
      e = "unreachable") ∧
    (∀ applyState appliedIndexTerm merged metrics e,
      p.postApply applyState appliedIndexTerm merged metrics = .error e →
      e = "should not applying snapshot" ∨ e = "unreachable") := by
  have hi := readRun_inv h
  exact ⟨hi.1, hi.2, fun rd now e he => (Peer.readQueueInv_handleRaftReadyApply hi he).1 e,
    fun _ _ _ _ e => (Peer.readQueueInv_postApply hi).1 e⟩

/-- A ready that echoes the context of the first read-index request, confirming index 5. -/
def confirmRead : Ready :=
  { softState := none, entries := [], snapshot := none, committedEntries := [], messages := [],
    readStates := [⟨5, putUint64BE 1⟩] }

/-- The leader of `NewPeer`'s region reads through the read index, a ready echoes the read's
context and answers it, and a second read is queued behind the FIFO's new context: the theorem
holds at the end of that run. -/
theorem read_queue_matches_fifo_confirmRead :
    ∃ p1 p2 p3 : Peer,
      (samplePeer.step heartbeat 0 leaderNode).readIndex sampleConfig sampleCodec snapReadRequest
        (errResp .staleCommand) (.handed 0) ⟨1, true, .append⟩ = .ok (p1, true) ∧
      p1.handleRaftReadyApply confirmRead 2 = .ok p2 ∧ p2.done.map Prod.fst = [.handed 0] ∧
      p2.readIndex sampleConfig sampleCodec snapReadRequest (errResp .staleCommand) (.handed 1)
        ⟨3, true, .append⟩ = .ok (p3, true) ∧
      p3.raftGroup.readFifo = [putUint64BE 2] ∧
      p3.pendingReads.readyCnt ≤ p3.pendingReads.reads.length ∧
      (p3.pendingReads.reads.drop p3.pendingReads.readyCnt).map (·.binaryID) =
        p3.raftGroup.readFifo ∧
      (∀ rd now e, EchoesFifo p3.raftGroup rd → p3.handleRaftReadyApply rd now = .error e →
        e = "unreachable") ∧
      (∀ applyState appliedIndexTerm merged metrics e,
        p3.postApply applyState appliedIndexTerm merged metrics = .error e →
        e = "should not applying snapshot" ∨ e = "unreachable") :=
  ⟨_, _, _, rfl, rfl, rfl, rfl, rfl, read_queue_matches_fifo <|
    (((@ReadRun.init sampleConfig sampleCodec (samplePeer.step heartbeat 0 leaderNode) rfl rfl rfl).readIndex
      snapReadRequest (errResp .staleCommand) (.handed 0) ⟨1, true, .append⟩ true rfl).apply
      confirmRead 2 ⟨[], rfl⟩ rfl).readIndex snapReadRequest (errResp .staleCommand) (.handed 1)
      ⟨3, true, .append⟩ true rfl⟩

end RaftStore
