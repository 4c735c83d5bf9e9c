import RaftStore.Frame
import RaftStore.ReadQueue

/-!
# RaftStore.ApplyPipeline

The apply pipeline against asynchronous snapshots (spec §4.8, "Ready/apply cycle").
`HandleRaftReadyApply` hands batches of committed entries to the apply worker and moves
`LastApplyingIdx` to the last index handed; the worker acknowledges them, in order, through
`PostApply`, which moves the applied index. A snapshot must not be persisted while a batch is
in flight, since the worker would then write an apply state over the snapshot's.

The environment is modelled as follows. The batches the worker has acknowledged
are counted by `acked`; the others are `pending` (by their last index). Each `PostApply` reports
an applied index up to the first pending batch's last index, and acknowledges the batch when it
reaches it. `ReadySince` returns entries above `LastApplyingIdx` only, and a snapshot only when
the library has one pending. The storage starts applying a snapshot when it persists it and
finishes at any later ready cycle.

* `PipelineInv` — the pending batches end at increasing indices above the applied index, the
  last one at `LastApplyingIdx`, and none is pending while a snapshot is applied;
* `PipelineInv.readyCycle`, `PipelineInv.acknowledge` and `PipelineInv.exec` — every action the
  environment allows keeps it, and `applyRun_inv` — so does every run;
* `apply_pipeline_safe` — over every run: `LastApplyingIdx ≥ AppliedIndex`, a snapshot is
  persisted only with no batch in flight, and `PostApply` never meets an applying snapshot.
-/

set_option autoImplicit false

namespace RaftStore

/-- The last index of the batch an apply message hands to the apply worker, if it hands one. -/
def ApplyMsg.batchLast : ApplyMsg → Option Nat
  | .apply _ _ entries => entries.getLast?.map (·.index)
  | _ => none

/-- The last indices of the batches handed to the apply worker, in order. -/
def batchLasts (msgs : List ApplyMsg) : List Nat := msgs.filterMap ApplyMsg.batchLast

@[simp] theorem batchLasts_append (ms ms' : List ApplyMsg) :
    batchLasts (ms ++ ms') = batchLasts ms ++ batchLasts ms' :=
  List.filterMap_append ms ms' _

/-- Messages that hand no batch over leave the batches as they were. -/
theorem batchLasts_append_of_none (ms : List ApplyMsg) {ms' : List ApplyMsg}
    (h : ∀ m ∈ ms', m.batchLast = none) : batchLasts (ms ++ ms') = batchLasts ms := by
  rw [batchLasts_append, show batchLasts ms' = [] from List.filterMap_eq_nil_iff.2 h,
    List.append_nil]

/-- The batches handed to the apply worker and not yet acknowledged, by their last index. -/
def pending (p : Peer) (acked : Nat) : List Nat := (batchLasts p.applyMsgs).drop acked

/-- `ReadySince(LastApplyingIdx)`, as the environment answers it: the ready's committed entries
lie above the applying index, and it carries a snapshot only when the library has one pending. -/
def ReadySince (p : Peer) (rd : Ready) : Prop :=
  (∀ e ∈ rd.committedEntries, p.lastApplyingIdx < e.index) ∧
    (rd.snapshot.isSome → p.hasPendingSnapshot = true)

/-- The pipeline invariant. -/
structure PipelineInv (p : Peer) (acked : Nat) : Prop where
  /-- No more batches are acknowledged than were handed. -/
  acked_le : acked ≤ (batchLasts p.applyMsgs).length
  /-- The pending batches end at increasing indices. -/
  sorted : (pending p acked).Pairwise (· < ·)
  /-- Every pending batch ends above the applied index. -/
  applied_lt : ∀ b ∈ pending p acked, p.peerStorage.appliedIndex < b
  /-- Every pending batch ends at or below the applying index. -/
  le_applying : ∀ b ∈ pending p acked, b ≤ p.lastApplyingIdx
  /-- The applying index is the last pending batch's end, or the applied index. -/
  last_eq : (pending p acked).getLast?.getD p.peerStorage.appliedIndex = p.lastApplyingIdx
  /-- No batch is pending while a snapshot is applied. -/
  drained : p.isApplyingSnapshot = true → pending p acked = []

namespace PipelineInv

variable {p p' : Peer} {acked : Nat}

/-- The applying index never falls behind the applied index. -/
theorem applied_le (hi : PipelineInv p acked) :
    p.peerStorage.appliedIndex ≤ p.lastApplyingIdx := by
  rw [← hi.last_eq]
  cases h : (pending p acked).getLast? with
  | none => exact Nat.le_refl _
  | some b => exact (hi.applied_lt b (List.mem_of_getLast?_eq_some h)).le

/-- When the applying index is the applied index, no batch is pending. -/
theorem pending_eq_nil (hi : PipelineInv p acked)
    (h : p.lastApplyingIdx = p.peerStorage.appliedIndex) : pending p acked = [] := by
  cases hl : (pending p acked).getLast? with
  | none => simpa using hl
  | some b =>
    have hb := hi.last_eq
    rw [hl] at hb
    have := hi.applied_lt b (List.mem_of_getLast?_eq_some hl)
    simp only [Option.getD_some] at hb
    omega

/-- The invariant reads only the batches handed, the apply state, the applying index, and
whether a snapshot is applied; an operation that keeps these, and applies no new snapshot,
keeps it. -/
theorem congr (hi : PipelineInv p acked) (hb : batchLasts p'.applyMsgs = batchLasts p.applyMsgs)
    (ha : p'.peerStorage.applyState = p.peerStorage.applyState)
    (hl : p'.lastApplyingIdx = p.lastApplyingIdx)
    (hs : p'.isApplyingSnapshot = true → p.isApplyingSnapshot = true) : PipelineInv p' acked := by
  have hp : pending p' acked = pending p acked := by simp only [pending, hb]
  have happ : p'.peerStorage.appliedIndex = p.peerStorage.appliedIndex := by
    simp only [PeerStorage.appliedIndex, ha]
  exact ⟨hb ▸ hi.acked_le, hp ▸ hi.sorted, hp ▸ happ ▸ hi.applied_lt, hp ▸ hl ▸ hi.le_applying,
    hp ▸ happ ▸ hl ▸ hi.last_eq, fun h => hp ▸ hi.drained (hs h)⟩

/-- With nothing in flight and the applying index at the applied index, the invariant holds. -/
theorem of_pending_nil (hk : acked ≤ (batchLasts p.applyMsgs).length) (hp : pending p acked = [])
    (hl : p.lastApplyingIdx = p.peerStorage.appliedIndex) : PipelineInv p acked where
  acked_le := hk
  sorted := hp ▸ .nil
  applied_lt := by simp [hp]
  le_applying := by simp [hp]
  last_eq := by simp [hp, hl]
  drained := fun _ => hp

/-- The append stage keeps the invariant. -/
theorem of_appended (hi : PipelineInv p acked) (h : Peer.Appended p p') : PipelineInv p' acked := by
  obtain ⟨a, g, li, c, s, l, lc, t, pm, ms, rfl, ha, hms⟩ := h
  exact hi.congr (batchLasts_append_of_none _ fun m hm => by rw [hms m hm]; rfl) rfl rfl ha

/-- Handing over a batch that ends above the applying index, and moving the applying index to
its end, keeps the invariant. -/
theorem handOver (hi : PipelineInv p acked) {last : Nat}
    (hb : batchLasts p'.applyMsgs = batchLasts p.applyMsgs ++ [last])
    (ha : p'.peerStorage.applyState = p.peerStorage.applyState)
    (hl : p'.lastApplyingIdx = last) (hlt : p.lastApplyingIdx < last)
    (hs : p'.isApplyingSnapshot = false) : PipelineInv p' acked := by
  have hp : pending p' acked = pending p acked ++ [last] := by
    rw [pending, hb, List.drop_append_of_le_length hi.acked_le]; rfl
  have happ : p'.peerStorage.appliedIndex = p.peerStorage.appliedIndex := by
    simp only [PeerStorage.appliedIndex, ha]
  have hle := hi.applied_le
  refine ⟨by simp only [hb, List.length_append]; have := hi.acked_le; omega, ?_, ?_, ?_, ?_,
    by simp [hs]⟩
  · rw [hp, List.pairwise_append]
    refine ⟨hi.sorted, List.pairwise_singleton _ _, fun b hb c hc => ?_⟩
    rw [List.mem_singleton.1 hc]
    exact Nat.lt_of_le_of_lt (hi.le_applying b hb) hlt
  · simp only [hp, happ, List.mem_append, List.mem_singleton]
    rintro b (hb | rfl)
    · exact hi.applied_lt b hb
    · omega
  · simp only [hp, hl, List.mem_append, List.mem_singleton]
    rintro b (hb | rfl)
    · exact Nat.le_of_lt (Nat.lt_of_le_of_lt (hi.le_applying b hb) hlt)
    · exact Nat.le_refl _
  · rw [hp, List.getLast?_concat, hl]; rfl

/-- A `PostApply` that reports an applied index up to the first pending batch's end keeps the
invariant, the batch being acknowledged when the index reaches its end. -/
theorem acknowledge (hi : PipelineInv p acked) {b : Nat} {rest : List Nat}
    (hpend : pending p acked = b :: rest) (hab : p'.peerStorage.appliedIndex ≤ b)
    (hb : batchLasts p'.applyMsgs = batchLasts p.applyMsgs)
    (hl : p'.lastApplyingIdx = p.lastApplyingIdx) (hs : p'.isApplyingSnapshot = false) :
    PipelineInv p' (if b = p'.peerStorage.appliedIndex then acked + 1 else acked) := by
  have hsorted := hpend ▸ hi.sorted
  have hlast := hpend ▸ hi.last_eq
  rw [List.getLast?_cons, Option.getD_some] at hlast
  have hmem : ∀ c ∈ rest, c ∈ pending p acked := fun c hc => hpend ▸ List.mem_cons_of_mem b hc
  split
  · -- the batch is acknowledged: the ones after it stay pending
    rename_i hba
    have hp : pending p' (acked + 1) = rest := by
      rw [pending, hb, ← List.tail_drop]; exact congrArg List.tail hpend
    have hk : acked + 1 ≤ (batchLasts p'.applyMsgs).length := by
      have := congrArg List.length hpend
      simp only [pending, List.length_drop, List.length_cons] at this
      rw [hb]; omega
    refine ⟨hk, hp ▸ hsorted.of_cons, fun c hc => ?_, fun c hc => ?_, ?_, by simp [hs]⟩
    · rw [hp] at hc; rw [← hba]; exact List.rel_of_pairwise_cons hsorted hc
    · rw [hp] at hc; rw [hl]; exact hi.le_applying c (hmem c hc)
    · rw [hp, hl, ← hlast, hba]
  · -- the batch is still in flight
    rename_i hba
    have hp : pending p' acked = b :: rest := by rw [pending, hb]; exact hpend
    refine ⟨hb ▸ hi.acked_le, hp ▸ hsorted, fun c hc => ?_, fun c hc => ?_, ?_, by simp [hs]⟩
    · rw [hp] at hc
      rcases List.mem_cons.1 hc with rfl | hc
      · omega
      · exact Nat.lt_of_le_of_lt hab (List.rel_of_pairwise_cons hsorted hc)
    · rw [hp] at hc; rw [hl]; exact hi.le_applying c (hpend ▸ hc)
    · rw [hp, List.getLast?_cons, Option.getD_some, hl, hlast]

end PipelineInv

/-! ## The ready cycle and `PostApply` -/

namespace Peer

variable {p p' : Peer}

/-- The append stage leaves the pipeline and the apply state alone. -/
theorem Appended.pipeline (h : Appended p p') :
    batchLasts p'.applyMsgs = batchLasts p.applyMsgs ∧
      p'.peerStorage.applyState = p.peerStorage.applyState ∧
      p'.lastApplyingIdx = p.lastApplyingIdx := by
  obtain ⟨a, g, li, c, s, l, lc, t, pm, ms, rfl, -, hms⟩ := h
  exact ⟨batchLasts_append_of_none _ fun m hm => by rw [hms m hm]; rfl, rfl, rfl⟩

/-- `HandleRaftReadyApply` hands the committed entries over, unless a snapshot is applied, and
sets the applying index; it leaves the storage alone. -/
theorem handleRaftReadyApply_pipeline {rd : Ready} {now : Time}
    (h : p.handleRaftReadyApply rd now = .ok p') :
    batchLasts p'.applyMsgs = batchLasts p.applyMsgs ++
      (if p.isApplyingSnapshot then [] else (rd.committedEntries.getLast?.map (·.index)).toList) ∧
    p'.peerStorage = p.peerStorage ∧
    p'.lastApplyingIdx = if p.isApplyingSnapshot then p.peerStorage.truncatedIndex
      else (rd.committedEntries.getLast?.map (·.index)).getD p.lastApplyingIdx := by
  obtain ⟨p1, ⟨q, h', l, c, u, s, rfl⟩, heq⟩ := handleRaftReadyApply_eq p rd now
  rw [heq] at h
  obtain ⟨p2, h2, rfl⟩ := except_map_eq_ok.1 h
  obtain ⟨rs, l', c', rfl, -⟩ := applyReads_ok h2
  refine ⟨?_, rfl, rfl⟩
  cases p.isApplyingSnapshot
  · cases hl : rd.committedEntries.getLast? <;> simp [hl, batchLasts, ApplyMsg.batchLast]
  · simp

/-- The append stage of a cycle that takes a ready: the gate on a pending snapshot held, no
snapshot is applied, and the ready handed on is the library's, with its committed entries and
its snapshot. -/
theorem appendStage_some {trans : Transport} {env : AppendEnv} {p1 : Peer} {rd1 : Ready}
    {ctx : InvokeContext} (h : p.handleRaftReadyAppend trans env = (p1, some (rd1, ctx))) :
    ∃ rd, env.ready = some rd ∧ (p.hasPendingSnapshot = true → p.readyToHandlePendingSnap = true) ∧
      p1.isApplyingSnapshot = false ∧ rd1.committedEntries = rd.committedEntries ∧
      ctx = ⟨rd.snapshot⟩ := by
  obtain ⟨hcheck, hgate, rd, hrd, rfl, rfl, rfl⟩ := handleRaftReadyAppend_eq_some h
  refine ⟨rd, hrd, hgate, ?_, by split <;> rfl, rfl⟩
  -- the snapshot state is settled, and appending keeps it so
  have hc : (p.peerStorage.checkApplyingSnap env.snapFinished).2.applying = false := by
    revert hcheck; unfold PeerStorage.checkApplyingSnap; split_ifs <;> simp_all
  obtain ⟨a, g, li, c, s, l, lc, t, pm, ms, hp1, ha, -⟩ :=
    (flushPendingMessages_appended _ trans env.now).trans
      ((scheduleGenSnapTask_appended _).trans (appendReady_appended _ trans rd env.now))
  rw [hp1]
  cases a
  · rfl
  · exact absurd (ha rfl) (by simp [hc])

/-- `PostApply` records the apply state and keeps the pipeline; it succeeds only when no
snapshot is applied. -/
theorem postApply_pipeline {applyState : ApplyState} {appliedIndexTerm : Nat} {merged : Bool}
    {metrics : ApplyMetrics} {hasReady : Bool}
    (h : p.postApply applyState appliedIndexTerm merged metrics = .ok (p', hasReady)) :
    p.isApplyingSnapshot = false ∧ p'.applyMsgs = p.applyMsgs ∧
      p'.peerStorage.applyState = applyState ∧ p'.lastApplyingIdx = p.lastApplyingIdx ∧
      p'.isApplyingSnapshot = false := by
  obtain ⟨hs, p2, a, h2, rfl⟩ := postApply_ok h
  rcases answerConfirmedReads_ok h2 with ⟨rfl, -⟩ | ⟨rs, rfl, -⟩ <;> exact ⟨hs, rfl, rfl, rfl, hs⟩

/-- Draining the confirmed reads panics only on a nil read or in `Execute`. -/
theorem drainReadyReads_error_cases {n : Nat} {e : String} (h : p.drainReadyReads n = .error e) :
    e = "read is nil, this should not happen" ∨ e = "unreachable" := by
  induction n generalizing p with
  | zero => cases h
  | succ n ih =>
    simp only [drainReadyReads] at h
    split at h
    · cases h; exact .inl rfl
    · split at h
      · cases h; exact .inr (answerReads_error ‹_›)
      · exact ih h

/-- **`PostApply` panics on an applied snapshot, and only there.** -/
theorem postApply_eq_error_applying_iff {applyState : ApplyState} {appliedIndexTerm : Nat}
    {merged : Bool} {metrics : ApplyMetrics} :
    p.postApply applyState appliedIndexTerm merged metrics = .error "should not applying snapshot" ↔
      p.isApplyingSnapshot = true := by
  unfold postApply
  split
  · exact ⟨fun _ => ‹_›, fun _ => rfl⟩
  · rename_i hs
    refine ⟨fun h => ?_, fun h => absurd h hs⟩
    rcases except_bind_eq_error.1 h with h | ⟨_, -, h⟩
    · unfold answerConfirmedReads at h
      split at h
      · rcases drainReadyReads_error_cases (except_map_eq_error.1 h) with h | h <;> simp at h
      · cases h
    · cases h

end Peer

namespace PipelineInv

variable {p p' : Peer} {acked : Nat}

/-- A ready cycle keeps the invariant. The snapshot it may persist finds no batch in flight, by
the gate of `HandleRaftReadyAppend`; the batch it may hand over ends above the applying index,
by `ReadySince`. -/
theorem readyCycle {trans : Transport} {env : AppendEnv} (hi : PipelineInv p acked)
    (hrs : ∀ rd, env.ready = some rd → ReadySince p rd) (h : p.readyCycle trans env = .ok p') :
    PipelineInv p' acked := by
  have happ := Peer.handleRaftReadyAppend_appended p trans env
  unfold Peer.readyCycle at h
  rcases hres : p.handleRaftReadyAppend trans env with ⟨p1, _ | ⟨rd1, ctx⟩⟩ <;>
    rw [hres] at h happ <;> dsimp only at h happ
  · cases h
    exact hi.of_appended happ
  obtain ⟨rd, hrd, hgate, hs1, hce, rfl⟩ := Peer.appendStage_some hres
  obtain ⟨hlast, hsnap⟩ := hrs rd hrd
  obtain ⟨hb1, -, hl1⟩ := happ.pipeline
  have hi1 := hi.of_appended happ
  obtain ⟨⟨p2, rd2, r⟩, h2, h⟩ := except_bind_eq_ok.1 h
  obtain ⟨-, hrd2, meta, c, s, l, ms, rfl, hms⟩ := Peer.postRaftReadyPersistent_eq h2
  obtain ⟨hb', hps', hl'⟩ := Peer.handleRaftReadyApply_pipeline h
  have hb2 : batchLasts (p1.applyMsgs ++ ms) = batchLasts p1.applyMsgs :=
    batchLasts_append_of_none _ fun m hm => by obtain ⟨a, b, rfl⟩ := hms m hm; rfl
  have hce2 : rd2.committedEntries = rd.committedEntries := by rw [hrd2, ← hce]; split <;> rfl
  cases hs : rd.snapshot with
  | some snap =>
    -- the snapshot is persisted with nothing in flight, and is being applied
    have hnil : pending p acked = [] := hi.pending_eq_nil (by
      simpa [Peer.readyToHandlePendingSnap] using hgate (hsnap (by simp [hs])))
    simp only [hs, PeerStorage.postReadyPersistent, Peer.isApplyingSnapshot, if_true,
      List.append_nil] at hb' hps' hl'
    refine of_pending_nil (by rw [hb', hb2, hb1]; exact hi.acked_le) ?_ ?_
    · simpa only [pending, hb', hb2, hb1] using hnil
    · rw [hl', PeerStorage.appliedIndex, PeerStorage.truncatedIndex, hps']
  | none =>
    -- the committed entries are handed over as one batch above the applying index
    have hs1' : p1.peerStorage.applying = false := hs1
    simp only [hs, PeerStorage.postReadyPersistent, Peer.isApplyingSnapshot, hs1',
      Bool.false_eq_true, if_false, hce2, hb2] at hb' hps' hl'
    have hs' : p'.isApplyingSnapshot = false := by rw [Peer.isApplyingSnapshot, hps', hs1']
    cases he : rd.committedEntries.getLast? with
    | none =>
      simp only [he, Option.map_none', Option.toList_none, List.append_nil,
        Option.getD_none] at hb' hl'
      exact hi1.congr hb' (by rw [hps']) hl' (by simp [hs'])
    | some e =>
      simp only [he, Option.map_some', Option.toList_some, Option.getD_some] at hb' hl'
      exact hi1.handOver hb' (by rw [hps']) hl'
        (hl1 ▸ hlast e (List.mem_of_getLast?_eq_some he)) hs'

end PipelineInv

/-! ## Runs -/

/-- The environment of the pipeline, for one action at a peer whose first `acked` batches are
acknowledged: a ready is `ReadySince` the peer, and `PostApply` reports an applied index up to
the first pending batch's end. -/
def ApplyEnv (p : Peer) (acked : Nat) : Action → Prop
  | .readyCycle env => ∀ rd, env.ready = some rd → ReadySince p rd
  | .postApply applyState _ _ _ =>
    ∃ b, (pending p acked).head? = some b ∧ applyState.appliedIndex ≤ b
  | _ => True

/-- The batches acknowledged after an action: `PostApply` acknowledges the first pending batch
when it reports the batch's end. -/
def ackedAfter (p : Peer) (acked : Nat) : Action → Nat
  | .postApply applyState _ _ _ =>
    if (pending p acked).head? = some applyState.appliedIndex then acked + 1 else acked
  | _ => acked

section Run

variable (cfg : Config) (codec : Codec) (trans : Transport)

/-- The runs of the peer in the pipeline's environment, from a peer with nothing handed to the
apply worker, each with the number of batches acknowledged. -/
inductive ApplyRun : Peer → Nat → Prop
  | init (p : Peer) : p.lastApplyingIdx = p.peerStorage.appliedIndex →
      batchLasts p.applyMsgs = [] → ApplyRun p 0
  | exec {p p' : Peer} {acked : Nat} (a : Action) : ApplyRun p acked → ApplyEnv p acked a →
      p.exec cfg codec trans a = .ok p' → ApplyRun p' (ackedAfter p acked a)

variable {cfg codec trans}

/-- Every action the environment allows keeps the invariant. -/
theorem PipelineInv.exec {p p' : Peer} {acked : Nat} {a : Action} (hi : PipelineInv p acked)
    (he : ApplyEnv p acked a) (h : p.exec cfg codec trans a = .ok p') :
    PipelineInv p' (ackedAfter p acked a) := by
  cases a with
  | step m now r =>
    cases h
    obtain ⟨hb, lm, he⟩ := p.step_eq m now r
    exact he ▸ hi.congr rfl rfl rfl id
  | propose cb rlog errResp env =>
    obtain ⟨⟨p1, b⟩, h1, rfl⟩ := except_map_eq_ok.1 h
    obtain ⟨r, l, q, ap, pr, d, u, rfl⟩ := Peer.propose_proposed h1
    exact hi.congr rfl rfl rfl id
  | readyCycle env => exact hi.readyCycle he h
  | postApply applyState appliedIndexTerm merged metrics =>
    obtain ⟨⟨p1, hasReady⟩, h1, rfl⟩ := except_map_eq_ok.1 h
    obtain ⟨b, hhead, hab⟩ := he
    obtain ⟨rest, hpend⟩ : ∃ rest, pending p acked = b :: rest := by
      cases hp : pending p acked with
      | nil => rw [hp] at hhead; cases hhead
      | cons b' rest => rw [hp] at hhead; cases hhead; exact ⟨rest, rfl⟩
    obtain ⟨-, hm, ha, hl, hs⟩ := Peer.postApply_pipeline h1
    have hi' := hi.acknowledge hpend (by rw [← ha] at hab; exact hab) (by rw [hm]) hl hs
    simp only [ackedAfter, hhead, Option.some.injEq]
    rwa [PeerStorage.appliedIndex, ha] at hi'
  | takeApplyProposals =>
    cases h
    exact (p.takeApplyProposals_eq).symm ▸ hi.congr rfl rfl rfl id
  | maybeDestroy cancelled =>
    cases h
    obtain ⟨a, r, i, he, ha⟩ := p.maybeDestroy_eq cancelled
    exact he ▸ hi.congr rfl rfl rfl ha
  | destroy keepData =>
    cases h
    exact hi.congr rfl rfl rfl id
  | setRegion region =>
    cases h
    obtain ⟨l, c, he⟩ := p.setRegion_eq region
    exact he ▸ hi.congr rfl rfl rfl id
  | checkPeers now =>
    cases h
    obtain ⟨hb, he⟩ := p.checkPeers_eq now
    exact he ▸ hi.congr rfl rfl rfl id

/-- Every run keeps the invariant. -/
theorem applyRun_inv {p : Peer} {acked : Nat} (h : ApplyRun cfg codec trans p acked) :
    PipelineInv p acked := by
  induction h with
  | init p hl hb => exact .of_pending_nil (by simp [hb]) (by simp [pending, hb]) hl
  | exec a _ he hx ih => exact ih.exec he hx

/-- **The apply pipeline is safe against snapshots.** In every run: the applying index never
falls behind the applied index; when the append stage hands on a ready to be persisted with a
snapshot, the peer is ready for it (`LastApplyingIdx == AppliedIndex`) and no batch is in
flight; and while a batch is in flight, so that the apply worker may call `PostApply`, no
snapshot is applied and `PostApply` does not panic with "should not applying snapshot". -/
theorem apply_pipeline_safe {p : Peer} {acked : Nat} (h : ApplyRun cfg codec trans p acked) :
    p.peerStorage.appliedIndex ≤ p.lastApplyingIdx ∧
    (∀ env, ApplyEnv p acked (.readyCycle env) → ∀ p1 rd ctx,
      p.handleRaftReadyAppend trans env = (p1, some (rd, ctx)) → ctx.snapshot.isSome →
      p.readyToHandlePendingSnap = true ∧ pending p acked = []) ∧
    (pending p acked ≠ [] → p.isApplyingSnapshot = false ∧
      ∀ applyState appliedIndexTerm merged metrics,
        p.postApply applyState appliedIndexTerm merged metrics ≠ .error "should not applying snapshot") := by
  have hi := applyRun_inv h
  refine ⟨hi.applied_le, fun env he p1 rd ctx ha hs => ?_, fun hp => ?_⟩
  · obtain ⟨rd0, hrd, hgate, -, -, rfl⟩ := Peer.appendStage_some ha
    have hready := hgate ((he rd0 hrd).2 hs)
    exact ⟨hready, hi.pending_eq_nil (beq_iff_eq.1 hready)⟩
  · have hs : p.isApplyingSnapshot = false := by
      cases hs : p.isApplyingSnapshot
      · rfl
      · exact absurd (hi.drained hs) hp
    exact ⟨hs, fun _ _ _ _ he => by rw [Peer.postApply_eq_error_applying_iff, hs] at he; cases he⟩

/-- A ready that commits entry `i` of term 1. -/
def commitEntry (i : Nat) : Ready :=
  { softState := none, entries := [⟨.entryNormal, 1, i, [], []⟩], snapshot := none,
    committedEntries := [⟨.entryNormal, 1, i, [], []⟩], messages := [], readStates := [] }

/-- The peer `NewPeer` creates hands the batches ending at 6 and at 7 to the apply worker in two
ready cycles, and `PostApply` acknowledges the first: the theorem holds at the end of that run,
with the second batch pending. -/
theorem apply_pipeline_safe_commitEntry :
    ∃ p1 p2 q : Peer,
      samplePeer.readyCycle sampleTransport ⟨1, false, some (commitEntry 6)⟩ = .ok p1 ∧
      p1.readyCycle sampleTransport ⟨2, false, some (commitEntry 7)⟩ = .ok p2 ∧
      (p2.postApply ⟨6, 5, 1⟩ 1 false ⟨0, 0, 0, 0⟩).map Prod.fst = .ok q ∧
      pending q 1 = [7] ∧ q.peerStorage.appliedIndex = 6 ∧
      q.peerStorage.appliedIndex ≤ q.lastApplyingIdx ∧
      (∀ env, ApplyEnv q 1 (.readyCycle env) → ∀ p1 rd ctx,
        q.handleRaftReadyAppend sampleTransport env = (p1, some (rd, ctx)) → ctx.snapshot.isSome →
        q.readyToHandlePendingSnap = true ∧ pending q 1 = []) ∧
      (pending q 1 ≠ [] → q.isApplyingSnapshot = false ∧
        ∀ applyState appliedIndexTerm merged metrics,
          q.postApply applyState appliedIndexTerm merged metrics ≠ .error "should not applying snapshot") :=
  ⟨_, _, _, rfl, rfl, rfl, rfl, rfl, apply_pipeline_safe <|
    (((@ApplyRun.init sampleConfig sampleCodec sampleTransport samplePeer rfl rfl).exec
      (.readyCycle ⟨1, false, some (commitEntry 6)⟩) (fun _ h => by cases h; exact ⟨by decide, by decide⟩)
      rfl).exec (.readyCycle ⟨2, false, some (commitEntry 7)⟩)
      (fun _ h => by cases h; exact ⟨by decide, by decide⟩) rfl).exec
      (.postApply ⟨6, 5, 1⟩ 1 false ⟨0, 0, 0, 0⟩) ⟨6, rfl, le_refl 6⟩ rfl⟩

end Run

end RaftStore
