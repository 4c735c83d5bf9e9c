import Mathlib.Data.List.Nodup
import RaftStore.ReadQueue

/-!
# RaftStore.Callbacks

What becomes of the callbacks handed to `Propose` (spec §4.8): each is completed at most once,
and until then it is held in exactly one place — the commands of one read-index request, the
proposals waiting for the apply worker (`applyProposals`), or a batch that `takeApplyProposals`
has returned.

A callback a caller hands in is `Callback.handed id`; `.internal` is one the peer makes with
`NewCallback()` for its own empty proposal, and nobody waits on it. `Peer.callbacks` lists every
callback the peer holds or has completed. `Propose` adds the callback it is handed to that list,
with internal ones; every other operation permutes it, so what leaves the read queue or
`applyProposals` lands in `done`.

* `propose_callbacks`, `handleRaftReadyApply_callbacks`, `postApply_callbacks`,
  `takeApplyProposals_callbacks`, `destroy_callbacks` — one accounting lemma per operation;
* `callbackRun_accounted` — the accounting holds over every run;
* `callbacks_completed_once` — so every handed callback is completed at most once and held in
  exactly one place until then, and `Destroy` completes every one the peer holds.
-/

set_option autoImplicit false

namespace RaftStore

/-- A callback some caller waits on. -/
def Callback.isHanded : Callback → Bool
  | .handed _ => true
  | .internal => false

/-- The callbacks of the batch `takeApplyProposals` returns. -/
def batchCallbacks (batch : Option RegionProposal) : List Callback :=
  (batch.map fun rp => rp.props.map (·.cb)).getD []

/-- Moving one element from the middle of a list to its end is a permutation. -/
theorem perm_append_singleton_middle {α : Type} (l₁ l₂ : List α) (a : α) :
    (l₁ ++ [a] ++ l₂).Perm (l₁ ++ l₂ ++ [a]) := by
  simpa using List.perm_middle.trans (List.perm_append_singleton a (l₁ ++ l₂)).symm

namespace Peer

variable {p p' : Peer} {cfg : Config} {codec : Codec} {cb : Callback}

/-- The callbacks the peer holds — those of the queued reads, then those of the proposals
waiting for the apply worker — followed by those it has completed. -/
def callbacks (p : Peer) : List Callback :=
  readCallbacks p.pendingReads.reads ++ p.applyProposals.map (·.cb) ++ p.done.map Prod.fst

/-! ## Completing and handing on -/

@[simp] theorem complete_callbacks (p : Peer) (cb : Callback) (resp : RaftCmdResponse) :
    (p.complete cb resp).callbacks = p.callbacks ++ [cb] := by
  simp [callbacks, complete]

theorem postPropose_callbacks (p : Peer) (meta : ProposalMeta) (isConfChange : Bool)
    (cb : Callback) (now : Time) :
    (p.postPropose meta isConfChange cb now).callbacks.Perm (p.callbacks ++ [cb]) := by
  simpa [callbacks, postPropose] using perm_append_singleton_middle
    (readCallbacks p.pendingReads.reads ++ p.applyProposals.map (·.cb)) (p.done.map Prod.fst) cb

/-- `Inspect` only touches the lease. -/
@[simp] theorem inspect_callbacks (p : Peer) (rlog : RaftLog) (now : Time) :
    (p.inspect rlog now).2.callbacks = p.callbacks := by
  obtain ⟨l, hl⟩ := inspect_eq p rlog now
  rw [hl]
  rfl

theorem readLocal_callbacks {req : RaftCmdRequest} (h : p.readLocal req cb = .ok p') :
    p'.callbacks = p.callbacks ++ [cb] := by
  obtain ⟨resp, -, rfl⟩ := except_map_eq_ok.1 h
  exact complete_callbacks p cb resp

theorem proposeTransferLeader_callbacks {req : RaftCmdRequest} {now : Time} {b : Bool}
    (h : p.proposeTransferLeader cfg req cb now = .ok (p', b)) :
    p'.callbacks = p.callbacks ++ [cb] := by
  unfold proposeTransferLeader at h
  split at h
  · cases h
  · cases h
    rw [complete_callbacks]
    split <;> rfl

/-- The end of `Propose` answers the callback or hands it to `applyProposals`, when what it
proposed left the callbacks alone. -/
theorem finishPropose_callbacks {errResp : RaftCmdResponse} {isUrgent isConfChange : Bool}
    {now : Time} {b : Bool} {res : Except String (Except RaftError (Nat × Peer))}
    (hres : ∀ i p2, res = .ok (.ok (i, p2)) → p2.callbacks = p.callbacks)
    (h : p.finishPropose cb errResp isUrgent isConfChange now res = .ok (p', b)) :
    p'.callbacks.Perm (p.callbacks ++ [cb]) := by
  match res, h with
  | .ok (.error _), h =>
    cases h
    rw [complete_callbacks]
  | .ok (.ok (i, p2)), h =>
    cases h
    refine (postPropose_callbacks _ _ _ _ _).trans ?_
    rw [← hres i p2 rfl]
    split <;> rfl

/-- `readIndex` answers the callback, adds it to a queued request, or queues it in a new
request, possibly behind an internal proposal. -/
theorem readIndex_callbacks {req : RaftCmdRequest} {errResp : RaftCmdResponse} {env : ProposeEnv}
    {b : Bool} (h : p.readIndex cfg codec req errResp cb env = .ok (p', b)) :
    ∃ extra, (∀ c ∈ extra, c = .internal) ∧ p'.callbacks.Perm (p.callbacks ++ cb :: extra) := by
  rcases readIndex_cases h with ⟨resp, rfl⟩ | ⟨init, read, hreads, rfl⟩ | hnew
  · exact ⟨[], by simp, by simp⟩
  · refine ⟨[], by simp, ?_⟩
    simpa [callbacks, hreads] using perm_append_singleton_middle
      (readCallbacks init ++ read.cmds.map (·.cb))
      (p.applyProposals.map (·.cb) ++ p.done.map Prod.fst) cb
  · rcases newReadIndexRound_cases hnew with ⟨resp, rfl⟩ | ⟨r, props, pq, rfl, -, -, -, hint⟩
    · exact ⟨[], by simp, by rw [complete_callbacks]; exact List.Perm.refl _⟩
    · refine ⟨props.map (·.cb), by simpa using hint, List.perm_iff_count.2 fun c => ?_⟩
      simp [callbacks, List.count_append, List.count_cons]
      omega

/-- **`Propose` adds its callback.** On a peer not being removed, a successful `Propose` adds
the callback it is handed to the peer's callbacks, with none but internal ones besides. -/
theorem propose_callbacks {rlog : RaftLog} {errResp : RaftCmdResponse} {env : ProposeEnv}
    {b : Bool} (hr : p.pendingRemove = false)
    (h : p.propose cfg codec cb rlog errResp env = .ok (p', b)) :
    ∃ extra, (∀ c ∈ extra, c = .internal) ∧ p'.callbacks.Perm (p.callbacks ++ cb :: extra) := by
  have hp1 := inspect_callbacks p rlog env.now
  unfold propose at h
  simp only [hr, Bool.false_eq_true, if_false] at h
  generalize p.inspect rlog env.now = res at h hp1
  obtain ⟨⟨policy, err⟩, p1⟩ := res
  dsimp only at h hp1
  rw [← hp1]
  have single : p'.callbacks.Perm (p1.callbacks ++ [cb]) →
      ∃ extra, (∀ c ∈ extra, c = .internal) ∧ p'.callbacks.Perm (p1.callbacks ++ cb :: extra) :=
    fun hp => ⟨[], by simp, by simpa using hp⟩
  split at h
  · cases h
    exact single (by rw [complete_callbacks])
  · split at h
    · obtain ⟨p2, h2, h⟩ := except_map_eq_ok.1 h
      cases h
      exact single (by rw [readLocal_callbacks h2])
    · exact readIndex_callbacks h
    · refine single (finishPropose_callbacks (fun i p2 hres => ?_) h)
      obtain ⟨_, _, -, hp2⟩ := proposeNormal_ok hres
      rw [hp2]
      rfl
    · exact single (by rw [proposeTransferLeader_callbacks h])
    · refine single (finishPropose_callbacks (fun i p2 hres => ?_) h)
      obtain ⟨_, rfl⟩ := proposeConfChange_ok hres
      rfl
    · exact single (finishPropose_callbacks (fun i p2 hres => by cases hres; rfl) h)
    · cases h

/-! ## The ready cycle, the apply worker and destruction -/

/-- `HandleRaftReadyApply` completes exactly the reads it removes. -/
theorem handleRaftReadyApply_callbacks {rd : Ready} {now : Time}
    (h : p.handleRaftReadyApply rd now = .ok p') : p'.callbacks.Perm p.callbacks := by
  obtain ⟨p1, ⟨q, h', l, c, u, s, rfl⟩, heq⟩ := handleRaftReadyApply_eq p rd now
  rw [heq] at h
  obtain ⟨p2, h2, rfl⟩ := except_map_eq_ok.1 h
  obtain ⟨rs, l', c', rfl, hperm⟩ := applyReads_ok h2
  refine List.perm_iff_count.2 fun cb => ?_
  have := hperm.count_eq cb
  simp only [callbacks, List.count_append, List.map_append] at this ⊢
  omega

/-- `PostApply` completes exactly the confirmed reads it answers. -/
theorem postApply_callbacks {applyState : ApplyState} {appliedIndexTerm : Nat} {merged : Bool}
    {metrics : ApplyMetrics} {hasReady : Bool}
    (h : p.postApply applyState appliedIndexTerm merged metrics = .ok (p', hasReady)) :
    p'.callbacks.Perm p.callbacks := by
  obtain ⟨-, p2, c, h2, rfl⟩ := postApply_ok h
  rcases answerConfirmedReads_ok h2 with ⟨rfl, -⟩ | ⟨rs, rfl, hrs⟩
  · rfl
  · refine List.perm_iff_count.2 fun cb => ?_
    have := congrArg (List.count cb) (readCallbacks_take_append_drop
      p.pendingReads.readyCnt p.pendingReads.reads)
    simp only [callbacks, recordApplyState, List.count_append, List.map_append, hrs] at this ⊢
    omega

/-- `takeApplyProposals` moves the waiting proposals' callbacks into the batch it returns. -/
theorem takeApplyProposals_callbacks (p : Peer) :
    (p.takeApplyProposals.1.callbacks ++ batchCallbacks p.takeApplyProposals.2).Perm
      p.callbacks := by
  unfold takeApplyProposals
  split
  · simp [batchCallbacks]
  · refine List.perm_iff_count.2 fun cb => ?_
    simp [callbacks, batchCallbacks, List.count_append, *]
    omega

/-- `Destroy` completes every callback the peer holds. -/
theorem destroy_callbacks (p : Peer) (keepData : Bool) :
    (p.destroy keepData).callbacks = p.done.map Prod.fst ++
      (readCallbacks p.pendingReads.reads ++ p.applyProposals.map (·.cb)) := by
  simp [callbacks, destroy, Function.comp_def]

theorem destroy_callbacks_perm (p : Peer) (keepData : Bool) :
    (p.destroy keepData).callbacks.Perm p.callbacks := by
  rw [destroy_callbacks]
  exact List.perm_append_comm

end Peer

/-! ## Runs -/

/-- The runs the accounting covers, with the callbacks of the batches taken so far (`taken`)
and the callbacks handed to `Propose`, in order (`handed`): from a peer with no reads, no
waiting proposals and nothing completed, any sequence of `Propose` with a fresh callback on a
peer not being removed, `HandleRaftReadyApply`, `PostApply`, `takeApplyProposals` and
`Destroy`. -/
inductive CallbackRun (cfg : Config) (codec : Codec) : Peer → List Callback → List Callback → Prop
  | init (p : Peer) : p.pendingReads.reads = [] → p.applyProposals = [] → p.done = [] →
      CallbackRun cfg codec p [] []
  | propose {p p' : Peer} {taken handed : List Callback} (id : Nat) (rlog : RaftLog)
      (errResp : RaftCmdResponse) (env : ProposeEnv) (b : Bool) :
      CallbackRun cfg codec p taken handed → p.pendingRemove = false →
      Callback.handed id ∉ handed →
      p.propose cfg codec (.handed id) rlog errResp env = .ok (p', b) →
      CallbackRun cfg codec p' taken (handed ++ [.handed id])
  | apply {p p' : Peer} {taken handed : List Callback} (rd : Ready) (now : Time) :
      CallbackRun cfg codec p taken handed → p.handleRaftReadyApply rd now = .ok p' →
      CallbackRun cfg codec p' taken handed
  | postApply {p p' : Peer} {taken handed : List Callback} (applyState : ApplyState)
      (appliedIndexTerm : Nat) (merged : Bool) (metrics : ApplyMetrics) (hasReady : Bool) :
      CallbackRun cfg codec p taken handed →
      p.postApply applyState appliedIndexTerm merged metrics = .ok (p', hasReady) →
      CallbackRun cfg codec p' taken handed
  | takeApplyProposals {p : Peer} {taken handed : List Callback} :
      CallbackRun cfg codec p taken handed →
      CallbackRun cfg codec p.takeApplyProposals.1
        (taken ++ batchCallbacks p.takeApplyProposals.2) handed
  | destroy {p : Peer} {taken handed : List Callback} (keepData : Bool) :
      CallbackRun cfg codec p taken handed → CallbackRun cfg codec (p.destroy keepData) taken handed

/-- The accounting: the handed callbacks among those the peer holds or has completed and those
taken are, up to order, exactly the handed ones, each handed once. -/
structure CallbacksAccounted (p : Peer) (taken handed : List Callback) : Prop where
  perm : ((p.callbacks ++ taken).filter Callback.isHanded).Perm handed
  nodup : handed.Nodup

section Accounting

variable {cfg : Config} {codec : Codec} {p p' : Peer} {taken taken' handed : List Callback}

/-- An operation that permutes what is held, completed or taken keeps the accounting. -/
theorem CallbacksAccounted.of_perm (hi : CallbacksAccounted p taken handed)
    (hp : (p'.callbacks ++ taken').Perm (p.callbacks ++ taken)) :
    CallbacksAccounted p' taken' handed :=
  ⟨(hp.filter _).trans hi.perm, hi.nodup⟩

/-- Adding a fresh handed callback and internal ones keeps the accounting. -/
theorem CallbacksAccounted.of_propose {id : Nat} {extra : List Callback}
    (hi : CallbacksAccounted p taken handed) (hfresh : Callback.handed id ∉ handed)
    (hint : ∀ c ∈ extra, c = .internal)
    (hp : p'.callbacks.Perm (p.callbacks ++ .handed id :: extra)) :
    CallbacksAccounted p' taken (handed ++ [.handed id]) := by
  have hextra : extra.filter Callback.isHanded = [] :=
    List.filter_eq_nil_iff.2 fun c hc => by simp [hint c hc, Callback.isHanded]
  refine ⟨?_, List.nodup_append.2 ⟨hi.nodup, List.nodup_singleton _, by simpa using hfresh⟩⟩
  have hp' : (p'.callbacks ++ taken).Perm (p.callbacks ++ taken ++ .handed id :: extra) :=
    List.perm_iff_count.2 fun c => by
      have := hp.count_eq c
      simp only [List.count_append, List.count_cons] at this ⊢
      omega
  refine (hp'.filter _).trans ?_
  simpa [List.filter_append, hextra, Callback.isHanded] using hi.perm.append_right [.handed id]

/-- Every state of a run keeps the accounting. -/
theorem callbackRun_accounted (h : CallbackRun cfg codec p taken handed) :
    CallbacksAccounted p taken handed := by
  induction h with
  | init p hr ha hd => exact ⟨by simp [Peer.callbacks, hr, ha, hd], List.nodup_nil⟩
  | propose id _ _ _ _ _ hr hfresh h ih =>
    obtain ⟨extra, hint, hp⟩ := Peer.propose_callbacks hr h
    exact ih.of_propose hfresh hint hp
  | apply _ _ _ h ih => exact ih.of_perm ((Peer.handleRaftReadyApply_callbacks h).append_right _)
  | postApply _ _ _ _ _ _ h ih => exact ih.of_perm ((Peer.postApply_callbacks h).append_right _)
  | @takeApplyProposals q _ _ _ ih =>
    refine ih.of_perm (List.perm_iff_count.2 fun c => ?_)
    have := (Peer.takeApplyProposals_callbacks q).count_eq c
    simp only [List.count_append] at this ⊢
    omega
  | destroy keepData _ ih => exact ih.of_perm ((Peer.destroy_callbacks_perm _ keepData).append_right _)

end Accounting

/-- **No callback is lost or completed twice.** In every state of a run, each callback handed to
`Propose` is, counting with multiplicity, either completed once and held nowhere, or not
completed and held in exactly one place: the commands of one queued read, the waiting
proposals, or a taken batch. And `Destroy` completes every handed callback that is not in a
taken batch. -/
theorem callbacks_completed_once {cfg : Config} {codec : Codec} {p : Peer}
    {taken handed : List Callback} (h : CallbackRun cfg codec p taken handed) :
    (∀ c ∈ handed,
      (readCallbacks p.pendingReads.reads ++ p.applyProposals.map (·.cb) ++ taken).count c +
        (p.done.map Prod.fst).count c = 1) ∧
    ∀ keepData, ∀ c ∈ handed, c ∉ taken → ((p.destroy keepData).done.map Prod.fst).count c = 1 := by
  have hcount : ∀ {q : Peer}, CallbackRun cfg codec q taken handed → ∀ c ∈ handed,
      (readCallbacks q.pendingReads.reads ++ q.applyProposals.map (·.cb) ++ taken).count c +
        (q.done.map Prod.fst).count c = 1 := by
    intro q hq c hc
    have hi := callbackRun_accounted hq
    have hh : c.isHanded = true := (List.mem_filter.1 (hi.perm.symm.subset hc)).2
    have : (q.callbacks ++ taken).count c = 1 :=
      (List.count_filter hh).symm.trans ((hi.perm.count_eq c).trans
        (List.count_eq_one_of_mem hi.nodup hc))
    simp only [Peer.callbacks, List.count_append] at this ⊢
    omega
  refine ⟨hcount h, fun keepData c hc hct => ?_⟩
  have := hcount (CallbackRun.destroy keepData h) c hc
  simpa [Peer.destroy, List.count_eq_zero_of_not_mem hct] using this

/-- A put on region 1 at epoch version 1. -/
def putRequest : RaftCmdRequest := { snapReadRequest with requests := [⟨.put⟩] }

/-- The peer `NewPeer` creates is handed a read, which it queues, then a put, which it proposes;
the store takes the put's callback with the apply batch: the theorem holds at the end of that
run, with the read's callback still held by the peer. -/
theorem callbacks_completed_once_readThenPut :
    ∃ p1 p2 : Peer,
      samplePeer.propose sampleConfig sampleCodec (.handed 1) (.request snapReadRequest)
        (errResp .staleCommand) ⟨0, true, .append⟩ = .ok (p1, true) ∧
      p1.propose sampleConfig sampleCodec (.handed 2) (.request putRequest)
        (errResp .staleCommand) ⟨0, true, .append⟩ = .ok (p2, true) ∧
      batchCallbacks p2.takeApplyProposals.2 = [.handed 2] ∧
      (∀ c ∈ [Callback.handed 1, .handed 2],
        (readCallbacks p2.takeApplyProposals.1.pendingReads.reads ++
          p2.takeApplyProposals.1.applyProposals.map Proposal.cb ++ [Callback.handed 2]).count c +
          (p2.takeApplyProposals.1.done.map Prod.fst).count c = 1) ∧
      ∀ keepData, ∀ c ∈ [Callback.handed 1, .handed 2], c ∉ [Callback.handed 2] →
        ((p2.takeApplyProposals.1.destroy keepData).done.map Prod.fst).count c = 1 :=
  ⟨_, _, rfl, rfl, rfl, callbacks_completed_once <|
    ((@CallbackRun.init sampleConfig sampleCodec samplePeer rfl rfl rfl).propose 1
      (.request snapReadRequest) (errResp .staleCommand) ⟨0, true, .append⟩ true rfl
      (List.not_mem_nil _) rfl).propose 2 (.request putRequest) (errResp .staleCommand)
      ⟨0, true, .append⟩ true rfl (by decide) rfl |>.takeApplyProposals⟩

end RaftStore
