import RaftStore.Frame
import RaftStore.System

/-!
# RaftStore.CommittedEntries

What a leader records while it hands committed entries to the apply worker (spec §4.8,
"Ready/apply cycle"): the proposal metas it consumes to renew its lease, and the indices of the
split and prepare-merge entries it commits in its term.

* `handleRaftReadyApply_keeps_committed_idx` — the source decodes the constant `[]byte{0}` where
  the entry's context belongs, so no entry is ever seen to carry a split or a prepare-merge, and
  neither index ever changes in `HandleRaftReadyApply`;
* `findIn_of_no_match` — `findProposeTime` pops metas by term alone, so looking up an entry that
  has no meta discards every meta of its term, later proposals' included;
* the concrete readies after them show both at a leader.
-/

set_option autoImplicit false

namespace RaftStore

/-! ## The split and prepare-merge indices -/

/-- **`HandleRaftReadyApply` records no split or merge.** Whatever the ready's committed entries
and their contexts, the last committed split and prepare-merge indices stay as they were. -/
theorem handleRaftReadyApply_keeps_committed_idx {p p' : Peer} {rd : Ready} {now : Time}
    (h : p.handleRaftReadyApply rd now = .ok p') :
    p'.lastCommittedSplitIdx = p.lastCommittedSplitIdx ∧
      p'.lastCommittedPrepareMergeIdx = p.lastCommittedPrepareMergeIdx := by
  obtain ⟨p1, ⟨q, h', l, c, u, s, rfl⟩, heq⟩ := Peer.handleRaftReadyApply_eq p rd now
  rw [heq] at h
  obtain ⟨p2, h2, rfl⟩ := except_map_eq_ok.1 h
  obtain ⟨rs, l', c', rfl, -⟩ := Peer.applyReads_ok h2
  exact ⟨rfl, rfl⟩

/-- The peer `NewPeer` creates, as the leader of term 1. -/
def sampleLeader : Peer := { samplePeer with raftGroup := { sampleNode with state := .leader } }

/-- A ready that commits one entry of term 1 at index 6, whose context marks a split. -/
def splitReady : Ready :=
  { softState := none, entries := [], snapshot := none, messages := [], readStates := []
    committedEntries := [{ entryType := .entryNormal, term := 1, index := 6, data := []
                           context := proposalContextSplit.toBytes }] }

/-- The leader that commits a split entry keeps its indices. -/
theorem handleRaftReadyApply_keeps_committed_idx_splitReady :
    ∃ p', sampleLeader.handleRaftReadyApply splitReady 0 = .ok p' ∧
      p'.lastCommittedSplitIdx = sampleLeader.lastCommittedSplitIdx ∧
      p'.lastCommittedPrepareMergeIdx = sampleLeader.lastCommittedPrepareMergeIdx :=
  ⟨_, rfl, @handleRaftReadyApply_keeps_committed_idx sampleLeader _ splitReady 0 rfl⟩

/-- The leader commits a split entry of its term at index 6, and its last committed split index
stays 0. -/
theorem handleRaftReadyApply_ignores_split_context :
    (splitReady.committedEntries.map fun e =>
        (e.term == sampleLeader.term,
          (newProposalContextFromBytes e.context).map (·.map (·.contains proposalContextSplit)))) =
      [(true, .ok (some true))] ∧
    (sampleLeader.handleRaftReadyApply splitReady 0).map (·.lastCommittedSplitIdx) = .ok 0 :=
  ⟨rfl, rfl⟩

/-! ## Consuming proposal metas -/

/-- Looking up an index and term that no meta of the queue has pops every meta up to the first of
a later term. -/
theorem findIn_of_no_match (index term : Nat) (l : List ProposalMeta)
    (h : ∀ m ∈ l, ¬(m.index = index ∧ m.term = term)) :
    ProposalQueue.findIn index term l = (none, l.dropWhile fun m => decide (m.term ≤ term)) := by
  induction l with
  | nil => rfl
  | cons m rest ih =>
    have hm := h m (List.mem_cons_self _ _)
    by_cases ht : m.term > term
    · simp [ProposalQueue.findIn, ht, Nat.not_le.2 ht]
    · simp only [ProposalQueue.findIn, ht, hm, if_false, List.dropWhile_cons,
        decide_eq_true (Nat.le_of_not_gt ht)]
      exact ih fun m' hm' => h m' (List.mem_cons_of_mem _ hm')

/-- Looking up index 6 in a queue that holds only the meta of index 7, both of term 1, pops it. -/
theorem findIn_of_no_match_later_meta :
    ProposalQueue.findIn 6 1 [⟨7, 1, some 4⟩] = (none, []) :=
  findIn_of_no_match 6 1 [⟨7, 1, some 4⟩] (by decide)

/-- The leader of term 1 with the metas of proposals at indices 6 and 7. -/
def twoMetaLeader : Peer :=
  { sampleLeader with proposals := ⟨[⟨6, 1, some 3⟩, ⟨7, 1, some 4⟩]⟩ }

/-- A ready that commits the election's empty entry at index 6, which has no meta. -/
def noopReady : Ready :=
  { softState := none, entries := [], snapshot := none, messages := [], readStates := []
    committedEntries := [{ entryType := .entryNormal, term := 1, index := 6, data := [], context := [] }] }

/-- A ready that commits the entries at indices 6 and 7, each with its meta. -/
def twoEntryReady : Ready :=
  { noopReady with
    committedEntries := [{ entryType := .entryNormal, term := 1, index := 6, data := [], context := [] },
                         { entryType := .entryNormal, term := 1, index := 7, data := [], context := [] }] }

/-- With the metas of 6 and 7 queued, committing only index 6 (taken as the empty entry, with no
meta of its own: the queue holds the meta of index 7 alone) empties the queue; committing 6 and 7
renews the lease from the meta of 6, to 3 + 10, and not from that of 7. -/
theorem handleRaftReadyApply_drops_later_meta :
    (({ twoMetaLeader with proposals := ⟨[⟨7, 1, some 4⟩]⟩ } : Peer).handleRaftReadyApply
        noopReady 0).map (·.proposals.queue) = .ok [] ∧
    (twoMetaLeader.handleRaftReadyApply twoEntryReady 0).map (·.leaderLease.bound) =
      .ok (.valid 13) :=
  ⟨rfl, rfl⟩

end RaftStore
