import RaftStore.System

/-!
# RaftStore.ConfChange

`checkConfChange` against what it is for (spec §4.8): a conf change is safe when, right after
it, a quorum of the group's voters is healthy, a node being healthy when its match reaches the
truncated index. The consensus library's `Status().Progress` also holds learners, and the source
counts them as it counts voters, both in the size of the group and among the healthy nodes.

* `confChangeAllowed` — the rule on voters alone, as the spec states it;
* `checkConfChange_eq_none_iff` — on a group without learners, `checkConfChange` accepts exactly
  the changes the rule allows;
* `checkConfChange_counts_learners` — with two healthy learners in the group, it accepts the
  removal of a voter that leaves one healthy voter out of two.
-/

set_option autoImplicit false

namespace RaftStore

/-- The voters of a progress map. -/
def voters (progress : List (Nat × Progress)) : List (Nat × Progress) :=
  progress.filter fun e => !e.2.isLearner

/-- The voters after a change applied to the voter set alone: `AddNode` promotes a learner and
keeps its match, or else adds a voter with match 0; `RemoveNode` removes a voter. -/
def votersAfterChange (progress : List (Nat × Progress)) (changeType : ConfChangeType)
    (peer : MetaPeer) : List (Nat × Progress) :=
  match changeType with
  | .addNode =>
    match mapGet progress peer.id with
    | some pr =>
      if pr.isLearner then mapSet (voters progress) peer.id { pr with isLearner := false }
      else mapSet (voters progress) peer.id emptyProgress
    | none => mapSet (voters progress) peer.id emptyProgress
  | .removeNode => mapDelete (voters progress) peer.id
  | .addLearnerNode => voters progress

namespace Peer

/-- The conf-change rule on voters: a change is safe in a group of one voter, when it removes a
learner or a node that is no voter, and when a quorum of the voters after it is healthy. -/
def confChangeAllowed (p : Peer) (changePeer : ChangePeerRequest) : Bool :=
  let progress := p.raftGroup.progress
  let after := votersAfterChange progress changePeer.changeType changePeer.peer
  (voters progress).length == 1 ||
    (changePeer.changeType == .removeNode &&
      (changePeer.peer.role == .learner || (mapGet (voters progress) changePeer.peer.id).isNone)) ||
    decide (quorum after.length ≤ p.countHealthyNode after)

section NoLearners

variable {progress : List (Nat × Progress)}

/-- Without learners, the voters are the whole map. -/
theorem voters_eq_self (hno : ∀ e ∈ progress, e.2.isLearner = false) : voters progress = progress :=
  List.filter_eq_self.2 fun e he => by simp [hno e he]

/-- Without learners, the source's simulated map is the voters after the change, unless the
change removes a learner or a node that is not in the group. -/
theorem progressAfterChange_of_no_learners (hno : ∀ e ∈ progress, e.2.isLearner = false)
    (changeType : ConfChangeType) (peer : MetaPeer)
    (htype : changeType = .addNode ∨ changeType = .removeNode) :
    progressAfterChange progress changeType peer =
      if changeType = .removeNode ∧
          (peer.role = .learner ∨ (mapGet progress peer.id).isNone = true) then none
      else some (votersAfterChange progress changeType peer) := by
  rcases htype with rfl | rfl
  · have hpr : ∀ pr, mapGet progress peer.id = some pr → pr.isLearner = false := by
      intro pr h
      obtain ⟨e, he, rfl⟩ := Option.map_eq_some'.1 h
      exact hno e (List.mem_of_find?_eq_some he)
    simp only [progressAfterChange, votersAfterChange, voters_eq_self hno]
    cases h : mapGet progress peer.id with
    | none => simp
    | some pr => simp [hpr pr h]
  · simp only [progressAfterChange, votersAfterChange, voters_eq_self hno]
    by_cases hl : peer.role = .learner
    · simp [hl]
    · cases h : mapGet progress peer.id <;> simp [hl, h]

end NoLearners

/-- **On a group without learners, `checkConfChange` is the rule.** For an `AddNode` or
`RemoveNode` request that passes the checks of the request's role and of the leader's removal,
`checkConfChange` returns nil exactly when the change is safe on the voters. -/
theorem checkConfChange_eq_none_iff {p : Peer} {cfg : Config} {cmd : RaftCmdRequest}
    {cp : ChangePeerRequest} (hcmd : getChangePeerCmd cmd = some cp)
    (htype : cp.changeType = .addNode ∨ cp.changeType = .removeNode)
    (hrole : ¬(cp.changeType = .addNode ∧ cp.peer.role = .learner))
    (hleader : ¬(cp.changeType = .removeNode ∧ cfg.allowRemoveLeader = false ∧ cp.peer.id = p.peerID))
    (hno : ∀ e ∈ p.raftGroup.progress, e.2.isLearner = false) :
    p.checkConfChange cfg cmd = .ok none ↔ p.confChangeAllowed cp = true := by
  have hafter := progressAfterChange_of_no_learners hno cp.changeType cp.peer htype
  have hchecks : ((cp.changeType == .addNode && cp.peer.role == .learner) ||
      (cp.changeType == .addLearnerNode && !(cp.peer.role == .learner))) = false ∧
      (cp.changeType == .removeNode && !cfg.allowRemoveLeader && cp.peer.id == p.peerID) = false := by
    rcases htype with h | h <;> simp_all
  unfold checkConfChange confChangeAllowed
  simp only [hcmd, hchecks, voters_eq_self hno, hafter, Bool.false_eq_true, if_false]
  by_cases h1 : p.raftGroup.progress.length = 1
  · simp [h1]
  by_cases hc : cp.changeType = .removeNode ∧
      (cp.peer.role = .learner ∨ (mapGet p.raftGroup.progress cp.peer.id).isNone = true)
  · -- the removal of a learner or of a node outside the group
    obtain ⟨ht, hr | hr⟩ := hc <;> simp [h1, ht, hr]
  · -- otherwise both count the healthy voters after the change
    have hb : (cp.changeType == .removeNode && (cp.peer.role == .learner ||
        (mapGet p.raftGroup.progress cp.peer.id).isNone)) = false := by simpa [Option.isSome_iff_ne_none] using hc
    simp only [h1, hc, hb, if_false]
    split <;> simp_all

end Peer

/-! ## Learners counted as voters -/

/-- A leader whose group has voters 1 to 3 and learners 4 and 5; voter 3 lags behind the
truncated index 5. -/
def learnerGroupPeer : Peer :=
  { samplePeer with
    raftGroup := { sampleNode with
      state := .leader
      progress := [(1, ⟨10, false, .replicate⟩), (2, ⟨10, false, .replicate⟩),
        (3, ⟨0, false, .probe⟩), (4, ⟨10, true, .replicate⟩), (5, ⟨10, true, .replicate⟩)] } }

/-- The request to remove voter 2. -/
def removeVoter2 : RaftCmdRequest :=
  { header := none, requests := []
    adminRequest := some { cmdType := .changePeer, changePeer := some ⟨.removeNode, ⟨2, 2, .voter⟩⟩,
                           transferLeader := none, prepareMerge := none } }

/-- The group of `learnerGroupPeer` without its learners. -/
def voterGroupPeer : Peer :=
  { learnerGroupPeer with
    raftGroup := { learnerGroupPeer.raftGroup with
      progress := learnerGroupPeer.raftGroup.progress.take 3 } }

/-- On the voters alone, removing voter 2 is refused by `checkConfChange` and by the rule. -/
theorem checkConfChange_eq_none_iff_voterGroup :
    (voterGroupPeer.checkConfChange sampleConfig removeVoter2 = .ok none ↔
      voterGroupPeer.confChangeAllowed ⟨.removeNode, ⟨2, 2, .voter⟩⟩ = true) :=
  Peer.checkConfChange_eq_none_iff rfl (.inr rfl) (by decide) (by decide) (by decide)

/-- Removing voter 2 leaves voters 1 and 3, of which only 1 is healthy: the rule refuses it, but
`checkConfChange` counts the healthy learners and accepts it. -/
theorem checkConfChange_counts_learners :
    learnerGroupPeer.checkConfChange sampleConfig removeVoter2 = .ok none ∧
      learnerGroupPeer.confChangeAllowed ⟨.removeNode, ⟨2, 2, .voter⟩⟩ = false :=
  ⟨rfl, rfl⟩

end RaftStore
