import RaftStore.Inspect

/-!
# RaftStore.Policy

`Inspect` against the rules it implements (spec §4.7). The rules read only which kinds of
command a request holds:

1. an admin request is a conf change if it changes a peer, else a leader transfer if it names a
   transferee, else a normal proposal;
2. a data request is invalid if a command is `Prewrite` or `Invalid`, or if it both reads
   (`Get`, `Snap`) and writes (`Put`, `Delete`, `DeleteRange`, `IngestSST`);
3. otherwise a write is proposed, and a read goes through read index if it asks for a read
   quorum, if the current term is not applied yet, or if the lease is not valid; it is served
   locally otherwise.

`referencePolicy` states these rules. The scan of `Inspect` stops at the first rejected command
or as soon as it has seen a read and a write; `inspectRequests_eq_ok_iff` is its loop invariant:
where the scan stops, the verdict is already that of the whole list. Then:

* `inspect_policy_error` — `Inspect` returns the reference policy, with an error exactly for
  `Invalid`;
* `inspect_perm` — reordering the commands changes neither the policy, nor whether an error
  comes back, nor the peer. Which error comes back may change: the scan reports the rejected
  command or the mix, whichever it meets first;
* `inspect_policy_eq_referencePolicy` — both together.
-/

set_option autoImplicit false

namespace RaftStore

namespace CmdType

/-- The reads of the rules: `Get` and `Snap`. -/
def isRead : CmdType → Bool
  | .get | .snap => true
  | _ => false

/-- The writes of the rules: `Put`, `Delete`, `DeleteRange` and `IngestSST`. -/
def isWrite : CmdType → Bool
  | .put | .delete | .deleteRange | .ingestSST => true
  | _ => false

/-- The commands the rules reject: `Prewrite` and `Invalid`. -/
def isRejected : CmdType → Bool
  | .prewrite | .invalid => true
  | _ => false

end CmdType

/-- Whether a command of `rs` is of a kind `f` selects. -/
def anyCmd (f : CmdType → Bool) (rs : List Request) : Bool := rs.any (f ·.cmdType)

@[simp] theorem anyCmd_nil (f : CmdType → Bool) : anyCmd f [] = false := rfl

@[simp] theorem anyCmd_cons (f : CmdType → Bool) (r : Request) (rs : List Request) :
    anyCmd f (r :: rs) = (f r.cmdType || anyCmd f rs) := rfl

theorem anyCmd_perm (f : CmdType → Bool) {rs rs' : List Request} (h : rs.Perm rs') :
    anyCmd f rs = anyCmd f rs' :=
  Bool.eq_iff_iff.2 (by simp only [anyCmd, List.any_eq_true, h.mem_iff])

/-- The rules' verdict on the commands of a data request: a rejected kind, or reads with
writes. -/
def mixedOrRejected (rs : List Request) : Bool :=
  anyCmd CmdType.isRejected rs || anyCmd CmdType.isRead rs && anyCmd CmdType.isWrite rs

/-- The reference rules for the policy of `req` at time `now`. -/
def referencePolicy (p : Peer) (req : RaftCmdRequest) (now : Time) : RequestPolicy :=
  match req.adminRequest with
  | some admin =>
    if admin.changePeer.isSome then .proposeConfChange
    else if admin.transferLeader.isSome then .proposeTransferLeader
    else .proposeNormal
  | none =>
    if mixedOrRejected req.requests then .invalid
    else if anyCmd CmdType.isWrite req.requests then .proposeNormal
    else if (req.header.map (·.readQuorum)).getD false then .readIndex
    else if p.peerStorage.appliedIndexTerm ≠ p.term then .readIndex
    else if p.raftGroup.inLease && p.leaderLease.inspect now == .valid then .readLocal
    else .readIndex

/-! ## The scan -/

/-- One command of the scan: a rejected kind fails, and so does a read after a write or a write
after a read. -/
theorem inspectRequests_cons (hasRead hasWrite : Bool) (r : Request) (rs : List Request) :
    inspectRequests hasRead hasWrite (r :: rs) =
      if r.cmdType.isRejected then .error (.invalidCmdType r.cmdType)
      else if (hasRead || r.cmdType.isRead) && (hasWrite || r.cmdType.isWrite) then
        .error .mixedReadWrite
      else inspectRequests (hasRead || r.cmdType.isRead) (hasWrite || r.cmdType.isWrite) rs := by
  cases h : r.cmdType <;>
    simp [inspectRequests, h, CmdType.isRead, CmdType.isWrite, CmdType.isRejected]

/-- **The loop invariant of the scan.** From flags that are not both set, the scan succeeds
exactly when no command is rejected and the flags, joined with the reads and the writes of the
rest, are not both set; it then returns them. -/
theorem inspectRequests_eq_ok_iff {hasRead hasWrite : Bool} (h : (hasRead && hasWrite) = false)
    (rs : List Request) (v : Bool × Bool) :
    inspectRequests hasRead hasWrite rs = .ok v ↔
      (anyCmd CmdType.isRejected rs ||
        (hasRead || anyCmd CmdType.isRead rs) && (hasWrite || anyCmd CmdType.isWrite rs)) = false ∧
      v = (hasRead || anyCmd CmdType.isRead rs, hasWrite || anyCmd CmdType.isWrite rs) := by
  induction rs generalizing hasRead hasWrite with
  | nil =>
    simp only [inspectRequests, Except.ok.injEq, anyCmd_nil, Bool.or_false, h, Bool.false_or,
      true_and]
    exact eq_comm
  | cons r rs ih =>
    rw [inspectRequests_cons]
    split_ifs with hrej hmix
    · simp [hrej]
    · refine iff_of_false nofun fun ⟨hc, _⟩ => ?_
      simp only [anyCmd_cons, Bool.or_eq_false_iff, Bool.and_eq_false_iff] at hc
      simp only [Bool.and_eq_true, Bool.or_eq_true] at hmix
      rcases hc with ⟨-, ⟨h1, h2, -⟩ | ⟨h1, h2, -⟩⟩
      · exact hmix.1.elim (fun h => Bool.false_ne_true (h1.symm.trans h))
          fun h => Bool.false_ne_true (h2.symm.trans h)
      · exact hmix.2.elim (fun h => Bool.false_ne_true (h1.symm.trans h))
          fun h => Bool.false_ne_true (h2.symm.trans h)
    · simpa only [anyCmd_cons, Bool.eq_false_iff.2 hrej, Bool.false_or, ← Bool.or_assoc]
        using ih (Bool.eq_false_iff.2 hmix)

/-- The scan of `Inspect`, from no read and no write. -/
theorem inspectRequests_scan_eq_ok_iff (rs : List Request) (v : Bool × Bool) :
    inspectRequests false false rs = .ok v ↔
      mixedOrRejected rs = false ∧ v = (anyCmd CmdType.isRead rs, anyCmd CmdType.isWrite rs) := by
  simpa [mixedOrRejected] using @inspectRequests_eq_ok_iff false false rfl rs v

/-- The scan fails exactly on the requests the rules call invalid. -/
theorem inspectRequests_scan_error_iff (rs : List Request) :
    (∃ e, inspectRequests false false rs = .error e) ↔ mixedOrRejected rs = true := by
  cases h : inspectRequests false false rs with
  | error e =>
    refine iff_of_true ⟨e, rfl⟩ (by_contra fun hm => ?_)
    have := (inspectRequests_scan_eq_ok_iff rs _).2 ⟨Bool.eq_false_iff.2 hm, rfl⟩
    rw [h] at this
    cases this
  | ok v => simp [((inspectRequests_scan_eq_ok_iff rs v).1 h).1]

/-! ## `Inspect` -/

/-- The lease is valid for `Inspect` exactly in the library's lease and under a valid lease. -/
theorem inspectLease_fst_beq_valid (p : Peer) (now : Time) :
    ((p.inspectLease now).1 == .valid) =
      (p.raftGroup.inLease && p.leaderLease.inspect now == .valid) := by
  unfold Peer.inspectLease
  cases p.raftGroup.inLease <;> cases p.leaderLease.inspect now <;> rfl

/-- `Inspect` returns the reference policy, with an error exactly for `Invalid`. -/
theorem inspect_policy_error (p : Peer) (req : RaftCmdRequest) (now : Time) :
    (inspect p req now).1.1 = referencePolicy p req now ∧
      ((inspect p req now).1.2.isSome ↔ referencePolicy p req now = .invalid) := by
  unfold inspect referencePolicy
  cases ha : req.adminRequest with
  | some a =>
    simp only [getChangePeerCmd, getTransferLeaderCmd, ha, Option.some_bind, Option.isSome_some,
      if_true]
    split_ifs <;> simp
  | none =>
    simp only [Option.isSome_none, Bool.false_eq_true, if_false]
    cases hr : inspectRequests false false req.requests with
    | error e =>
      simp [(inspectRequests_scan_error_iff _).1 ⟨e, hr⟩]
    | ok v =>
      obtain ⟨hgood, rfl⟩ := (inspectRequests_scan_eq_ok_iff _ _).1 hr
      simp only [hgood, Bool.false_eq_true, if_false, Peer.hasAppliedToCurrentTerm]
      cases anyCmd CmdType.isWrite req.requests
      · cases (req.header.map (·.readQuorum)).getD false
        · by_cases hat : p.peerStorage.appliedIndexTerm = p.term
          · simp only [hat, beq_self_eq_true, Bool.not_true, Bool.false_eq_true, if_false, ne_eq,
              not_true_eq_false, ← inspectLease_fst_beq_valid]
            rcases p.inspectLease now with ⟨_ | _ | _, q⟩ <;> simp
          · simp [hat]
        · simp
      · simp

/-- Reordering the commands changes neither the policy, nor whether an error comes back, nor
the peer. -/
theorem inspect_perm (p : Peer) (req : RaftCmdRequest) (now : Time) {rs : List Request}
    (h : rs.Perm req.requests) :
    (inspect p { req with requests := rs } now).1.1 = (inspect p req now).1.1 ∧
      (inspect p { req with requests := rs } now).1.2.isSome = (inspect p req now).1.2.isSome ∧
      (inspect p { req with requests := rs } now).2 = (inspect p req now).2 := by
  have hscan (v : Bool × Bool) :
      inspectRequests false false rs = .ok v ↔ inspectRequests false false req.requests = .ok v := by
    simp only [inspectRequests_scan_eq_ok_iff, mixedOrRejected, anyCmd_perm _ h]
  unfold inspect getChangePeerCmd getTransferLeaderCmd
  dsimp only
  cases req.adminRequest with
  | some a => exact ⟨rfl, rfl, rfl⟩
  | none =>
    simp only [Option.isSome_none, Bool.false_eq_true, if_false]
    cases h1 : inspectRequests false false rs with
    | error e =>
      cases h2 : inspectRequests false false req.requests with
      | error e' => exact ⟨rfl, rfl, rfl⟩
      | ok v => cases h1 ▸ (hscan v).2 h2
    | ok v =>
      rw [(hscan v).1 h1]
      exact ⟨rfl, rfl, rfl⟩

/-- **`Inspect` follows the reference rules.** For every request and every peer, `Inspect`
returns the policy of the reference rules, and an error exactly when that policy is `Invalid`;
reordering the commands changes neither the policy, nor whether an error comes back, nor the
peer `Inspect` leaves. -/
theorem inspect_policy_eq_referencePolicy (p : Peer) (req : RaftCmdRequest) (now : Time) :
    (inspect p req now).1.1 = referencePolicy p req now ∧
      ((inspect p req now).1.2.isSome ↔ referencePolicy p req now = .invalid) ∧
      ∀ rs : List Request, rs.Perm req.requests →
        (inspect p { req with requests := rs } now).1.1 = (inspect p req now).1.1 ∧
        (inspect p { req with requests := rs } now).1.2.isSome = (inspect p req now).1.2.isSome ∧
        (inspect p { req with requests := rs } now).2 = (inspect p req now).2 :=
  ⟨(inspect_policy_error p req now).1, (inspect_policy_error p req now).2,
    fun _ h => inspect_perm p req now h⟩

/-- Which error comes back depends on the order: the scan reports what it meets first. -/
example (p : Peer) :
    (inspect p ⟨none, [⟨.prewrite⟩, ⟨.get⟩, ⟨.put⟩], none⟩ 0).1.2 =
      some (.invalidCmdType .prewrite) ∧
    (inspect p ⟨none, [⟨.get⟩, ⟨.put⟩, ⟨.prewrite⟩], none⟩ 0).1.2 = some .mixedReadWrite :=
  ⟨rfl, rfl⟩

end RaftStore
