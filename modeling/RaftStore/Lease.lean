import RaftStore.Types

/-!
# RaftStore.Lease

The leader lease (spec §4.1). `lease.go` is not part of the source, so everything in this module
is modelled from the spec: a lease is the sum type the spec's design notes ask for,
`valid bound | suspect bound | expired`, with

* `renew now` — the bound becomes `now + maxLease`, unless the lease is suspect with a later
  bound;
* `suspect now` — suspect with bound `now + maxLease`; a suspect lease always inspects as
  suspect;
* `expire` — expired, and the remote lease is invalidated;
* `inspect t` — valid before the bound, expired after it, suspect while suspect.

A remote lease is shared: the owner and the leader checker both hold a pointer to it, and the
owner writes through its pointer (it renews it monotonically and expires it). The owner keeps
every remote lease it has made in `remotes`, and a pointer is an index there.
-/

set_option autoImplicit false

namespace RaftStore

/-- Modelled from the spec: `LeaseState`, what an inspection of a lease returns. -/
inductive LeaseState
  | valid | expired | suspect
  deriving DecidableEq, Repr

/-- Modelled from the spec: the bound of a lease. -/
inductive LeaseBound
  | valid (bound : Time)
  | suspect (bound : Time)
  | expired
  deriving DecidableEq, Repr

/-- Modelled from the spec: `RemoteLease` is the lease as foreign readers see it, valid
strictly before `expiredTime`. -/
structure RemoteLease where
  term : Nat
  expiredTime : Time
  deriving DecidableEq, Repr

namespace RemoteLease

/-- Modelled from the spec: `RemoteLease.Inspect`. -/
def inspect (r : RemoteLease) (t : Time) : LeaseState :=
  if t < r.expiredTime then .valid else .expired

/-- Modelled from the spec: `RemoteLease.Renew` moves the bound only forward. -/
def renew (r : RemoteLease) (bound : Time) : RemoteLease :=
  { r with expiredTime := max r.expiredTime bound }

/-- Modelled from the spec: `RemoteLease.Expire`. -/
def expire (r : RemoteLease) : RemoteLease :=
  { r with expiredTime := 0 }

@[simp] theorem inspect_expire (r : RemoteLease) (t : Time) : r.expire.inspect t = .expired := by
  simp [inspect, expire]

end RemoteLease

/-- Modelled from the spec: `Lease` is the owner's lease, its current remote lease, and every
remote lease it made. -/
structure Lease where
  bound : LeaseBound
  maxLease : Nat
  remote : Option Nat
  remotes : List RemoteLease
  deriving DecidableEq, Repr

/-- Modelled from the spec: `NewLease(maxLease)` starts expired, with no remote lease. -/
def newLease (maxLease : Nat) : Lease :=
  { bound := .expired, maxLease := maxLease, remote := none, remotes := [] }

namespace Lease

/-- Modelled from the spec: `Lease.Inspect(t)`. -/
def inspect (l : Lease) (t : Time) : LeaseState :=
  match l.bound with
  | .valid b => if t < b then .valid else .expired
  | .suspect _ => .suspect
  | .expired => .expired

/-- Modelled from the spec: the lease made valid until `b`, with its current remote lease
renewed to `b`. -/
def renewTo (l : Lease) (b : Time) : Lease :=
  { l with
    bound := .valid b
    remotes := match l.remote with
      | some i => l.remotes.modify (·.renew b) i
      | none => l.remotes }

/-- Modelled from the spec: `Lease.Renew(ts)`. A suspect lease with a later bound stays suspect;
otherwise the lease is valid until `ts + maxLease`. -/
def renew (l : Lease) (ts : Time) : Lease :=
  match l.bound with
  | .suspect s => if ts + l.maxLease < s then l else l.renewTo (ts + l.maxLease)
  | _ => l.renewTo (ts + l.maxLease)

/-- Modelled from the spec: `Lease.Suspect(ts)`. -/
def suspect (l : Lease) (ts : Time) : Lease :=
  { l with bound := .suspect (ts + l.maxLease) }

/-- Modelled from the spec: `Lease.ExpireRemoteLease()` invalidates the current remote lease
and drops the owner's pointer to it. -/
def expireRemoteLease (l : Lease) : Lease :=
  match l.remote with
  | some i => { l with remote := none, remotes := l.remotes.modify RemoteLease.expire i }
  | none => l

/-- Modelled from the spec: `Lease.Expire()`. -/
def expire (l : Lease) : Lease :=
  { l.expireRemoteLease with bound := .expired }

/-- Modelled from the spec: `Lease.MaybeNewRemoteLease(term)` returns the current remote lease,
or creates one valid until the lease's bound when there is none. -/
def maybeNewRemoteLease (l : Lease) (term : Nat) : Lease × Option Nat :=
  match l.remote with
  | some i => (l, some i)
  | none =>
    let expiredTime := match l.bound with
      | .valid b => b
      | _ => 0
    ({ l with remote := some l.remotes.length
              remotes := l.remotes ++ [{ term := term, expiredTime := expiredTime }] },
     some l.remotes.length)

/-- The remote lease a pointer designates. -/
def remoteAt (l : Lease) (i : Nat) : Option RemoteLease := l.remotes[i]?

/-! ## Inspection after each operation -/

@[simp] theorem inspect_expire (l : Lease) (t : Time) : l.expire.inspect t = .expired := rfl

@[simp] theorem inspect_suspect (l : Lease) (ts t : Time) : (l.suspect ts).inspect t = .suspect :=
  rfl

@[simp] theorem maxLease_renew (l : Lease) (ts : Time) : (l.renew ts).maxLease = l.maxLease := by
  unfold renew; split <;> (try split) <;> rfl

end Lease

end RaftStore
