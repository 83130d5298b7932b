import Blackbase.Resources.Lease.Store

/-!
# The lease stores side by side

`InMemoryLeaseStore` of `resources/model.py`, `create` on each of the stores, and the three stores
under one sequence of calls, issued one at a time with one reading of the clock for each.

A release in memory does not sweep, like that of SQLite, and `create` in memory stores the lease
as it is, while SQLite and Redis admit it anew.
-/

namespace Blackbase.Resources

/-- `_leases`, in the order of the dictionary, and `_next_fencing_token`. -/
structure InMemoryLeases where
  leases : List ResourceLease
  nextFencingToken : ℤ

namespace InMemoryLeases

/-- The store as its constructor leaves it. -/
def empty : InMemoryLeases := ⟨[], 1⟩

/-- `self._leases.get(lease_id)`. -/
def row (s : InMemoryLeases) (leaseId : String) : Option ResourceLease :=
  Rows.lookup ResourceLease.leaseId leaseId s.leases

/-- `self._leases[lease.lease_id] = lease`. -/
def put (s : InMemoryLeases) (lease : ResourceLease) : InMemoryLeases :=
  { s with
    leases :=
      if (s.row lease.leaseId).isSome then
        Rows.update ResourceLease.leaseId lease.leaseId (fun _ ↦ lease) s.leases
      else s.leases ++ [lease] }

/-- `_expire_locked`. -/
def expireLocked (s : InMemoryLeases) (now : Time) : InMemoryLeases :=
  { s with leases := s.leases.map (ResourceLease.sweep now) }

/-- `InMemoryLeaseStore.acquire_lease`. -/
def acquireLease {ε : Type} (s : InMemoryLeases) (now : Time) (lease : ResourceLease)
    (validateActive : List ResourceLease → Except ε Unit) (ttl : Time) :
    Except (LeaseError ε) ResourceLease × InMemoryLeases :=
  let swept := s.expireLocked now
  match validateActive (swept.leases.filter (·.active now)) with
  | .error e => (.error (.refused e), swept)
  | .ok () =>
      let issued := lease.issue now ttl swept.nextFencingToken
      (.ok issued, { swept.put issued with nextFencingToken := swept.nextFencingToken + 1 })

/-- `InMemoryLeaseStore.create`. -/
def create (s : InMemoryLeases) (lease : ResourceLease) : InMemoryLeases := s.put lease

/-- `InMemoryLeaseStore.get`. -/
def get (s : InMemoryLeases) (now : Time) (leaseId : String) : LeaseReply × InMemoryLeases :=
  let swept := s.expireLocked now
  (.found (swept.row leaseId), swept)

/-- `InMemoryLeaseStore.list`. -/
def list (s : InMemoryLeases) (now : Time) : LeaseReply × InMemoryLeases :=
  let swept := s.expireLocked now
  (.leases (swept.leases.filter (·.active now)), swept)

/-- `InMemoryLeaseStore.renew_lease`. -/
def renewLease (s : InMemoryLeases) (now : Time) (leaseId : String) (fencingToken : ℤ)
    (ttl : Time) : LeaseReply × InMemoryLeases :=
  let swept := s.expireLocked now
  match swept.row leaseId with
  | none => (.found none, swept)
  | some current =>
      if !current.active now then (.found none, swept)
      else if current.fencingToken ≠ fencingToken then (.found none, swept)
      else (.found (some (current.renewed now ttl)), swept.put (current.renewed now ttl))

/-- `InMemoryLeaseStore.release_lease`: no expiry sweep. -/
def releaseLease (s : InMemoryLeases) (now : Time) (leaseId : String)
    (fencingToken : Option ℤ) : LeaseReply × InMemoryLeases :=
  match s.row leaseId with
  | none => (.flag false, s)
  | some current =>
      if current.matchesActive fencingToken then (.flag true, s.put (current.released now))
      else (.flag false, s)

/-- `InMemoryLeaseStore.is_current`. -/
def isCurrent (s : InMemoryLeases) (now : Time) (leaseId : String) (fencingToken : ℤ) :
    LeaseReply × InMemoryLeases :=
  let swept := s.expireLocked now
  (.flag ((swept.row leaseId).any fun l ↦
    l.active now && l.fencingToken = fencingToken), swept)

end InMemoryLeases

/-! ## Three stores -/

/-- The calls that every lease store has. -/
inductive CommonCall (ε : Type) where
  | acquire (lease : ResourceLease) (validateActive : List ResourceLease → Except ε Unit)
      (ttl : Time)
  | create (lease : ResourceLease)
  | get (leaseId : String)
  | list
  | renew (leaseId : String) (fencingToken : ℤ) (ttl : Time)
  | release (leaseId : String) (fencingToken : Option ℤ)
  | isCurrent (leaseId : String) (fencingToken : ℤ)

/-- What such a call returns or raises. -/
inductive CommonReply (ε : Type) where
  | issued (r : Except (LeaseError ε) ResourceLease)
  | created (r : Except (LeaseError ε) Unit)
  | reply (r : LeaseReply)
deriving DecidableEq

/-- `max(0.0, lease.expires_at - now)`. -/
def ResourceLease.remaining (lease : ResourceLease) (now : Time) : Time :=
  max 0 (lease.expiresAt - now)

namespace CommonCall

variable {ε : Type} (now : Time)

/-- A call in memory. -/
def onMemory (s : InMemoryLeases) : CommonCall ε → CommonReply ε × InMemoryLeases
  | acquire lease validateActive ttl =>
      Prod.map .issued id (s.acquireLease now lease validateActive ttl)
  | create lease => (.created (.ok ()), s.create lease)
  | get leaseId => Prod.map .reply id (s.get now leaseId)
  | list => Prod.map .reply id (s.list now)
  | renew leaseId token ttl => Prod.map .reply id (s.renewLease now leaseId token ttl)
  | release leaseId token => Prod.map .reply id (s.releaseLease now leaseId token)
  | isCurrent leaseId token => Prod.map .reply id (s.isCurrent now leaseId token)

/-- A call on SQLite. -/
def onSQLite (s : SQLiteLeases) : CommonCall ε → CommonReply ε × SQLiteLeases
  | acquire lease validateActive ttl =>
      Prod.map .issued id (s.acquireLease now lease validateActive ttl)
  | create lease =>
      Prod.map (fun r ↦ .created (r.map fun _ ↦ ())) id
        (s.acquireLease now lease (fun _ ↦ .ok ()) (lease.remaining now))
  | get leaseId => Prod.map .reply id (s.get now leaseId)
  | list => Prod.map .reply id (s.list now)
  | renew leaseId token ttl => Prod.map .reply id (s.renewLease now leaseId token ttl)
  | release leaseId token => Prod.map .reply id (s.releaseLease now leaseId token)
  | isCurrent leaseId token => Prod.map .reply id (s.isCurrent now leaseId token)

/-- A call on Redis.  The client's clock reads what the server's does. -/
def onRedis (s : RedisLeases) : CommonCall ε → CommonReply ε × RedisLeases
  | acquire lease validateActive ttl =>
      Prod.map .issued id (s.acquireLease now now lease validateActive ttl)
  | create lease =>
      Prod.map (fun r ↦ .created (r.map fun _ ↦ ())) id
        (s.acquireLease now now lease (fun _ ↦ .ok ()) (lease.remaining now))
  | get leaseId => Prod.map .reply id (s.get now leaseId)
  | list => Prod.map .reply id (s.list now now)
  | renew leaseId token ttl => Prod.map .reply id (s.renewLease now leaseId token ttl)
  | release leaseId token => Prod.map .reply id (s.releaseLease now leaseId token)
  | isCurrent leaseId token => Prod.map .reply id (s.isCurrent now now leaseId token)

end CommonCall

/-- A store of each kind. -/
structure LeaseTrio where
  memory : InMemoryLeases
  sqlite : SQLiteLeases
  redis : RedisLeases

namespace LeaseTrio

variable {ε : Type} (s : LeaseTrio)

/-- Three stores in which nothing has been written yet. -/
def empty : LeaseTrio := ⟨.empty, .empty, .empty⟩

/-- A call on each of the stores. -/
def apply (step : Time × CommonCall ε) : LeaseTrio where
  memory := (step.2.onMemory step.1 s.memory).2
  sqlite := (step.2.onSQLite step.1 s.sqlite).2
  redis := (step.2.onRedis step.1 s.redis).2

/-- The stores give the same answer. -/
def SameReply (step : Time × CommonCall ε) : Prop :=
  (step.2.onMemory step.1 s.memory).1 = (step.2.onSQLite step.1 s.sqlite).1 ∧
    (step.2.onRedis step.1 s.redis).1 = (step.2.onSQLite step.1 s.sqlite).1

instance [DecidableEq ε] (step : Time × CommonCall ε) : Decidable (s.SameReply step) :=
  inferInstanceAs (Decidable (_ ∧ _))

/-- The stores hold the same leases that are active at a reading. -/
def SameActive (now : Time) : Prop :=
  s.memory.leases.filter (·.active now) = s.sqlite.rows.filter (·.active now) ∧
    s.redis.leases.listed.filter (·.active now) = s.sqlite.rows.filter (·.active now)

instance (now : Time) : Decidable (s.SameActive now) := inferInstanceAs (Decidable (_ ∧ _))

end LeaseTrio

end Blackbase.Resources
