import Blackbase.Core.Keyspace
import Blackbase.Resources.Model

/-!
# The lease stores

`SQLiteLeaseStore` and `RedisLeaseStore` of `resources/lease_store.py` on the leases
of one namespace.  A SQLite call is a transaction, so a refused admission rolls the
expiry sweep back; on Redis the sweep survives.

The two differ in the clocks they read.  SQLite takes one reading of the client's
clock for a whole call.  Redis sweeps at the server's time, but `_list_locked` asks
`ResourceLease.active`, which reads the clock of the client.
-/

namespace Blackbase.Resources

namespace ResourceLease

/-- The lease is stored as active and its expiry has been reached. -/
def due (lease : ResourceLease) (now : Time) : Bool :=
  lease.status = .active && (0 < lease.expiresAt && lease.expiresAt ≤ now)

/-- A lease that is marked expired. -/
def expired (now : Time) (lease : ResourceLease) : ResourceLease :=
  { lease with status := .expired, updatedAt := now }

/-- What the expiry sweep makes of a lease. -/
def sweep (now : Time) (lease : ResourceLease) : ResourceLease :=
  if lease.due now then lease.expired now else lease

/-- `now + ttl_seconds if ttl_seconds > 0 else 0.0`, clamped by the constructor. -/
def expiry (now ttl : Time) : Time := max 0 (if 0 < ttl then now + ttl else 0)

theorem expiry_nonneg (now ttl : Time) : 0 ≤ expiry now ttl := le_max_left _ _

/-- The lease issued for an admitted candidate. -/
def issue (lease : ResourceLease) (now ttl : Time) (fencingToken : ℤ) : ResourceLease :=
  { lease with
    status := .active
    createdAt := now
    updatedAt := now
    expiresAt := expiry now ttl
    fencingToken := max 0 fencingToken
    expiresAt_nonneg := expiry_nonneg now ttl
    fencingToken_nonneg := le_max_left _ _ }

/-- The lease with its expiry moved. -/
def renewed (now ttl : Time) (lease : ResourceLease) : ResourceLease :=
  { lease with
    updatedAt := now
    expiresAt := expiry now ttl
    expiresAt_nonneg := expiry_nonneg now ttl }

/-- The lease given back. -/
def released (now : Time) (lease : ResourceLease) : ResourceLease :=
  { lease with status := .released, updatedAt := now }

/-- The lease is stored as active, under `token` if one is given. -/
def matchesActive (lease : ResourceLease) (token : Option ℤ) : Bool :=
  lease.status = .active && token.all (lease.fencingToken = ·)

end ResourceLease

/-- Leases in the order of their fencing tokens. -/
def byFencingToken (leases : List ResourceLease) : List ResourceLease :=
  leases.insertionSort fun a b ↦ a.fencingToken ≤ b.fencingToken

/-- Why an admission fails: the exception of `validate_active`, or a violated primary
key. -/
inductive LeaseError (ε : Type) where
  | refused (e : ε)
  /-- `sqlite3.IntegrityError`. -/
  | integrity
deriving DecidableEq, Repr

/-- What a call on a lease store returns. -/
inductive LeaseReply where
  | lease (l : ResourceLease)
  | found (l : Option ResourceLease)
  | leases (ls : List ResourceLease)
  | flag (b : Bool)
  | count (n : ℕ)
deriving DecidableEq

/-! ## SQLite -/

/-- The tables `resource_leases` and `resource_lease_counters` of one namespace. -/
structure SQLiteLeases where
  rows : List ResourceLease
  nextFencingToken : ℤ

namespace SQLiteLeases

/-- The tables as `_initialize` leaves them. -/
def empty : SQLiteLeases := ⟨[], 1⟩

/-- The row of a lease id. -/
def row (s : SQLiteLeases) (leaseId : String) : Option ResourceLease :=
  Rows.lookup ResourceLease.leaseId leaseId s.rows

/-- `_expire_locked`. -/
def expireLocked (s : SQLiteLeases) (now : Time) : SQLiteLeases :=
  { s with rows := s.rows.map (ResourceLease.sweep now) }

/-- The rows with status `active`, ordered by fencing token. -/
def activeRows (s : SQLiteLeases) : List ResourceLease :=
  byFencingToken (s.rows.filter fun l ↦ l.status = .active)

/-- `UPDATE` of the row of `leaseId` if it is active under `token`, with the number of
rows updated. -/
def updateActive (s : SQLiteLeases) (leaseId : String) (token : Option ℤ)
    (f : ResourceLease → ResourceLease) : Bool × SQLiteLeases :=
  match s.row leaseId with
  | none => (false, s)
  | some l =>
      if l.matchesActive token then
        (true, { s with rows := Rows.update ResourceLease.leaseId leaseId f s.rows })
      else (false, s)

/-- `SQLiteLeaseStore.acquire_lease`. -/
def acquireLease {ε : Type} (s : SQLiteLeases) (now : Time) (lease : ResourceLease)
    (validateActive : List ResourceLease → Except ε Unit) (ttl : Time) :
    Except (LeaseError ε) ResourceLease × SQLiteLeases :=
  let swept := s.expireLocked now
  match validateActive swept.activeRows with
  | .error e => (.error (.refused e), s)
  | .ok () =>
      let issued := lease.issue now ttl swept.nextFencingToken
      if (swept.row issued.leaseId).isSome then (.error .integrity, s)
      else (.ok issued, ⟨swept.rows ++ [issued], swept.nextFencingToken + 1⟩)

/-- `SQLiteLeaseStore.get`. -/
def get (s : SQLiteLeases) (now : Time) (leaseId : String) : LeaseReply × SQLiteLeases :=
  let swept := s.expireLocked now
  (.found (swept.row leaseId), swept)

/-- `SQLiteLeaseStore.list`. -/
def list (s : SQLiteLeases) (now : Time) : LeaseReply × SQLiteLeases :=
  let swept := s.expireLocked now
  (.leases swept.activeRows, swept)

/-- `SQLiteLeaseStore.list_all`. -/
def listAll (s : SQLiteLeases) : LeaseReply × SQLiteLeases :=
  (.leases (byFencingToken s.rows), s)

/-- `SQLiteLeaseStore.renew_lease`. -/
def renewLease (s : SQLiteLeases) (now : Time) (leaseId : String) (fencingToken : ℤ)
    (ttl : Time) : LeaseReply × SQLiteLeases :=
  let swept := s.expireLocked now
  match swept.updateActive leaseId (some fencingToken) (ResourceLease.renewed now ttl) with
  | (true, after) => (.found (after.row leaseId), after)
  | (false, after) => (.found none, after)

/-- `SQLiteLeaseStore.release_lease`: no expiry sweep. -/
def releaseLease (s : SQLiteLeases) (now : Time) (leaseId : String) (fencingToken : Option ℤ) :
    LeaseReply × SQLiteLeases :=
  match s.updateActive leaseId fencingToken (ResourceLease.released now) with
  | (updated, after) => (.flag updated, after)

/-- `SQLiteLeaseStore.is_current`: reads only. -/
def isCurrent (s : SQLiteLeases) (now : Time) (leaseId : String) (fencingToken : ℤ) :
    LeaseReply × SQLiteLeases :=
  (.flag ((s.row leaseId).any fun l ↦ l.fences fencingToken now), s)

/-- `SQLiteLeaseStore.recover_expired`. -/
def recoverExpired (s : SQLiteLeases) (now : Time) : LeaseReply × SQLiteLeases :=
  (.count (s.rows.filter (·.due now)).length, s.expireLocked now)

end SQLiteLeases

/-! ## Redis -/

/-- The keys of one namespace: the set `lease_ids` with the keys `lease:{id}`, and the
counter. -/
structure RedisLeases where
  leases : Keyspace String ResourceLease
  counter : Option ℤ

namespace RedisLeases

/-- No key is set. -/
def empty : RedisLeases := ⟨.empty, none⟩

/-- `_list_locked(active_only=False)`. -/
def listLocked (s : RedisLeases) : List ResourceLease := byFencingToken s.leases.listed

/-- `_list_locked(active_only=True)` on a client whose own clock reads `clock`. -/
def listActive (s : RedisLeases) (clock : Time) : List ResourceLease :=
  byFencingToken (s.leases.listed.filter (·.active clock))

/-- The leases `_expire_locked` finds expired. -/
def dueLeases (s : RedisLeases) (now : Time) : List ResourceLease :=
  s.listLocked.filter (·.due now)

/-- `_expire_locked`. -/
def expireLocked (s : RedisLeases) (now : Time) : RedisLeases where
  leases := (s.dueLeases now).foldl (fun keys l ↦ keys.set l.leaseId (l.expired now)) s.leases
  counter := s.counter

/-- `RedisLeaseStore.acquire_lease`. -/
def acquireLease {ε : Type} (s : RedisLeases) (now clock : Time) (lease : ResourceLease)
    (validateActive : List ResourceLease → Except ε Unit) (ttl : Time) :
    Except (LeaseError ε) ResourceLease × RedisLeases :=
  let swept := s.expireLocked now
  match validateActive (swept.listActive clock) with
  | .error e => (.error (.refused e), swept)
  | .ok () =>
      let fencingToken := swept.counter.getD 1
      let issued := lease.issue now ttl fencingToken
      (.ok issued, ⟨(swept.leases.set issued.leaseId issued).add issued.leaseId,
        some (fencingToken + 1)⟩)

/-- `RedisLeaseStore.get`. -/
def get (s : RedisLeases) (now : Time) (leaseId : String) : LeaseReply × RedisLeases :=
  let swept := s.expireLocked now
  (.found (swept.leases.get leaseId), swept)

/-- `RedisLeaseStore.list`. -/
def list (s : RedisLeases) (now clock : Time) : LeaseReply × RedisLeases :=
  let swept := s.expireLocked now
  (.leases (swept.listActive clock), swept)

/-- `RedisLeaseStore.list_all`. -/
def listAll (s : RedisLeases) : LeaseReply × RedisLeases := (.leases s.listLocked, s)

/-- Overwrite the lease `leaseId` if it is stored as active under `token`. -/
def updateActive (s : RedisLeases) (leaseId : String) (token : Option ℤ)
    (f : ResourceLease → ResourceLease) : Option ResourceLease × RedisLeases :=
  match s.leases.get leaseId with
  | none => (none, s)
  | some current =>
      if current.matchesActive token then
        (some (f current), { s with leases := s.leases.set leaseId (f current) })
      else (none, s)

/-- `RedisLeaseStore.renew_lease`. -/
def renewLease (s : RedisLeases) (now : Time) (leaseId : String) (fencingToken : ℤ)
    (ttl : Time) : LeaseReply × RedisLeases :=
  match (s.expireLocked now).updateActive leaseId (some fencingToken)
      (ResourceLease.renewed now ttl) with
  | (written, after) => (.found written, after)

/-- `RedisLeaseStore.release_lease`. -/
def releaseLease (s : RedisLeases) (now : Time) (leaseId : String) (fencingToken : Option ℤ) :
    LeaseReply × RedisLeases :=
  match (s.expireLocked now).updateActive leaseId fencingToken (ResourceLease.released now) with
  | (written, after) => (.flag written.isSome, after)

/-- `RedisLeaseStore.is_current`. -/
def isCurrent (s : RedisLeases) (now clock : Time) (leaseId : String) (fencingToken : ℤ) :
    LeaseReply × RedisLeases :=
  let swept := s.expireLocked now
  (.flag ((swept.leases.get leaseId).any fun l ↦
    l.active clock && l.fencingToken = fencingToken), swept)

/-- `RedisLeaseStore.recover_expired`. -/
def recoverExpired (s : RedisLeases) (now : Time) : LeaseReply × RedisLeases :=
  (.count (s.dueLeases now).length, s.expireLocked now)

end RedisLeases

/-! ## Either store -/

/-- A lease store of either kind. -/
inductive LeaseStore where
  | sqlite (s : SQLiteLeases)
  | redis (s : RedisLeases)

/-- The kind of a lease store. -/
inductive LeaseBackend where
  | sqlite
  | redis
deriving DecidableEq, Repr

/-- The calls other than the admission. -/
inductive LeaseCall where
  | get (leaseId : String)
  | list
  | listAll
  | renew (leaseId : String) (fencingToken : ℤ) (ttl : Time)
  | release (leaseId : String) (fencingToken : Option ℤ)
  | isCurrent (leaseId : String) (fencingToken : ℤ)
  | recoverExpired
deriving DecidableEq, Repr

namespace LeaseStore

/-- A store in which nothing has been written yet. -/
def empty : LeaseBackend → LeaseStore
  | .sqlite => .sqlite .empty
  | .redis => .redis .empty

/-- All leases in the store. -/
def stored : LeaseStore → List ResourceLease
  | .sqlite s => s.rows
  | .redis s => s.leases.listed

/-- One call, as one atomic step of the store: `now` is the Redis server's time and
`clock` the reading of the client's own clock. -/
def exec (store : LeaseStore) (now clock : Time) (c : LeaseCall) : LeaseReply × LeaseStore :=
  match store, c with
  | .sqlite s, .get leaseId => Prod.map id .sqlite (s.get clock leaseId)
  | .sqlite s, .list => Prod.map id .sqlite (s.list clock)
  | .sqlite s, .listAll => Prod.map id .sqlite s.listAll
  | .sqlite s, .renew leaseId token ttl =>
      Prod.map id .sqlite (s.renewLease clock leaseId token ttl)
  | .sqlite s, .release leaseId token => Prod.map id .sqlite (s.releaseLease clock leaseId token)
  | .sqlite s, .isCurrent leaseId token => Prod.map id .sqlite (s.isCurrent clock leaseId token)
  | .sqlite s, .recoverExpired => Prod.map id .sqlite (s.recoverExpired clock)
  | .redis s, .get leaseId => Prod.map id .redis (s.get now leaseId)
  | .redis s, .list => Prod.map id .redis (s.list now clock)
  | .redis s, .listAll => Prod.map id .redis s.listAll
  | .redis s, .renew leaseId token ttl => Prod.map id .redis (s.renewLease now leaseId token ttl)
  | .redis s, .release leaseId token => Prod.map id .redis (s.releaseLease now leaseId token)
  | .redis s, .isCurrent leaseId token =>
      Prod.map id .redis (s.isCurrent now clock leaseId token)
  | .redis s, .recoverExpired => Prod.map id .redis (s.recoverExpired now)

/-- `acquire_lease`, as one atomic step of the store. -/
def acquireLease {ε : Type} (store : LeaseStore) (now clock : Time) (lease : ResourceLease)
    (validateActive : List ResourceLease → Except ε Unit) (ttl : Time) :
    Except (LeaseError ε) ResourceLease × LeaseStore :=
  match store with
  | .sqlite s => Prod.map id .sqlite (s.acquireLease clock lease validateActive ttl)
  | .redis s => Prod.map id .redis (s.acquireLease now clock lease validateActive ttl)

end LeaseStore

end Blackbase.Resources
