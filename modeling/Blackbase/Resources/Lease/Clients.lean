import Blackbase.Resources.Lease.StoreSpec

/-!
# Clients of a lease store

Any number of clients call one lease store, under one clock that never goes back.  A call reads
the clock either before it gets the transaction or the lock, and may then wait with its reading,
or inside.  On Redis `ResourceLease.active` reads the clock once more, at the end of the call.

The log records what the calls have told their clients: the leases issued, renewed and released,
and the answers of `is_current`.
-/

namespace Blackbase.Resources

/-- A call on a lease store. -/
inductive StoreCall (ε : Type) where
  | acquire (lease : ResourceLease) (validateActive : List ResourceLease → Except ε Unit)
      (ttl : Time)
  | other (c : LeaseCall)

/-- What a client learns of a lease id and a fencing token. -/
inductive LeaseEvent where
  | issued (leaseId : String) (fencingToken : ℤ)
  | reported (leaseId : String) (fencingToken : ℤ) (current : Bool)
  | renewed (leaseId : String) (fencingToken : ℤ)
  | released (leaseId : String) (fencingToken : ℤ)
deriving DecidableEq

/-- Where a client stands. -/
inductive ClientStage (ε : Type) where
  | idle
  /-- The call has been made; its reading of the clock, if that comes first. -/
  | waiting (call : StoreCall ε) (reading : Option Time)
  /-- The call is in its transaction, or holds the lock. -/
  | inside (call : StoreCall ε) (reading : Time)

namespace LeaseBackend

variable {ε : Type}

/-- The call reads the clock before the transaction or the lock. -/
def readsFirst : LeaseBackend → StoreCall ε → Bool
  | .sqlite, .other .recoverExpired => false
  | .sqlite, _ => true
  | .redis, .acquire _ _ _ => true
  | .redis, .other (.renew _ _ _) => true
  | .redis, .other (.release _ _) => true
  | .redis, .other _ => false

/-- The call excludes other calls.  A SQLite call that only reads does not. -/
def locks : LeaseBackend → StoreCall ε → Bool
  | .sqlite, .other (.isCurrent _ _) => false
  | .sqlite, .other .listAll => false
  | _, _ => true

end LeaseBackend

namespace LeaseStore

variable {ε : Type}

/-- The kind of a store. -/
def backend : LeaseStore → LeaseBackend
  | .sqlite _ => .sqlite
  | .redis _ => .redis

/-- The lease stored under an id. -/
def find : LeaseStore → String → Option ResourceLease
  | .sqlite s, leaseId => s.row leaseId
  | .redis s, leaseId => s.leases.get leaseId

/-- The fencing token that is issued next. -/
def nextToken : LeaseStore → ℤ
  | .sqlite s => s.nextFencingToken
  | .redis s => s.counter.getD 1

/-- The client's own clock, as a call with this reading sees it at the time it ends. -/
def clockAt (store : LeaseStore) (reading time : Time) : Time :=
  match store with
  | .sqlite _ => reading
  | .redis _ => time

/-- What the client of a call other than the admission learns. -/
def eventsOf (store : LeaseStore) (c : LeaseCall) (reply : LeaseReply) : List LeaseEvent :=
  match c, reply with
  | .isCurrent leaseId token, .flag current => [.reported leaseId token current]
  | .renew leaseId token _, .found (some _) => [.renewed leaseId token]
  | .release leaseId _, .flag true =>
      ((store.find leaseId).map fun l ↦ LeaseEvent.released leaseId l.fencingToken).toList
  | _, _ => []

/-- A call takes effect: what its client learns, and the store afterwards. -/
def take (store : LeaseStore) (reading time : Time) : StoreCall ε → List LeaseEvent × LeaseStore
  | .acquire lease validateActive ttl =>
      match store.acquireLease reading (store.clockAt reading time) lease validateActive ttl with
      | (.ok issued, after) => ([.issued issued.leaseId issued.fencingToken], after)
      | (.error _, after) => ([], after)
  | .other c =>
      match store.exec reading (store.clockAt reading time) c with
      | (reply, after) => (store.eventsOf c reply, after)

end LeaseStore

/-- The store, the clock, and where its clients stand. -/
structure LeaseClients (ε : Type) where
  store : LeaseStore
  time : Time
  stage : ℕ → ClientStage ε
  /-- The client whose call excludes others. -/
  holder : Option ℕ
  log : List LeaseEvent

/-- A step of the clock or of a client. -/
inductive ClientStep (ε : Type) where
  | tick (time : Time)
  | begin (client : ℕ) (call : StoreCall ε)
  | enter (client : ℕ)
  | finish (client : ℕ)

namespace LeaseClients

variable {ε : Type}

/-- An empty store that nobody has called. -/
def start (ε : Type) (backend : LeaseBackend) (time : Time) : LeaseClients ε :=
  ⟨.empty backend, time, fun _ ↦ .idle, none, []⟩

/-- One step. -/
def step (s : LeaseClients ε) : ClientStep ε → Option (LeaseClients ε)
  | .tick time => if s.time ≤ time then some { s with time := time } else none
  | .begin c call =>
      match s.stage c with
      | .idle =>
          let reading := if s.store.backend.readsFirst call then some s.time else none
          some { s with stage := Function.update s.stage c (.waiting call reading) }
      | _ => none
  | .enter c =>
      match s.stage c with
      | .waiting call reading =>
          if s.store.backend.locks call then
            if s.holder = none then
              some
                { s with
                  stage := Function.update s.stage c (.inside call (reading.getD s.time))
                  holder := some c }
            else none
          else some { s with stage := Function.update s.stage c (.inside call (reading.getD s.time)) }
      | _ => none
  | .finish c =>
      match s.stage c with
      | .inside call reading =>
          match s.store.take reading s.time call with
          | (events, after) => some
            { s with
              store := after
              stage := Function.update s.stage c .idle
              holder := if s.store.backend.locks call then none else s.holder
              log := s.log ++ events }
      | _ => none

end LeaseClients

end Blackbase.Resources
