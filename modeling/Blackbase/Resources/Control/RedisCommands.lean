import Blackbase.Core.Watch
import Blackbase.Resources.Control.Views

/-!
# The Redis cancellation store, command by command

`RedisCancellationStore` of `resources/control.py` as the programs its clients run, any
number of them against one server.  A client is where it is in its method: each of its
steps sends one command (`SET NX`, `GET`, `WATCH`, `DEL`, or the `MULTI` … `EXEC` of a
transaction) and then computes up to the next one.  `UNWATCH` changes nothing on the
server and belongs to the step before it.  A transaction on a key that has been written
since it was watched raises `WatchError`, and the method starts again.
-/

namespace Blackbase.Resources

open Watch

/-- What a method of the store ends with. -/
inductive RedisReply where
  | done
  | flag (b : Bool)
  | state (s : CancellationState)
  | raised (e : ControlError)
  /-- "cancellation control disappeared during creation" -/
  | disappeared
deriving DecidableEq

/-- The method a `create` is called by: itself, or `request`. -/
inductive Creating where
  | create
  | request (reason : String)
deriving DecidableEq

/-- The method a `_touch_key` is called by: `touch`, `create`, or `read`, which has met the
controls `visited` and holds the payload of the last. -/
inductive Touching where
  | touch
  | create (ref : CancellationRef) (goal : Creating)
  | read (ref : CancellationRef) (visited : List String) (payload : ControlPayload)
deriving DecidableEq

/-- The command a client sends next.  `n` is the version of the key when it was watched. -/
inductive ControlPc where
  | idle
  | createSet (ref : CancellationRef) (goal : Creating)
  | createGet (ref : CancellationRef) (goal : Creating)
  | createSetAgain (ref : CancellationRef) (goal : Creating)
  | createGetAgain (ref : CancellationRef) (goal : Creating)
  | readGet (ref : CancellationRef) (visited : List String) (id : String)
  | requestWatch (ref : CancellationRef) (reason : String)
  | requestGet (ref : CancellationRef) (reason : String) (n : ℕ)
  | requestExec (ref : CancellationRef) (reason : String) (n : ℕ) (payload : ControlPayload)
  | touchWatch (key : String) (ttl : Option ℤ) (caller : Touching)
  | touchGet (key : String) (ttl : Option ℤ) (caller : Touching) (n : ℕ)
  | touchExec (key : String) (ttl : ℤ) (caller : Touching) (n : ℕ)
  | retireWatch (ref : CancellationRef)
  | retireGet (ref : CancellationRef) (n : ℕ)
  | retireExec (ref : CancellationRef) (n : ℕ) (payload : ControlPayload)
  | retireDelete (ref : CancellationRef)
deriving DecidableEq

namespace CancellationRef

/-- `_key`. -/
def redisKey (ref : CancellationRef) : String := redisControlKey ref.ns ref.controlId

end CancellationRef

/-- A method goes on with a command, or it ends. -/
abbrev Continues := ControlPc ⊕ RedisReply

/-- The end of a `create`. -/
def Creating.next (ref : CancellationRef) : Creating → Continues
  | .create => .inr .done
  | .request reason => .inl (.requestWatch ref reason)

/-- `create`, once it has the payload of the control that exists. -/
def createCheck (ref : CancellationRef) (goal : Creating) (existing : ControlPayload) : Continues :=
  if existing.lineage ≠ ref.lineage then .inr (.raised .lineageChanged)
  else if existing.retiredAt ≤ 0 then
    .inl (.touchWatch ref.redisKey (redisTtl ref) (.create ref goal))
  else goal.next ref

/-- The head of the loop of `read`. -/
def readFrom (ref : CancellationRef) (visited : List String) (id : String) : Continues :=
  if id ∈ visited then .inr (.raised .cycle)
  else if maxVisited < visited.length + 1 then .inr (.raised .tooDeep)
  else .inl (.readGet ref (id :: visited) id)

/-- `read`, once it has touched the control with this payload. -/
def readOn (ref : CancellationRef) (visited : List String) (payload : ControlPayload) :
    Continues :=
  match payload.sight with
  | .answer state => .inr (.state state)
  | .next parent => readFrom ref visited parent
  | .dead => .inr (.state .initial)

/-- The end of a `_touch_key`. -/
def Touching.next (touched : Bool) : Touching → Continues
  | .touch => .inr (.flag touched)
  | .create ref goal => goal.next ref
  | .read ref visited payload => readOn ref visited payload

/-- The start of a method. -/
def beginCall (ref : CancellationRef) : ControlCall → Continues
  | .create => .inl (.createSet ref .create)
  | .read => readFrom ref [] ref.controlId
  | .request reason => .inl (.createSet ref (.request reason))
  | .touch => .inl (.touchWatch ref.redisKey (redisTtl ref) .touch)
  | .retire => .inl (if 0 < ref.retentionSeconds then .retireWatch ref else .retireDelete ref)
  | .expire => .inr .done

/-- The server and its clock. -/
structure RedisServer where
  keys : Server String RedisEntry
  now : Time

namespace RedisServer

/-- `SET` with the time to live `ttl`. -/
def set (s : RedisServer) (key : String) (payload : ControlPayload) (ttl : Option ℤ) : RedisServer :=
  { s with keys := s.keys.write key (some ⟨payload, RedisControls.expiry s.now ttl⟩) }

/-- `EXPIRE`. -/
def expire (s : RedisServer) (key : String) (ttl : ℤ) : RedisServer :=
  match s.keys.value key with
  | none => s
  | some e => { s with keys := s.keys.write key (some { e with expiresAt := some (s.now + ttl) }) }

/-- `DEL`. -/
def delete (s : RedisServer) (key : String) : RedisServer :=
  match s.keys.value key with
  | none => s
  | some _ => { s with keys := s.keys.write key none }

/-- The clock moves on, and the keys that reach their expiry are gone. -/
def tick (s : RedisServer) (now : Time) : RedisServer where
  keys := s.keys.keep fun e ↦ e.expiresAt.all (now < ·)
  now := now

/-- The payload under a key. -/
def get (s : RedisServer) (key : String) : Option ControlPayload :=
  (s.keys.value key).map RedisEntry.payload

end RedisServer

/-- One command of a client, whose own clock reads `time`. -/
def ControlPc.command (s : RedisServer) (time : Time) : ControlPc → RedisServer × Continues
  | .idle => (s, .inl .idle)
  | .createSet ref goal => match s.get ref.redisKey with
      | none => (s.set ref.redisKey (.fresh ref) (redisTtl ref), goal.next ref)
      | some _ => (s, .inl (.createGet ref goal))
  | .createGet ref goal => match s.get ref.redisKey with
      | none => (s, .inl (.createSetAgain ref goal))
      | some existing => (s, createCheck ref goal existing)
  | .createSetAgain ref goal => match s.get ref.redisKey with
      | none => (s.set ref.redisKey (.fresh ref) (redisTtl ref), goal.next ref)
      | some _ => (s, .inl (.createGetAgain ref goal))
  | .createGetAgain ref goal => match s.get ref.redisKey with
      | none => (s, .inr .disappeared)
      | some existing => (s, createCheck ref goal existing)
  | .readGet ref visited id => match s.get (redisControlKey ref.ns id) with
      | none => (s, .inr (.state .initial))
      | some payload =>
          if payload.retiredAt ≤ 0 then
            (s, .inl (.touchWatch (redisControlKey ref.ns id) (redisTtl ref)
              (.read ref visited payload)))
          else (s, readOn ref visited payload)
  | .requestWatch ref reason => (s, .inl (.requestGet ref reason (s.keys.version ref.redisKey)))
  | .requestGet ref reason n => match s.get ref.redisKey with
      | none => (s, .inl (.createSet ref (.request reason)))
      | some payload =>
          if 0 < payload.retiredAt then (s, .inr (.flag false))
          else if payload.state.requested then (s, .inr (.flag false))
          else (s, .inl (.requestExec ref reason n
            { payload with state := requestedState reason time }))
  | .requestExec ref reason n payload =>
      if s.keys.version ref.redisKey = n then
        (s.set ref.redisKey payload (redisTtl ref), .inr (.flag true))
      else (s, .inl (.requestWatch ref reason))
  | .touchWatch key ttl caller => (s, .inl (.touchGet key ttl caller (s.keys.version key)))
  | .touchGet key ttl caller n => match s.get key with
      | none => (s, caller.next false)
      | some payload =>
          if 0 < payload.retiredAt then (s, caller.next false)
          else match ttl with
            | none => (s, caller.next true)
            | some seconds => (s, .inl (.touchExec key seconds caller n))
  | .touchExec key ttl caller n =>
      if s.keys.version key = n then (s.expire key ttl, caller.next true)
      else (s, .inl (.touchWatch key (some ttl) caller))
  | .retireWatch ref => (s, .inl (.retireGet ref (s.keys.version ref.redisKey)))
  | .retireGet ref n => match s.get ref.redisKey with
      | none => (s, .inr .done)
      | some payload => (s, .inl (.retireExec ref n { payload with retiredAt := time }))
  | .retireExec ref n payload =>
      if s.keys.version ref.redisKey = n then
        (s.set ref.redisKey payload (some (wholeSeconds ref.retentionSeconds)), .inr .done)
      else (s, .inl (.retireWatch ref))
  | .retireDelete ref => (s.delete ref.redisKey, .inr .done)

/-- The client runs a `request` on the control with this key. -/
def ControlPc.requests (key : String) : ControlPc → Bool
  | .createSet ref (.request _) | .createGet ref (.request _) | .createSetAgain ref (.request _)
  | .createGetAgain ref (.request _) | .requestWatch ref _ | .requestGet ref _ _
  | .requestExec ref _ _ _ | .touchWatch _ _ (.create ref (.request _))
  | .touchGet _ _ (.create ref (.request _)) _ | .touchExec _ _ (.create ref (.request _)) _ =>
      ref.redisKey = key
  | _ => false

/-- The client runs a `retire` on the control with this key. -/
def ControlPc.retires (key : String) : ControlPc → Bool
  | .retireWatch ref | .retireGet ref _ | .retireExec ref _ _ | .retireDelete ref =>
      ref.redisKey = key
  | _ => false

/-! ## Clients and server -/

/-- A server and its clients. -/
structure RedisClients where
  server : RedisServer
  client : ℕ → ControlPc

/-- A client starts a method, or it sends its next command; or time passes on the server. -/
inductive RedisStep where
  | start (c : ℕ) (call : ControlCall) (ref : CancellationRef)
  | command (c : ℕ) (time : Time)
  | tick (now : Time)

namespace RedisClients

/-- A server without keys, and no client has started. -/
def start (now : Time) : RedisClients := ⟨⟨.empty, now⟩, fun _ ↦ .idle⟩

/-- The client goes on with its method, or it has ended. -/
def goesOn (s : RedisClients) (c : ℕ) (next : Continues) : RedisClients :=
  { s with client := Function.update s.client c (next.elim id fun _ ↦ .idle) }

/-- One step. -/
def step (s : RedisClients) : RedisStep → Option RedisClients
  | .start c call ref =>
      if s.client c = .idle then some (s.goesOn c (beginCall ref call)) else none
  | .command c time =>
      if s.client c = .idle then none
      else
        let out := (s.client c).command s.server time
        some ({ s with server := out.1 }.goesOn c out.2)
  | .tick now => some { s with server := s.server.tick now }

/-- What the method of the client ends with in this step. -/
def reply (s : RedisClients) : RedisStep → Option RedisReply
  | .start _ call ref => (beginCall ref call).getRight?
  | .command c time => ((s.client c).command s.server time).2.getRight?
  | .tick _ => none

end RedisClients

end Blackbase.Resources
