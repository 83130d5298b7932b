import Blackbase.Core.Chain
import Blackbase.Resources.Control.Model

/-!
# The cancellation stores

`InMemoryCancellationStore`, `SQLiteCancellationStore` and `RedisCancellationStore` of
`resources/control.py`, one definition for each method.  A method reads the client's
clock each time it asks for the time, so its readings are a sequence; on Redis the
expiry of a key is kept by the clock of the server.  The Redis methods are several
commands each; here they run without a command of another client in between.

Every `read` follows the parent links of the stored records.  Touching the records on
the way changes none of these links, so what it finds is `Chain.chase` on the store as
it was.
-/

namespace Blackbase.Resources

/-- Namespace and control id. -/
abbrev ControlKey := String × String

namespace CancellationRef

/-- The key of the control. -/
def key (ref : CancellationRef) : ControlKey := (ref.ns, ref.controlId)

/-- What the stores keep of the lineage of a control, and compare on `create`. -/
def lineage (ref : CancellationRef) : Option String × Option String × ℕ × String :=
  (ref.parentControlId, some ref.rootControlId, ref.lineageDepth, ref.lineageDigest.text)

end CancellationRef

/-- What the methods of the stores raise. -/
inductive ControlError where
  | parentLineageChanged
  | lineageChanged
  | cycle
  | tooDeep
deriving DecidableEq, Repr

/-- The texts of the `RuntimeError`s. -/
def ControlError.message : ControlError → String
  | .parentLineageChanged => "cancellation control parent lineage changed"
  | .lineageChanged => "cancellation control lineage changed"
  | .cycle => "cancellation lineage contains a cycle"
  | .tooDeep => "cancellation lineage exceeds the supported depth"

/-- The exception a search along the lineage ends with. -/
def ControlError.ofFault : Chain.Fault → ControlError
  | .cycle => .cycle
  | .tooDeep => .tooDeep

/-- What a finished search along the lineage reports. -/
def reported : Except Chain.Fault (Option CancellationState) → Except ControlError CancellationState
  | .error e => .error (.ofFault e)
  | .ok found => .ok (found.getD .initial)

/-- The number of controls a `read` may meet. -/
def maxVisited : ℕ := maxCancellationLineageDepth + 1

/-- The state `request` records. -/
def requestedState (reason : String) (now : Time) : CancellationState :=
  ⟨true, orDefault reason "cancelled", now⟩

/-! ## In memory -/

/-- `InMemoryCancellationStore`. -/
structure InMemoryControls where
  states : ControlKey → Option CancellationState
  parents : ControlKey → Option (Option String)

namespace InMemoryControls

/-- A new store. -/
def empty : InMemoryControls := ⟨fun _ ↦ none, fun _ ↦ none⟩

/-- `create`. -/
def create (s : InMemoryControls) (ref : CancellationRef) : Except ControlError InMemoryControls :=
  let existingParent := (s.parents ref.key).getD ref.parentControlId
  if (s.parents ref.key).isSome ∧ existingParent ≠ ref.parentControlId then
    .error .parentLineageChanged
  else .ok {
    states := Function.update s.states ref.key (some ((s.states ref.key).getD .initial))
    parents := Function.update s.parents ref.key
      (some ((s.parents ref.key).getD ref.parentControlId)) }

/-- What `read` sees at a control. -/
def look (s : InMemoryControls) (ns id : String) : Chain.Sight String CancellationState :=
  let state := (s.states (ns, id)).getD .initial
  if state.requested then .answer state
  else match (s.parents (ns, id)).getD none with
    | none => .dead
    | some parent => .next parent

/-- `read`. -/
def read (s : InMemoryControls) (ref : CancellationRef) : Except ControlError CancellationState :=
  reported (Chain.chase (s.look ref.ns) [] maxVisited ref.controlId)

/-- `request`. -/
def request (s : InMemoryControls) (ref : CancellationRef) (reason : String) (now : Time) :
    Bool × InMemoryControls :=
  if ((s.states ref.key).getD .initial).requested then (false, s)
  else (true, { s with states := Function.update s.states ref.key (requestedState reason now) })

/-- `touch`. -/
def touch (s : InMemoryControls) (ref : CancellationRef) : Bool := (s.states ref.key).isSome

/-- `retire`. -/
def retire (s : InMemoryControls) (ref : CancellationRef) : InMemoryControls where
  states := Function.update s.states ref.key none
  parents := Function.update s.parents ref.key none

end InMemoryControls

/-! ## SQLite -/

/-- A row of `cancellation_controls`, without its key. -/
structure ControlRow where
  state : CancellationState
  createdAt : Time
  parentControlId : Option String
  rootControlId : Option String
  lineageDepth : ℕ
  lineageDigest : String
  retiredAt : Time
  expiresAt : Time
deriving DecidableEq

namespace ControlRow

/-- The lineage columns. -/
def lineage (row : ControlRow) : Option String × Option String × ℕ × String :=
  (row.parentControlId, row.rootControlId, row.lineageDepth, row.lineageDigest)

/-- The expiry of the row has been reached. -/
def expired (row : ControlRow) (now : Time) : Prop := 0 < row.expiresAt ∧ row.expiresAt ≤ now

instance (row : ControlRow) (now : Time) : Decidable (row.expired now) :=
  inferInstanceAs (Decidable (_ ∧ _))

/-- The row was written before its table had lineage columns. -/
def legacy (row : ControlRow) : Prop :=
  (row.rootControlId = none ∨ row.rootControlId = some "") ∧ row.lineageDigest = ""

instance (row : ControlRow) : Decidable row.legacy := inferInstanceAs (Decidable (_ ∧ _))

/-- The row a `create` inserts. -/
def fresh (ref : CancellationRef) (expiresAt : Time) : ControlRow :=
  ⟨.initial, ref.createdAt, ref.parentControlId, some ref.rootControlId, ref.lineageDepth,
    ref.lineageDigest.text, 0, expiresAt⟩

/-- A legacy row takes the lineage of the reference. -/
def adopt (ref : CancellationRef) (row : ControlRow) : ControlRow :=
  if row.legacy then
    { row with
      parentControlId := ref.parentControlId
      rootControlId := some ref.rootControlId
      lineageDepth := ref.lineageDepth
      lineageDigest := ref.lineageDigest.text }
  else row

/-- An active lease moves `expires_at` of a row that is not retired. -/
def refresh (active : Bool) (expiresAt : Time) (row : ControlRow) : ControlRow :=
  if active ∧ row.retiredAt ≤ 0 then { row with expiresAt := expiresAt } else row

/-- What `read` sees at a row. -/
def sight (row : ControlRow) : Chain.Sight String CancellationState :=
  if row.state.requested then .answer row.state
  else match row.parentControlId with
    | none => .dead
    | some parent => .next parent

end ControlRow

/-- The table `cancellation_controls`. -/
abbrev ControlTable := ControlKey → Option ControlRow

/-- `_active_expires_at`, at the reading `now`. -/
def activeExpiresAt (ref : CancellationRef) (now : Time) : Time :=
  if 0 < ref.activeTtlSeconds then now + ref.activeTtlSeconds else 0

namespace ControlTable

/-- A new table. -/
def empty : ControlTable := fun _ ↦ none

/-- `_purge_expired`. -/
def purge (t : ControlTable) (now : Time) : ControlTable :=
  fun k ↦ (t k).filter fun row ↦ ¬ row.expired now

/-- `create`; the first reading is the one of the purge. -/
def create (t : ControlTable) (ref : CancellationRef) (clock : ℕ → Time) :
    Except ControlError ControlTable :=
  let purged := t.purge (clock 0)
  let expiresAt := activeExpiresAt ref (clock 1)
  let row := ControlRow.adopt ref ((purged ref.key).getD (ControlRow.fresh ref expiresAt))
  if row.lineage ≠ ref.lineage then .error .lineageChanged
  else .ok (Function.update purged ref.key (row.refresh (0 < expiresAt) expiresAt))

/-- What `read` sees at a control. -/
def look (t : ControlTable) (ns id : String) : Chain.Sight String CancellationState :=
  match t (ns, id) with
  | none => .dead
  | some row => row.sight

/-- The loop of `read`: the table with the rows touched, and what it found. -/
def readLoop (ref : CancellationRef) (clock : ℕ → Time) (t : ControlTable) :
    List String → ℕ → String → ControlTable × Except Chain.Fault (Option CancellationState)
  | visited, 0, id => (t, if id ∈ visited then .error .cycle else .error .tooDeep)
  | visited, n + 1, id =>
      if id ∈ visited then (t, .error .cycle)
      else match t (ref.ns, id) with
        | none => (t, .ok none)
        | some row =>
            let touched := Function.update t (ref.ns, id)
              (some (row.refresh (0 < ref.activeTtlSeconds)
                (activeExpiresAt ref (clock (visited.length + 1)))))
            match row.sight with
            | .answer state => (touched, .ok (some state))
            | .next parent => readLoop ref clock touched (id :: visited) n parent
            | .dead => (touched, .ok none)

/-- `read`; an exception rolls the transaction back. -/
def read (t : ControlTable) (ref : CancellationRef) (clock : ℕ → Time) :
    Except ControlError CancellationState × ControlTable :=
  let out := readLoop ref clock (t.purge (clock 0)) [] maxVisited ref.controlId
  match reported out.2 with
  | .error e => (.error e, t)
  | .ok state => (.ok state, out.1)

/-- The second transaction of `request`. -/
def requestUpdate (t : ControlTable) (ref : CancellationRef) (reason : String)
    (clock : ℕ → Time) : Bool × ControlTable :=
  let purged := t.purge (clock 0)
  match purged ref.key with
  | none => (false, purged)
  | some row =>
      if row.state.requested = false ∧ row.retiredAt ≤ 0 then
        (true, Function.update purged ref.key
          (some { row with state := requestedState reason (clock 1) }))
      else (false, purged)

/-- `touch`. -/
def touch (t : ControlTable) (ref : CancellationRef) (clock : ℕ → Time) : Bool × ControlTable :=
  let purged := t.purge (clock 0)
  match purged ref.key with
  | none => (false, purged)
  | some row =>
      if row.retiredAt ≤ 0 then
        (true, Function.update purged ref.key
          (some (row.refresh (0 < ref.activeTtlSeconds) (activeExpiresAt ref (clock 1)))))
      else (false, purged)

/-- `retire`; it does not purge. -/
def retire (t : ControlTable) (ref : CancellationRef) (clock : ℕ → Time) : ControlTable :=
  if 0 < ref.retentionSeconds then
    match t ref.key with
    | none => t
    | some row => Function.update t ref.key
        (some { row with retiredAt := clock 0, expiresAt := clock 1 + ref.retentionSeconds })
  else Function.update t ref.key none

end ControlTable

/-! ## Redis -/

/-- The JSON object stored under the key of a control. -/
structure ControlPayload where
  state : CancellationState
  parentControlId : Option String
  rootControlId : Option String
  lineageDepth : ℕ
  lineageDigest : String
  retiredAt : Time
deriving DecidableEq

namespace ControlPayload

/-- The payload `create` writes. -/
def fresh (ref : CancellationRef) : ControlPayload :=
  ⟨.initial, ref.parentControlId, some ref.rootControlId, ref.lineageDepth,
    ref.lineageDigest.text, 0⟩

/-- `current_lineage`. -/
def lineage (p : ControlPayload) : Option String × Option String × ℕ × String :=
  (p.parentControlId, p.rootControlId, p.lineageDepth, p.lineageDigest)

/-- What `read` sees at a payload. -/
def sight (p : ControlPayload) : Chain.Sight String CancellationState :=
  if p.state.requested then .answer p.state
  else match p.parentControlId with
    | none => .dead
    | some parent => .next parent

end ControlPayload

/-- A key that is set: its value, and when the server lets it expire. -/
structure RedisEntry where
  payload : ControlPayload
  expiresAt : Option Time
deriving DecidableEq

/-- `_key`. -/
def redisControlKey (ns id : String) : String := s!"blackbase:{ns}:control:{id}"

/-- `max(1, int(math.ceil(seconds)))`. -/
def wholeSeconds (seconds : Time) : ℤ := max 1 ⌈seconds⌉

/-- `_ttl`. -/
def redisTtl (ref : CancellationRef) : Option ℤ :=
  if 0 < ref.activeTtlSeconds then some (wholeSeconds ref.activeTtlSeconds) else none

/-- The keys of a Redis server. -/
abbrev RedisControls := String → Option RedisEntry

namespace RedisControls

/-- A server without keys. -/
def empty : RedisControls := fun _ ↦ none

/-- The keys whose expiry the server has not reached. -/
def live (db : RedisControls) (server : Time) : RedisControls :=
  fun k ↦ (db k).filter fun e ↦ e.expiresAt.all (server < ·)

/-- `EX`: the expiry a time to live stands for. -/
def expiry (server : Time) (ttl : Option ℤ) : Option Time := ttl.map fun seconds ↦ server + seconds

/-- `_touch_key`. -/
def touchKey (db : RedisControls) (key : String) (ttl : Option ℤ) (server : Time) :
    Bool × RedisControls :=
  match db key with
  | none => (false, db)
  | some e =>
      if 0 < e.payload.retiredAt then (false, db)
      else match ttl with
        | none => (true, db)
        | some seconds => (true, Function.update db key
            (some { e with expiresAt := some (server + seconds) }))

/-- `create`, on the keys that are live. -/
def create (db : RedisControls) (ref : CancellationRef) (server : Time) :
    Except ControlError RedisControls :=
  let key := redisControlKey ref.ns ref.controlId
  match db key with
  | none => .ok (Function.update db key
      (some ⟨.fresh ref, expiry server (redisTtl ref)⟩))
  | some e =>
      if e.payload.lineage ≠ ref.lineage then .error .lineageChanged
      else if e.payload.retiredAt ≤ 0 then .ok (touchKey db key (redisTtl ref) server).2
      else .ok db

/-- What `read` sees at a control. -/
def look (db : RedisControls) (ns id : String) : Chain.Sight String CancellationState :=
  match db (redisControlKey ns id) with
  | none => .dead
  | some e => e.payload.sight

/-- The loop of `read`: the keys with those on the way touched, and what it found. -/
def readLoop (ref : CancellationRef) (server : Time) (db : RedisControls) :
    List String → ℕ → String → RedisControls × Except Chain.Fault (Option CancellationState)
  | visited, 0, id => (db, if id ∈ visited then .error .cycle else .error .tooDeep)
  | visited, n + 1, id =>
      if id ∈ visited then (db, .error .cycle)
      else match db (redisControlKey ref.ns id) with
        | none => (db, .ok none)
        | some e =>
            let touched := if e.payload.retiredAt ≤ 0 then
              (touchKey db (redisControlKey ref.ns id) (redisTtl ref) server).2 else db
            match e.payload.sight with
            | .answer state => (touched, .ok (some state))
            | .next parent => readLoop ref server touched (id :: visited) n parent
            | .dead => (touched, .ok none)

/-- `read`. -/
def read (db : RedisControls) (ref : CancellationRef) (server : Time) :
    Except ControlError CancellationState × RedisControls :=
  let out := readLoop ref server db [] maxVisited ref.controlId
  (reported out.2, out.1)

/-- `request`: an exception of its `create` is passed on. -/
def request (db : RedisControls) (ref : CancellationRef) (reason : String) (now server : Time) :
    Except ControlError (Bool × RedisControls) :=
  match db.create ref server with
  | .error e => .error e
  | .ok created =>
      let key := redisControlKey ref.ns ref.controlId
      match created key with
      | none => .ok (false, created)
      | some e =>
          if 0 < e.payload.retiredAt then .ok (false, created)
          else if e.payload.state.requested then .ok (false, created)
          else .ok (true, Function.update created key
            (some ⟨{ e.payload with state := requestedState reason now },
              expiry server (redisTtl ref)⟩))

/-- `retire`. -/
def retire (db : RedisControls) (ref : CancellationRef) (now server : Time) : RedisControls :=
  let key := redisControlKey ref.ns ref.controlId
  if 0 < ref.retentionSeconds then
    match db key with
    | none => db
    | some e => Function.update db key
        (some ⟨{ e.payload with retiredAt := now },
          expiry server (some (wholeSeconds ref.retentionSeconds))⟩)
  else Function.update db key none

end RedisControls

end Blackbase.Resources
