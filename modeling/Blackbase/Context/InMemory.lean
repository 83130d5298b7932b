import Blackbase.Resources.Model

/-!
# The stores kept in memory

`InMemoryContextStore` of `context/context_store.py` and `InMemorySnapshotStore` of
`context/snapshot_store.py`.  Every method runs under the lock of its store, apart from the item
deletion, which asks whether the key is there before it deletes.  The clock readings of a method
are arguments, in the order in which it takes them.
-/

universe u

namespace Blackbase.Context

open Resources (Time)

/-- `_effective_ttl` -/
def effectiveTtl (default ttl : Option Time) : Option Time := ttl.or default

/-- When an entry stored at `now` expires. -/
def expiryAt (ttl : Option Time) (now : Time) : Option Time :=
  (ttl.filter (0 < ·)).map (now + ·)

/-- The time has come. -/
def isOver (expiresAt : Option Time) (now : Time) : Bool := expiresAt.any (· ≤ now)

/-! ## Context -/

structure InMemoryContextStore (V : Type u) where
  defaultTtl : Option Time
  data : String → Option V
  expiresAt : String → Option Time

namespace InMemoryContextStore

variable {V : Type u} (s : InMemoryContextStore V)

/-- `_sweep_expired` -/
def sweepExpired (now : Time) : InMemoryContextStore V :=
  { s with
    data := fun key ↦ if isOver (s.expiresAt key) now then none else s.data key
    expiresAt := fun key ↦ if isOver (s.expiresAt key) now then none else s.expiresAt key }

/-- An entry is stored, with its expiry. -/
def put (key : String) (value : V) (expiry : Option Time) : InMemoryContextStore V :=
  { s with
    data := Function.update s.data key (some value)
    expiresAt := Function.update s.expiresAt key expiry }

def set (key : String) (value : V) (ttl : Option Time) (swept now : Time) :
    InMemoryContextStore V :=
  (s.sweepExpired swept).put key value (expiryAt (effectiveTtl s.defaultTtl ttl) now)

def delete (key : String) : InMemoryContextStore V :=
  { s with
    data := Function.update s.data key none
    expiresAt := Function.update s.expiresAt key none }

def clear : InMemoryContextStore V := { s with data := fun _ ↦ none, expiresAt := fun _ ↦ none }

/-- `apply_patch`: deletions first. -/
def applyPatch (values : List (String × V)) (deleteKeys : List String) (ttl : Option Time)
    (now swept : Time) : InMemoryContextStore V :=
  let expiry := expiryAt (effectiveTtl s.defaultTtl ttl) now
  values.foldl (fun s entry ↦ s.put entry.1 entry.2 expiry)
    (deleteKeys.foldl delete (s.sweepExpired swept))

end InMemoryContextStore

/-! ## Snapshots -/

/-- A stored record; schema, metadata, digest and data are its content. -/
structure SnapshotRecord (P : Type u) where
  content : P
  createdAt : Time
  revision : ℤ
  expiresAt : Option Time
  pinned : Bool

/-- Why a method of a snapshot store raises. -/
inductive SnapshotError
  | writeOnce
  | revisionConflict (expected actual : ℤ)
  | payload
  | isPinned
  | owner
  | unknown
deriving DecidableEq

structure InMemorySnapshotStore (P : Type u) where
  defaultTtl : Option Time
  data : String → Option (SnapshotRecord P)
  expiresAt : String → Option Time
  pinRestoreExpiresAt : String → Option Time
  /-- The owners in `_pins`; no entry is the same as no owner. -/
  pins : String → List String

/-- The arguments of `write`; the content is `none` where the codec refuses the payload. -/
structure SnapshotWrite (P : Type u) where
  key : String
  content : Option P
  ttl : Option Time
  writeOnce : Bool
  expectedRevision : Option ℤ

namespace InMemorySnapshotStore

variable {P : Type u} (s : InMemorySnapshotStore P)

/-- `_sweep_expired`: a pinned record loses its expiry and stays. -/
def sweepExpired (now : Time) : InMemorySnapshotStore P :=
  { s with
    data := fun key ↦
      if isOver (s.expiresAt key) now ∧ s.pins key = [] then none else s.data key
    expiresAt := fun key ↦ if isOver (s.expiresAt key) now then none else s.expiresAt key }

def write (call : SnapshotWrite P) (swept now : Time) :
    InMemorySnapshotStore P × Except SnapshotError (SnapshotRecord P) :=
  let s := s.sweepExpired swept
  let current := s.data call.key
  let actual := current.elim 0 SnapshotRecord.revision
  if call.writeOnce ∧ current.isSome then (s, .error .writeOnce)
  else if call.expectedRevision.any (· ≠ actual) then
    (s, .error (.revisionConflict (call.expectedRevision.getD 0) actual))
  else match call.content with
    | none => (s, .error .payload)
    | some content =>
        let expiry :=
          if s.pins call.key = [] then expiryAt (effectiveTtl s.defaultTtl call.ttl) now else none
        let record : SnapshotRecord P :=
          ⟨content, now, actual + 1, expiry, s.pins call.key ≠ []⟩
        ({ s with
            data := Function.update s.data call.key (some record)
            expiresAt := Function.update s.expiresAt call.key expiry },
          .ok record)

def read (key : String) (swept : Time) : InMemorySnapshotStore P × Option (SnapshotRecord P) :=
  let s := s.sweepExpired swept
  (s, s.data key)

def delete (key : String) : InMemorySnapshotStore P × Except SnapshotError Unit :=
  if s.pins key ≠ [] then (s, .error .isPinned)
  else
    ({ s with
        data := Function.update s.data key none
        expiresAt := Function.update s.expiresAt key none
        pinRestoreExpiresAt := Function.update s.pinRestoreExpiresAt key none },
      .ok ())

def pin (key owner : String) :
    InMemorySnapshotStore P × Except SnapshotError (SnapshotRecord P) :=
  let owner := Text.strip owner
  if owner = "" then (s, .error .owner)
  else match s.data key with
    | none => (s, .error .unknown)
    | some record =>
        let updated := { record with expiresAt := none, pinned := true }
        ({ s with
            data := Function.update s.data key (some updated)
            expiresAt := Function.update s.expiresAt key none
            pinRestoreExpiresAt :=
              if s.pins key = [] then Function.update s.pinRestoreExpiresAt key record.expiresAt
              else s.pinRestoreExpiresAt
            pins := Function.update s.pins key ((s.pins key).insert owner) },
          .ok updated)

def unpin (key owner : String) :
    InMemorySnapshotStore P × Except SnapshotError (SnapshotRecord P) :=
  match s.data key with
  | none => (s, .error .unknown)
  | some record =>
      let owners := (s.pins key).filter (· ≠ Text.strip owner)
      let restored := if owners = [] then s.pinRestoreExpiresAt key else none
      let updated := { record with expiresAt := restored, pinned := owners ≠ [] }
      ({ s with
          data := Function.update s.data key (some updated)
          expiresAt :=
            if restored.isSome then Function.update s.expiresAt key restored else s.expiresAt
          pinRestoreExpiresAt :=
            if owners = [] then Function.update s.pinRestoreExpiresAt key none
            else s.pinRestoreExpiresAt
          pins := Function.update s.pins key owners },
        .ok updated)

end InMemorySnapshotStore

end Blackbase.Context
