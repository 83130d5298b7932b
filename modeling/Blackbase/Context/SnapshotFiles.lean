import Blackbase.Resources.Model

/-!
# The files of one snapshot key

The files that `FileSnapshotStore` of `context/snapshot_store.py` keeps for a key besides the
write claim, and its operations on them, one file operation a step: the body of `write` under
the claim, `delete`, `pin` and `unpin`.  The payloads are only their names; the temporary file
of a replace is left out.
-/

namespace Blackbase.Context

open Resources (Time)

/-- The fields of a metadata file that the operations read. -/
structure SnapshotMeta where
  revision : ℤ
  npzFile : Option String
  extrasFile : Option String
  expiresAt : Option Time
  pinRestoreExpiresAt : Option Time
deriving DecidableEq

/-- `_is_expired`. -/
def SnapshotMeta.expired (m : SnapshotMeta) (now : Time) : Bool :=
  match m.expiresAt with
  | none => false
  | some expiresAt => expiresAt ≤ now

/-- A file of the key. -/
inductive SnapshotPath where
  | npz
  | metadata
  | extras
  | legacyExtras
  | pins
  | writeOnce
  | payload (name : String)
deriving DecidableEq

/-- The files of the key. -/
structure SnapshotFiles where
  metadata : Option SnapshotMeta
  pins : Option (List String)
  npz : Bool
  extras : Bool
  legacyExtras : Bool
  writeOnce : Bool
  payloads : String → Bool

namespace SnapshotFiles

/-- `path.unlink()`, where there may be no file. -/
def unlink (s : SnapshotFiles) : SnapshotPath → SnapshotFiles
  | .npz => { s with npz := false }
  | .metadata => { s with metadata := none }
  | .extras => { s with extras := false }
  | .legacyExtras => { s with legacyExtras := false }
  | .pins => { s with pins := none }
  | .writeOnce => { s with writeOnce := false }
  | .payload name => { s with payloads := Function.update s.payloads name false }

/-- `_read_pin_owners`. -/
def pinOwners (s : SnapshotFiles) : List String := s.pins.getD []

end SnapshotFiles

/-- `_payload_path`. -/
def payloadPath (name : Option String) (fallback : SnapshotPath) : SnapshotPath :=
  match name with
  | none => fallback
  | some name => .payload name

/-! ## `write` -/

/-- The arguments of `write`, with the choices it makes before it takes the claim. -/
structure WriteCall where
  stem : String
  transactionId : String
  arrays : Bool
  extras : Bool
  writeOnce : Bool
  expectedRevision : Option ℤ
  expiresAt : Option Time
deriving DecidableEq

namespace WriteCall

/-- The name of the payload of a revision. -/
def payloadName (c : WriteCall) (revision : ℤ) (suffix : String) : String :=
  c.stem ++ ".r" ++ toString revision ++ "." ++ c.transactionId ++ suffix

/-- The revision that is found. -/
def actualRevision (previous : Option SnapshotMeta) : ℤ :=
  match previous with
  | none => 0
  | some m => m.revision

/-- The metadata that is written. -/
def newMeta (c : WriteCall) (previous : Option SnapshotMeta) (pinned : Bool) : SnapshotMeta where
  revision := actualRevision previous + 1
  npzFile :=
    if c.arrays then some (c.payloadName (actualRevision previous + 1) ".npz") else none
  extrasFile :=
    if c.extras then some (c.payloadName (actualRevision previous + 1) ".extras.value") else none
  expiresAt := if pinned then none else c.expiresAt
  pinRestoreExpiresAt := none

end WriteCall

/-- Where `write` stands while it has the claim. -/
inductive WritePc where
  | readMeta
  | writeArrays (previous : Option SnapshotMeta)
  | writeExtras (previous : Option SnapshotMeta) (written : List String)
  | readPins (previous : Option SnapshotMeta) (written : List String)
  | replaceMeta (previous : Option SnapshotMeta) (written : List String) (pinned : Bool)
  | cleanNpz (previous : SnapshotMeta) (current : SnapshotMeta)
  | cleanExtras (previous : SnapshotMeta) (current : SnapshotMeta)
  | markOnce
  /-- The `finally` clause of a write that has not been committed. -/
  | discard (written : List String)
  | release
  /-- The `finally` clause has failed before it gives the claim up. -/
  | escaped
deriving DecidableEq

namespace WriteCall

/-- The payload is created exclusively; one that is not complete is left behind. -/
def writePayload (s : SnapshotFiles) (name : String) (written : List String) (fails : Bool) :
    SnapshotFiles × Option (List String) :=
  if s.payloads name then (s, none)
  else
    let created := { s with payloads := Function.update s.payloads name true }
    if fails then (created, none) else (created, some (written ++ [name]))

/-- One step of `write` after the claim has been taken and before it is given up. -/
def step (c : WriteCall) (s : SnapshotFiles) (pc : WritePc) (fails : Bool) :
    SnapshotFiles × WritePc :=
  match pc with
  | .readMeta =>
      -- A metadata file that cannot be read counts as none.
      let previous := if fails then none else s.metadata
      if c.writeOnce ∧ previous.isSome then (s, .discard [])
      else if c.expectedRevision.any (· ≠ actualRevision previous) then (s, .discard [])
      else (s, .writeArrays previous)
  | .writeArrays previous =>
      if c.arrays then
        let name := c.payloadName (actualRevision previous + 1) ".npz"
        match writePayload s name [] fails with
        | (s, none) => (s, .discard [])
        | (s, some written) => (s, .writeExtras previous written)
      else (s, .writeExtras previous [])
  | .writeExtras previous written =>
      if c.extras then
        let name := c.payloadName (actualRevision previous + 1) ".extras.value"
        match writePayload s name written fails with
        | (s, none) => (s, .discard written)
        | (s, some written) => (s, .readPins previous written)
      else (s, .readPins previous written)
  | .readPins previous written =>
      if fails then (s, .discard written)
      else (s, .replaceMeta previous written (s.pinOwners ≠ []))
  | .replaceMeta previous written pinned =>
      if fails then (s, .discard written)
      else
        let current := c.newMeta previous pinned
        let replaced := { s with metadata := some current }
        match previous with
        | none => (replaced, .markOnce)
        | some previous => (replaced, .cleanNpz previous current)
  | .cleanNpz previous current =>
      let old := payloadPath previous.npzFile .npz
      if old = payloadPath current.npzFile .npz then (s, .cleanExtras previous current)
      else if fails then (s, .release)
      else (s.unlink old, .cleanExtras previous current)
  | .cleanExtras previous current =>
      let old := payloadPath previous.extrasFile .extras
      if old = payloadPath current.extrasFile .extras then (s, .markOnce)
      else if fails then (s, .release)
      else (s.unlink old, .markOnce)
  | .markOnce =>
      if c.writeOnce ∧ ¬ fails then ({ s with writeOnce := true }, .release) else (s, .release)
  | .discard [] => (s, .release)
  | .discard (name :: rest) =>
      if fails then (s, .escaped) else (s.unlink (.payload name), .discard rest)
  | .release => (s, .release)
  | .escaped => (s, .escaped)

end WriteCall

/-! ## `delete` -/

/-- Where `delete` stands. -/
inductive DeletePc where
  | readPins
  | readMeta
  | unlink (rest : List SnapshotPath)
  | done
deriving DecidableEq

/-- The paths that `delete` removes. -/
def deletedPaths (found : Option SnapshotMeta) : List SnapshotPath :=
  [.npz, .metadata, .extras, .legacyExtras, .pins, .writeOnce] ++
    match found with
    | none => []
    | some m => [payloadPath m.npzFile .npz, payloadPath m.extrasFile .extras]

/-- One step of `delete`.  The paths are a set: which one is next is a choice. -/
def DeletePc.step (s : SnapshotFiles) (pc : DeletePc) (fails : Bool) (pick : ℕ) :
    SnapshotFiles × DeletePc :=
  match pc with
  | .readPins => if fails ∨ s.pinOwners ≠ [] then (s, .done) else (s, .readMeta)
  | .readMeta => (s, .unlink (deletedPaths (if fails then none else s.metadata)))
  | .unlink rest =>
      match rest[pick]? with
      | none => (s, .done)
      | some path =>
          -- A file that cannot be removed is reported and left.
          (if fails then s else s.unlink path, .unlink (rest.eraseIdx pick))
  | .done => (s, .done)

/-! ## `pin` and `unpin` -/

/-- The arguments of `pin` and of `unpin`. -/
structure PinCall where
  owner : String
  unpin : Bool
deriving DecidableEq

/-- Where `pin` and `unpin` stand. -/
inductive PinPc where
  | read
  | readPins
  | writePins (owners : List String)
  | unlinkPins
  | readMeta
  | writeMeta (changed : SnapshotMeta)
  | reread
  | expired (pc : DeletePc)
  | done
deriving DecidableEq

/-- What `pin` and `unpin` write to the metadata they find. -/
def PinCall.changedMeta (c : PinCall) (m : SnapshotMeta) : Option SnapshotMeta :=
  if c.unpin then
    m.pinRestoreExpiresAt.map fun restored ↦
      { m with expiresAt := some restored, pinRestoreExpiresAt := none }
  else
    m.expiresAt.map fun expiresAt ↦
      { m with expiresAt := none, pinRestoreExpiresAt := some expiresAt }

/-- One step of `pin` and `unpin`.  The payloads a read loads are left out, but for the
failure of a read that finds them changed. -/
def PinCall.step (c : PinCall) (s : SnapshotFiles) (pc : PinPc) (fails : Bool) (now : Time)
    (pick : ℕ) : SnapshotFiles × PinPc :=
  match pc with
  | .read =>
      match s.metadata with
      | none => (s, .done)
      | some m =>
          if fails then (s, .done)
          else if m.expired now then (s, .expired .readPins)
          else (s, .readPins)
  | .readPins =>
      if fails then (s, .done)
      else if c.unpin then
        let owners := s.pinOwners.filter (· ≠ c.owner)
        (s, if owners = [] then .unlinkPins else .writePins owners)
      else (s, .writePins (s.pinOwners.filter (· ≠ c.owner) ++ [c.owner]))
  | .writePins owners =>
      if fails then (s, .done)
      else ({ s with pins := some owners }, if c.unpin then .done else .readMeta)
  | .unlinkPins => if fails then (s, .done) else ({ s with pins := none }, .readMeta)
  | .readMeta =>
      match s.metadata.bind c.changedMeta with
      | none => (s, .done)
      | some changed => if fails then (s, .done) else (s, .writeMeta changed)
  | .writeMeta changed =>
      if fails then (s, .done)
      else ({ s with metadata := some changed }, if c.unpin then .reread else .done)
  | .reread =>
      match s.metadata with
      | none => (s, .done)
      | some m => if m.expired now then (s, .expired .readPins) else (s, .done)
  | .expired pc =>
      let (s, pc) := pc.step s fails pick
      (s, if pc = .done then .done else .expired pc)
  | .done => (s, .done)

end Blackbase.Context
