import Blackbase.Evaluation.StateTransition
import Blackbase.Project.Envelope.Artifacts

/-!
# References in Context values

`StateRef` of `state_ref.py` with its constructor, `as_dict` and `from_dict`, and what
`_detach_context_value` makes of the two kinds of reference: a `DataRef` is built again around the
detached containers of its metadata, and a `StateRef` is read back from its `as_dict`.  Both give
the reference they were given.

`_freeze_json_value` accepts what `freeze_wire_value` does; only the text of its error differs,
which no reference that was once built can raise.
-/

namespace Blackbase.Context

open Project.Envelope
open Evaluation (TransportScope)

/-! ## State references -/

/-- The name of a transport scope. -/
def scopeName : TransportScope → String
  | .process => "process"
  | .host => "host"
  | .cluster => "cluster"

/-- `str(transport_scope or "process").strip().lower()`, if that is the name of a scope. -/
def parseScope (value : String) : Option TransportScope :=
  let scope := Text.lower (Text.strip (if value = "" then "process" else value))
  if scope = "process" then some .process
  else if scope = "host" then some .host
  else if scope = "cluster" then some .cluster
  else none

@[simp] theorem parseScope_scopeName (scope : TransportScope) :
    parseScope (scopeName scope) = some scope := by
  cases scope <;> decide

/-- The arguments of the constructor of `StateRef`. -/
structure StateRefArgs where
  providerId : String
  stateId : String
  stateKind : String
  scopeId : String
  trajectoryId : String
  device : String
  version : ℤ
  transportScope : String
  metadata : PyValue

/-- `StateRef`. -/
structure StateRef where
  providerId : Label
  stateId : Label
  stateKind : Filled
  scopeId : String
  trajectoryId : String
  device : Filled
  version : ℕ
  transportScope : TransportScope
  metadata : WireMapping

namespace StateRef

variable (R : Runtime)

/-- `StateRef.__post_init__`. -/
def make (a : StateRefArgs) : Except Raised StateRef := do
  let some providerId := Label.parse a.providerId
    | throw (.valueError "StateRef.provider_id must not be empty")
  let some stateId := Label.parse a.stateId
    | throw (.valueError "StateRef.state_id must not be empty")
  let some transportScope := parseScope a.transportScope
    | throw (.valueError
        "StateRef.transport_scope must be one of ['cluster', 'host', 'process']")
  if a.version < 0 then throw (.valueError "StateRef.version must be non-negative")
  let metadata ← R.freezeMapping "StateRef.metadata" a.metadata
  return {
    providerId := providerId
    stateId := stateId
    stateKind := Filled.orDefault a.stateKind ⟨"opaque", by decide⟩
    scopeId := a.scopeId
    trajectoryId := a.trajectoryId
    device := Filled.orDefault a.device ⟨"cpu", by decide⟩
    version := a.version.toNat
    transportScope := transportScope
    metadata := metadata }

/-- `STATE_REF_SCHEMA_VERSION`. -/
def schemaVersion : ℤ := 2

/-- `StateRef.from_dict`. -/
def fromDict (v : PyValue) : Except Raised StateRef := do
  let data ← R.dictOrEmpty v
  let protocolType := R.strOf ((data.get "protocol_type" (.text "")).orElse (.text ""))
  if protocolType ≠ "" ∧ protocolType ≠ "blackbase.state_ref" then
    throw (.valueError s!"expected blackbase.state_ref payload, got {protocolType}")
  let version ← R.intOrZero (data.get "schema_version" (.int schemaVersion))
  if version ≠ 1 ∧ version ≠ schemaVersion then
    throw (.valueError
      s!"unsupported StateRef schema_version={version}; expected {schemaVersion}")
  let refVersion ← R.intOrZero (data.get "version" (.int 0))
  let metadata ← R.readDict (data.get "metadata" (obj []))
  make R {
    providerId := R.strOf (data.get "provider_id" (.text ""))
    stateId := R.strOf (data.get "state_id" (.text ""))
    stateKind := R.strOf (data.get "state_kind" (.text "opaque"))
    scopeId := R.strOf (data.get "scope_id" (.text ""))
    trajectoryId := R.strOf (data.get "trajectory_id" (.text ""))
    device := R.strOf (data.get "device" (.text "cpu"))
    version := refVersion
    transportScope := R.strOf (data.get "transport_scope" (.text "process"))
    metadata := metadata }

/-- `StateRef.as_dict`. -/
def asDict (ref : StateRef) : PyValue :=
  obj [
    ("protocol_type", .text "blackbase.state_ref"),
    ("schema_version", .int schemaVersion),
    ("provider_id", .text ref.providerId.text),
    ("state_id", .text ref.stateId.text),
    ("state_kind", .text ref.stateKind.text),
    ("scope_id", .text ref.scopeId),
    ("trajectory_id", .text ref.trajectoryId),
    ("device", .text ref.device.text),
    ("version", .int ref.version),
    ("transport_scope", .text (scopeName ref.transportScope)),
    ("metadata", ref.metadata.thawed)]

/-- The fields of a reference, with its metadata as `as_dict` gives it. -/
def args (ref : StateRef) : StateRefArgs where
  providerId := ref.providerId.text
  stateId := ref.stateId.text
  stateKind := ref.stateKind.text
  scopeId := ref.scopeId
  trajectoryId := ref.trajectoryId
  device := ref.device.text
  version := ref.version
  transportScope := scopeName ref.transportScope
  metadata := ref.metadata.thawed

theorem make_args (ref : StateRef) : make R ref.args = .ok ref := by
  have hversion : ¬ (ref.version : ℤ) < 0 := by omega
  simp only [make, args, Label.parse_text, parseScope_scopeName, hversion,
    R.freezeMapping_shown ref.metadata.shown_thawed, Filled.orDefault_text]
  rfl

@[simp] theorem fromDict_asDict (ref : StateRef) : fromDict R ref.asDict = .ok ref := by
  rw [← make_args R ref]
  simp [fromDict, asDict, args, schemaVersion, PyValue.orElse, PyValue.truthy]

end StateRef

/-! ## References detached -/

mutual

/-- `_detach_context_value` on what a frozen mapping holds.  The detached containers are new, and
hold what the frozen ones hold. -/
def detachFrozen : PyValue → PyValue
  | .tuple items => .tuple (detachFrozenItems items)
  | .mapping entries => .mapping (detachFrozenEntries entries)
  | v => v

def detachFrozenItems : List PyValue → List PyValue
  | [] => []
  | v :: rest => detachFrozen v :: detachFrozenItems rest

def detachFrozenEntries : Payload → Payload
  | [] => []
  | (k, v) :: rest => (k, detachFrozen v) :: detachFrozenEntries rest

end

mutual

theorem detachFrozen_eq : ∀ v : PyValue, detachFrozen v = v
  | .none | .bool _ | .int _ | .float _ | .text _ | .path _ | .dataRef _ | .list _
  | .array _ _ _ | .record _ _ _ | .other _ _ => rfl
  | .tuple items => congrArg PyValue.tuple (detachFrozenItems_eq items)
  | .mapping entries => congrArg PyValue.mapping (detachFrozenEntries_eq entries)

theorem detachFrozenItems_eq : ∀ items : List PyValue, detachFrozenItems items = items
  | [] => rfl
  | v :: rest => by rw [detachFrozenItems, detachFrozen_eq v, detachFrozenItems_eq rest]

theorem detachFrozenEntries_eq : ∀ entries : Payload, detachFrozenEntries entries = entries
  | [] => rfl
  | (k, v) :: rest => by
      rw [detachFrozenEntries, detachFrozen_eq v, detachFrozenEntries_eq rest]

end

variable (R : Runtime)

/-- The `DataRef` built again around its detached metadata. -/
def detachDataRef (ref : DataRef) : Except Raised DataRef :=
  DataRef.make R (ref.args (detachFrozen ref.metadata.held))

/-- `StateRef.from_dict(value.as_dict())`. -/
def detachStateRef (ref : StateRef) : Except Raised StateRef := StateRef.fromDict R ref.asDict

@[simp] theorem detachDataRef_eq (ref : DataRef) : detachDataRef R ref = .ok ref := by
  rw [detachDataRef, detachFrozen_eq]
  exact DataRef.make_args R ref ref.metadata.shown_held

@[simp] theorem detachStateRef_eq (ref : StateRef) : detachStateRef R ref = .ok ref :=
  StateRef.fromDict_asDict R ref

end Blackbase.Context
