import Blackbase.Core.Holdings
import Blackbase.Core.Selection
import Blackbase.Evaluation.Devices

/-!
# Binding evaluation providers

The registry of `evaluation/registry.py` and its `bind`: every registered provider is tried inside
the supplied grant, and the candidate of the greatest score is bound.  A request is digested when a
binding is made, and a state that the wire codec refuses makes that fail.

The texts and the `audit` of a binding that repeat the request, the context or the specification
are left out.
-/

namespace Blackbase.Binding

open Project.Envelope (PyValue Raised Runtime WireMapping Label Filled obj safe textual)
open Resources (Digest ResourceContext ResourceRequirement)
open Context (StateRef)

/-! ## Specifications and requests -/

/-- `EvaluationProviderSpec`. -/
structure EvaluationProviderSpec where
  providerId : Label
  problemIds : List String
  capabilities : List String
  resourceRequirement : ResourceRequirement
  supportedDevices : List String
  preferredDevices : List String
  computeBackend : Filled
  modes : List String
  priority : ℤ
  stateKinds : List String

inductive CapabilityPolicy where
  | required
  | preferred
  | optional
deriving DecidableEq

/-- The name of a policy. -/
def CapabilityPolicy.name : CapabilityPolicy → String
  | required => "required"
  | preferred => "preferred"
  | optional => "optional"

/-- `CapabilityRequirement`. -/
structure CapabilityRequirement where
  name : Label
  policy : CapabilityPolicy
  metadata : WireMapping

/-- A state of a request. -/
inductive State where
  | unknownState (payload : PyValue)
  | stateRef (ref : StateRef)
  | dataRef (asDict : PyValue)
  | inline (value : PyValue)

/-- `EvaluationRequest`. -/
structure EvaluationRequest where
  requestId : Label
  problemId : Label
  mode : String
  states : List State
  capabilities : List CapabilityRequirement
  payload : WireMapping
  metadata : WireMapping
  states_ne : states ≠ []

/-- The text of the `TypeError` of `_encode_shared_value`. -/
def cannotEncode (path type : String) : String :=
  s!"shared protocol field '{path}' cannot encode {type}; " ++
    "publish the object and pass a DataRef/ArtifactRef instead"

/-- `_encode_state`. -/
def State.encode : State → Except Raised PyValue
  | unknownState payload =>
      (safe cannotEncode "evaluation_state.unknown_state" payload).map fun value ↦
        obj [("state_type", .text "unknown_state"), ("value", value)]
  | stateRef ref => .ok (obj [("state_type", .text "state_ref"), ("value", ref.asDict)])
  | dataRef asDict =>
      (safe cannotEncode "evaluation_state.data_ref" asDict).map fun value ↦
        obj [("state_type", .text "data_ref"), ("value", value)]
  | inline value =>
      (safe cannotEncode "evaluation_state.inline" value).map fun value ↦
        obj [("state_type", .text "inline"), ("value", value)]

namespace EvaluationRequest

variable (request : EvaluationRequest)

/-- The names of the capabilities that are asked for with a policy. -/
def capabilitiesOf (policy : CapabilityPolicy) : List String :=
  (request.capabilities.filter fun c ↦ c.policy = policy).map fun c ↦ c.name.text

/-- `required_capabilities`. -/
def requiredCapabilities : List String := request.capabilitiesOf .required

/-- `preferred_capabilities`. -/
def preferredCapabilities : List String := request.capabilitiesOf .preferred

/-- `EvaluationRequest.as_dict`. -/
def asDict : Except Raised PyValue := do
  let states ← request.states.mapM State.encode
  return obj [
    ("protocol_type", .text "blackbase.evaluation_request"),
    ("schema_version", .int 1),
    ("request_id", .text request.requestId.text),
    ("problem_id", .text request.problemId.text),
    ("mode", .text request.mode),
    ("states", .list states),
    ("capabilities", .list (request.capabilities.map fun c ↦ obj [
      ("name", .text c.name.text), ("policy", .text c.policy.name),
      ("metadata", c.metadata.thawed)])),
    ("payload", request.payload.thawed),
    ("metadata", request.metadata.thawed)]

/-- `_protocol_digest(request.as_dict())`. -/
def digest (R : Runtime) : Except Raised Digest := do
  let payload ← request.asDict
  R.jsonDigest payload

end EvaluationRequest

/-! ## One provider -/

/-- `EvaluationBinding`, with the entry `device_fallback` of its audit. -/
structure EvaluationBinding where
  requestId : String
  providerId : String
  resourceContext : ResourceContext
  device : String
  computeBackend : String
  requestDigest : Digest
  matchedCapabilities : List String
  missingPreferredCapabilities : List String
  degraded : Bool
  deviceFallback : Bool

/-- The score of a candidate. -/
structure Score where
  priority : ℤ
  matchedPreferred : ℕ
  devicePreference : ℕ
  accelerator : ℕ
  providerId : String

/-- What candidates are sorted by: the numbers descend, and the provider id ascends on ties. -/
def Score.key (s : Score) : ℤ ×ₗ ℤ ×ₗ ℤ ×ₗ ℤ ×ₗ String :=
  toLex (-s.priority, toLex (-s.matchedPreferred, toLex (-s.devicePreference,
    toLex (-s.accelerator, s.providerId))))

/-- What comes of trying a provider. -/
inductive Outcome where
  | rejected (reason : String)
  | bound (score : Score) (binding : EvaluationBinding)

/-- `_state_ref_mismatch` for one state. -/
def stateMismatch (spec : EvaluationProviderSpec) : State → Option String
  | .stateRef ref =>
      let kind := normalized ref.stateKind.text
      if ref.providerId.text ≠ spec.providerId.text then
        some s!"StateRef '{ref.stateId.text}' is owned by provider '{ref.providerId.text}'"
      else if spec.stateKinds ≠ [] ∧ kind ∉ spec.stateKinds then
        some s!"StateRef kind '{kind}' is not supported by provider '{spec.providerId.text}'"
      else none
  | _ => none

/-- `_state_ref_mismatch`. -/
def stateRefMismatch (spec : EvaluationProviderSpec) (request : EvaluationRequest) :
    Option String :=
  request.states.findSome? (stateMismatch spec)

/-- The compute backend of a provider conflicts with the one of the grant. -/
def backendMismatch (computeBackend : String) (context : ResourceContext) : Option String :=
  let requested := normalized context.computeBackend.text
  let provider := normalized computeBackend
  if requested ∉ ["", "auto", "any", "generic"] ∧ provider ∉ ["generic", requested] then
    some s!"compute backend '{provider}' conflicts with L0 grant '{requested}'"
  else none

/-- The checks of `_try_binding` on the request alone. -/
def requestMismatch (R : Runtime) (spec : EvaluationProviderSpec) (request : EvaluationRequest) :
    Option String :=
  let missing := missingNames request.requiredCapabilities spec.capabilities
  if spec.problemIds ≠ [] ∧ normalized request.problemId.text ∉ spec.problemIds then
    some (s!"problem '{request.problemId.text}' is not supported; " ++
      s!"supported={shownNames R spec.problemIds}")
  else if request.mode ∉ spec.modes then some s!"mode '{request.mode}' is not supported"
  else if missing ≠ [] then some s!"missing required capabilities: {shownNames R missing}"
  else stateRefMismatch spec request

/-- The score and the binding of a provider on a device. -/
def candidate (spec : EvaluationProviderSpec) (request : EvaluationRequest)
    (context : ResourceContext) (device : String) (digest : Digest) : Score × EvaluationBinding :=
  let preferred := request.preferredCapabilities
  let matchedPreferred := (preferred.filter (· ∈ spec.capabilities)).dedup
  let missingPreferred := missingNames preferred spec.capabilities
  let deviceFallback : Bool := match spec.preferredDevices.head? with
    | none => false
    | some first => deviceFamily first ≠ "" && deviceFamily device ≠ deviceFamily first
  ({ priority := spec.priority
     matchedPreferred := matchedPreferred.length
     devicePreference := devicePreferenceScore spec.preferredDevices device
     accelerator := if isAccelerator device then 1 else 0
     providerId := spec.providerId.text },
   { requestId := request.requestId.text
     providerId := spec.providerId.text
     resourceContext := context
     device := if device = "" then "cpu" else device
     computeBackend := spec.computeBackend.text
     requestDigest := digest
     matchedCapabilities :=
       (request.requiredCapabilities ++ matchedPreferred).dedup.insertionSort (· ≤ ·)
     missingPreferredCapabilities := missingPreferred
     degraded := missingPreferred ≠ [] || deviceFallback
     deviceFallback := deviceFallback })

/-- `_try_binding`. -/
def tryBinding (R : Runtime) (spec : EvaluationProviderSpec) (request : EvaluationRequest)
    (context : ResourceContext) : Except Raised Outcome := do
  if let some reason := requestMismatch R spec request then return .rejected reason
  if let some reason ← resourceMismatch R spec.resourceRequirement context then
    return .rejected reason
  if let some reason := backendMismatch spec.computeBackend.text context then
    return .rejected reason
  match ← selectDevice R spec.supportedDevices spec.preferredDevices context none with
  | none =>
      return .rejected (s!"supported devices {shownNames R spec.supportedDevices} are " ++
        "unavailable inside the L0 grant")
  | some device =>
      let digest ← request.digest R
      let (score, binding) := candidate spec request context device digest
      return .bound score binding

/-! ## The registry -/

/-- A registered provider, with the specification it had then. -/
structure Entry (P : Type) where
  provider : P
  spec : EvaluationProviderSpec

/-- The providers of an `EvaluationProviderRegistry`, by their ids. -/
abbrev Registry (P : Type) := OrderedDict (Entry P)

/-- A call that changes the registry. -/
inductive Call (P : Type) where
  | register (provider : P) (spec : EvaluationProviderSpec) (replace : Bool)
  | unregister (id : String)

/-- What `bind` can raise. -/
inductive BindError where
  | unavailable (problemId mode : String) (rejections : List (String × String))
  | raised (e : Raised)

namespace Registry

variable {P : Type} (r : Registry P)

/-- `register`, which raises when the id is registered and not to be replaced. -/
def register (provider : P) (spec : EvaluationProviderSpec) (replace : Bool) : Registry P :=
  if (r.get? spec.providerId.text).isSome ∧ replace = false then r
  else r.insert spec.providerId.text ⟨provider, spec⟩

/-- `unregister`. -/
def unregister (id : String) : Registry P := r.erase id

/-- The registry after a call. -/
def call : Call P → Registry P
  | .register provider spec replace => r.register provider spec replace
  | .unregister id => r.unregister id

/-- The registry after some calls. -/
def after (calls : List (Call P)) : Registry P := calls.foldl call ∅

/-- `_bounded_rejection_reason`. -/
def boundedRejectionReason (R : Runtime) (message : String) : String :=
  if message.length ≤ 2048 then message
  else
    let digest := (R.sha256 message).text
    String.ofList (message.toList.take (2048 - digest.length - 20)) ++ s!"… [sha256:{digest}]"

/-- The candidate that a provider which was tried leaves, if it is one. -/
def candidateOf : Entry P × Outcome → Option (Score × P × EvaluationBinding)
  | (entry, .bound score binding) => some (score, entry.provider, binding)
  | (_, .rejected _) => none

/-- The rejection of a provider which was tried, if it was rejected. -/
def rejectionOf (R : Runtime) : Entry P × Outcome → Option (String × String)
  | (_, .bound _ _) => none
  | (entry, .rejected reason) =>
      some (entry.spec.providerId.text, boundedRejectionReason R reason)

/-- The first candidate that the providers which were tried leave, or else the rejections. -/
def choose (R : Runtime) (request : EvaluationRequest) (tried : List (Entry P × Outcome)) :
    Except BindError (P × EvaluationBinding) :=
  match Selection.sorted (fun c ↦ c.1.key) (tried.filterMap candidateOf) with
  | [] =>
      .error (.unavailable request.problemId.text request.mode
        ((Selection.sorted Prod.fst (tried.filterMap (rejectionOf R))).take 32))
  | (_, chosen) :: _ => .ok chosen

/-- `bind`. -/
def bind (R : Runtime) (request : EvaluationRequest) (supplied : ResourceContext) :
    Except BindError (P × EvaluationBinding) :=
  let context := supplied.fromMapping R
  let tried := r.entries.mapM fun e ↦
    (tryBinding R e.2.spec request context).map fun outcome ↦ (e.2, outcome)
  match tried with
  | .error e => .error (.raised e)
  | .ok tried => choose R request tried

end Registry

end Blackbase.Binding
