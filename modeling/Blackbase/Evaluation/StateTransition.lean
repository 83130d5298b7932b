import Blackbase.Core.Dict
import Blackbase.Evaluation.Event

/-!
# State transitions and their bound providers

The requests and results of `evaluation/state_transition.py`, and the part of
`evaluation/registry.py` that executes them: a bound provider asks its provider once and
accepts the reply only if neither the request nor the binding has changed and the result keeps
to the contract.  What a provider replies is left open.
-/

namespace Blackbase.Evaluation

universe u

inductive TransportScope where
  | process
  | host
  | cluster
deriving DecidableEq

/-- `StateRef`. -/
structure StateRef (V : Type u) where
  providerId : String
  stateId : String
  stateKind : String
  scopeId : String
  trajectoryId : String
  device : String
  version : ℕ
  transportScope : TransportScope
  metadata : WireMapping V
  providerId_label : IsLabel providerId
  stateId_label : IsLabel stateId

/-- The names in a reference. -/
def StateRef.names {V : Type u} (ref : StateRef V) :
    String × String × String × String × String × String :=
  (ref.providerId, ref.stateId, ref.stateKind, ref.scopeId, ref.trajectoryId, ref.device)

theorem StateRef.eq_iff {V : Type u} (ref ref' : StateRef V) :
    ref.names = ref'.names ∧ ref.version = ref'.version ∧
      ref.transportScope = ref'.transportScope ∧ ref.metadata = ref'.metadata ↔ ref = ref' := by
  constructor
  · rintro ⟨hnames, hversion, hscope, hmetadata⟩
    cases ref
    cases ref'
    simp only [names, Prod.mk.injEq] at hnames hversion hscope hmetadata
    obtain ⟨rfl, rfl, rfl, rfl, rfl, rfl⟩ := hnames
    obtain rfl := hversion
    obtain rfl := hscope
    obtain rfl := hmetadata
    rfl
  · rintro rfl
    exact ⟨rfl, rfl, rfl, rfl⟩

instance {V : Type u} [DecidableEq V] : DecidableEq (StateRef V) :=
  fun ref ref' ↦ decidable_of_iff _ (StateRef.eq_iff ref ref')

/-- A reference of the same owner, scope, trajectory, device and transport scope. -/
structure StateRef.Local {V : Type u} (ref other : StateRef V) : Prop where
  providerId : other.providerId = ref.providerId
  scopeId : other.scopeId = ref.scopeId
  trajectoryId : other.trajectoryId = ref.trajectoryId
  device : other.device = ref.device
  transportScope : other.transportScope = ref.transportScope

/-- The slots that a transition is given or returns. -/
structure StateSlots {V : Type u} (ref : StateRef V) where
  refs : Dict (StateRef V)
  isLocal : ∀ name slot, refs.lookup name = some slot → ref.Local slot
  key : ∀ name ∈ refs, Text.lower (Text.strip name) = name ∧ name ≠ "" ∧ name.length ≤ 256
  count : refs.keys.length ≤ 128

/-- `StateTransitionRequest`. -/
structure StateTransitionRequest (V : Type u) where
  requestId : String
  stateRef : StateRef V
  methodId : String
  operands : WireMapping V
  slotRefs : StateSlots stateRef
  parameters : WireMapping V
  stepIndex : ℕ
  metadata : WireMapping V
  requestId_label : IsLabel requestId
  methodId_label : IsLabel methodId

/-- `EvaluationBinding`. -/
structure EvaluationBinding (V : Type u) where
  bindingId : String
  requestId : String
  providerId : String
  resourceContext : WireMapping V
  device : String
  computeBackend : String
  requestDigest : String
  matchedCapabilities : List String
  missingPreferredCapabilities : List String
  degraded : Bool
  audit : WireMapping V
deriving DecidableEq

inductive TransitionStatus where
  | applied
  | skipped
deriving DecidableEq

/-- `StateTransitionResult`. -/
structure StateTransitionResult (V : Type u) where
  requestId : String
  methodId : String
  status : TransitionStatus
  stateRef : StateRef V
  slotRefs : StateSlots stateRef
  metrics : WireMapping V
  binding : Option (EvaluationBinding V)
  metadata : WireMapping V
  requestId_label : IsLabel requestId
  methodId_label : IsLabel methodId

inductive MaterializationTarget where
  | unknownState
  | dataRef
deriving DecidableEq

/-- `StateMaterializationRequest`. -/
structure StateMaterializationRequest (V : Type u) where
  requestId : String
  stateRef : StateRef V
  target : MaterializationTarget
  releaseAfter : Bool
  metadata : WireMapping V

/-- `StateMaterializationResult`. -/
structure StateMaterializationResult (V : Type u) where
  requestId : String
  stateRef : StateRef V
  target : MaterializationTarget
  value : V
  binding : Option (EvaluationBinding V)
  metadata : WireMapping V

/-- What the contract of a transition method says of its result. -/
structure StateTransitionMethodSpec where
  methodId : String
  resultSlots : List String
  resultSlotStateKinds : Dict (List String)

/-! ## Contract errors -/

/-- The operation of a bound provider. -/
inductive BoundOperation where
  | transition
  | materialization
deriving DecidableEq

/-- What a bound provider refuses. -/
inductive ContractError where
  | otherRequest (op : BoundOperation)
  | payloadChanged (op : BoundOperation)
  | bindingChanged (op : BoundOperation)
  | requestMutated (op : BoundOperation)
  | bindingMutated (op : BoundOperation)
  | wrongType (op : BoundOperation) (provider typeName : String)
  | otherResult (op : BoundOperation) (provider : String)
  | bindingConflict (op : BoundOperation) (provider : String)
  | methodChanged (provider requested returned : String)
  | owner
  | scope
  | trajectory
  | stateKind
  | device
  | transportScope
  | skippedRef
  | skippedSlots
  | noSuccessor
  | inPlaceVersion
  | droppedSlots (names : List String)
  | slotOutside (name : String)
  | slotTransport (name : String)
  | slotReused (name : String)
  | slotKind (name kind : String) (allowed : List String)
  | missingSlots (provider : String) (names : List String)
  | changedStateRef
  | changedTarget
  /-- An exception of the provider itself. -/
  | raised (text : String)
deriving DecidableEq

/-- A list of texts as the interpreter prints it. -/
def showNames (names : List String) : String :=
  "[" ++ ", ".intercalate (names.map fun name ↦ "'" ++ name ++ "'") ++ "]"

namespace ContractError

open BoundOperation in
/-- The text of the error. -/
def message : ContractError → String
  | otherRequest transition => "bound transition provider cannot execute a different request"
  | otherRequest materialization =>
      "bound materialization provider cannot execute a different request"
  | payloadChanged transition =>
      "bound transition provider cannot execute a request whose payload changed"
  | payloadChanged materialization =>
      "bound materialization provider cannot execute a request whose payload changed"
  | bindingChanged transition => "state transition binding changed after provider selection"
  | bindingChanged materialization =>
      "state materialization binding changed after provider selection"
  | requestMutated transition => "provider mutated the bound state transition request"
  | requestMutated materialization => "provider mutated the bound state materialization request"
  | bindingMutated transition => "provider mutated the authoritative state transition binding"
  | bindingMutated materialization =>
      "provider mutated the authoritative materialization binding"
  | wrongType transition p t =>
      "provider '" ++ p ++ "' returned " ++ t ++ "; expected StateTransitionResult"
  | wrongType materialization p t =>
      "provider '" ++ p ++ "' returned " ++ t ++ "; expected StateMaterializationResult"
  | otherResult transition p =>
      "provider '" ++ p ++ "' returned a transition result for another request"
  | otherResult materialization _ =>
      "provider returned a materialization result for another request"
  | bindingConflict transition p =>
      "provider '" ++ p ++ "' returned conflicting transition binding evidence"
  | bindingConflict materialization _ =>
      "provider returned conflicting materialization binding evidence"
  | methodChanged p requested returned =>
      "provider '" ++ p ++ "' changed transition method from '" ++ requested ++ "' to '" ++
        returned ++ "'"
  | owner => "state transition returned a successor owned by another provider"
  | scope => "state transition changed StateRef.scope_id"
  | trajectory => "state transition changed StateRef.trajectory_id"
  | stateKind => "state transition changed StateRef.state_kind"
  | device => "state transition changed StateRef.device without an explicit transfer"
  | transportScope =>
      "state transition changed StateRef.transport_scope without an explicit transfer"
  | skippedRef => "a skipped state transition must return the original StateRef"
  | skippedSlots => "a skipped state transition must return the original optimizer slots"
  | noSuccessor => "an applied state transition must return a successor StateRef"
  | inPlaceVersion => "an in-place state transition must increment StateRef.version by one"
  | droppedSlots names => "state transition dropped optimizer slots: " ++ showNames names
  | slotOutside name =>
      "optimizer slot '" ++ name ++ "' is outside the successor state scope/device"
  | slotTransport name => "optimizer slot '" ++ name ++ "' changed transport scope"
  | slotReused name =>
      "applied optimizer slot '" ++ name ++ "' must be copy-on-write; return a successor with a " ++
        "new state_id so the caller can abort safely"
  | slotKind name kind allowed =>
      "transition result slot '" ++ name ++ "' has StateRef kind '" ++ kind ++ "'; expected=" ++
        showNames allowed
  | missingSlots p names =>
      "provider '" ++ p ++ "' omitted required result slots: " ++ showNames names
  | changedStateRef => "state materialization changed the authoritative StateRef"
  | changedTarget => "state materialization changed the requested target"
  | raised text => text

end ContractError

/-! ## Bound providers -/

/-- `_protocol_digest` of the payloads of requests and of a binding. -/
structure ProtocolDigest (V : Type u) where
  transition : StateTransitionRequest V → String
  materialization : StateMaterializationRequest V → String
  binding : EvaluationBinding V → String

/-- The reply of a provider: the request and the binding as they stand afterwards, and what it
returned, or the name of the type that it should not have returned. -/
inductive ProviderReply (V : Type u) (Request Result : Type u) where
  | raised (text : String)
  | returned (request : Request) (binding : EvaluationBinding V) (result : Except String Result)

/-- The payload of the request is the one that the binding was made for. -/
def requestUnchanged {V : Type u} (binding : EvaluationBinding V) (requestDigest : String) : Prop :=
  binding.requestDigest = "" ∨ requestDigest = binding.requestDigest

instance {V : Type u} (binding : EvaluationBinding V) (requestDigest : String) :
    Decidable (requestUnchanged binding requestDigest) := inferInstanceAs (Decidable (_ ∨ _))

section Validation

variable {V : Type u} [DecidableEq V]

/-- What `_validate_transition_successor` refuses of one slot. -/
def slotError (request : StateTransitionRequest V) (successor : StateRef V) (name : String)
    (slot : StateRef V) : Option ContractError :=
  if slot.scopeId ≠ successor.scopeId ∨ slot.device ≠ successor.device then
    some (.slotOutside name)
  else if slot.transportScope ≠ successor.transportScope then some (.slotTransport name)
  else
    match request.slotRefs.refs.lookup name with
    | none => none
    | some previous => if slot.stateId = previous.stateId then some (.slotReused name) else none

/-- What `_validate_transition_successor` refuses of an applied transition. -/
def appliedError (request : StateTransitionRequest V) (result : StateTransitionResult V) :
    Option ContractError :=
  let previous := request.stateRef
  let successor := result.stateRef
  let missing := request.slotRefs.refs.keys.filter (· ∉ result.slotRefs.refs)
  if successor = previous then some .noSuccessor
  else if successor.stateId = previous.stateId ∧ successor.version ≠ previous.version + 1 then
    some .inPlaceVersion
  else if missing ≠ [] then some (.droppedSlots (missing.mergeSort (· ≤ ·)))
  else
    result.slotRefs.refs.entries.findSome? fun slot ↦ slotError request successor slot.1 slot.2

/-- `_validate_transition_successor`. -/
def validateTransitionSuccessor (request : StateTransitionRequest V)
    (result : StateTransitionResult V) : Option ContractError :=
  let previous := request.stateRef
  let successor := result.stateRef
  if successor.providerId ≠ previous.providerId then some .owner
  else if successor.scopeId ≠ previous.scopeId then some .scope
  else if successor.trajectoryId ≠ previous.trajectoryId then some .trajectory
  else if successor.stateKind ≠ previous.stateKind then some .stateKind
  else if successor.device ≠ previous.device then some .device
  else if successor.transportScope ≠ previous.transportScope then some .transportScope
  else
    match result.status with
    | .skipped =>
        if successor ≠ previous then some .skippedRef
        else if result.slotRefs.refs.toFinmap ≠ request.slotRefs.refs.toFinmap then
          some .skippedSlots
        else none
    | .applied => appliedError request result

/-- `_transition_result_contract_mismatch`. -/
def transitionResultContractMismatch (spec : StateTransitionMethodSpec)
    (result : StateTransitionResult V) : Option ContractError :=
  spec.resultSlotStateKinds.entries.findSome? fun declared ↦
    match result.slotRefs.refs.lookup declared.1 with
    | none => none
    | some ref =>
        if Text.lower (Text.strip ref.stateKind) ∈ declared.2 then none
        else some (.slotKind declared.1 ref.stateKind declared.2)

end Validation

/-- `BoundStateTransitionProvider`.  The provider is an instance, known by its identity. -/
structure BoundStateTransitionProvider (V : Type u) (P : Type) where
  provider : P
  binding : EvaluationBinding V
  methodSpec : StateTransitionMethodSpec
  bindingDigest : String

/-- `BoundStateMaterializationProvider`. -/
structure BoundStateMaterializationProvider (V : Type u) (P : Type) where
  provider : P
  binding : EvaluationBinding V
  bindingDigest : String

section Execution

variable {V : Type u} {P : Type} (D : ProtocolDigest V)

/-- What a bound provider refuses before it asks its provider. -/
def callError (op : BoundOperation) (binding : EvaluationBinding V)
    (bindingDigest requestId requestDigest : String) : Option ContractError :=
  if requestId ≠ binding.requestId then some (.otherRequest op)
  else if ¬ requestUnchanged binding requestDigest then some (.payloadChanged op)
  else if D.binding binding ≠ bindingDigest then some (.bindingChanged op)
  else none

/-- What a bound provider refuses of the reply before it looks at the result. -/
def replyError (op : BoundOperation) (binding : EvaluationBinding V)
    (bindingDigest requestDigest : String) : Option ContractError :=
  if ¬ requestUnchanged binding requestDigest then some (.requestMutated op)
  else if D.binding binding ≠ bindingDigest then some (.bindingMutated op)
  else none

variable [DecidableEq V]

/-- What a bound provider makes of the binding that a result carries. -/
def attachBinding (op : BoundOperation) (binding : EvaluationBinding V)
    (attached : Option (EvaluationBinding V)) : Option ContractError :=
  match attached with
  | none => none
  | some attached =>
      if attached ≠ binding then some (.bindingConflict op binding.providerId) else none

/-- What `BoundStateTransitionProvider.execute` refuses of a result. -/
def BoundStateTransitionProvider.resultError (b : BoundStateTransitionProvider V P)
    (request : StateTransitionRequest V) (binding : EvaluationBinding V)
    (result : StateTransitionResult V) : Option ContractError :=
  let missing := b.methodSpec.resultSlots.filter (· ∉ result.slotRefs.refs)
  if result.requestId ≠ request.requestId then some (.otherResult .transition binding.providerId)
  else if result.methodId ≠ request.methodId then
    some (.methodChanged binding.providerId request.methodId result.methodId)
  else ((validateTransitionSuccessor request result).or
      (transitionResultContractMismatch b.methodSpec result)).or
    (if missing ≠ [] then some (.missingSlots binding.providerId (missing.mergeSort (· ≤ ·)))
      else attachBinding .transition binding result.binding)

/-- `BoundStateTransitionProvider.execute`, when its provider replies like this. -/
def BoundStateTransitionProvider.execute (b : BoundStateTransitionProvider V P)
    (request : StateTransitionRequest V)
    (reply : ProviderReply V (StateTransitionRequest V) (StateTransitionResult V)) :
    Except ContractError (StateTransitionResult V) :=
  match callError D .transition b.binding b.bindingDigest request.requestId
      (D.transition request) with
  | some e => .error e
  | none =>
      match reply with
      | .raised text => .error (.raised text)
      | .returned request binding returned =>
          match replyError D .transition binding b.bindingDigest (D.transition request) with
          | some e => .error e
          | none =>
              match returned with
              | .error typeName => .error (.wrongType .transition binding.providerId typeName)
              | .ok result =>
                  match b.resultError request binding result with
                  | some e => .error e
                  | none => .ok { result with binding := some binding }

/-- What `BoundStateMaterializationProvider.execute` refuses of a result. -/
def materializationError (request : StateMaterializationRequest V)
    (binding : EvaluationBinding V) (result : StateMaterializationResult V) :
    Option ContractError :=
  if result.requestId ≠ request.requestId then
    some (.otherResult .materialization binding.providerId)
  else if result.stateRef ≠ request.stateRef then some .changedStateRef
  else if result.target ≠ request.target then some .changedTarget
  else attachBinding .materialization binding result.binding

/-- `BoundStateMaterializationProvider.execute`, when its provider replies like this. -/
def BoundStateMaterializationProvider.execute (b : BoundStateMaterializationProvider V P)
    (request : StateMaterializationRequest V)
    (reply : ProviderReply V (StateMaterializationRequest V) (StateMaterializationResult V)) :
    Except ContractError (StateMaterializationResult V) :=
  match callError D .materialization b.binding b.bindingDigest request.requestId
      (D.materialization request) with
  | some e => .error e
  | none =>
      match reply with
      | .raised text => .error (.raised text)
      | .returned request binding returned =>
          match replyError D .materialization binding b.bindingDigest
              (D.materialization request) with
          | some e => .error e
          | none =>
              match returned with
              | .error typeName =>
                  .error (.wrongType .materialization binding.providerId typeName)
              | .ok result =>
                  match materializationError request binding result with
                  | some e => .error e
                  | none => .ok { result with binding := some binding }

end Execution

end Blackbase.Evaluation
