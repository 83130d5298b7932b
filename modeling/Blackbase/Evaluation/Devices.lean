import Blackbase.Context.References
import Blackbase.Resources.Context
import Blackbase.Resources.Model

/-!
# Grants and devices of evaluation providers

How `evaluation/registry.py` looks for a device: the names of devices, what a resource context
grants, the devices it makes available, and the one that a provider is bound to.
-/

namespace Blackbase.Binding

open Project.Envelope (PyValue PyFloat Payload Raised Runtime Filled obj)
open Resources (ResourceContext ResourceRequirement)

/-! ## Names of devices -/

/-- `str(value).strip().lower()`. -/
def normalized (value : String) : String := Text.lower (Text.strip value)

/-- `_device_family`. -/
def deviceFamily (value : String) : String :=
  let name := normalized (if value = "" then "cpu" else value)
  if Text.startsWith name "cuda" || Text.startsWith name "gpu" then "gpu"
  else if Text.startsWith name "mps" then "mps"
  else if Text.startsWith name "cpu" then "cpu"
  else name

/-- The device is of a family of accelerators. -/
def isAccelerator (value : String) : Bool :=
  deviceFamily value = "gpu" || deviceFamily value = "mps"

/-- `_is_physical_device_name`. -/
def isPhysicalDeviceName (value : String) : Bool :=
  let name := normalized value
  name = "gpu" || Text.startsWith name "cuda:" || Text.startsWith name "gpu:" || name = "mps" ||
    Text.startsWith name "mps:"

/-- `_normalize_physical_device_name`. -/
def normalizePhysicalDeviceName (value : String) : String :=
  let name := normalized value
  if Text.startsWith name "gpu:" then "cuda:" ++ String.ofList (name.toList.drop 4) else name

/-- The name is that of one device, and not of a family: `":" in value`. -/
def isIndexed (value : String) : Bool := Text.occursIn ":" value

/-- `_matching_device`. -/
def matchingDevice (requested : String) (available : List String) : Option String :=
  let name := normalized requested
  match available.find? (· = name) with
  | some value => some value
  | none =>
      if isIndexed name then none
      else available.find? fun value ↦ deviceFamily value = deviceFamily name

/-- `_device_pattern_matches`. -/
def devicePatternMatches (pattern device : String) : Bool :=
  if isIndexed (normalized pattern) then normalized pattern = normalized device
  else deviceFamily (normalized pattern) = deviceFamily (normalized device)

/-- `_device_preference_score`, on the preferred devices. -/
def devicePreferenceScore (preferred : List String) (device : String) : ℕ :=
  match preferred.findIdx? fun value ↦ deviceFamily value = deviceFamily device with
  | some index => preferred.length - index
  | none => 0

/-! ## Resources -/

section Resources

variable (R : Runtime)

/-- The names of `required` that are not among `provided`, in order. -/
def missingNames (required provided : List String) : List String :=
  (required.filter (· ∉ provided)).dedup.insertionSort (· ≤ ·)

/-- A list of texts, as it is shown in a message. -/
def shownNames (names : List String) : String := R.str (.list (names.map .text))

/-- `_bounded_quantity_mismatch`. -/
def boundedQuantityMismatch (name : String) (required : Option ℚ) (available : PyValue) :
    Except Raised (Option String) :=
  match required with
  | none => .ok none
  | some required =>
      let shown := R.str (.float (.real required))
      match available with
      | .none =>
          .ok (some s!"requires {name}={shown}, but the L0 grant does not authorize it")
      | available => do
          let amount ← R.floatOf available
          if amount.lt (.real required) then
            return some (s!"requires {name}={shown}, " ++ s!"grant has {R.strOf available}")
          return none

/-- The accelerators that a context grants: as many as it says, or as it has tokens for, or the
one it is on. -/
def availableGpus (context : ResourceContext) (tokens : List String) (granted : ℤ) : ℤ :=
  if 0 < granted then granted
  else
    let counted : ℤ := (tokens.filter isAccelerator).length
    if 0 < counted then counted
    else if isAccelerator context.device.text then 1 else counted

/-- `_resource_mismatch`. -/
def resourceMismatch (requirement : ResourceRequirement) (context : ResourceContext) :
    Except Raised (Option String) := do
  let threads ← context.availableThreads R
  if threads < requirement.threads then
    return some s!"requires {requirement.threads} threads, grant has {threads}"
  let tokens ← context.texts R "device_tokens"
  let granted ← context.grantedGpus R
  let gpus := availableGpus context tokens granted
  if gpus < requirement.gpus then
    return some s!"requires {requirement.gpus} GPUs, grant has {gpus}"
  let missing := missingNames requirement.deviceTokens tokens
  if missing ≠ [] then
    return some s!"missing required device tokens: {shownNames R missing}"
  let grantBackend := context.grantBackend R
  let requiredBackend := normalized requirement.resourceBackend
  if grantBackend ≠ "" ∧ requiredBackend ∉ ["", "any", "auto"] ∧
      grantBackend ≠ requiredBackend then
    return some s!"resource backend '{requiredBackend}' conflicts with grant '{grantBackend}'"
  let capabilities ← context.texts R "capabilities"
  let missing := missingNames requirement.capabilities capabilities
  if missing ≠ [] then
    return some s!"L0 grant lacks provider resource capabilities: {shownNames R missing}"
  let memoryError ← boundedQuantityMismatch R "memory_mb" requirement.memoryMb
    (context.grantEntries.get "memory_mb" .none)
  if memoryError.isSome then return memoryError
  boundedQuantityMismatch R "gpu_memory_mb" requirement.gpuMemoryMb
    (context.grantEntries.get "gpu_memory_mb" .none)

end Resources

/-! ## The search for a device -/

section Devices

variable (R : Runtime)

/-- The device that a token is resolved to, if it is. -/
def resolvedDevice (resolved : Payload) (token : String) : Option String :=
  match resolved.lookup (.text token) with
  | none => none
  | some value =>
      if Text.strip (R.strOf value) = "" then none else some (normalized (R.strOf value))

/-- The own device of a context, unless it is left open or is a token that names no device. -/
def ownDevices (context : ResourceContext) (tokens : List String) : List String :=
  let current := context.current
  let unresolvedToken := current ∈ tokens.map normalized ∧ isPhysicalDeviceName current = false
  if current ∉ ["", "auto", "none"] ∧ ¬ unresolvedToken then [current] else []

/-- The devices that a context names: its own one, the tokens that name one, and those that a token
is resolved to. -/
def namedDevices (context : ResourceContext) (tokens : List String) (resolved : Payload) :
    List String :=
  ownDevices context tokens ++
    (tokens.filter isPhysicalDeviceName).map normalizePhysicalDeviceName ++
    tokens.filterMap (resolvedDevice R resolved)

/-- The devices that a context makes available, in the order they are looked at. -/
def availableDevices (context : ResourceContext) (tokens : List String) (resolved : Payload)
    (gpus : ℤ) : List String :=
  let named := namedDevices R context tokens resolved
  let named :=
    if 0 < gpus ∧ tokens = [] ∧ named.any isAccelerator = false then named ++ ["gpu"] else named
  if "cpu" ∈ named then named else named ++ ["cpu"]

/-- The search of `_select_device` among the available devices: the required device, or the first
that is preferred, or the first that is supported. -/
def searchDevice (supported preferred : List String) (required : Option String)
    (available : List String) : Option String :=
  let compatible := available.filter fun value ↦ supported.any (devicePatternMatches · value)
  match required with
  | some device => matchingDevice device compatible
  | none =>
      match preferred.findSome? (matchingDevice · compatible) with
      | some device => some device
      | none => supported.findSome? (matchingDevice · compatible)

/-- `_select_device`. -/
def selectDevice (supported preferred : List String) (context : ResourceContext)
    (required : Option String) : Except Raised (Option String) := do
  let tokens ← context.texts R "device_tokens"
  let resolved ← context.resolvedDevices R
  let gpus ← context.grantedGpus R
  return searchDevice supported preferred required (availableDevices R context tokens resolved gpus)

end Devices

end Blackbase.Binding
