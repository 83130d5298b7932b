import Blackbase.Core.Holdings
import Blackbase.Core.Machine
import Blackbase.Core.Selection
import Blackbase.Resources.Context
import Blackbase.Resources.Model

/-!
# Sub-grants of a resource grant

`ResourceGrantPool` of `resources/grant_pool.py`: the totals that are read in a parent context,
the checks of a request, and the critical sections that take a sub-grant out of the pool and give
it back.  A critical section is a list of updates, so that an exception inside it leaves the first
few of them done.

Quantities are exact rationals.  The identifiers of sub-grants, which `uuid4` draws, are never
drawn twice.
-/

namespace Blackbase.Resources.Subgrant

open Project.Envelope (PyValue PyFloat Raised Runtime Payload Filled obj payload thaw thawEntries)

/-! ## Quantities -/

/-- The names of the quantities, in the order of the ledger. -/
inductive Quantity where
  | workers
  | threads
  | gpus
  | memoryMb
  | gpuMemoryMb
deriving DecidableEq

/-- The names in the order of the ledger. -/
def Quantity.all : List Quantity := [.workers, .threads, .gpus, .memoryMb, .gpuMemoryMb]

/-- `_is_generic_resource_value`. -/
def isGenericResourceValue (value : String) : Bool :=
  Text.lower (Text.strip value) ∈ ["", "auto", "any", "none"]

/-- `_is_accelerator_device`. -/
def isAcceleratorDevice (value : String) : Bool :=
  ["accelerator", "cuda", "gpu", "mps", "rocm", "xpu"].any
    (Text.startsWith (Text.lower (Text.strip value)))

/-- `_is_specific_device`. -/
def isSpecificDevice (value : String) : Bool :=
  isAcceleratorDevice value && Text.occursIn ":" (Text.lower (Text.strip value))

/-! ## Parents -/

/-- What a `ResourceGrantPool` reads in its parent. -/
structure GrantPool where
  workers : ℤ
  threads : ℤ
  gpus : ℤ
  memoryMb : ℚ
  gpuMemoryMb : ℚ
  tokens : List String
  capabilities : List String
  backend : String
  computeBackend : String
  device : String
  resolvedDevices : Payload
  one_le_workers : 1 ≤ workers
  one_le_threads : 1 ≤ threads
  gpus_nonneg : 0 ≤ gpus
  memoryMb_nonneg : 0 ≤ memoryMb
  gpuMemoryMb_nonneg : 0 ≤ gpuMemoryMb

/-- `_totals`. -/
def GrantPool.total (p : GrantPool) : Quantity → ℚ
  | .workers => p.workers
  | .threads => p.threads
  | .gpus => p.gpus
  | .memoryMb => p.memoryMb
  | .gpuMemoryMb => p.gpuMemoryMb

/-- `max(least, value)`. -/
def atLeast {α : Type} [LinearOrder α] (least value : α) : α := max least value

theorem le_atLeast {α : Type} [LinearOrder α] (least value : α) : least ≤ atLeast least value :=
  le_max_left _ _

/-- A float as a rational.  The model has no infinite quantities. -/
def rational : PyFloat → Except Raised ℚ
  | .real q => .ok q
  | _ => .error (.valueError "quantity is not finite")

namespace GrantPool

variable (R : Runtime) (parent : ResourceContext)

/-- `thaw_wire_mapping(parent.grant)`. -/
def parentGrant : Payload := payload (thawEntries (payload parent.grant.dict.entries))

/-- `dict(thaw_wire_mapping(parent.lease).get("resources", {}) or {})`. -/
def leaseResources : Except Raised Payload :=
  R.dictOrEmpty (Payload.get (payload (thawEntries (payload parent.lease.dict.entries)))
    "resources" (obj []))

/-- `max(0.0, float(value or 0.0))`. -/
def quantity (value : PyValue) : Except Raised ℚ := do
  let x ← R.floatOrZero value
  rational x.clamp

/-- `tuple(str(item) for item in value or ())`. -/
def texts (value : PyValue) : Except Raised (List String) := do
  let items ← R.itemsOf (value.orElse (.tuple []))
  return items.map R.strOf

/-- `str(value or default)`. -/
def textOr (value : PyValue) (default : String) : String := R.strOf (value.orElse (.text default))

/-- `ResourceGrantPool.__init__`. -/
def ofContext : Except Raised GrantPool := do
  let grant := parentGrant parent
  let lease ← leaseResources R parent
  let threads := grant.get "threads" (.int parent.threads)
  let workers ← R.intOf ((grant.get "workers" (lease.get "workers" threads)).orElse (.int 1))
  let threads ← R.intOf (threads.orElse (.int 1))
  let gpus ← R.intOrZero (grant.get "gpus" (lease.get "gpus" (.int 0)))
  let memoryMb ← quantity R (grant.get "memory_mb" (lease.get "memory_mb" (.float .zero)))
  let gpuMemoryMb ←
    quantity R (grant.get "gpu_memory_mb" (lease.get "gpu_memory_mb" (.float .zero)))
  let tokens ← texts R (grant.get "device_tokens" (lease.get "device_tokens" (.tuple [])))
  let capabilities ← texts R (grant.get "capabilities" (lease.get "capabilities" (.tuple [])))
  let resolvedDevices ←
    R.dictOrEmpty (grant.get "resolved_devices" (lease.get "resolved_devices" (obj [])))
  return {
    workers := atLeast 1 workers
    threads := atLeast 1 threads
    gpus := atLeast 0 gpus
    memoryMb := atLeast 0 memoryMb
    gpuMemoryMb := atLeast 0 gpuMemoryMb
    tokens := tokens
    capabilities := capabilities
    backend := textOr R (grant.get "backend" (lease.get "backend" (.text "local"))) "local"
    computeBackend := textOr R (grant.get "compute_backend" (.text parent.computeBackend.text))
      parent.computeBackend.text
    device := textOr R (grant.get "device" (.text parent.device.text)) parent.device.text
    resolvedDevices := resolvedDevices
    one_le_workers := le_atLeast _ _
    one_le_threads := le_atLeast _ _
    gpus_nonneg := le_atLeast _ _
    memoryMb_nonneg := le_atLeast _ _
    gpuMemoryMb_nonneg := le_atLeast _ _ }

end GrantPool

/-! ## Requests -/

/-- A `ResourceRequest` with all that a sub-grant is made from. -/
structure ChildRequest extends ResourceRequest where
  gpuMemoryMb : Option ℚ
  backend : Filled
  computeBackend : Filled
  device : Filled
  capabilities : List String
  gpuMemory_pos : ∀ m ∈ gpuMemoryMb, 0 < m

/-- The dictionary `resources` of an acquire. -/
structure GrantResources where
  workers : ℤ
  threads : ℤ
  gpus : ℤ
  memoryMb : ℚ
  gpuMemoryMb : ℚ
  deviceTokens : List String
  backend : String
  computeBackend : String
  device : String
  capabilities : List String
  resolvedDevices : Payload

/-- The amount under the name of a quantity. -/
def GrantResources.amount (r : GrantResources) : Quantity → ℚ
  | .workers => r.workers
  | .threads => r.threads
  | .gpus => r.gpus
  | .memoryMb => r.memoryMb
  | .gpuMemoryMb => r.gpuMemoryMb

/-- `_requested_resources`. -/
def requestedResources (request : ChildRequest) : GrantResources where
  workers := request.workers
  threads := request.threads
  gpus := max request.gpus request.deviceTokens.length
  memoryMb := max 0 (request.memoryMb.getD 0)
  gpuMemoryMb := max 0 (request.gpuMemoryMb.getD 0)
  deviceTokens := request.deviceTokens
  backend := request.backend.text
  computeBackend := request.computeBackend.text
  device := request.device.text
  capabilities := request.capabilities
  resolvedDevices := []

namespace GrantPool

variable (R : Runtime) (p : GrantPool) (r : GrantResources)

/-- The devices that a request may name. -/
def allowedDevices : List String :=
  Text.lower p.device :: p.tokens.map Text.lower ++
    p.resolvedDevices.map fun e ↦ Text.lower (R.strOf e.2)

/-- The device that is asked for is inside the parent grant. -/
def deviceAllowed : Bool :=
  !isAcceleratorDevice r.device ||
    (decide (0 < p.gpus) || !p.tokens.isEmpty || isAcceleratorDevice p.device) &&
    (!isSpecificDevice r.device || Text.lower r.device ∈ p.allowedDevices R)

/-- `_validate_static`: the request does not raise. -/
def validateStatic : Bool :=
  Quantity.all.all (fun q ↦ r.amount q ≤ p.total q) &&
  r.deviceTokens.all (· ∈ p.tokens) &&
  r.capabilities.all (· ∈ p.capabilities) &&
  (Text.lower r.backend ∈ ["", "auto", "any", Text.lower p.backend]) &&
  (isGenericResourceValue (Text.lower p.computeBackend) ||
    isGenericResourceValue (Text.lower r.computeBackend) ||
    Text.lower r.computeBackend = Text.lower p.computeBackend) &&
  p.deviceAllowed R r

end GrantPool

/-! ## The state of a pool -/

/-- What is available, and the active sub-grants by their ids. -/
structure Pool where
  available : Quantity → ℚ
  tokens : List String
  active : OrderedDict GrantResources

/-- A pool with no sub-grant. -/
def GrantPool.initial (p : GrantPool) : Pool where
  available := p.total
  tokens := p.tokens
  active := ∅

/-- `_can_allocate`. -/
def GrantPool.canAllocate (p : GrantPool) (s : Pool) (r : GrantResources) : Bool :=
  if Quantity.all.all (fun q ↦ r.amount q ≤ s.available q) then
    if r.deviceTokens ≠ [] then r.deviceTokens.all (· ∈ s.tokens)
    else if p.tokens ≠ [] ∧ 0 < r.gpus then r.gpus ≤ s.tokens.length
    else true
  else false

/-- One write to the ledger. -/
inductive Update where
  | take (q : Quantity) (amount : ℚ)
  | removeToken (token : String)
  | activate (id : String) (resources : GrantResources)
  | deactivate (id : String)
  | give (q : Quantity) (amount : ℚ)
  | extendTokens (tokens : List String)
  | sortTokens

namespace GrantPool

variable (R : Runtime) (p : GrantPool)

/-- `order.get(token, len(order))`, where `order` has the last index of every token. -/
def order (token : String) : ℕ :=
  if token ∈ p.tokens then p.tokens.length - 1 - p.tokens.reverse.idxOf token
  else p.tokens.dedup.length

/-- The state after a write. -/
def apply (s : Pool) : Update → Pool
  | .take q amount => { s with available := Function.update s.available q (s.available q - amount) }
  | .removeToken token => { s with tokens := s.tokens.erase token }
  | .activate id resources => { s with active := s.active.insert id resources }
  | .deactivate id => { s with active := s.active.erase id }
  | .give q amount => { s with available := Function.update s.available q (s.available q + amount) }
  | .extendTokens tokens => { s with tokens := s.tokens ++ tokens }
  | .sortTokens => { s with tokens := Selection.sorted p.order s.tokens }

/-- The state after some writes. -/
def applyAll (s : Pool) (updates : List Update) : Pool := updates.foldl p.apply s

/-- The tokens that a sub-grant gets. -/
def allocatedTokens (s : Pool) (r : GrantResources) : List String :=
  if r.deviceTokens ≠ [] then r.deviceTokens
  else if r.gpus ≠ 0 then s.tokens.take r.gpus.toNat
  else []

/-- The resources of a sub-grant, as they stand when it is activated. -/
def granted (s : Pool) (r : GrantResources) : GrantResources :=
  let tokens := allocatedTokens s r
  let resolved := (OrderedDict.ofList (tokens.filterMap fun token ↦
    (p.resolvedDevices.lookup (.text token)).map fun device ↦ (token, device))).entries
  { r with
    deviceTokens := tokens
    resolvedDevices := payload resolved
    backend := p.backend
    computeBackend :=
      if isGenericResourceValue r.computeBackend then p.computeBackend else r.computeBackend
    device := match resolved with
      | (_, device) :: _ => R.strOf device
      | [] =>
          if 0 < r.gpus then p.device
          else if isGenericResourceValue r.device then p.device
          else r.device }

/-- The writes of the critical section of `acquire`. -/
def acquireUpdates (s : Pool) (id : String) (r : GrantResources) : List Update :=
  let resources := p.granted R s r
  (Quantity.all.map fun q ↦ .take q (r.amount q)) ++ resources.deviceTokens.map .removeToken ++
    [.activate id resources]

/-- The writes of the critical section that ends a sub-grant. -/
def releaseUpdates (id : String) (resources : GrantResources) : List Update :=
  .deactivate id :: (Quantity.all.map fun q ↦ .give q (resources.amount q)) ++
    [.extendTokens resources.deviceTokens, .sortTokens]

end GrantPool

/-- What can happen to a pool.  A critical section that an exception ends has made its first few
writes. -/
inductive Event where
  /-- An `acquire` waits, or raises before it takes anything. -/
  | wait
  | acquire (id : String) (request : ChildRequest) (writes : Option ℕ)
  | release (id : String) (writes : Option ℕ)

/-- The writes that are made of a critical section. -/
def made (updates : List Update) : Option ℕ → List Update
  | none => updates
  | some n => updates.take n

/-- A step of a pool. -/
def GrantPool.step (R : Runtime) (p : GrantPool) (s : Pool) : Event → Option Pool
  | .wait => some s
  | .acquire id request writes =>
      let r := requestedResources request
      if r.deviceTokens.Nodup ∧ p.validateStatic R r ∧ p.canAllocate s r ∧ (s.active.get? id).isNone
      then some (p.applyAll s (made (p.acquireUpdates R s id r) writes))
      else none
  | .release id writes =>
      (s.active.get? id).map fun resources ↦
        p.applyAll s (made (releaseUpdates id resources) writes)

/-! ## Nested pools -/

/-- The parts of a namespace, joined by dots. -/
def joinedNamespace (parent suffix : String) : String :=
  let dotless (value : String) : String := String.ofList
    ((value.toList.dropWhile (· = '.')).rdropWhile (· = '.'))
  ".".intercalate ([dotless parent, dotless suffix].filter (· ≠ ""))

/-- The grant of a sub-grant. -/
def GrantResources.asGrant (r : GrantResources) : PyValue := obj [
  ("workers", .int r.workers),
  ("threads", .int r.threads),
  ("gpus", .int r.gpus),
  ("memory_mb", .float (.real r.memoryMb)),
  ("gpu_memory_mb", .float (.real r.gpuMemoryMb)),
  ("device_tokens", .list (r.deviceTokens.map .text)),
  ("backend", .text r.backend),
  ("compute_backend", .text r.computeBackend),
  ("device", .text r.device),
  ("capabilities", .list (r.capabilities.map .text)),
  ("resolved_devices", .mapping r.resolvedDevices)]

/-- The context of a sub-grant. -/
def childContext (R : Runtime) (parent : ResourceContext) (suffix : String) (r : GrantResources) :
    Except Raised ResourceContext := do
  let grant ← R.freezeMapping "resource_context.grant" r.asGrant
  return {
    computeBackend := Filled.orDefault r.computeBackend ⟨"auto", auto_ne⟩
    device := Filled.orDefault r.device ⟨"cpu", cpu_ne⟩
    threads := atLeast 1 r.threads
    namespaceName := joinedNamespace parent.namespaceName suffix
    grant := grant
    lease := parent.lease
    one_le_threads := le_atLeast _ _ }

end Blackbase.Resources.Subgrant
